import Mathlib.Data.List.Forall2
import StackTemplate.Proofs.Request

/-!
# What holds of the values that a plan gives

A plan is a tree of requests, so what holds of the values at its leaves can be read off the tree
once it is said what the answers to the requests may be.  `Plan.Ensures` does that for one plan.
It is kept by putting plans together, and what is true of the answers may itself be what one
wants to show: `Stack.Sustains` asks that an assumption about answers comes out again as a
property of every value that is resolved and of every name that is worked out.

* `ensures_bind`, `ensures_mapM`: postconditions of plans that are put together.
* `RaisesOnly.of_run_error`: an error is raised by the plan itself, or one of its requests ended
  with it.
* `Gives.ensures`: an assumption about answers that the stack sustains holds of all that it gives.
-/

namespace StackTemplate

/-! ## 1. Postconditions -/

namespace Plan

/-- **Every value that the plan ends with satisfies `post`**, when the requests for values are
answered as `answers` allows and those for display names as `names` allows.  Nothing is said of
an end with an error. -/
def Ensures (answers : Value → Value → Prop) (names : Resource → String → Prop) {α : Type}
    (post : α → Prop) : Plan α → Prop
  | .done a => post a
  | .fail _ => True
  | .resolve v next => ∀ w, answers v w → (next w).Ensures answers names post
  | .name r _ next => ∀ name, names r name → (next name).Ensures answers names post

variable {answers : Value → Value → Prop} {names : Resource → String → Prop} {α β : Type}

theorem ensures_of_forall {post : α → Prop} (plan : Plan α) (h : ∀ a, post a) :
    plan.Ensures answers names post := by
  induction plan with
  | done a => exact h a
  | fail e => trivial
  | resolve v next ih => exact fun w _ => ih w
  | name r keys next ih => exact fun name _ => ih name

theorem ensures_pure {post : α → Prop} {a : α} (h : post a) :
    (pure a : Plan α).Ensures answers names post := h

theorem ensures_ask (v : Value) : (ask v).Ensures answers names (answers v) := fun _ h => h

theorem ensures_bind {mid : α → Prop} {post : β → Prop} {x : Plan α} {f : α → Plan β}
    (hx : x.Ensures answers names mid) (hf : ∀ a, mid a → (f a).Ensures answers names post) :
    (x >>= f).Ensures answers names post := by
  change (x.bind f).Ensures answers names post
  induction x with
  | done a => exact hf a hx
  | fail e => trivial
  | resolve v next ih => exact fun w hw => ih w (hx w hw)
  | name r keys next ih => exact fun name hn => ih name (hx name hn)

/-- What comes first does not matter if all that may follow ensures `post`. -/
theorem ensures_bind_right {post : β → Prop} (x : Plan α) {f : α → Plan β}
    (hf : ∀ a, (f a).Ensures answers names post) : (x >>= f).Ensures answers names post :=
  ensures_bind (x.ensures_of_forall fun _ => trivial) fun a (_ : True) => hf a

/-- What comes first is enough if it ensures `p`, which does not depend on its value. -/
theorem ensures_bind_left {p : Prop} {x : Plan α} (f : α → Plan β)
    (hx : x.Ensures answers names fun _ => p) : (x >>= f).Ensures answers names fun _ => p :=
  ensures_bind hx fun a hp => (f a).ensures_of_forall fun _ => hp

/-- What is asked for first is answered, whatever comes after. -/
theorem ensures_ask_bind (v : Value) (f : Value → Plan β) :
    (ask v >>= f).Ensures answers names fun _ => ∃ w, answers v w :=
  ensures_bind (ensures_ask v) fun w hw => (f w).ensures_of_forall fun _ => ⟨w, hw⟩

theorem Ensures.mono {post post' : α → Prop} {plan : Plan α}
    (h : plan.Ensures answers names post) (hpost : ∀ a, post a → post' a) :
    plan.Ensures answers names post' := by
  rw [← bind_pure plan]
  exact ensures_bind h fun a ha => ensures_pure (hpost a ha)

theorem ensures_map {post : β → Prop} {x : Plan α} {f : α → β}
    (hx : x.Ensures answers names fun a => post (f a)) :
    (f <$> x).Ensures answers names post := by
  rw [map_eq_pure_bind]
  exact ensures_bind hx fun a ha => ensures_pure ha

/-- A plan ensures several things at once. -/
theorem ensures_forall {ι : Sort*} {post : ι → α → Prop} {plan : Plan α}
    (h : ∀ i, plan.Ensures answers names (post i)) :
    plan.Ensures answers names fun a => ∀ i, post i a := by
  induction plan with
  | done a => exact h
  | fail e => trivial
  | resolve v next ih => exact fun w hw => ih w fun i => h i w hw
  | name r keys next ih => exact fun name hn => ih name fun i => h i name hn

/-- A list of plans gives as many values, each as its plan ensures. -/
theorem ensures_mapM {post : α → β → Prop} {f : α → Plan β} (items : List α)
    (h : ∀ x, (f x).Ensures answers names (post x)) :
    (items.mapM f).Ensures answers names (List.Forall₂ post items) := by
  induction items with
  | nil => exact ensures_pure .nil
  | cons x rest ih =>
    rw [List.mapM_cons]
    refine ensures_bind (h x) fun y hy => ?_
    exact ensures_bind ih fun ys hys => ensures_pure (.cons hy hys)

/-- The entries of a mapping keep their keys. -/
theorem ensures_entries (entries : Entries) :
    (entries.mapM fun ((key, v) : String × Value) => (key, ·) <$> ask v).Ensures answers names
      (List.Forall₂ (fun (e x : String × Value) => x.1 = e.1 ∧ answers e.2 x.2) entries) :=
  ensures_mapM entries fun e => ensures_map ((ensures_ask e.2).mono fun _ hw => ⟨rfl, hw⟩)

/-- One plan of the list is enough for a property that does not depend on the values. -/
theorem ensures_mapM_of_mem {p : Prop} {f : α → Plan β} {items : List α} {x : α}
    (hx : x ∈ items) (h : (f x).Ensures answers names fun _ => p) :
    (items.mapM f).Ensures answers names fun _ => p := by
  induction items with
  | nil => cases hx
  | cons y rest ih =>
    rw [List.mapM_cons]
    rcases List.mem_cons.mp hx with rfl | hx
    · exact ensures_bind_left _ h
    · exact ensures_bind_right _ fun _ => ensures_bind_left _ (ih hx)

end Plan

/-! ## 2. Errors of a plan's own -/

namespace Plan

variable {α β : Type} {p : ResolutionError → Prop} {answer : Value → Run Session Value}

/-- **Every error that the plan raises by itself satisfies `p`**, whatever the answers to its
requests are. -/
def RaisesOnly (p : ResolutionError → Prop) {α : Type} : Plan α → Prop
  | .done _ => True
  | .fail e => p e
  | .resolve _ next => ∀ w, (next w).RaisesOnly p
  | .name _ _ next => ∀ display, (next display).RaisesOnly p

/-- **A request of the plan ends with the error `e`**, when the plan is carried out in `s`. -/
inductive Forwards (answer : Value → Run Session Value) {α : Type} :
    Plan α → Session → ResolutionError → Prop
  | value {v : Value} {next : Value → Plan α} {s : Session} {e : ResolutionError}
      (h : (answer v s).1 = .error e) : Forwards answer (.resolve v next) s e
  | afterValue {v w : Value} {next : Value → Plan α} {s s₁ : Session} {e : ResolutionError}
      (h : answer v s = (.ok w, s₁)) (hnext : Forwards answer (next w) s₁ e) :
      Forwards answer (.resolve v next) s e
  | name {r : Resource} {keys : List String} {next : String → Plan α} {s : Session}
      {e : ResolutionError}
      (h : (r.displayName (Session.place r.name) keys answer s).1 = .error e) :
      Forwards answer (.name r keys next) s e
  | afterName {r : Resource} {keys : List String} {next : String → Plan α} {display : String}
      {s s₁ : Session} {e : ResolutionError}
      (h : r.displayName (Session.place r.name) keys answer s = (.ok display, s₁))
      (hnext : Forwards answer (next display) s₁ e) : Forwards answer (.name r keys next) s e

/-- **An error of a run** is raised by the plan itself, or a request of the plan ends with it. -/
theorem RaisesOnly.of_run_error {plan : Plan α} (h : plan.RaisesOnly p) {s : Session}
    {e : ResolutionError} (hrun : (plan.run answer s).1 = .error e) :
    p e ∨ plan.Forwards answer s e := by
  induction plan generalizing s with
  | done a => cases hrun
  | fail e' =>
    cases hrun
    exact Or.inl h
  | resolve v next ih =>
    rw [run] at hrun
    rcases hv : answer v s with ⟨e' | w, s₁⟩
    · rw [Run.bind_error hv] at hrun
      cases hrun
      exact Or.inr (.value (congrArg Prod.fst hv))
    · rw [Run.bind_ok hv] at hrun
      exact (ih w (h w) hrun).imp_right (.afterValue hv)
  | name r keys next ih =>
    rw [run] at hrun
    rcases hn : r.displayName (Session.place r.name) keys answer s with ⟨e' | display, s₁⟩
    · rw [Run.bind_error hn] at hrun
      cases hrun
      exact Or.inr (.name (congrArg Prod.fst hn))
    · rw [Run.bind_ok hn] at hrun
      exact (ih display (h display) hrun).imp_right (.afterName hn)

theorem RaisesOnly.mono {q : ResolutionError → Prop} {plan : Plan α} (h : plan.RaisesOnly p)
    (hpq : ∀ e, p e → q e) : plan.RaisesOnly q := by
  induction plan with
  | done a => trivial
  | fail e => exact hpq e h
  | resolve v next ih => exact fun w => ih w (h w)
  | name r keys next ih => exact fun display => ih display (h display)

theorem raisesOnly_pure (a : α) : (pure a : Plan α).RaisesOnly p := trivial

theorem raisesOnly_ask (v : Value) : (ask v).RaisesOnly p := fun _ => trivial

/-- What comes second may raise what the values of the first part allow. -/
theorem raisesOnly_bind {mid : α → Prop} {x : Plan α} {f : α → Plan β} (hx : x.RaisesOnly p)
    (hmid : x.Ensures (fun _ _ => True) (fun _ _ => True) mid)
    (hf : ∀ a, mid a → (f a).RaisesOnly p) : (x >>= f).RaisesOnly p := by
  change (x.bind f).RaisesOnly p
  induction x with
  | done a => exact hf a hmid
  | fail e => exact hx
  | resolve v next ih => exact fun w => ih w (hx w) (hmid w trivial)
  | name r keys next ih => exact fun display => ih display (hx display) (hmid display trivial)

/-- What comes second may raise what it may raise after any value. -/
theorem raisesOnly_bind_forall {x : Plan α} {f : α → Plan β} (hx : x.RaisesOnly p)
    (hf : ∀ a, (f a).RaisesOnly p) : (x >>= f).RaisesOnly p :=
  raisesOnly_bind hx (x.ensures_of_forall fun _ => trivial) fun a (_ : True) => hf a

theorem raisesOnly_mapM {f : α → Plan β} (items : List α) (h : ∀ x, (f x).RaisesOnly p) :
    (items.mapM f).RaisesOnly p := by
  induction items with
  | nil => exact raisesOnly_pure []
  | cons x rest ih =>
    rw [List.mapM_cons]
    refine raisesOnly_bind_forall (h x) fun y => ?_
    exact raisesOnly_bind_forall ih fun ys => raisesOnly_pure (y :: ys)

end Plan

/-! ## 3. The parts of arguments -/

namespace Intrinsic

variable {answers : Value → Value → Prop} {names : Resource → String → Prop} (f : Intrinsic)

/-- A text that is asked for is the answer. -/
theorem ensures_askString (role : ArgumentRole) (v : Value) :
    (f.askString role v).Ensures answers names fun text => answers v (.string text) := by
  refine Plan.ensures_bind (Plan.ensures_ask v) fun w hw => ?_
  cases w with
  | string text => exact Plan.ensures_pure hw
  | null | boolean | number | list | mapping => trivial

end Intrinsic

/-! ## 4. Assumptions that come out again -/

namespace Stack

variable {stack : Stack}

/-- The value `w` is what `v` resolves to, and `assumed` holds of the two. -/
def Given (stack : Stack) (assumed : Value → Value → Prop) (v w : Value) : Prop :=
  stack.Gives ∅ (stack.plan v) (.ok w) ∧ assumed v w

/-- **What is assumed of the answers comes out again**: of every value that is resolved, and of
every display name that is worked out. -/
structure Sustains (stack : Stack) (assumed : Value → Value → Prop)
    (named : Resource → String → Prop) : Prop where
  value : ∀ v, (stack.plan v).Ensures (stack.Given assumed) named (assumed v)
  name : ∀ r keys, stack.Names r keys →
    (r.naming keys).Ensures (stack.Given assumed) named (named r)

variable {assumed : Value → Value → Prop} {named : Resource → String → Prop} {α : Type}

/-- Nothing at all may be assumed of the answers but that they are given. -/
theorem sustains_true (stack : Stack) : stack.Sustains (fun _ _ => True) fun _ _ => True where
  value v := (stack.plan v).ensures_of_forall fun _ => trivial
  name r keys _ := (r.naming keys).ensures_of_forall fun _ => trivial

/-- **A plan gives only what it ensures**, under an assumption that the stack sustains. -/
theorem Gives.ensures (hs : stack.Sustains assumed named) {busy : Set String} {plan : Plan α}
    {a : α} (h : stack.Gives busy plan (.ok a)) (hp : plan.Honest stack fun _ _ => True)
    {post : α → Prop} (hpost : plan.Ensures (stack.Given assumed) named post) : post a := by
  generalize ho : (Except.ok a : Except ResolutionError α) = outcome at h
  induction h with
  | done b =>
    cases ho
    exact hpost
  | fail _ => cases ho
  | @resolve _ _ v w next _ hv _ ihv ihn =>
    have hw : assumed v w := ihv (stack.honest_plan v) (hs.value v) rfl
    exact ihn (hp w trivial) (hpost w ⟨hv.anti (Set.empty_subset _), hw⟩) ho
  | resolveError _ _ => cases ho
  | @name _ _ r keys name next _ _ _ _ ihk ihn =>
    have hname : named r name := ihk (stack.honest_naming hp.1) (hs.name r keys hp.1) rfl
    exact ihn (hp.2 name) (hpost name hname) ho
  | nameError _ _ _ => cases ho
  | busy _ => cases ho

end Stack
end StackTemplate
