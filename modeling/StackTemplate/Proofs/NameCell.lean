import StackTemplate.Resolution.Session

/-!
# A name cell is written once

The cell of a display name is a cache, and a mark while the name is being worked out.  How the name
is worked out is left to the caller, who may come back to the same cell on the way, at any nesting,
and may pass over the error that this gives.  So the cell has to hold against every caller.

What a caller can do is a tree (`Caller`): it changes the state elsewhere, it asks for the name and
goes on with the outcome, and it ends.  While the name is being worked out, such a tree runs as if
nothing could be asked for (`Caller.run_eq_refused`).  Hence a name that is worked out is worked out
by one caller alone, and it is that caller who writes the cell.

* `displayName_eq_of_known`, `displayName_eq_of_pending`, `displayName_eq_of_free`: the three things
  that a request can do.
* `NameCell.Grows`: the order between the cell before and the cell after.
* `Caller.run_grows`: every caller only lets the cell grow.
-/

namespace StackTemplate

/-! ## 1. One request -/

namespace Resource

variable {σ : Type} {place : CellPlace σ} {s : σ} (r : Resource) (keys : List String)
  {resolve : Value → Run σ Value}

/-- A known name is given at once. -/
theorem displayName_eq_of_known {name : String} (hk : (place.look s).known = some name) :
    r.displayName place keys resolve s = (.ok name, s) := by
  simp only [displayName, hk]

/-- A name that is being worked out refers to itself. -/
theorem displayName_eq_of_pending (hk : (place.look s).known = none)
    (hp : (place.look s).pending = true) :
    r.displayName place keys resolve s = (.error (.invalidName r.name .refersToItself), s) := by
  simp only [displayName, hk, hp, if_true]

/-- Any other name is worked out with the mark set.  If nobody else writes the cell, the mark is gone
after that, and the name, if there is one, is known. -/
theorem displayName_eq_of_free (hk : (place.look s).known = none)
    (hp : (place.look s).pending = false) {outcome : Except ResolutionError String} {s₁ : σ}
    (hrun : r.nameFrom keys resolve (place.store ⟨none, true⟩ s) = (outcome, s₁))
    (hcell : place.look s₁ = ⟨none, true⟩) :
    r.displayName place keys resolve s = (outcome, place.store ⟨outcome.toOption, false⟩ s₁) := by
  simp only [displayName, hk, hp, Bool.false_eq_true, if_false, hrun]
  cases outcome <;> simp [hcell, Except.toOption]

/-- Two ways to resolve that do the same give the same name... -/
theorem nameFrom_congr {resolve' : Value → Run σ Value} (h : ∀ v, resolve v s = resolve' v s) :
    r.nameFrom keys resolve s = r.nameFrom keys resolve' s := by
  unfold nameFrom
  cases r.firstProperty? keys with
  | none => rfl
  | some property =>
    have hproperty := h property
    rcases hrun : resolve property s with ⟨e | v, s₁⟩
    · rw [hrun] at hproperty
      simp only [Run.bind_error hrun, Run.bind_error hproperty.symm]
    · rw [hrun] at hproperty
      simp only [Run.bind_ok hrun, Run.bind_ok hproperty.symm]

/-- ...and nothing but resolving changes the state. -/
theorem nameFrom_state {p : σ → Prop} (hs : p s) (h : ∀ v, p (resolve v s).2) :
    p (r.nameFrom keys resolve s).2 := by
  unfold nameFrom
  cases r.firstProperty? keys with
  | none => exact hs
  | some property =>
    have hproperty := h property
    rcases hrun : resolve property s with ⟨e | v, s₁⟩
    · rw [hrun] at hproperty
      simpa only [Run.bind_error hrun] using hproperty
    · rw [hrun] at hproperty
      simp only [Run.bind_ok hrun]
      cases v <;> exact hproperty

end Resource

/-! ## 2. Callers -/

/-- What a caller can do with a name cell around it: end with a value or an error; change the state
elsewhere; or ask for the name, with a way to resolve properties that is of the same kind, and go on
with the outcome, be it a name or an error. -/
inductive Caller {σ : Type} (place : CellPlace σ) where
  | finish (outcome : Except ResolutionError Value)
  | act (change : σ → σ) (keeps : ∀ s, place.look (change s) = place.look s)
    (next : σ → Caller place)
  | ask (keys : List String) (resolve : Value → Caller place)
    (next : Except ResolutionError String → Caller place)

namespace Caller

variable {σ : Type} {place : CellPlace σ} (r : Resource)

/-- Carry out what a caller does with the cell of the resource `r`. -/
def run : Caller place → Run σ Value
  | .finish outcome => fun s => (outcome, s)
  | .act change _ next => fun s => (next s).run (change s)
  | .ask keys resolve next => fun s =>
    match r.displayName place keys (fun v => (resolve v).run) s with
    | (outcome, s') => (next outcome).run s'

theorem run_ask (keys : List String) (resolve : Value → Caller place)
    (next : Except ResolutionError String → Caller place) {s s' : σ}
    {outcome : Except ResolutionError String}
    (h : r.displayName place keys (fun v => (resolve v).run r) s = (outcome, s')) :
    (ask keys resolve next).run r s = (next outcome).run r s' := by
  simp only [run, h]

/-- Carry it out with every request refused, and nothing done for it. -/
def refused : Caller place → Run σ Value
  | .finish outcome => fun s => (outcome, s)
  | .act change _ next => fun s => (next s).refused (change s)
  | .ask _ _ next => (next (.error (.invalidName r.name .refersToItself))).refused

/-- Where every request is refused, the cell stays as it is. -/
theorem look_refused (caller : Caller place) (s : σ) :
    place.look (caller.refused r s).2 = place.look s := by
  induction caller generalizing s with
  | finish outcome => rfl
  | act change keeps next ih => exact (ih s (change s)).trans (keeps s)
  | ask keys resolve next _ ih => exact ih _ s

/-- **While the name is being worked out, every request is refused**, whatever is passed along
with it. -/
theorem run_eq_refused (caller : Caller place) {s : σ} (hs : place.look s = ⟨none, true⟩) :
    caller.run r s = caller.refused r s := by
  induction caller generalizing s with
  | finish outcome => rfl
  | act change keeps next ih => exact ih s ((keeps s).trans hs)
  | ask keys resolve next _ ih =>
    have hself : r.displayName place keys (fun v => (resolve v).run r) s =
        (.error (.invalidName r.name .refersToItself), s) :=
      r.displayName_eq_of_pending keys (congrArg NameCell.known hs) (congrArg NameCell.pending hs)
    rw [run_ask r keys resolve next hself, refused]
    exact ih _ hs

/-- The name of a cell that is free is worked out by one caller alone, who then writes it. -/
theorem displayName_eq_refused (keys : List String) (resolve : Value → Caller place) {s : σ}
    (hk : (place.look s).known = none) (hp : (place.look s).pending = false) :
    ∃ outcome s₁,
      r.nameFrom keys (fun v => (resolve v).refused r) (place.store ⟨none, true⟩ s) =
        (outcome, s₁) ∧
      r.displayName place keys (fun v => (resolve v).run r) s =
        (outcome, place.store ⟨outcome.toOption, false⟩ s₁) := by
  have hmark : place.look (place.store ⟨none, true⟩ s) = ⟨none, true⟩ := place.look_store _ s
  have hcell : place.look (r.nameFrom keys (fun v => (resolve v).refused r)
      (place.store ⟨none, true⟩ s)).2 = ⟨none, true⟩ :=
    r.nameFrom_state keys (p := fun s => place.look s = ⟨none, true⟩) hmark fun v =>
      ((resolve v).look_refused r _).trans hmark
  have hrun := r.nameFrom_congr keys fun v => (resolve v).run_eq_refused r hmark
  exact ⟨_, _, rfl, r.displayName_eq_of_free keys hk hp hrun hcell⟩

end Caller

/-! ## 3. The cell only grows -/

/-- The cell `c'` is `c` with perhaps a name in it. -/
structure NameCell.Grows (c c' : NameCell) : Prop where
  pending : c'.pending = c.pending
  known : ∀ name, c.known = some name → c'.known = some name

namespace Caller

variable {σ : Type} {place : CellPlace σ} (r : Resource)

theorem displayName_grows (keys : List String) (resolve : Value → Caller place) (s : σ) :
    (place.look s).Grows
      (place.look (r.displayName place keys (fun v => (resolve v).run r) s).2) := by
  rcases hc : place.look s with ⟨_ | name, _ | _⟩
  · obtain ⟨outcome, s₁, -, h⟩ := displayName_eq_refused r keys resolve (congrArg NameCell.known hc)
      (congrArg NameCell.pending hc)
    rw [h, place.look_store]
    exact ⟨rfl, fun _ hk => nomatch hk⟩
  · rw [r.displayName_eq_of_pending keys (congrArg NameCell.known hc)
      (congrArg NameCell.pending hc), hc]
    exact ⟨rfl, fun _ hk => hk⟩
  all_goals
    rw [r.displayName_eq_of_known keys (congrArg NameCell.known hc), hc]
    exact ⟨rfl, fun _ hk => hk⟩

/-- **Every caller only lets the cell grow.** -/
theorem run_grows (caller : Caller place) (s : σ) :
    (place.look s).Grows (place.look (caller.run r s).2) := by
  induction caller generalizing s with
  | finish outcome => exact ⟨rfl, fun _ h => h⟩
  | act change keeps next ih =>
    have h := ih s (change s)
    rwa [keeps s] at h
  | ask keys resolve next _ ih =>
    have hask := displayName_grows r keys resolve s
    rcases hrun : r.displayName place keys (fun v => (resolve v).run r) s with ⟨outcome, s'⟩
    rw [hrun] at hask
    rw [run_ask r keys resolve next hrun]
    have hnext := ih outcome s'
    exact ⟨hnext.pending.trans hask.pending, fun name hk => hnext.known name (hask.known name hk)⟩

/-- After a request from outside, the cell is what the request has given. -/
theorem look_of_displayName (keys : List String) (resolve : Value → Caller place) {s s' : σ}
    {outcome : Except ResolutionError String} (hp : (place.look s).pending = false)
    (h : r.displayName place keys (fun v => (resolve v).run r) s = (outcome, s')) :
    place.look s' = ⟨outcome.toOption, false⟩ := by
  cases hk : (place.look s).known with
  | some name =>
    rw [r.displayName_eq_of_known keys hk] at h
    cases h
    rw [← hp, Except.toOption, ← hk]
  | none =>
    obtain ⟨outcome', s₁, -, hwritten⟩ := displayName_eq_refused r keys resolve hk hp
    rw [hwritten] at h
    cases h
    exact place.look_store _ s₁

/-! ## 4. Any course of requests -/

/-- **A name cell is written once, whoever asks for the name.**  A cell that is new is left to any
caller, who may ask for the name in any order, with any properties, and with ways to resolve them
that ask for it again, at any nesting.  Then there is a request from outside.

* If it gives a name, every later request gives this name and does nothing.
* If it ends with an error, the cell is what it was.
* If the name was not known, it is worked out as if every request on the way were refused, with
  nothing done for it: where the mark is set, all callers run that way.  The outcome of this is the
  outcome of the request, and it is what is written.
* Before and after it the mark is not set. -/
theorem name_cell_is_written_once {s : σ} (hs : place.look s = .fresh) (before : Caller place)
    (keys : List String) (resolve : Value → Caller place) :
    let request := r.displayName place keys fun v => (resolve v).run r
    let s₀ := (before.run r s).2
    (∀ name s₁, request s₀ = (.ok name, s₁) →
      ∀ (between : Caller place) (keys' : List String) (resolve' : Value → Run σ Value),
        r.displayName place keys' resolve' (between.run r s₁).2 =
          (.ok name, (between.run r s₁).2)) ∧
    (∀ e s₁, request s₀ = (.error e, s₁) → place.look s₁ = place.look s₀) ∧
    (∀ (caller : Caller place) (t : σ), (place.look t).known = none →
      (place.look t).pending = true → caller.run r t = caller.refused r t) ∧
    ((place.look s₀).known = none → ∃ outcome s₁,
      r.nameFrom keys (fun v => (resolve v).refused r) (place.store ⟨none, true⟩ s₀) =
        (outcome, s₁) ∧
      request s₀ = (outcome, place.store ⟨outcome.toOption, false⟩ s₁)) ∧
    (place.look s₀).pending = false ∧ (place.look (request s₀).2).pending = false ∧
    NameFault.refersToItself.message = "name refers to itself" := by
  intro request s₀
  have hfree : (place.look s₀).pending = false := by
    rw [(before.run_grows r s).pending, hs]
    rfl
  have hgrows := displayName_grows r keys resolve s₀
  refine ⟨fun name s₁ h between keys' resolve' => ?_, fun e s₁ h => ?_,
    fun caller t hk hp => caller.run_eq_refused r ?_,
    fun hk => displayName_eq_refused r keys resolve hk hfree, hfree,
    hgrows.pending.trans hfree, rfl⟩
  · have hknown : (place.look s₁).known = some name := by
      rw [look_of_displayName r keys resolve hfree h]
      rfl
    exact r.displayName_eq_of_known keys' ((between.run_grows r s₁).known name hknown)
  · have hlook := look_of_displayName r keys resolve hfree h
    cases hk : (place.look s₀).known with
    | some name =>
      have h' : request s₀ = (.ok name, s₀) := r.displayName_eq_of_known keys hk
      rw [h] at h'
      cases h'
    | none =>
      rw [hlook, Except.toOption, ← hk, ← hfree]
  · rw [← hk, ← hp]

/-- A queue whose name is worked out by asking for it again.  The first time the error is passed
over, and the name that is then made up is the one that stays, whatever is asked for later; on a
cell of its own, the error is passed on, and the cell is as new. -/
theorem name_made_up_after_refusal_stays :
    let queue : Resource := ⟨"Jobs", .mapping [("Properties", .mapping [("Name", .string "x")])]⟩
    let again (next : Except ResolutionError String → Caller CellPlace.only) :
        Value → Caller CellPlace.only :=
      fun _ => .ask ["Name"] (fun v => .finish (.ok v)) next
    let passOver := again fun outcome =>
      .finish (.ok (.string (if outcome.toBool then "named" else "refused")))
    let passOn := again fun outcome => .finish (outcome.map .string)
    let before : Caller CellPlace.only := .ask ["Name"] passOn fun _ => .finish (.ok .null)
    let request (resolve : Value → Caller CellPlace.only) :=
      queue.displayName CellPlace.only ["Name"] fun v => (resolve v).run queue
    let s₀ := (before.run queue .fresh).2
    request passOver s₀ = (.ok "refused", ⟨some "refused", false⟩) ∧
      (∀ (keys : List String) (resolve : Value → Run NameCell Value),
        queue.displayName CellPlace.only keys resolve ⟨some "refused", false⟩ =
          (.ok "refused", ⟨some "refused", false⟩)) ∧
      request passOn s₀ = (.error (.invalidName "Jobs" .refersToItself), .fresh) ∧ s₀ = .fresh := by
  intro queue again passOver passOn before request s₀
  have hname : request passOver s₀ = (.ok "refused", ⟨some "refused", false⟩) := by rfl
  have herror : request passOn s₀ = (.error (.invalidName "Jobs" .refersToItself), .fresh) := by rfl
  have hnew : CellPlace.only.look NameCell.fresh = .fresh := rfl
  obtain ⟨hlater, -⟩ := name_cell_is_written_once queue hnew before ["Name"] passOver
  obtain ⟨-, hunchanged, -⟩ := name_cell_is_written_once queue hnew before ["Name"] passOn
  refine ⟨hname, fun keys resolve => ?_, herror, ?_⟩
  · exact hlater "refused" _ hname (.finish (.ok .null)) keys resolve
  · exact (hunchanged _ _ herror).symm

end Caller

end StackTemplate
