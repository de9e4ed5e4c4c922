import StackTemplate.Proofs.Balance
import StackTemplate.Proofs.CallFree
import StackTemplate.Proofs.Postcondition

/-!
# A placeholder is a call

`Fn::Sub` looks up the names in its text by itself, beside `Ref` and `Fn::GetAtt`.  It finds what
these find: a text is filled in as if every placeholder were the call that it stands for
(`Placeholder.asCall`), with the same names learnt on the way and the same error at the first
placeholder that fails.

The levels agree exactly, too.  A call is resolved two levels deep, one for the call and one for
the name written in it, and gives back the second before it looks the name up; and `Fn::Sub` has
given back the level of its text when it comes to the placeholders.  Only the variables of a call
differ: they are resolved one level deeper than they would be by themselves.

* `Run.Congruence`: relations between runs that are kept by putting runs together.  A text is
  filled in alike by look-ups that are alike (`Congruence.render`).
* `resolveWithin_asCall`: a placeholder looks up what its call gives.
* `raisesOnly_callSub`: the error of a placeholder that is a mapping.
-/

namespace StackTemplate

/-! ## 1. Calls for placeholders -/

namespace Placeholder

/-- The call that a placeholder stands for. -/
def asCall (name : String) : Value :=
  if (PseudoParameter.ofName? name).isNone ∧ '.' ∈ name.toList then
    .mapping [("Fn::GetAtt", .string name)]
  else .mapping [("Ref", .string name)]

/-- The text of a placeholder by way of values that are resolved: the variable of its name, or
else the call that it stands for, in plain text. -/
def textBy (answer : Value → Run Session Value) (bindings : Entries) (name : String) :
    Run Session String := do
  let value ← answer ((bindings.lookup name).getD (asCall name))
  match value.plainText? with
  | some text => pure text
  | none => throw (.invalidArguments .sub (.placeholderIsMapping name))

/-- The call of `Fn::Sub` for a text with variables. -/
def subCall (text : String) (bindings : Entries) : Value :=
  .mapping [("Fn::Sub", .list [.string text, .mapping bindings])]

end Placeholder

/-! ## 2. Runs that are alike -/

/-- The relation `R` between runs is kept by putting runs together. -/
structure Run.Congruence (R : (α : Type) → Run Session α → Run Session α → Prop) : Prop where
  done : ∀ {α : Type} (a : α), R α (pure a) (pure a)
  bind : ∀ {α β : Type} {x y : Run Session α} {f g : α → Run Session β},
    R α x y → (∀ a, R β (f a) (g a)) → R β (x >>= f) (y >>= g)

namespace Run

theorem congruence_eq : Congruence fun _ x y => x = y where
  done _ := rfl
  bind hx hf := by
    rw [hx, funext hf]

theorem congruence_refines : Congruence fun _ x y => x.Refines y where
  done _ := fun _ _ => rfl
  bind hx hf := refines_iff_repeatedBy.mpr <|
    (refines_iff_repeatedBy.mp hx).bind fun _ a _ _ => refines_iff_repeatedBy.mp (hf a)

/-- Two runs may be alike at one depth only, since every run comes back to its depth. -/
theorem congruence_atDepth (depth : Nat) :
    Congruence fun _ x y => Run.Grows x ∧ ∀ s, s.depth = depth → x s = y s where
  done a := ⟨.pure a, fun _ _ => rfl⟩
  bind := by
    rintro α β x y f g ⟨hgrow, hx⟩ hf
    refine ⟨hgrow.bind fun a => (hf a).1, fun s hs => ?_⟩
    have hdepth : (x s).2.depth = depth := (hgrow s).depth.trans hs
    have hy : y s = x s := (hx s hs).symm
    rcases hrun : x s with ⟨e | a, s₁⟩
    · rw [hrun] at hy
      rw [bind_error hrun, bind_error hy]
    · rw [hrun] at hy hdepth
      rw [bind_ok hrun, bind_ok hy]
      exact (hf a).2 s₁ hdepth

namespace Congruence

variable {R : (α : Type) → Run Session α → Run Session α → Prop} (hR : Congruence R)
  {α β : Type}
include hR

theorem map (f : α → β) {x y : Run Session α} (h : R α x y) : R β (f <$> x) (f <$> y) := by
  rw [map_eq_pure_bind, map_eq_pure_bind]
  exact hR.bind h fun a => hR.done (f a)

theorem mapM {f g : α → Run Session β} {items : List α}
    (h : ∀ x ∈ items, R β (f x) (g x)) : R (List β) (items.mapM f) (items.mapM g) := by
  induction items with
  | nil => exact hR.done []
  | cons x rest ih =>
    obtain ⟨hx, hrest⟩ := List.forall_mem_cons.mp h
    rw [List.mapM_cons, List.mapM_cons]
    exact hR.bind hx fun y => hR.bind (ih hrest) fun ys => hR.done (y :: ys)

/-- **A text is filled in alike** by look-ups that are alike for the names that it has. -/
theorem render (text : String) {f g : String → Run Session String}
    (h : ∀ name ∈ Placeholder.names text, R String (f name) (g name)) :
    R String (Placeholder.render text f) (Placeholder.render text g) := by
  refine hR.bind (hR.mapM fun piece hpiece => ?_) fun parts => hR.done (String.join parts)
  cases hname : piece.name? with
  | none => exact hR.done _
  | some name =>
    refine h name ?_
    rw [Placeholder.names, List.mem_eraseDups]
    exact List.mem_filterMap.mpr ⟨piece, hpiece, hname⟩

end Congruence
end Run

/-! ## 3. Filling in is a matter of runs -/

namespace Plan

variable {α β : Type} (answer : Value → Run Session Value)

theorem run_map (f : α → β) (x : Plan α) : (f <$> x).run answer = f <$> x.run answer := by
  rw [map_eq_pure_bind, map_eq_pure_bind, run_bind]
  rfl

theorem run_mapM (f : α → Plan β) (items : List α) :
    (items.mapM f).run answer = items.mapM fun x => (f x).run answer := by
  induction items with
  | nil => rfl
  | cons x rest ih =>
    rw [List.mapM_cons, List.mapM_cons, run_bind]
    congr 1
    funext y
    rw [run_bind, ih]
    rfl

/-- To carry out the filling in is to fill in what is carried out. -/
theorem run_render (text : String) (lookup : String → Plan String) :
    (Placeholder.render text lookup).run answer =
      Placeholder.render text fun name => (lookup name).run answer := by
  unfold Placeholder.render
  rw [run_bind, run_mapM]
  congr 1
  congr 1
  funext piece
  cases piece.name? <;> rfl

end Plan

namespace Stack

open Placeholder (asCall textBy subCall)

variable (stack : Stack)

/-! ## 4. What a placeholder looks up -/

/-- To resolve an attribute in its short form with enough levels is to look it up with one less. -/
theorem resolveWithin_getAtt {dotted resource attr : String}
    (h : Text.cutString? "." dotted = some (resource, attr)) (levels : Nat) :
    stack.resolveWithin (levels + 2) (.mapping [("Fn::GetAtt", .string dotted)]) =
      (stack.attributeOf resource attr).run (stack.resolveWithin (levels + 1)) := by
  rw [resolveWithin_succ]
  change (stack.callGetAtt (.string dotted)).run (stack.resolveWithin (levels + 1)) = _
  simp only [callGetAtt]
  rw [Plan.run_bind, run_askString, pure_bind, h]

/-- **A placeholder that is no variable looks up what its call gives**, level by level. -/
theorem resolveWithin_asCall {bindings : Entries} {name : String}
    (h : bindings.lookup name = none) (levels : Nat) :
    stack.resolveWithin (levels + 2) (asCall name) =
      (stack.placeholderValue bindings name).run (stack.resolveWithin (levels + 1)) := by
  simp only [asCall, placeholderValue, h]
  cases hpseudo : PseudoParameter.ofName? name with
  | some pseudo =>
    rw [if_neg (by simp), resolveWithin_ref, reference, hpseudo]
    rfl
  | none =>
    have hpoint : Text.cutString? "." name = none ↔ '.' ∉ name.toList :=
      Text.cutString?_eq_none_iff rfl
    cases hcut : Text.cutString? "." name with
    | some parts =>
      have hname : '.' ∈ name.toList := by
        rw [hcut] at hpoint
        simpa using hpoint
      rw [if_pos ⟨rfl, hname⟩, stack.resolveWithin_getAtt hcut]
    | none => rw [if_neg (fun hname => hpoint.mp hcut hname.2), resolveWithin_ref]

/-- The text of a placeholder, when it is carried out. -/
theorem run_placeholderText (answer : Value → Run Session Value) (bindings : Entries)
    (name : String) :
    (stack.placeholderText bindings name).run answer = (do
      let value ← (stack.placeholderValue bindings name).run answer
      match value.plainText? with
      | some text => pure text
      | none => throw (.invalidArguments .sub (.placeholderIsMapping name))) := by
  rw [placeholderText_eq, Plan.run_bind]
  congr 1
  funext value
  cases value.plainText? <;> rfl

theorem run_placeholderText_of_unbound {bindings : Entries} {name : String}
    (h : bindings.lookup name = none) (levels : Nat) :
    (stack.placeholderText bindings name).run (stack.resolveWithin (levels + 1)) =
      textBy (stack.resolveWithin (levels + 2)) bindings name := by
  rw [run_placeholderText, ← stack.resolveWithin_asCall h, textBy, h]
  rfl

theorem run_placeholderText_of_bound (answer : Value → Run Session Value) {bindings : Entries}
    {name : String} {v : Value} (h : bindings.lookup name = some v) :
    (stack.placeholderText bindings name).run answer = textBy answer bindings name := by
  rw [run_placeholderText, placeholderValue, textBy, h]
  simp only [Plan.run_ask, Option.getD_some]

theorem textBy_refines (limit : Nat) {m n : Nat} (h : m ≤ n) (bindings : Entries)
    (name : String) :
    (textBy (stack.resolveWithin m) bindings name).Refines
      (textBy ((stack.withLimit limit).resolveWithin n) bindings name) := by
  refine Run.congruence_refines.bind ?_ fun value => fun _ _ => rfl
  exact stack.resolveWithin_refines stack.config.maxDepth limit h _

/-- A variable has one level less in a call than it has by itself, and all else is the same... -/
theorem run_placeholderText_refines (levels : Nat) (bindings : Entries) (name : String) :
    ((stack.placeholderText bindings name).run (stack.resolveWithin (levels + 1))).Refines
      (textBy (stack.resolveWithin (levels + 2)) bindings name) := by
  cases hbound : bindings.lookup name with
  | some v =>
    rw [stack.run_placeholderText_of_bound _ hbound]
    exact stack.textBy_refines stack.config.maxDepth (by omega) bindings name
  | none =>
    rw [stack.run_placeholderText_of_unbound hbound]
    exact fun _ _ => rfl

/-- ...so one level more is enough for a call. -/
theorem textBy_refines_run (limit : Nat) {levels n : Nat} (h : levels + 2 ≤ n)
    (bindings : Entries) (name : String) :
    (textBy (stack.resolveWithin (levels + 2)) bindings name).Refines
      ((stack.placeholderText bindings name).run ((stack.withLimit limit).resolveWithin n)) := by
  cases hbound : bindings.lookup name with
  | some v =>
    rw [stack.run_placeholderText_of_bound _ hbound]
    exact stack.textBy_refines limit h bindings name
  | none =>
    rw [← stack.run_placeholderText_of_unbound hbound]
    exact Plan.run_refines
      (fun w => stack.resolveWithin_refines stack.config.maxDepth limit (by omega) w) _

/-! ## 5. Filling in -/

/-- What `Fn::Sub` does, whether it is called with variables or without. -/
def fill (template : Value) (bindings : Entries) : Plan Value := do
  let text ← Intrinsic.sub.askString .template template
  return .string (← Placeholder.render text (stack.placeholderText bindings))

theorem callSub_text (text : String) :
    stack.callSub (.string text) = stack.fill (.string text) [] := rfl

theorem callSub_variables (text : String) (bindings : Entries) :
    stack.callSub (.list [.string text, .mapping bindings]) =
      stack.fill (.string text) bindings := rfl

/-- A text that is filled in by values that are resolved in the session. -/
def filled (text : String) (bindings : Entries) : Run Session Value :=
  Value.string <$> Placeholder.render text (textBy stack.resolve bindings)

/-- A text that is written is filled in by the placeholders one by one. -/
theorem run_fill (text : String) (bindings : Entries) (levels : Nat) :
    (stack.fill (.string text) bindings).run (stack.resolveWithin (levels + 1)) =
      Value.string <$> Placeholder.render text fun name =>
        (stack.placeholderText bindings name).run (stack.resolveWithin (levels + 1)) := by
  rw [fill, Plan.run_bind, run_askString, pure_bind, ← map_eq_pure_bind, Plan.run_map,
    Plan.run_render]

/-- To resolve a call of `Fn::Sub` is to fill in its text, one level deeper. -/
theorem resolveWithin_sub {arg : Value} {text : String} {bindings : Entries}
    (h : stack.callSub arg = stack.fill (.string text) bindings) (levels : Nat) :
    stack.resolveWithin (levels + 2) (.mapping [("Fn::Sub", arg)]) =
      Value.string <$> Placeholder.render text fun name =>
        (stack.placeholderText bindings name).run (stack.resolveWithin (levels + 1)) := by
  rw [resolveWithin_succ]
  change (stack.callSub arg).run (stack.resolveWithin (levels + 1)) = _
  rw [h, run_fill]

theorem resolveWithin_subCall (text : String) (bindings : Entries) (levels : Nat) :
    stack.resolveWithin (levels + 2) (subCall text bindings) =
      Value.string <$> Placeholder.render text fun name =>
        (stack.placeholderText bindings name).run (stack.resolveWithin (levels + 1)) :=
  stack.resolveWithin_sub (stack.callSub_variables text bindings) levels

/-- What is resolved in the session has the levels that the session leaves. -/
theorem filled_eq (text : String) (bindings : Entries) (s : Session) :
    stack.filled text bindings s = (Value.string <$> Placeholder.render text
      (textBy (stack.resolveWithin (stack.levelsLeft s)) bindings)) s := by
  have hat := Run.congruence_atDepth s.depth
  refine (hat.map Value.string (hat.render text fun name _ => hat.bind ?_ fun value => ?_)).2 s rfl
  · refine ⟨fun t => stack.resolveWithin_grows _ _ t, fun t ht => ?_⟩
    rw [resolve, levelsLeft, ht, levelsLeft]
  · cases value.plainText? with
    | some text => exact hat.done text
    | none => exact ⟨.throw _, fun _ _ => rfl⟩

/-- Without variables the levels agree. -/
theorem resolve_sub_text (text : String) {s : Session} (hs : 2 ≤ stack.levelsLeft s) :
    stack.resolve (.mapping [("Fn::Sub", .string text)]) s = stack.filled text [] s := by
  obtain ⟨levels, hlevels⟩ : ∃ levels, stack.levelsLeft s = levels + 2 :=
    ⟨stack.levelsLeft s - 2, by omega⟩
  rw [filled_eq, resolve, hlevels, stack.resolveWithin_sub (stack.callSub_text text)]
  simp only [stack.run_placeholderText_of_unbound (List.lookup_nil)]

/-- With fewer than two levels nothing is filled in. -/
theorem resolve_sub_of_lt_two {arg : Value} {text : String} {bindings : Entries}
    (h : stack.callSub arg = stack.fill (.string text) bindings) {s : Session}
    (hs : stack.levelsLeft s < 2) :
    stack.resolve (.mapping [("Fn::Sub", arg)]) s =
      (.error (.depthExceeded stack.config.maxDepth), s) := by
  obtain hlevels | hlevels : stack.levelsLeft s = 0 ∨ stack.levelsLeft s = 1 := by omega
  · exact stack.resolve_eq_of_le _ (Nat.sub_eq_zero_iff_le.mp hlevels)
  · rw [resolve, hlevels, resolveWithin_succ]
    change (stack.callSub arg).run (stack.resolveWithin 0) s = _
    rw [h]
    rfl

/-- A call with variables that does not run out of depth fills in its text... -/
theorem resolve_subCall_of_not_outOfDepth {text : String} {bindings : Entries} {s : Session}
    (hd : ¬ OutOfDepth (stack.resolve (subCall text bindings) s).1) :
    stack.resolve (subCall text bindings) s = stack.filled text bindings s := by
  by_cases hs : stack.levelsLeft s < 2
  · have hout := stack.resolve_sub_of_lt_two (stack.callSub_variables text bindings) hs
    rw [subCall, hout] at hd
    exact absurd ⟨_, rfl⟩ hd
  · obtain ⟨levels, hlevels⟩ : ∃ levels, stack.levelsLeft s = levels + 2 :=
      ⟨stack.levelsLeft s - 2, by omega⟩
    have hcongr := Run.congruence_refines
    have hrefines := hcongr.map Value.string (hcongr.render text fun name _ =>
      stack.run_placeholderText_refines levels bindings name)
    rw [resolve, hlevels, resolveWithin_subCall] at hd ⊢
    rw [filled_eq, hlevels]
    exact (hrefines s hd).symm

/-- ...and a text that can be filled in is filled in by the call under every larger limit. -/
theorem resolve_subCall_of_filled {text : String} {bindings : Entries} {s : Session}
    (hs : 2 ≤ stack.levelsLeft s) (hd : ¬ OutOfDepth (stack.filled text bindings s).1)
    {limit : Nat} (hlimit : stack.config.maxDepth < limit) :
    (stack.withLimit limit).resolve (subCall text bindings) s =
      stack.filled text bindings s := by
  obtain ⟨levels, hlevels⟩ : ∃ levels, stack.levelsLeft s = levels + 2 :=
    ⟨stack.levelsLeft s - 2, by omega⟩
  obtain ⟨n, hn, hle⟩ : ∃ n, (stack.withLimit limit).levelsLeft s = n + 2 ∧ levels + 2 ≤ n + 1 := by
    have hlarger : (stack.withLimit limit).levelsLeft s = limit - s.depth := rfl
    rw [levelsLeft] at hlevels
    exact ⟨limit - s.depth - 2, by omega, by omega⟩
  have hcongr := Run.congruence_refines
  have hrefines := hcongr.map Value.string (hcongr.render text fun name _ =>
    stack.textBy_refines_run limit hle bindings name)
  rw [filled_eq, hlevels] at hd ⊢
  rw [resolve, hn, resolveWithin_subCall]
  exact hrefines s hd

/-- A variable that is no placeholder of the text makes no difference. -/
theorem resolve_subCall_congr {text : String} {bindings bindings' : Entries}
    (h : ∀ name ∈ Placeholder.names text, bindings.lookup name = bindings'.lookup name)
    (s : Session) :
    stack.resolve (subCall text bindings) s = stack.resolve (subCall text bindings') s := by
  by_cases hs : stack.levelsLeft s < 2
  · rw [subCall, subCall, stack.resolve_sub_of_lt_two (stack.callSub_variables text bindings) hs,
      stack.resolve_sub_of_lt_two (stack.callSub_variables text bindings') hs]
  · obtain ⟨levels, hlevels⟩ : ∃ levels, stack.levelsLeft s = levels + 2 :=
      ⟨stack.levelsLeft s - 2, by omega⟩
    rw [resolve, resolve, hlevels, resolveWithin_subCall, resolveWithin_subCall]
    rw [Run.congruence_eq.render text fun name hname => ?_]
    rw [placeholderText, placeholderText, h name hname]

end Stack

/-! ## 6. The error of a placeholder -/

theorem Plan.raisesOnly_render {p : ResolutionError → Prop} (text : String)
    {lookup : String → Plan String} (h : ∀ name, (lookup name).RaisesOnly p) :
    (Placeholder.render text lookup).RaisesOnly p := by
  refine raisesOnly_bind_forall (raisesOnly_mapM _ fun piece => ?_) fun parts => raisesOnly_pure _
  cases piece.name? with
  | some name => exact h name
  | none => exact raisesOnly_pure _

/-- A parameter without a value is no fault of an argument. -/
theorem Parameter.ne_invalidArguments_of_value_error {name : String} {declaration : Value}
    {supplied : Option String} {e : ResolutionError}
    (h : value name declaration supplied = .error e) (f : Intrinsic) (fault : ArgumentFault) :
    e ≠ .invalidArguments f fault := by
  rintro rfl
  simp only [value] at h
  split at h
  · cases h
  · split at h
    · obtain ⟨-, text, he, -⟩ := eq_of_interpret_error h
      cases he
    · split at h
      · obtain ⟨-, text, he, -⟩ := eq_of_interpret_error h
        cases he
      · cases h

/-- A list has a text if its items have. -/
theorem Value.plainText?_list_ne_none {items : List Value}
    (h : ∀ v ∈ items, v.plainText? ≠ none) : (Value.list items).plainText? ≠ none := by
  have hitems : plainTexts? items ≠ none := by
    induction items with
    | nil => simp [plainTexts?]
    | cons v rest ih =>
      obtain ⟨hv, hrest⟩ := List.forall_mem_cons.mp h
      obtain ⟨text, htext⟩ := Option.ne_none_iff_exists'.mp hv
      obtain ⟨texts, htexts⟩ := Option.ne_none_iff_exists'.mp (ih hrest)
      simp [plainTexts?, htext, htexts]
  rw [plainText?]
  simpa using hitems

namespace Stack

open Placeholder (subCall textBy)
open Plan (raisesOnly_ask raisesOnly_bind raisesOnly_bind_forall raisesOnly_pure)

variable (stack : Stack)

section Lookups

variable {p : ResolutionError → Prop}
  (hp : ∀ e, (∀ f fault, e ≠ .invalidArguments f fault) → p e)
include hp

theorem raisesOnly_valuesOf (r : Resource) : (stack.valuesOf r).RaisesOnly p := by
  unfold valuesOf
  cases ResourceKind.ofTypeName? r.typeName with
  | none => exact hp _ fun f fault he => nomatch he
  | some kind => exact fun display => trivial

theorem raisesOnly_attributeOf (resource attr : String) :
    (stack.attributeOf resource attr).RaisesOnly p := by
  unfold attributeOf
  cases stack.template.resource? resource with
  | none => exact hp _ fun f fault he => nomatch he
  | some r =>
    refine raisesOnly_bind_forall (stack.raisesOnly_valuesOf hp r) fun values => ?_
    cases values.attribute? attr with
    | some text => exact raisesOnly_pure _
    | none => exact hp _ fun f fault he => nomatch he

theorem raisesOnly_reference (name : String) : (stack.reference name).RaisesOnly p := by
  unfold reference
  cases PseudoParameter.ofName? name with
  | some pseudo => exact raisesOnly_pure _
  | none =>
    cases stack.template.parameter? name with
    | some declaration =>
      simp only
      cases hv : Parameter.value name declaration (stack.supplied.lookup name) with
      | ok v => exact raisesOnly_pure v
      | error e => exact hp e (Parameter.ne_invalidArguments_of_value_error hv)
    | none =>
      cases stack.template.resource? name with
      | some r =>
        exact raisesOnly_bind_forall (stack.raisesOnly_valuesOf hp r) fun values =>
          raisesOnly_pure _
      | none => exact hp _ fun f fault he => nomatch he

theorem raisesOnly_placeholderValue (bindings : Entries) (name : String) :
    (stack.placeholderValue bindings name).RaisesOnly p := by
  unfold placeholderValue
  cases bindings.lookup name with
  | some v => exact raisesOnly_ask v
  | none =>
    cases PseudoParameter.ofName? name with
    | some pseudo => exact raisesOnly_pure _
    | none =>
      cases Text.cutString? "." name with
      | some parts => exact stack.raisesOnly_attributeOf hp parts.1 parts.2
      | none => exact stack.raisesOnly_reference hp name

end Lookups

/-- **What is no variable has a text**: it is null, a text, a number, or a list of these. -/
theorem ensures_placeholderValue {answers : Value → Value → Prop}
    {names : Resource → String → Prop} {bindings : Entries} {name : String}
    (h : bindings.lookup name = none) :
    (stack.placeholderValue bindings name).Ensures answers names fun v => v.plainText? ≠ none := by
  have hnull : Value.null.plainText? ≠ none := by simp [Value.plainText?]
  have hstring (s : String) : (Value.string s).plainText? ≠ none := by simp [Value.plainText?]
  have hnumber (n : Number) : (Value.number n).plainText? ≠ none := by simp [Value.plainText?]
  simp only [placeholderValue, h]
  cases hpseudo : PseudoParameter.ofName? name with
  | some pseudo =>
    exact stack.context.holds_of_pseudoValue hnull hstring (fun _ => Value.plainText?_list_ne_none)
      pseudo
  | none =>
    cases Text.cutString? "." name with
    | some parts => exact ensures_attributeOf hstring parts.1 parts.2
    | none =>
      exact ensures_reference hnull hstring hnumber (fun _ => Value.plainText?_list_ne_none) name

/-- If the error is that a placeholder is a mapping, then the placeholder is one of the
variables. -/
def BlamesVariable (bindings : Entries) (e : ResolutionError) : Prop :=
  ∀ name, e = .invalidArguments .sub (.placeholderIsMapping name) →
    ∃ v, bindings.lookup name = some v

theorem raisesOnly_placeholderText (bindings : Entries) (name : String) :
    (stack.placeholderText bindings name).RaisesOnly (BlamesVariable bindings) := by
  have hvalue : (stack.placeholderValue bindings name).RaisesOnly (BlamesVariable bindings) :=
    stack.raisesOnly_placeholderValue (fun e he other ho => absurd ho (he _ _)) bindings name
  rw [placeholderText_eq]
  cases hbound : bindings.lookup name with
  | some v =>
    refine raisesOnly_bind_forall hvalue fun value => ?_
    cases value.plainText? with
    | some text => exact raisesOnly_pure text
    | none =>
      rintro other ho
      cases ho
      exact ⟨v, hbound⟩
  | none =>
    refine raisesOnly_bind hvalue (stack.ensures_placeholderValue hbound) fun value htext => ?_
    obtain ⟨text, htext⟩ := Option.ne_none_iff_exists'.mp htext
    rw [htext]
    exact raisesOnly_pure text

theorem raisesOnly_fill (template : Value) (bindings : Entries) :
    (stack.fill template bindings).RaisesOnly (BlamesVariable bindings) := by
  refine raisesOnly_bind_forall ?_ fun text => ?_
  · refine raisesOnly_bind_forall (raisesOnly_ask template) fun v => ?_
    cases v with
    | string text => exact raisesOnly_pure text
    | null | boolean | number | list | mapping => exact fun name he => nomatch he
  · refine raisesOnly_bind_forall ?_ fun rendered => raisesOnly_pure _
    exact Plan.raisesOnly_render text fun name => stack.raisesOnly_placeholderText bindings name

/-- **A call of `Fn::Sub` raises the error of a mapping for its own variables only.** -/
theorem raisesOnly_callSub (arg : Value) :
    (stack.callSub arg).RaisesOnly fun e =>
      ∀ name, e = .invalidArguments .sub (.placeholderIsMapping name) →
        ∃ template bindings v, arg = .list [template, .mapping bindings] ∧
          bindings.lookup name = some v := by
  unfold callSub
  split
  · next template bindings =>
    refine (stack.raisesOnly_fill template bindings).mono fun e h name he => ?_
    obtain ⟨v, hv⟩ := h name he
    exact ⟨template, bindings, v, rfl, hv⟩
  · exact fun name he => nomatch he
  · refine (stack.raisesOnly_fill arg []).mono fun e h name he => ?_
    obtain ⟨v, hv⟩ := h name he
    cases hv

/-! ## 7. Placeholders and calls -/

/-- **`Fn::Sub` agrees with `Ref` and `Fn::GetAtt`.**  With two levels left, a text without
variables is filled in, in whatever session, as if each placeholder were the call that it stands
for: the outcome is the same, and so is the session afterwards.

With variables the call fills in its text or runs out of depth, and a text that can be filled in
is filled in by the call with one level more.  A variable that is no placeholder of the text is
never resolved: whatever it is, the outcome is the same, and so is the session afterwards.

A call ends with the error that a placeholder is a mapping only for one of its own variables,
unless it passes on an error that one of its requests has ended with. -/
theorem placeholders_are_calls :
    (∀ (text : String) (s : Session), 2 ≤ stack.levelsLeft s →
      stack.resolve (.mapping [("Fn::Sub", .string text)]) s = stack.filled text [] s) ∧
    (∀ (text : String) (bindings : Entries) (s : Session),
      (¬ OutOfDepth (stack.resolve (subCall text bindings) s).1 →
        stack.resolve (subCall text bindings) s = stack.filled text bindings s) ∧
      (2 ≤ stack.levelsLeft s → ¬ OutOfDepth (stack.filled text bindings s).1 →
        ∀ limit, stack.config.maxDepth < limit →
          (stack.withLimit limit).resolve (subCall text bindings) s =
            stack.filled text bindings s)) ∧
    (∀ (text : String) (bindings bindings' : Entries) (s : Session),
      (∀ name ∈ Placeholder.names text, bindings.lookup name = bindings'.lookup name) →
        stack.resolve (subCall text bindings) s = stack.resolve (subCall text bindings') s) ∧
    ∀ (arg : Value) (name : String) (s : Session),
      (stack.perform (stack.callSub arg) s).1 =
          .error (.invalidArguments .sub (.placeholderIsMapping name)) →
        (∃ template bindings v, arg = .list [template, .mapping bindings] ∧
          bindings.lookup name = some v) ∨
        (stack.callSub arg).Forwards (stack.resolveWithin (stack.levelsLeft s)) s
          (.invalidArguments .sub (.placeholderIsMapping name)) := by
  refine ⟨fun text s hs => stack.resolve_sub_text text hs, fun text bindings s => ⟨?_, ?_⟩,
    fun text bindings bindings' s h => stack.resolve_subCall_congr h s, fun arg name s h => ?_⟩
  · exact stack.resolve_subCall_of_not_outOfDepth
  · exact fun hs hd limit hlimit => stack.resolve_subCall_of_filled hs hd hlimit
  · exact ((stack.raisesOnly_callSub arg).of_run_error h).imp_left fun hown => hown name rfl

/-- A variable that is called `Ref`, so that the variables look like a call.  It is filled in and
not looked up; another variable beside it is not resolved; and it is to blame itself when its value
is a mapping.  Values of all other kinds are filled in by their plain text, a list by those of its
items with commas between them. -/
theorem variable_called_ref_is_filled_in :
    let stack := (ofDocument (.mapping [])).withLimit 3
    let text := "$\x7bRef\x7d"
    let bindings : Entries := [("Ref", .string "x")]
    let unused := ("Other", Value.mapping [("Ref", .string "Missing")])
    let badArg := Value.list [.string text, .mapping [("Ref", .mapping [("a", .null)])]]
    let error := ResolutionError.invalidArguments .sub (.placeholderIsMapping "Ref")
    let kinds := "$\x7bNo\x7d|$\x7bOn\x7d|$\x7bPort\x7d|$\x7bAll\x7d"
    let port := Value.number (.integer 80 (by decide))
    let values : Entries := [("No", .null), ("On", .boolean true), ("Port", port),
      ("All", .list [port, .string "x", .null])]
    (stack.resolve (.mapping [("Fn::Sub", .string text)]) .start).1 =
        .error (.unresolvedReference "Ref") ∧
      ((stack.withLimit 4).resolve (subCall text bindings) .start).1 = .ok (.string "x") ∧
      stack.resolve (subCall text (bindings ++ [unused])) .start =
        stack.resolve (subCall text bindings) .start ∧
      (stack.perform (stack.callSub badArg) .start).1 = .error error ∧
      ((∃ template bindings v, badArg = .list [template, .mapping bindings] ∧
          bindings.lookup "Ref" = some v) ∨
        (stack.callSub badArg).Forwards (stack.resolveWithin 3) .start error) ∧
      ((stack.withLimit 4).resolve (subCall kinds values) .start).1 =
        .ok (.string "|true|80|80,x,") := by
  intro stack text bindings unused badArg error kinds port values
  have hpieces : Placeholder.pieces text =
      [.literal [], .placeholder ['R', 'e', 'f'], .literal []] := by decide +kernel
  have hnames : Placeholder.names text = ["Ref"] := by decide +kernel
  have hfilled : stack.filled text bindings .start = (.ok (.string "x"), .start) := by
    rw [filled, Placeholder.render, hpieces]
    rfl
  have herror : (stack.perform (stack.callSub badArg) .start).1 = .error error := by
    have hlevels : stack.levelsLeft .start = 2 + 1 := rfl
    rw [perform, hlevels, callSub_variables, run_fill, Placeholder.render, hpieces]
    rfl
  have hkinds : Placeholder.pieces kinds =
      [.literal [], .placeholder ['N', 'o'], .literal ['|'], .placeholder ['O', 'n'],
        .literal ['|'], .placeholder ['P', 'o', 'r', 't'], .literal ['|'],
        .placeholder ['A', 'l', 'l'], .literal []] := by decide +kernel
  have hvalues : stack.filled kinds values .start = (.ok (.string "|true|80|80,x,"), .start) := by
    rw [filled, Placeholder.render, hkinds]
    rfl
  obtain ⟨hcalls, hvariables, hcongr, hmapping⟩ := stack.placeholders_are_calls
  -- what a text is filled in to, the call with one level more resolves to
  have hlarger {text : String} {bindings : Entries} {v : Value}
      (h : stack.filled text bindings .start = (.ok v, .start)) :
      ((stack.withLimit 4).resolve (subCall text bindings) .start).1 = .ok v := by
    have hnot : ¬ OutOfDepth (stack.filled text bindings .start).1 := by
      rw [h]
      exact not_outOfDepth_ok _
    rw [(hvariables text bindings .start).2 (by decide) hnot 4 (by decide), h]
  refine ⟨?_, hlarger hfilled, ?_, herror, hmapping badArg "Ref" .start herror, hlarger hvalues⟩
  · rw [hcalls text .start (by decide), filled, Placeholder.render, hpieces]
    rfl
  · refine hcongr text _ bindings .start fun name hname => ?_
    rw [hnames] at hname
    cases List.mem_singleton.mp hname
    rfl

end Stack
end StackTemplate
