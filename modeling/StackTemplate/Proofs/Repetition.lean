import StackTemplate.Proofs.CallFree
import StackTemplate.Proofs.Parallel

/-!
# One run does what the other does

Where corresponding values are equal (`Correspondence.OnDiagonal`), two stacks in parallel do not
only end alike: the second one does in every session what the first one does, name cells and
levels included, unless the first one fails and that excuses the second one.  Of the resources it
is enough that the same value names them.

The values that are asked for may be limited to some `part` of all values, as long as a value that
is such a part has only such parts.

* `Parallel.run_repeatedBy`: plans that are parallel, carried out side by side.
* `resolveWithin_repeatedBy`: so resolving a value in the first stack is repeated in the second.
-/

namespace StackTemplate

/-! ## 1. The diagonal -/

/-- **The correspondence lies on the diagonal**: a value corresponds to itself alone, and may be
asked for if it is in `part`; and resources correspond only if their names come from the same
value. -/
class Correspondence.OnDiagonal (C : Correspondence) (part : outParam (Value → Prop)) : Prop where
  asked : ∀ {v v' : Value}, C.asked v v' ↔ v = v' ∧ part v
  answered : ∀ {w w' : Value}, C.answered w w' ↔ w = w'
  named : ∀ {r r' : Resource} {keys : List String}, C.named r r' keys → r'.name = r.name ∧
    r'.firstProperty? keys = r.firstProperty? keys ∧
      ∀ v, r.firstProperty? keys = some v → part v

/-- Every value and every resource corresponds to itself, and only the values of `part` may be
asked for. -/
def Correspondence.diagonal (part : Value → Prop) (shown : String → Prop) (excused : Prop) :
    Correspondence where
  asked v v' := v = v' ∧ part v
  answered := Eq
  named r r' keys := r = r' ∧ ∀ v, r.firstProperty? keys = some v → part v
  shown := shown
  excused := excused

namespace Value

/-- The items and the entries of a value in `part` are in `part`. -/
structure ClosedUnderParts (part : Value → Prop) : Prop where
  item : ∀ items, part (.list items) → ∀ v ∈ items, part v
  entry : ∀ entries : Entries, part (.mapping entries) → ∀ e ∈ entries, part e.2

theorem closedUnderParts_true : ClosedUnderParts fun _ => True :=
  ⟨fun _ _ _ _ => trivial, fun _ _ _ _ => trivial⟩

/-- What is related to itself on the first level is alike to itself. -/
theorem alike_self {R : Value → Value → Prop} (v : Value)
    (hitem : ∀ items, v = .list items → ∀ u ∈ items, R u u)
    (hentry : ∀ entries : Entries, v = .mapping entries → ∀ e ∈ entries, R e.2 e.2) :
    v.Alike R v := by
  cases v with
  | null => exact .null
  | boolean b => exact .boolean b
  | number n => exact .number n
  | string s => exact .string s
  | list items => exact .list (List.forall₂_same.mpr (hitem items rfl))
  | mapping entries =>
    refine .mapping rfl fun key => ?_
    cases hkey : entries.lookup key with
    | none => exact .none
    | some u => exact .some (hentry entries rfl _ (mem_of_lookup hkey))

/-- Values whose parts are equal are equal, if they are no mappings. -/
theorem eq_of_alike_eq {v w : Value} (hv : v.kind ≠ .mapping) (h : v.Alike Eq w) : v = w := by
  cases h with
  | list h =>
    rw [List.forall₂_eq_eq_eq] at h
    rw [h]
  | mapping _ _ => exact absurd rfl hv
  | null | boolean | number | string => rfl

end Value

variable {part : Value → Prop}

instance {shown : String → Prop} {excused : Prop} :
    (Correspondence.diagonal part shown excused).OnDiagonal part where
  asked := Iff.rfl
  answered := Iff.rfl
  named := by
    rintro r _ keys ⟨rfl, h⟩
    exact ⟨rfl, rfl, h⟩

variable {C : Correspondence} [hC : C.OnDiagonal part]

theorem Correspondence.lawful_of_onDiagonal (hpart : Value.ClosedUnderParts part) : C.Lawful where
  asked := by
    intro v v' h
    obtain ⟨rfl, hv⟩ := hC.asked.mp h
    refine v.alike_self ?_ ?_
    · rintro items rfl u hu
      exact hC.asked.mpr ⟨rfl, hpart.item items hv u hu⟩
    · rintro entries rfl e he
      exact hC.asked.mpr ⟨rfl, hpart.entry entries hv e he⟩
  answered := by
    intro w w' h
    obtain rfl := hC.answered.mp h
    exact w.alike_self (fun _ _ _ _ => hC.answered.mpr rfl) fun _ _ _ _ => hC.answered.mpr rfl
  answer w w' hw h := by
    have heq : C.answered = Eq := by
      funext u u'
      exact propext hC.answered
    rw [heq] at h ⊢
    exact Value.eq_of_alike_eq hw h
  same := by
    intro v v' w w' hv hw
    rw [hC.answered.mp hv, hC.answered.mp hw]
  exact := Or.inr fun _ _ h => (hC.answered.mp h).symm

/-! ## 2. Plans side by side -/

/-- Two resources whose names come from the same value are asked for their names alike. -/
theorem Resource.displayName_eq {r r' : Resource} {keys : List String} (hname : r'.name = r.name)
    (hfirst : r'.firstProperty? keys = r.firstProperty? keys)
    (answer : Value → Run Session Value) :
    r'.displayName (Session.place r'.name) keys answer =
      r.displayName (Session.place r.name) keys answer := by
  funext s
  simp only [displayName, nameFrom, hname, hfirst]

/-- **Parallel plans do the same**, if the values that they ask for are resolved to the same. -/
theorem Plan.Parallel.run_repeatedBy {α : Type} {A B : Value → Run Session Value}
    (hA : ∀ v s w s', A v s = (.ok w, s') → Literally v w)
    (hAB : ∀ v, part v → (A v).RepeatedBy (fun _ => C.excused) (B v)) {x y : Plan α}
    (h : Parallel C Eq x y) : (x.run A).RepeatedBy (fun _ => C.excused) (y.run B) := by
  induction h with
  | done h =>
    subst h
    exact .refl _
  | fail e => exact .refl _
  | excused h e plan => exact .excused h _
  | @resolve v v' next next' hv _ ih =>
    obtain ⟨rfl, hpart⟩ := hC.asked.mp hv
    exact (hAB v hpart).bind fun s w s' hw => ih w w (hC.answered.mpr rfl) (hA v s w s' hw)
  | name hr _ ih =>
    obtain ⟨hname, hfirst, hpart⟩ := hC.named hr
    rw [Plan.run, Plan.run, Resource.displayName_eq hname hfirst]
    exact (Run.RepeatedBy.displayName fun v hv => hAB v (hpart v hv)).bind fun _ name _ _ => ih name

namespace Stack

open Plan (Parallel parallel_bind parallel_ask parallel_pure parallel_map parallel_mapM)

/-- A text as it is written is resolved to itself. -/
theorem literally_of_resolveWithin (stack : Stack) (levels : Nat) (v : Value) (s : Session)
    (w : Value) (s' : Session) (h : stack.resolveWithin levels v s = (.ok w, s')) :
    Literally v w := by
  rintro text rfl
  cases levels with
  | zero => cases h
  | succ levels =>
    cases h
    rfl

/-! ## 3. Stacks side by side -/

namespace Corresponds

variable {stack stack' : Stack} (h : stack.Corresponds C stack')
include h

/-- Resolving a value is parallel: it is walked through, or it is a call. -/
theorem parallel_plan (hpart : Value.ClosedUnderParts part) {v : Value} (hv : part v) :
    Parallel C Eq (stack.plan v) (stack'.plan v) := by
  have hself {α : Type} {items : List α} {f : α → Value} (hf : ∀ x ∈ items, part (f x)) :
      List.Forall₂ (fun x y => x = y ∧ part (f x)) items items :=
    List.forall₂_same.mpr fun x hx => ⟨rfl, hf x hx⟩
  have hask {u : Value} (hu : part u) : Parallel C Eq (Plan.ask u) (Plan.ask u) :=
    Plan.Parallel.mono (parallel_ask (hC.asked.mpr ⟨rfl, hu⟩)) fun _ _ hw => hC.answered.mp hw.1
  cases v with
  | list items =>
    refine parallel_map ((parallel_mapM (R := Eq) (hself (hpart.item items hv)) ?_).mono ?_)
    · rintro u _ ⟨rfl, hu⟩
      exact hask hu
    · intro ws ws' hws
      rw [List.forall₂_eq_eq_eq] at hws
      rw [hws]
  | mapping entries =>
    simp only [plan]
    cases hc : Intrinsic.ofCall? entries with
    | some call =>
      obtain ⟨f, arg⟩ := call
      obtain ⟨rfl, -⟩ := Intrinsic.ofCall?_eq_some_iff.mp hc
      exact (h.parallel_call (hC.asked.mpr ⟨rfl, hv⟩)).mono fun _ _ hw => hC.answered.mp hw
    | none =>
      refine parallel_map ((parallel_mapM (R := Eq) (hself (hpart.entry entries hv)) ?_).mono ?_)
      · rintro ⟨key, u⟩ _ ⟨rfl, hu⟩
        refine parallel_map ((hask hu).mono ?_)
        rintro w _ rfl
        rfl
      · intro es es' hes
        rw [List.forall₂_eq_eq_eq] at hes
        rw [hes]
  | null | boolean | number | string => exact parallel_pure rfl

/-- **Resolving a value is repeated**, with the same number of levels. -/
theorem resolveWithin_repeatedBy (hpart : Value.ClosedUnderParts part) (levels : Nat) {v : Value}
    (hv : part v) :
    (stack.resolveWithin levels v).RepeatedBy (fun _ => C.excused)
      (stack'.resolveWithin levels v) := by
  induction levels generalizing v with
  | zero =>
    rw [resolveWithin, resolveWithin, h.config]
    exact .refl _
  | succ levels ih =>
    have hplan := h.parallel_plan hpart hv
    exact .deeper (hplan.run_repeatedBy (stack.literally_of_resolveWithin levels)
      fun u hu => ih hu)

omit h in
/-- To answer with the value of a part is parallel. -/
theorem parallel_answer {v : Value} (hv : part v) :
    Parallel C Eq (Answer.value <$> Plan.ask v) (Answer.value <$> Plan.ask v) := by
  refine parallel_map (Plan.Parallel.mono (parallel_ask (hC.asked.mpr ⟨rfl, hv⟩)) ?_)
  rintro w w' ⟨hw, -⟩
  rw [hC.answered.mp hw]

/-- An operation is repeated if its plan is parallel. -/
theorem operate_repeatedBy (hpart : Value.ClosedUnderParts part) (op : Operation)
    (hop : Parallel C Eq (op.plan stack) (op.plan stack')) :
    (stack.operate op).RepeatedBy (fun _ => C.excused) (stack'.operate op) := by
  intro s hs
  have hlevels : stack'.levelsLeft s = stack.levelsLeft s := by
    rw [levelsLeft, levelsLeft, h.config]
  rw [operate, perform, hlevels]
  exact hop.run_repeatedBy (stack.literally_of_resolveWithin _)
    (fun u hu => h.resolveWithin_repeatedBy hpart _ hu) s hs

end Corresponds
end Stack
end StackTemplate
