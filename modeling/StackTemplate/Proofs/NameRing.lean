import Mathlib.Data.Nat.ModEq
import StackTemplate.Proofs.Balance
import StackTemplate.Proofs.Cycle

/-!
# Rings of names

In a ring of names, each resource is named by a reference to the next one.  `Cycle` shows that no
such resource has a name.  Here it is said which error a look-up ends with, and this depends on
the exact count of levels: each hop opens two of them, one for the reference and one for the
written name in it, and gives back the second.  So a look-up comes round to where it started, and
is caught there, exactly if the limit is larger than the length of the ring.

Each hop marks the resource that it leaves.  So the hops run into the resource where the look-up
started, and none other, as long as no mark is left over from an earlier failure.

* `NameRing.run_hop`: what one hop takes, and where it leads.
* `NameRing.run_on_the_way`: from a hop on the way, by induction on the hops that are left.
-/

namespace StackTemplate

/-- **A ring of names**: `length` different resources, of which each is of a known kind, and the
first property present that may name it is a reference to the next one. -/
structure Template.NameRing (t : Template) (length : Nat) (name : Nat → String) : Prop where
  distinct : ∀ i < length, ∀ j < length, name i = name j → i = j
  resource : ∀ i < length,
    PseudoParameter.ofName? (name i) = none ∧ t.parameter? (name i) = none ∧
    ∃ r kind, t.resource? (name i) = some r ∧ ResourceKind.ofTypeName? r.typeName = some kind ∧
      r.firstProperty? kind.namingProperties =
        some (.mapping [("Ref", .string (name ((i + 1) % length)))])

namespace Stack

/-! ## 1. One reference -/

/-- A reference takes two levels: its own, and one for the name that is written in it. -/
theorem resolveWithin_ref_of_le_one (stack : Stack) (name : String) {levels : Nat}
    (h : levels ≤ 1) (s : Session) :
    stack.resolveWithin levels (.mapping [("Ref", .string name)]) s =
      (.error (.depthExceeded stack.config.maxDepth), s) := by
  obtain rfl | rfl : levels = 0 ∨ levels = 1 := by omega
  · rfl
  · rw [resolveWithin_succ]
    rfl

end Stack

namespace Template.NameRing

/-! ## 2. One hop -/

variable {stack : Stack} {length : Nat} {name : Nat → String}
  (h : stack.template.NameRing length name)
include h

/-- A look-up of a member is a request for its name. -/
theorem exists_reference_eq {i : Nat} (hi : i < length) :
    ∃ r keys, ∃ next : String → Plan Value, r.name = name i ∧
      r.firstProperty? keys = some (.mapping [("Ref", .string (name ((i + 1) % length)))]) ∧
      stack.reference (name i) = .name r keys next := by
  obtain ⟨hpseudo, hparameter, r, kind, hr, hkind, hproperty⟩ := h.resource i hi
  refine ⟨r, kind.namingProperties, fun display =>
    .done (.string (kind.values display stack.context).reference), name_of_resource? hr,
    hproperty, ?_⟩
  simp only [Stack.reference, hpseudo, hparameter, hr, Stack.valuesOf, hkind]
  rfl

/-- A member that is being worked out refers to itself. -/
theorem run_reference_of_pending {i : Nat} (hi : i < length) (answer : Value → Run Session Value)
    {s : Session} (hc : s.cells (name i) = ⟨none, true⟩) :
    ((stack.reference (name i)).run answer s).1 =
      .error (.invalidName (name i) .refersToItself) := by
  obtain ⟨r, keys, next, hname, -, href⟩ := h.exists_reference_eq hi
  rw [← hname] at hc
  have hself : r.displayName (Session.place r.name) keys answer s =
      (.error (.invalidName r.name .refersToItself), s) :=
    r.displayName_of_pending keys (congrArg NameCell.known hc) (congrArg NameCell.pending hc)
  rw [href, Plan.run, Run.bind_error hself, hname]

/-- A member that nobody has asked for fails as the reference that names it does. -/
theorem run_reference_of_fresh {i : Nat} (hi : i < length) {answer : Value → Run Session Value}
    (hanswer : ∀ v, Run.Grows (answer v)) {s s₁ : Session} (hc : s.cells (name i) = .fresh)
    {e : ResolutionError}
    (hnext : answer (.mapping [("Ref", .string (name ((i + 1) % length)))]) (s.mark (name i)) =
      (.error e, s₁)) :
    ((stack.reference (name i)).run answer s).1 = .error e := by
  obtain ⟨r, keys, next, hname, hproperty, href⟩ := h.exists_reference_eq hi
  rw [href, Plan.run]
  rw [← hname] at hc hnext
  have hnaming : (r.naming keys).run answer (s.mark r.name) = (.error e, s₁) := by
    simp only [Resource.naming, hproperty]
    exact Run.bind_error hnext
  have hgrow := Plan.naming_run_grows hanswer r keys (s.mark r.name)
  rw [Run.bind_error (r.displayName_of_fresh keys hc hgrow hnaming)]

/-- **One hop.**  It takes two levels; and if it has them, the look-up of a member fails as the
look-up of the next one does, with one level less and with the mark set. -/
theorem run_hop {i : Nat} (hi : i < length) {s : Session} (hc : s.cells (name i) = .fresh)
    {levels : Nat} {e : ResolutionError}
    (hlow : levels ≤ 1 → e = .depthExceeded stack.config.maxDepth)
    (hnext : ∀ n, levels = n + 2 → ((stack.reference (name ((i + 1) % length))).run
      (stack.resolveWithin (n + 1)) (s.mark (name i))).1 = .error e) :
    ((stack.reference (name i)).run (stack.resolveWithin levels) s).1 = .error e := by
  have hrun : ∃ s₁, stack.resolveWithin levels
      (.mapping [("Ref", .string (name ((i + 1) % length)))]) (s.mark (name i)) =
        (.error e, s₁) := by
    by_cases hlevels : levels ≤ 1
    · rw [hlow hlevels]
      exact ⟨_, stack.resolveWithin_ref_of_le_one _ hlevels _⟩
    · obtain ⟨n, rfl⟩ : ∃ n, levels = n + 2 := ⟨levels - 2, by omega⟩
      rw [stack.resolveWithin_ref]
      exact ⟨_, Prod.ext (hnext n rfl) rfl⟩
  obtain ⟨s₁, hrun⟩ := hrun
  exact h.run_reference_of_fresh hi (stack.resolveWithin_grows levels) hc hrun

/-! ## 3. All the way round -/

omit h in
/-- Fewer hops than the ring is long do not lead back. -/
theorem hops_ne {i hops : Nat} (hi : i < length) (hpos : 0 < hops) (hlt : hops < length) :
    (i + hops) % length ≠ i := by
  intro hback
  have hsame : i + hops ≡ i + 0 [MOD length] := hback.trans (Nat.mod_eq_of_lt hi).symm
  have hzero := (Nat.ModEq.add_left_cancel' i hsame).eq_of_lt_of_lt hlt (by omega)
  omega

/-- The mark that a hop leaves is on none of the other members. -/
theorem cells_mark {i hops : Nat} (hi : i < length) (hpos : 0 < hops) (hlt : hops < length)
    (s : Session) :
    (s.mark (name i)).cells (name ((i + hops) % length)) =
      s.cells (name ((i + hops) % length)) := by
  have hne : name ((i + hops) % length) ≠ name i := fun heq =>
    hops_ne hi hpos hlt (h.distinct _ (Nat.mod_lt _ (by omega)) _ hi heq)
  rw [Session.mark, Session.setCell_cells, if_neg hne]

/-- **On the way**: `hops` before the member where the look-up started, which is marked, the
look-up is caught there if it has more levels than it takes hops, and else it runs out of
depth. -/
theorem run_on_the_way (hops : Nat) {i : Nat} (hi : i < length) (hhops : hops < length)
    {s : Session} (hmark : s.cells (name ((i + hops) % length)) = ⟨none, true⟩)
    (hfresh : ∀ k < hops, s.cells (name ((i + k) % length)) = .fresh) {levels : Nat}
    (hlevels : 0 < levels) :
    ((stack.reference (name i)).run (stack.resolveWithin levels) s).1 =
      .error (if hops < levels then .invalidName (name ((i + hops) % length)) .refersToItself
        else .depthExceeded stack.config.maxDepth) := by
  induction hops generalizing i s levels with
  | zero =>
    rw [Nat.add_zero, Nat.mod_eq_of_lt hi] at hmark ⊢
    rw [if_pos hlevels]
    exact h.run_reference_of_pending hi _ hmark
  | succ hops ih =>
    have hc : s.cells (name i) = .fresh := by
      have hfirst := hfresh 0 (Nat.succ_pos hops)
      rwa [Nat.add_zero, Nat.mod_eq_of_lt hi] at hfirst
    refine h.run_hop hi hc (fun hlow => if_neg (by omega)) ?_
    rintro n rfl
    have hstep (k : Nat) : ((i + 1) % length + k) % length = (i + (k + 1)) % length := by
      rw [Nat.mod_add_mod, Nat.add_assoc, Nat.add_comm 1 k]
    have hrest := ih (Nat.mod_lt (i + 1) (by omega)) (by omega) (s := s.mark (name i))
      (by rw [hstep, h.cells_mark hi (Nat.succ_pos hops) hhops, hmark])
      (fun k hk => by
        rw [hstep, h.cells_mark hi (Nat.succ_pos k) (by omega)]
        exact hfresh (k + 1) (by omega))
      (Nat.succ_pos n)
    rw [hrest, hstep]
    simp only [Nat.add_lt_add_iff_right]

/-- **All the way round**: a look-up that starts where no name is marked or known comes back to
where it started, with a level more than the ring is long, and else it runs out of depth. -/
theorem run_reference {i : Nat} (hi : i < length) {s : Session}
    (hfresh : ∀ j < length, s.cells (name j) = .fresh) (levels : Nat) :
    ((stack.reference (name i)).run (stack.resolveWithin levels) s).1 =
      .error (if length < levels then .invalidName (name i) .refersToItself
        else .depthExceeded stack.config.maxDepth) := by
  refine h.run_hop hi (hfresh i hi) (fun hlow => if_neg (by omega)) ?_
  rintro n rfl
  have hround : ((i + 1) % length + (length - 1)) % length = i := by
    rw [Nat.mod_add_mod, Nat.add_assoc, Nat.add_sub_cancel' (by omega), Nat.add_mod_right,
      Nat.mod_eq_of_lt hi]
  have hrest := h.run_on_the_way (length - 1) (Nat.mod_lt (i + 1) (by omega)) (by omega)
    (s := s.mark (name i)) (by simp [hround, Session.mark])
    (fun k hk => by
      rw [Nat.mod_add_mod, Nat.add_assoc, h.cells_mark hi (by omega) (by omega)]
      exact hfresh _ (Nat.mod_lt _ (by omega)))
    (Nat.succ_pos n)
  rw [hrest, hround]
  have hlevels : length - 1 < n + 1 ↔ length < n + 2 := by omega
  simp only [hlevels]

/-! ## 4. After any operations -/

/-- The members of a ring are defined by one another. -/
theorem cyclic : stack.Cyclic ∅ {n | ∃ i < length, name i = n} where
  condition _ hn := hn.elim
  resource := by
    rintro _ ⟨i, hi, rfl⟩
    obtain ⟨hpseudo, hparameter, r, kind, hr, hkind, hproperty⟩ := h.resource i hi
    have hnext : name ((i + 1) % length) ∈ {n | ∃ j < length, name j = n} :=
      ⟨_, Nat.mod_lt _ (by omega), rfl⟩
    exact ⟨hpseudo, hparameter, r, kind, _, hr, hkind, hproperty, _, .refl, .ref hnext⟩

/-- Between operations no member is known or marked. -/
theorem cells_after {i : Nat} (hi : i < length) (ops : List Operation) :
    (stack.after ops .start).cells (name i) = .fresh := by
  refine Session.fresh_of_not_mem_busy ?_ ?_
  · rw [stack.busy_after_start ops]
    exact Set.notMem_empty _
  · -- the stack is itself under the limit that it has
    exact h.cyclic.known_eq_none ⟨i, hi, rfl⟩ stack.config.maxDepth ops

end Template.NameRing

/-- **A look-up in a ring of names fails in one of two ways**, whatever has been carried out
before.  Under a limit that is larger than the length of the ring the name refers to itself, and
it is the resource where the look-up started that is to blame; under any other limit the depth is
exceeded. -/
theorem Stack.reference_in_name_ring (stack : Stack) {length : Nat} {name : Nat → String}
    (h : stack.template.NameRing length name) (ops : List Operation) {i : Nat} (hi : i < length) :
    (stack.operate (.reference (name i)) (stack.after ops .start)).1 =
      .error (if length < stack.config.maxDepth then .invalidName (name i) .refersToItself
        else .depthExceeded stack.config.maxDepth) ∧
    NameFault.refersToItself.message = "name refers to itself" := by
  refine ⟨?_, rfl⟩
  have hlevels : stack.levelsLeft (stack.after ops .start) = stack.config.maxDepth := by
    rw [levelsLeft, (stack.after_grows ops .start).depth]
    rfl
  have hrun := h.run_reference hi (fun j hj => h.cells_after hj ops) stack.config.maxDepth
  rcases hout : (stack.reference (name i)).run (stack.resolveWithin stack.config.maxDepth)
      (stack.after ops .start) with ⟨outcome, s'⟩
  rw [hout] at hrun
  cases hrun
  rw [operate, perform, hlevels, Operation.plan, map_eq_pure_bind, Plan.run_bind,
    Run.bind_error hout]

/-- Three topics, each named after the next one: the second one refers to itself under the limit
four, also after the first one has failed, and three levels are not enough to find that out. -/
theorem Stack.second_of_three_topics_refers_to_itself :
    let topic (next : String) := Value.mapping [("Type", .string "AWS::SNS::Topic"),
      ("Properties", .mapping [("TopicName", .mapping [("Ref", .string next)])])]
    let stack := ofDocument (.mapping [("Resources", .mapping [("A", topic "B"),
      ("B", topic "C"), ("C", topic "A")])])
    let name (i : Nat) := ["A", "B", "C"].getD i ""
    stack.template.NameRing 3 name ∧
      ((stack.withLimit 4).operate (.reference "B")
        ((stack.withLimit 4).after [.reference "A"] .start)).1 =
          .error (.invalidName "B" .refersToItself) ∧
      ((stack.withLimit 3).operate (.reference "B")
        ((stack.withLimit 3).after [.reference "A"] .start)).1 =
          .error (.depthExceeded 3) := by
  intro topic stack name
  have hring : stack.template.NameRing 3 name := by
    refine ⟨by decide, fun i hi => ?_⟩
    obtain rfl | rfl | rfl : i = 0 ∨ i = 1 ∨ i = 2 := by omega
    · exact ⟨rfl, rfl, _, _, rfl, rfl, rfl⟩
    · exact ⟨rfl, rfl, _, _, rfl, rfl, rfl⟩
    · exact ⟨rfl, rfl, _, _, rfl, rfl, rfl⟩
  obtain ⟨hfour, -⟩ := (stack.withLimit 4).reference_in_name_ring hring [.reference "A"]
    (i := 1) (by decide)
  obtain ⟨hthree, -⟩ := (stack.withLimit 3).reference_in_name_ring hring [.reference "A"]
    (i := 1) (by decide)
  exact ⟨hring, hfour, hthree⟩

end StackTemplate
