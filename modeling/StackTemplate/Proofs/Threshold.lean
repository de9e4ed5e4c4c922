import Mathlib.Data.Nat.Find
import StackTemplate.Proofs.Eventual

/-!
# One threshold for every operation

Carried out in a new session under one limit after another, an operation runs out of depth up
to some limit and has one and the same outcome from there on, or it runs out of depth under
every limit.  While it runs out of depth it says under which limit.

* `operate_withLimit_of_outOfDepth`: the error names the limit that was set.
* `exists_threshold`: the least limit under which an operation does not run out of depth.
-/

namespace StackTemplate
namespace Stack

variable (stack : Stack) (op : Operation)

/-- An operation that runs out of depth names the limit that was set. -/
theorem operate_withLimit_of_outOfDepth (limit : Nat)
    (hd : OutOfDepth ((stack.withLimit limit).operate op .start).1) :
    ((stack.withLimit limit).operate op .start).1 = .error (.depthExceeded limit) := by
  rcases stack.operate_withLimit_cases op limit with h | hg
  · exact h
  · exact absurd hd hg.not_outOfDepth

/-- An operation that does not run out of depth under some limit has a least such limit. -/
theorem exists_threshold {limit : Nat}
    (hd : ¬ OutOfDepth ((stack.withLimit limit).operate op .start).1) :
    ∃ t, ¬ OutOfDepth ((stack.withLimit t).operate op .start).1 ∧
      ∀ n, n < t → OutOfDepth ((stack.withLimit n).operate op .start).1 := by
  classical
  have hex : ∃ n, ¬ OutOfDepth ((stack.withLimit n).operate op .start).1 := ⟨limit, hd⟩
  refine ⟨Nat.find hex, Nat.find_spec hex, fun n hn => ?_⟩
  have hnot := Nat.find_min hex hn
  exact not_not.mp hnot

/-- **A larger limit changes no outcome, and there is one threshold.**  An outcome under some
limit, other than that the limit was exceeded, is the outcome under all larger limits, with the
same names known afterwards.  So the limit is exceeded under every limit, or under exactly those
below a threshold. -/
theorem limit_monotone_with_threshold :
    (∀ m n, m ≤ n → ¬ OutOfDepth ((stack.withLimit m).operate op .start).1 →
      ((stack.withLimit n).operate op .start).1 = ((stack.withLimit m).operate op .start).1 ∧
      ∀ name, (((stack.withLimit n).operate op .start).2.cells name).known =
        (((stack.withLimit m).operate op .start).2.cells name).known) ∧
    ((∀ n, ((stack.withLimit n).operate op .start).1 = .error (.depthExceeded n)) ∨
      ∃ t outcome, ¬ OutOfDepth outcome ∧
        (∀ n, n < t →
          ((stack.withLimit n).operate op .start).1 = .error (.depthExceeded n)) ∧
        ∀ n, t ≤ n → ((stack.withLimit n).operate op .start).1 = outcome) := by
  refine ⟨fun m n h hd => ?_, ?_⟩
  · rw [stack.operate_withLimit h op hd]
    exact ⟨rfl, fun _ => rfl⟩
  · by_cases hall : ∀ n, OutOfDepth ((stack.withLimit n).operate op .start).1
    · exact Or.inl fun n => stack.operate_withLimit_of_outOfDepth op n (hall n)
    · obtain ⟨limit, hlimit⟩ := not_forall.mp hall
      obtain ⟨t, ht, hbelow⟩ := stack.exists_threshold op hlimit
      refine Or.inr ⟨t, _, ht, fun n hn => ?_, fun n hn => ?_⟩
      · exact stack.operate_withLimit_of_outOfDepth op n (hbelow n hn)
      · rw [stack.operate_withLimit hn op ht]

/-- A list in a list takes two levels, so it resolves under every limit from two on. -/
theorem nested_list_resolves_from_two :
    let stack := ofDocument (.mapping [])
    let v := Value.list [.list []]
    ((stack.withLimit 1).operate (.resolve v) .start).1 = .error (.depthExceeded 1) ∧
      ∀ n, 2 ≤ n → ((stack.withLimit n).operate (.resolve v) .start).1 = .ok (.value v) := by
  intro stack v
  have hone : ((stack.withLimit 1).operate (.resolve v) .start).1 =
      .error (.depthExceeded 1) := by rfl
  have htwo : ((stack.withLimit 2).operate (.resolve v) .start).1 = .ok (.value v) := by rfl
  refine ⟨hone, fun n hn => ?_⟩
  obtain ⟨hlarger, -⟩ := stack.limit_monotone_with_threshold (.resolve v)
  have hdepth : ¬ OutOfDepth ((stack.withLimit 2).operate (.resolve v) .start).1 := by
    rw [htwo]
    exact not_outOfDepth_ok _
  obtain ⟨houtcome, -⟩ := hlarger 2 n hn hdepth
  rw [houtcome, htwo]

end Stack
end StackTemplate
