import StackTemplate.Proofs.Eventual

/-!
# Every level is given back

A session counts the levels that are open, and `resolveWithin` is told how many are left.  These
are two accounts of one thing: at every point of a run, however deep, the two add up to the limit
(`During.depth_add_levels`).  So the level that is left to a request is the one that the depth of
its session leaves, the depth never passes the limit, and a level that is given back was taken.

Nothing that is resolved reads the depth of its session (`Run.IgnoresDepth`).  So a value is
resolved by carrying out its plan with one level less, and what is left of `deeper` is the level.

* `Stack.During`: the points of a run, at any nesting.
* `resolve_eq_of_lt`: resolving a value opens a level, carries out the plan and closes the level.
* `resolveWithin_succ`: resolving a value with one more level is carrying out its plan.
* `resolveWithin_ref`: so a reference is looked up with one level less than it is resolved with.
-/

namespace StackTemplate

/-! ## 1. The points of a run -/

/-- **The points of a run.**  While `plan` is carried out in `s` with `levels` levels left, it comes
to the point where `rest` is still to be carried out in `t` with `left` levels left.  That is where
it begins, where a value or a name that it asks for is worked out, and where it goes on with the
answer to a request. -/
inductive Stack.During (stack : Stack) :
    {α β : Type} → (levels : Nat) → (plan : Plan α) → (s : Session) →
      (left : Nat) → (rest : Plan β) → (t : Session) → Prop
  | here {α : Type} {levels : Nat} {plan : Plan α} {s : Session} :
      During stack levels plan s levels plan s
  | value {α β : Type} {levels left : Nat} {v : Value} {next : Value → Plan α} {rest : Plan β}
      {s t : Session}
      (h : During stack levels (stack.plan v) { s with depth := s.depth + 1 } left rest t) :
      During stack (levels + 1) (.resolve v next) s left rest t
  | afterValue {α β : Type} {levels left : Nat} {v w : Value} {next : Value → Plan α}
      {rest : Plan β} {s s₁ t : Session} (hv : stack.resolveWithin levels v s = (.ok w, s₁))
      (h : During stack levels (next w) s₁ left rest t) :
      During stack levels (.resolve v next) s left rest t
  | name {α β : Type} {levels left : Nat} {r : Resource} {keys : List String}
      {next : String → Plan α} {rest : Plan β} {s t : Session} (hc : s.cells r.name = .fresh)
      (h : During stack levels (r.naming keys) (s.mark r.name) left rest t) :
      During stack levels (.name r keys next) s left rest t
  | afterName {α β : Type} {levels left : Nat} {r : Resource} {keys : List String}
      {next : String → Plan α} {display : String} {rest : Plan β} {s s₁ t : Session}
      (hn : r.displayName (Session.place r.name) keys (stack.resolveWithin levels) s =
        (.ok display, s₁))
      (h : During stack levels (next display) s₁ left rest t) :
      During stack levels (.name r keys next) s left rest t

namespace Stack

variable {stack : Stack} {α β : Type}

/-- **Each level that is opened is one that is not left**, at every point of a run, and no point is
above the one where the run began. -/
theorem During.depth_add_levels {levels left : Nat} {plan : Plan α} {rest : Plan β}
    {s t : Session} (h : stack.During levels plan s left rest t) :
    t.depth + left = s.depth + levels ∧ s.depth ≤ t.depth := by
  induction h with
  | here => exact ⟨rfl, le_rfl⟩
  | @value _ _ levels left _ _ _ s t _ ih =>
    obtain ⟨hsum, hle⟩ : t.depth + left = s.depth + 1 + levels ∧ s.depth + 1 ≤ t.depth := ih
    exact ⟨by omega, by omega⟩
  | @afterValue _ _ levels _ v _ _ _ s s₁ _ hv _ ih =>
    have hs₁ : s₁.depth = s.depth := by
      have hgrow := stack.resolveWithin_grows levels v s
      rw [hv] at hgrow
      exact hgrow.depth
    rwa [hs₁] at ih
  | name _ _ ih => exact ih
  | @afterName _ _ levels _ r keys _ _ _ s s₁ _ hn _ ih =>
    have hs₁ : s₁.depth = s.depth := by
      have hgrow := r.displayName_grows keys
        (Plan.naming_run_grows (stack.resolveWithin_grows levels) r keys) s
      rw [hn] at hgrow
      exact hgrow.depth
    rwa [hs₁] at ih

/-- The levels that are left at a point of a run are those that the depth there leaves. -/
theorem During.levelsLeft_eq {left : Nat} {plan : Plan α} {rest : Plan β} {s t : Session}
    (h : stack.During (stack.levelsLeft s) plan s left rest t)
    (hs : s.depth ≤ stack.config.maxDepth) :
    t.depth ≤ stack.config.maxDepth ∧ left = stack.levelsLeft t := by
  obtain ⟨hsum, -⟩ := h.depth_add_levels
  unfold levelsLeft at hsum ⊢
  exact ⟨by omega, by omega⟩

/-! ## 2. A level is opened and closed -/

/-- No value is resolved at the limit. -/
theorem resolve_eq_of_le (stack : Stack) (v : Value) {s : Session}
    (h : stack.config.maxDepth ≤ s.depth) :
    stack.resolve v s = (.error (.depthExceeded stack.config.maxDepth), s) := by
  have hlevels : stack.levelsLeft s = 0 := Nat.sub_eq_zero_of_le h
  rw [resolve, hlevels]
  rfl

/-- **Below the limit a level is opened**, the plan of the value is carried out, and the level is
closed, whatever the outcome. -/
theorem resolve_eq_of_lt (stack : Stack) (v : Value) {s : Session}
    (h : s.depth < stack.config.maxDepth) :
    stack.resolve v s = Session.deeper (stack.perform (stack.plan v)) s := by
  have hlevels : stack.levelsLeft s = stack.levelsLeft { s with depth := s.depth + 1 } + 1 := by
    simp only [levelsLeft]
    omega
  rw [resolve, hlevels]
  rfl

end Stack

/-! ## 3. The depth is not read -/

namespace Run

variable {α β : Type}

/-- The run does the same at every depth. -/
def IgnoresDepth (x : Run Session α) : Prop :=
  ∀ (s : Session) (depth : Nat), x { s with depth } = ((x s).1, { (x s).2 with depth })

namespace IgnoresDepth

theorem pure (a : α) : IgnoresDepth (Pure.pure a) := fun _ _ => rfl

theorem throw (e : ResolutionError) : IgnoresDepth (MonadExcept.throw e : Run Session α) :=
  fun _ _ => rfl

theorem bind {x : Run Session α} {f : α → Run Session β} (hx : IgnoresDepth x)
    (hf : ∀ a, IgnoresDepth (f a)) : IgnoresDepth (x >>= f) := by
  intro s depth
  have hxs := hx s depth
  rcases h : x s with ⟨e | a, s₁⟩
  · rw [h] at hxs
    rw [Run.bind_error h, Run.bind_error hxs]
  · rw [h] at hxs
    rw [Run.bind_ok h, Run.bind_ok hxs]
    exact hf a s₁ depth

theorem deeper {x : Run Session α} (hx : IgnoresDepth x) : IgnoresDepth (Session.deeper x) := by
  intro s depth
  have hup := hx s (depth + 1)
  have hdown := hx s (s.depth + 1)
  simp only [Session.deeper, hup, hdown, Nat.add_sub_cancel]

/-- To run it one level deeper is to run it, since the level is given back. -/
theorem deeper_eq {x : Run Session α} (hx : IgnoresDepth x) (hgrow : Run.Grows x) :
    Session.deeper x = x := by
  funext s
  have hdeeper := hx s (s.depth + 1)
  have hdepth : (x s).2.depth = s.depth := (hgrow s).depth
  simp only [Session.deeper, hdeeper, Nat.add_sub_cancel]
  rw [← hdepth]
  rfl

theorem naming {answer : Value → Run Session Value} (h : ∀ v, IgnoresDepth (answer v))
    (r : Resource) (keys : List String) : IgnoresDepth ((r.naming keys).run answer) := by
  unfold Resource.naming
  cases r.firstProperty? keys with
  | none => exact pure _
  | some property =>
    refine bind (h property) fun v => ?_
    cases v with
    | string name => exact pure _
    | null => exact pure _
    | boolean | number | list | mapping => exact throw _

theorem displayName {answer : Value → Run Session Value} (h : ∀ v, IgnoresDepth (answer v))
    (hgrow : ∀ v, Run.Grows (answer v)) (r : Resource) (keys : List String) :
    IgnoresDepth (r.displayName (Session.place r.name) keys answer) := by
  intro s depth
  have hmark := Plan.naming_run_grows hgrow r keys
  rcases r.displayName_cases keys s (fun _ => hmark _) with
    ⟨name, hk, hd⟩ | ⟨hk, hp, hd⟩ | ⟨hc, outcome, s₁, hrun, hd⟩
  · rw [hd]
    exact r.displayName_of_known keys hk
  · rw [hd]
    exact r.displayName_of_pending keys hk hp
  · have hnaming := naming h r keys (s.mark r.name) depth
    rw [hrun] at hnaming
    rw [hd]
    exact r.displayName_of_fresh (s := { s with depth }) keys hc (hmark _) hnaming

end IgnoresDepth
end Run

namespace Plan

theorem run_ignoresDepth {α : Type} {answer : Value → Run Session Value}
    (h : ∀ v, (answer v).IgnoresDepth) (hgrow : ∀ v, Run.Grows (answer v)) (plan : Plan α) :
    (plan.run answer).IgnoresDepth := by
  induction plan with
  | done a => exact .pure a
  | fail e => exact .throw e
  | resolve v next ih => exact .bind (h v) ih
  | name r keys next ih => exact .bind (.displayName h hgrow r keys) ih

end Plan

namespace Stack

variable (stack : Stack)

theorem resolveWithin_ignoresDepth (levels : Nat) (v : Value) :
    (stack.resolveWithin levels v).IgnoresDepth := by
  induction levels generalizing v with
  | zero => exact .throw _
  | succ levels ih =>
    exact .deeper (Plan.run_ignoresDepth ih (stack.resolveWithin_grows levels) (stack.plan v))

/-- **To resolve a value with one more level is to carry out its plan.** -/
theorem resolveWithin_succ (levels : Nat) (v : Value) :
    stack.resolveWithin (levels + 1) v = (stack.plan v).run (stack.resolveWithin levels) := by
  have hgrow := stack.resolveWithin_grows levels
  have hdepth :=
    Plan.run_ignoresDepth (stack.resolveWithin_ignoresDepth levels) hgrow (stack.plan v)
  exact hdepth.deeper_eq (Plan.run_grows hgrow (stack.plan v))

/-- A text that is written takes a level, and gives it back at once. -/
theorem run_askString (f : Intrinsic) (role : ArgumentRole) (text : String) (levels : Nat) :
    (f.askString role (.string text)).run (stack.resolveWithin (levels + 1)) = pure text := by
  rw [Intrinsic.askString, Plan.run_bind, Plan.run_ask, resolveWithin_succ]
  rfl

/-- To resolve a reference with enough levels is to look its name up with one less. -/
theorem resolveWithin_ref (name : String) (levels : Nat) :
    stack.resolveWithin (levels + 2) (.mapping [("Ref", .string name)]) =
      (stack.reference name).run (stack.resolveWithin (levels + 1)) := by
  rw [resolveWithin_succ]
  change (stack.callRef (.string name)).run (stack.resolveWithin (levels + 1)) = _
  rw [callRef, Plan.run_bind, run_askString, pure_bind]

/-! ## 4. The guards -/

/-- **Every guard is released.**  Whatever is carried out in whatever session, and whether it ends
with a value or an error, the depth and the marks of names being worked out are afterwards what
they were before, and each known name is known and the same.

During a run, at any nesting, the depth is within the limit if it was so at the beginning, and
what is carried out there is what that session would carry out by itself; so the same holds of
all that a run does on the way.  A value that is resolved below the limit ends with its level
open, and this is the level that is given back.

Between operations no level is open and no name is marked, whatever the operations before have
ended with. -/
theorem guards_are_balanced :
    (∀ {α : Type} (plan : Plan α) (s : Session),
      (stack.perform plan s).2.depth = s.depth ∧
      (∀ name, ((stack.perform plan s).2.cells name).pending = (s.cells name).pending) ∧
      ∀ name display, (s.cells name).known = some display →
        ((stack.perform plan s).2.cells name).known = some display) ∧
    (∀ {α β : Type} (plan : Plan α) (s : Session) (left : Nat) (rest : Plan β) (t : Session),
      s.depth ≤ stack.config.maxDepth →
      stack.During (stack.levelsLeft s) plan s left rest t →
        t.depth ≤ stack.config.maxDepth ∧
        rest.run (stack.resolveWithin left) t = stack.perform rest t) ∧
    (∀ (v : Value) (s : Session), s.depth < stack.config.maxDepth →
      ∃ outcome s', stack.perform (stack.plan v) { s with depth := s.depth + 1 } = (outcome, s') ∧
        s'.depth = s.depth + 1 ∧
        stack.resolve v s = (outcome, { s' with depth := s'.depth - 1 })) ∧
    ∀ ops : List Operation, (stack.after ops .start).depth = 0 ∧
      ∀ name, ((stack.after ops .start).cells name).pending = false := by
  refine ⟨fun plan s => ?_, fun plan s left rest t hs h => ?_, fun v s h => ?_, fun ops => ?_⟩
  · have hgrow := stack.perform_grows plan s
    exact ⟨hgrow.depth, hgrow.pending, hgrow.known⟩
  · obtain ⟨hlimit, rfl⟩ := h.levelsLeft_eq hs
    exact ⟨hlimit, rfl⟩
  · have hbody := stack.perform_grows (stack.plan v) { s with depth := s.depth + 1 }
    refine ⟨_, _, rfl, hbody.depth, ?_⟩
    rw [stack.resolve_eq_of_lt v h]
    rfl
  · have hgrow := stack.after_grows ops .start
    exact ⟨hgrow.depth, hgrow.pending⟩

/-- A topic that is named after itself.  Where the reference in its name is looked at, both levels
of the limit are open and the topic is marked; after the failure neither is so. -/
theorem deepest_point_of_self_named_topic :
    let reference := Value.mapping [("Ref", .string "T")]
    let topic := Value.mapping [("Type", .string "AWS::SNS::Topic"),
      ("Properties", .mapping [("TopicName", reference)])]
    let stack := (ofDocument (.mapping [("Resources", .mapping [("T", topic)])])).withLimit 2
    let t : Session := { Session.start.mark "T" with depth := 2 }
    stack.During 2 (stack.reference "T") .start 0 (stack.plan (.string "T")) t ∧
      t.depth ≤ stack.config.maxDepth ∧
      (stack.operate (.reference "T") .start).1 = .error (.invalidName "T" .refersToItself) ∧
      (stack.after [.reference "T"] .start).depth = 0 ∧
      ∀ name, ((stack.after [.reference "T"] .start).cells name).pending = false := by
  intro reference topic stack t
  have hpoint : stack.During 2 (stack.reference "T") .start 0 (stack.plan (.string "T")) t :=
    .name rfl (.value (.value .here))
  obtain ⟨-, hduring, -, hbetween⟩ := stack.guards_are_balanced
  obtain ⟨hlimit, -⟩ := hduring (stack.reference "T") .start 0 (stack.plan (.string "T")) t
    (Nat.zero_le _) hpoint
  exact ⟨hpoint, hlimit, by rfl, hbetween [.reference "T"]⟩

end Stack
end StackTemplate
