import StackTemplate.Proofs.Settled

/-!
# What a plan gives is what it ends with

A run in a settled session does what the plan gives or runs out of depth.  Here is the other
half: what a plan gives is reached in every settled session, with levels enough.  The levels
are found along the derivation, and where two parts of it need levels the larger number does
for both, because what is reached with some levels is reached with all more.

* `Stack.Leads`: with levels enough, a plan leads from one session to another.
* `Gives.exists_leads`: what a plan gives is reached.
* `eventually_iff_gives`: an operation ends with an outcome in a new session, from some limit
  on, exactly if its plan gives the outcome.
-/

namespace StackTemplate
namespace Stack

variable {stack : Stack} {α β : Type}

/-! ## 1. With levels enough -/

/-- With levels enough, the plan leads from the session `s` to the session `s'` and ends with
`outcome`. -/
def Leads (stack : Stack) (plan : Plan α) (s : Session) (outcome : Except ResolutionError α)
    (s' : Session) : Prop :=
  ∃ levels, ∀ n, levels ≤ n → plan.run (stack.resolveWithin n) s = (outcome, s')

theorem leads_done (a : α) (s : Session) : stack.Leads (.done a) s (.ok a) s :=
  ⟨0, fun _ _ => rfl⟩

theorem leads_fail (e : ResolutionError) (s : Session) :
    stack.Leads (.fail e : Plan α) s (.error e) s :=
  ⟨0, fun _ _ => rfl⟩

theorem Leads.bind {x : Plan α} {f : α → Plan β} {s s₁ s' : Session} {a : α}
    {outcome : Except ResolutionError β} (hx : stack.Leads x s (.ok a) s₁)
    (hf : stack.Leads (f a) s₁ outcome s') : stack.Leads (x >>= f) s outcome s' := by
  obtain ⟨levels, hx⟩ := hx
  obtain ⟨levels', hf⟩ := hf
  refine ⟨max levels levels', fun n hn => ?_⟩
  rw [Plan.run_bind, Run.bind_ok (hx n (by omega))]
  exact hf n (by omega)

theorem Leads.bind_error {x : Plan α} (f : α → Plan β) {s s₁ : Session} {e : ResolutionError}
    (hx : stack.Leads x s (.error e) s₁) : stack.Leads (x >>= f) s (.error e) s₁ := by
  obtain ⟨levels, hx⟩ := hx
  refine ⟨levels, fun n hn => ?_⟩
  rw [Plan.run_bind, Run.bind_error (hx n hn)]

/-- Asking for a value takes one level more than what it takes to resolve the value. -/
theorem Leads.ask {v : Value} {s s₁ : Session} {outcome : Except ResolutionError Value}
    (h : stack.Leads (stack.plan v) { s with depth := s.depth + 1 } outcome s₁) :
    stack.Leads (Plan.ask v) s outcome { s₁ with depth := s₁.depth - 1 } := by
  obtain ⟨levels, h⟩ := h
  refine ⟨levels + 1, fun n hn => ?_⟩
  obtain ⟨n, rfl⟩ : ∃ k, n = k + 1 := ⟨n - 1, by omega⟩
  rw [Plan.run_ask, resolveWithin, Session.deeper, h n (by omega)]

/-! ## 2. Names -/

/-- A run that leads somewhere keeps what every run keeps. -/
theorem Leads.sound {plan : Plan α} (hp : plan.Honest stack fun _ _ => True) {s s' : Session}
    {outcome : Except ResolutionError α} (h : stack.Leads plan s outcome s')
    (hs : stack.Settled s) : s.Grows s' ∧ stack.Settled s' := by
  obtain ⟨levels, h⟩ := h
  have hrun := h levels le_rfl
  obtain ⟨hgrow, hs', -⟩ := run_sound (stack.resolveWithin_sound levels) hp s _ _ hs hrun
  exact ⟨hgrow, hs'⟩

theorem run_name_done (r : Resource) (keys : List String) (levels : Nat) :
    (Plan.name r keys .done).run (stack.resolveWithin levels) =
      r.displayName (Session.place r.name) keys (stack.resolveWithin levels) :=
  bind_pure _

theorem leads_name_known {r : Resource} {keys : List String} {s : Session} {name : String}
    (hk : (s.cells r.name).known = some name) :
    stack.Leads (.name r keys .done) s (.ok name) s := by
  refine ⟨0, fun n _ => ?_⟩
  rw [run_name_done]
  exact r.displayName_of_known keys hk

theorem leads_name_pending {r : Resource} {keys : List String} {s : Session}
    (hk : (s.cells r.name).known = none) (hp : (s.cells r.name).pending = true) :
    stack.Leads (.name r keys .done) s (.error (.invalidName r.name .refersToItself)) s := by
  refine ⟨0, fun n _ => ?_⟩
  rw [run_name_done]
  exact r.displayName_of_pending keys hk hp

theorem Leads.name {r : Resource} {keys : List String} {s s₁ : Session}
    {outcome : Except ResolutionError String} (hc : s.cells r.name = .fresh)
    (h : stack.Leads (r.naming keys) (s.mark r.name) outcome s₁) :
    stack.Leads (.name r keys .done) s outcome (s₁.close r.name outcome) := by
  obtain ⟨levels, h⟩ := h
  refine ⟨levels, fun n hn => ?_⟩
  rw [run_name_done]
  have hgrow := Plan.naming_run_grows (stack.resolveWithin_grows n) r keys (s.mark r.name)
  exact r.displayName_of_fresh keys hc hgrow (h n hn)

/-- A name that is given is reached, if working it out reaches it: it is known already, or it is
worked out now. -/
theorem exists_leads_name {busy : Set String} {r : Resource} {keys : List String}
    {outcome : Except ResolutionError String} (hr : stack.Names r keys) (hn : r.name ∉ busy)
    (hg : stack.Gives (insert r.name busy) (r.naming keys) outcome)
    (ih : ∀ {s : Session}, stack.Settled s → s.busy = insert r.name busy →
      ∃ s', stack.Leads (r.naming keys) s outcome s')
    {s : Session} (hs : stack.Settled s) (hb : s.busy = busy) :
    ∃ s', stack.Leads (.name r keys .done) s outcome s' := by
  subst hb
  cases hk : (s.cells r.name).known with
  | some name =>
    have ho : outcome = .ok name := hs.eq_of_known hr hk hs.busy_unknown hg
    subst ho
    exact ⟨s, leads_name_known hk⟩
  | none =>
    have hc : s.cells r.name = .fresh := Session.fresh_of_not_mem_busy hn hk
    obtain ⟨s₁, h⟩ := ih (hs.mark hc) (s.busy_mark r.name)
    exact ⟨_, h.name hc⟩

/-! ## 3. What a plan gives is reached -/

/-- **What a plan gives is reached** in every settled session in which the same names are being
worked out. -/
theorem Gives.exists_leads {busy : Set String} {plan : Plan α}
    {outcome : Except ResolutionError α} (h : stack.Gives busy plan outcome)
    (hp : plan.Honest stack fun _ _ => True) {s : Session} (hs : stack.Settled s)
    (hb : s.busy = busy) : ∃ s', stack.Leads plan s outcome s' := by
  induction h generalizing s with
  | done a => exact ⟨s, leads_done a s⟩
  | fail _ => exact ⟨s, leads_fail _ s⟩
  | @resolve _ _ v w next _ _ _ ihv ihn =>
    obtain ⟨s₁, hv⟩ := ihv (stack.honest_plan v) (hs.withDepth (s.depth + 1)) hb
    obtain ⟨hgrow, hs₁⟩ := hv.ask.sound (Plan.honest_ask v) hs
    obtain ⟨s', hn⟩ := ihn (hp w trivial) hs₁ (hgrow.busy_eq.trans hb)
    exact ⟨s', hv.ask.bind hn⟩
  | @resolveError _ _ v next _ _ ih =>
    obtain ⟨s₁, hv⟩ := ih (stack.honest_plan v) (hs.withDepth (s.depth + 1)) hb
    exact ⟨_, hv.ask.bind_error next⟩
  | @name _ _ r keys name next _ hr hk _ ihk ihn =>
    have hnaming : (r.naming keys).Honest stack fun _ _ => True := stack.honest_naming hp.1
    obtain ⟨s₁, hask⟩ := exists_leads_name hp.1 hr hk (ihk hnaming) hs hb
    have hhonest : (Plan.name r keys .done).Honest stack fun _ _ => True :=
      ⟨hp.1, fun _ => trivial⟩
    obtain ⟨hgrow, hs₁⟩ := hask.sound hhonest hs
    obtain ⟨s', hn⟩ := ihn (hp.2 name) hs₁ (hgrow.busy_eq.trans hb)
    exact ⟨s', hask.bind hn⟩
  | @nameError _ _ r keys next e hr hk ih =>
    have hnaming : (r.naming keys).Honest stack fun _ _ => True := stack.honest_naming hp.1
    obtain ⟨s₁, hask⟩ := exists_leads_name hp.1 hr hk (ih hnaming) hs hb
    exact ⟨s₁, hask.bind_error next⟩
  | @busy _ _ r keys next hr =>
    have hpending : (s.cells r.name).pending = true := by
      rw [← hb] at hr
      exact hr
    have hunknown : (s.cells r.name).known = none := hs.busy_unknown hpending
    exact ⟨s, (leads_name_pending hunknown hpending).bind_error next⟩

/-! ## 4. From some limit on -/

/-- From some limit on, the operation ends with `outcome` in a new session. -/
def Eventually (stack : Stack) (op : Operation) (outcome : Except ResolutionError Answer) :
    Prop :=
  ∃ limit, ∀ n, limit ≤ n → ((stack.withLimit n).operate op .start).1 = outcome

/-- What a plan gives does not depend on the limit. -/
theorem Gives.withLimit {busy : Set String} {plan : Plan α}
    {outcome : Except ResolutionError α} (h : stack.Gives busy plan outcome) (limit : Nat) :
    (stack.withLimit limit).Gives busy plan outcome := by
  induction h with
  | done a => exact .done a
  | fail he => exact .fail he
  | resolve _ _ ihv ihn =>
    rw [← stack.plan_withLimit limit] at ihv
    exact .resolve ihv ihn
  | resolveError _ ih =>
    rw [← stack.plan_withLimit limit] at ih
    exact .resolveError ih
  | name hr _ _ ihk ihn => exact .name hr ihk ihn
  | nameError hr _ ih => exact .nameError hr ih
  | busy hr => exact .busy hr

theorem gives_withLimit_iff {limit : Nat} {busy : Set String} {plan : Plan α}
    {outcome : Except ResolutionError α} :
    (stack.withLimit limit).Gives busy plan outcome ↔ stack.Gives busy plan outcome := by
  constructor
  · intro h
    -- the limit of the stack itself takes the other one back
    exact h.withLimit stack.config.maxDepth
  · intro h
    exact h.withLimit limit

/-- Under a limit, after any operations, an operation ends with the limit exceeded, or with what
its plan gives. -/
theorem operate_withLimit_after_cases (stack : Stack) (ops : List Operation) (op : Operation)
    (limit : Nat) :
    ((stack.withLimit limit).operate op ((stack.withLimit limit).after ops .start)).1 =
        .error (.depthExceeded limit) ∨
      stack.Gives ∅ (op.plan stack)
        ((stack.withLimit limit).operate op ((stack.withLimit limit).after ops .start)).1 := by
  have h := (stack.withLimit limit).operate_after_start ops op rfl
  rw [gives_withLimit_iff, operation_plan_withLimit] at h
  exact h

/-- Under a limit, an operation ends with the limit exceeded, or with what its plan gives. -/
theorem operate_withLimit_cases (stack : Stack) (op : Operation) (limit : Nat) :
    ((stack.withLimit limit).operate op .start).1 = .error (.depthExceeded limit) ∨
      stack.Gives ∅ (op.plan stack) ((stack.withLimit limit).operate op .start).1 :=
  stack.operate_withLimit_after_cases [] op limit

/-- **An operation ends with an outcome from some limit on** exactly if its plan gives the
outcome. -/
theorem eventually_iff_gives {op : Operation} {outcome : Except ResolutionError Answer} :
    stack.Eventually op outcome ↔ stack.Gives ∅ (op.plan stack) outcome := by
  constructor
  · rintro ⟨limit, h⟩
    -- an error that names one limit is not the outcome under the next
    rcases stack.operate_withLimit_cases op limit with hd | hg
    · rcases stack.operate_withLimit_cases op (limit + 1) with hd' | hg'
      · rw [h limit le_rfl] at hd
        rw [h (limit + 1) (by omega), hd] at hd'
        simp at hd'
      · rwa [h (limit + 1) (by omega)] at hg'
    · rwa [h limit le_rfl] at hg
  · intro h
    obtain ⟨s', levels, hrun⟩ :=
      h.exists_leads (stack.honest_operation op) (settled_start stack) (stack.busy_after_start [])
    refine ⟨levels, fun n hn => ?_⟩
    have hlevels (v : Value) :
        (stack.resolveWithin n v).Refines ((stack.withLimit n).resolveWithin n v) :=
      stack.resolveWithin_refines stack.config.maxDepth n le_rfl v
    have heq := Plan.run_refines hlevels (op.plan stack) .start
    rw [hrun n hn] at heq
    rw [operate, perform, operation_plan_withLimit]
    change ((op.plan stack).run ((stack.withLimit n).resolveWithin n) .start).1 = outcome
    rw [heq h.not_outOfDepth]

/-- An answer under one limit, after any operations, is the answer from some limit on. -/
theorem eventually_of_operate (stack : Stack) (limit : Nat) (ops : List Operation)
    {op : Operation} {answer : Answer}
    (h : ((stack.withLimit limit).operate op ((stack.withLimit limit).after ops .start)).1 =
      .ok answer) : stack.Eventually op (.ok answer) := by
  have hg := (stack.withLimit limit).gives_of_operate_ok ops h
  rw [gives_withLimit_iff, operation_plan_withLimit] at hg
  exact eventually_iff_gives.mpr hg

/-- A value is what a part resolves to, from some limit on. -/
theorem eventually_resolve_ok_iff {v w : Value} :
    stack.Eventually (.resolve v) (.ok (.value w)) ↔ stack.Gives ∅ (stack.plan v) (.ok w) := by
  rw [eventually_iff_gives, Operation.plan, gives_map_ok_iff]
  simp only [gives_ask_iff, Answer.value.injEq, exists_eq_right']

theorem eventually_resolve_error_iff {v : Value} {e : ResolutionError} :
    stack.Eventually (.resolve v) (.error e) ↔ stack.Gives ∅ (stack.plan v) (.error e) := by
  rw [eventually_iff_gives, Operation.plan, gives_map_error_iff, gives_ask_iff]

theorem eventually_resolve_iff {v : Value} {outcome : Except ResolutionError Value} :
    stack.Eventually (.resolve v) (outcome.map .value) ↔ stack.Gives ∅ (stack.plan v) outcome := by
  cases outcome with
  | ok w => exact eventually_resolve_ok_iff
  | error e => exact eventually_resolve_error_iff

/-! ## 5. One deployment -/

/-- The document in some deployment, with the settings that are used when nothing is said. -/
def ofDocument (document : Value) : Stack where
  template := ⟨document⟩
  context := ⟨⟨"123456789012", "eu-west-1", "sample", []⟩, .nil, ⟨0, 0⟩⟩
  supplied := []
  config := ⟨.passthrough, Config.defaultMaxDepth⟩

end Stack
end StackTemplate
