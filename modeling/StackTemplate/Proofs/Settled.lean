import Mathlib.Order.BooleanAlgebra.Set
import StackTemplate.Proofs.Request

/-!
# Settled sessions

Names become known in the middle of other names, between failures, and at any depth.  A session
is *settled* when each known name is the name that its resource has without depth and without
memory, and when all that it takes to work the name out anew is known as well.  The second half
is what makes the first one last: a name that is known may be used while any unknown name is
being worked out, because it depends on none of these.

* `run_sound`: every run keeps a settled session settled.  It ends with the depth exceeded, or
  with what the plan gives while the same names are being worked out.
* `operate_after_start`: so whatever has been carried out before, an operation ends with what
  its plan gives, or with the depth exceeded.
-/

namespace StackTemplate

/-! ## 1. Names being worked out, and names not known -/

namespace Session

/-- The names that are being worked out. -/
def busy (s : Session) : Set String := {name | (s.cells name).pending = true}

/-- The names that are not known. -/
def unknown (s : Session) : Set String := {name | (s.cells name).known = none}

theorem Grows.busy_eq {s s' : Session} (h : s.Grows s') : s'.busy = s.busy := by
  ext name
  simp only [busy, Set.mem_ofPred_eq, h.pending name]

theorem Grows.unknown_subset {s s' : Session} (h : s.Grows s') : s'.unknown ⊆ s.unknown := by
  intro name hn
  cases hk : (s.cells name).known with
  | none => exact hk
  | some display =>
    have := h.known name display hk
    rw [unknown, Set.mem_ofPred_eq, this] at hn
    cases hn

theorem busy_mark (s : Session) (name : String) : (s.mark name).busy = insert name s.busy := by
  ext other
  by_cases ho : other = name
  · simp [busy, mark, ho]
  · simp [busy, mark, ho]

theorem unknown_mark {s : Session} {name : String} (hc : s.cells name = .fresh) :
    (s.mark name).unknown = s.unknown := by
  ext other
  by_cases ho : other = name
  · subst ho
    simp [unknown, mark, hc, NameCell.fresh]
  · simp [unknown, mark, ho]

theorem busy_close (s : Session) (name : String) (outcome : Except ResolutionError String) :
    (s.close name outcome).busy = s.busy \ {name} := by
  ext other
  by_cases ho : other = name
  · simp [busy, close, ho]
  · simp [busy, close, ho]

theorem unknown_close_error (s : Session) (name : String) (e : ResolutionError) :
    (s.close name (.error e)).unknown = insert name s.unknown := by
  ext other
  by_cases ho : other = name
  · simp [unknown, close, ho, Except.toOption]
  · simp [unknown, close, ho]

theorem unknown_close_ok (s : Session) (name display : String) :
    (s.close name (.ok display)).unknown = s.unknown \ {name} := by
  ext other
  by_cases ho : other = name
  · simp [unknown, close, ho, Except.toOption]
  · simp [unknown, close, ho]

theorem not_mem_busy_of_fresh {s : Session} {name : String} (hc : s.cells name = .fresh) :
    name ∉ s.busy := by
  simp [busy, hc, NameCell.fresh]

/-- A name that is not being worked out is known or fresh. -/
theorem fresh_of_not_mem_busy {s : Session} {name : String} (hn : name ∉ s.busy)
    (hk : (s.cells name).known = none) : s.cells name = .fresh := by
  rcases hc : s.cells name with ⟨known, pending⟩
  rw [hc] at hk
  cases hp : pending with
  | true => exact absurd (show (s.cells name).pending = true by rw [hc, hp]) hn
  | false =>
    subst hk
    rfl

end Session

/-! ## 2. The invariant -/

namespace Stack

/-- **A settled session.**  A name that is being worked out is not known; and each known name is
the one that its resource has, even if every unknown name were being worked out. -/
structure Settled (stack : Stack) (s : Session) : Prop where
  busy_unknown : s.busy ⊆ s.unknown
  known : ∀ r keys name, stack.Names r keys → (s.cells r.name).known = some name →
    stack.Gives (insert r.name s.unknown) (r.naming keys) (.ok name)

variable {stack : Stack} {α : Type}

theorem settled_start (stack : Stack) : stack.Settled .start where
  busy_unknown name h := by cases h
  known r keys name hr h := by cases h

/-- The depth plays no part. -/
theorem Settled.withDepth {s : Session} (h : stack.Settled s) (depth : Nat) :
    stack.Settled { s with depth } :=
  ⟨h.busy_unknown, h.known⟩

/-- A known name is what working it out now would give. -/
theorem Settled.eq_of_known {s : Session} (h : stack.Settled s) {r : Resource}
    {keys : List String} {name : String} (hr : stack.Names r keys)
    (hk : (s.cells r.name).known = some name) {busy : Set String} (hb : busy ⊆ s.unknown)
    {outcome : Except ResolutionError String}
    (hg : stack.Gives (insert r.name busy) (r.naming keys) outcome) : outcome = .ok name :=
  hg.unique ((h.known r keys name hr hk).anti (Set.insert_subset_insert hb))

theorem Settled.mark {s : Session} (h : stack.Settled s) {name : String}
    (hc : s.cells name = .fresh) : stack.Settled (s.mark name) where
  busy_unknown := by
    rw [Session.busy_mark, Session.unknown_mark hc]
    refine Set.insert_subset ?_ h.busy_unknown
    simp [Session.unknown, hc, NameCell.fresh]
  known r keys display hr hk := by
    rw [Session.unknown_mark hc]
    have hne : r.name ≠ name := by
      intro he
      rw [he] at hk
      simp [Session.mark] at hk
    exact h.known r keys display hr (by simpa [Session.mark, hne] using hk)

/-- A failed attempt leaves a settled session settled. -/
theorem Settled.close_error {s : Session} (h : stack.Settled s) {name : String}
    (hc : (s.cells name).known = none) (e : ResolutionError) :
    stack.Settled (s.close name (.error e)) := by
  have hunknown : (s.close name (.error e)).unknown = s.unknown := by
    rw [Session.unknown_close_error]
    exact Set.insert_eq_of_mem hc
  refine ⟨?_, fun r keys display hr hk => ?_⟩
  · rw [hunknown, Session.busy_close]
    exact Set.sdiff_subset.trans h.busy_unknown
  · have hne : r.name ≠ name := by
      intro he
      rw [he] at hk
      simp [Session.close, Except.toOption] at hk
    rw [hunknown]
    exact h.known r keys display hr (by simpa [Session.close, hne] using hk)

/-- A name may be remembered when it was worked out from known names alone. -/
theorem Settled.close_ok {s : Session} (h : stack.Settled s) {r : Resource}
    {keys : List String} {name : String} (hr : stack.Names r keys)
    (hg : stack.Gives s.unknown (r.naming keys) (.ok name))
    (hc : (s.cells r.name).known = none) : stack.Settled (s.close r.name (.ok name)) where
  busy_unknown := by
    rw [Session.unknown_close_ok, Session.busy_close]
    exact Set.sdiff_subset_sdiff_left h.busy_unknown
  known r' keys' name' hr' hk := by
    rw [Session.unknown_close_ok]
    by_cases he : r'.name = r.name
    · obtain ⟨rfl, rfl⟩ := hr'.unique hr he
      have hname : name = name' := by
        simpa [Session.close, Except.toOption] using hk
      subst hname
      exact hg.anti (Set.insert_subset hc Set.sdiff_subset)
    · have hold := h.known r' keys' name' hr' (by simpa [Session.close, he] using hk)
      exact hold.anti (Set.insert_subset_insert Set.sdiff_subset)

/-! ## 3. Runs in settled sessions -/

/-- A run from `s` to `s'` ends with what its plan gives.  A value needs only what is known
afterwards; an error may be about a name that is being worked out. -/
def Accounts (stack : Stack) (s s' : Session) (plan : Plan α) :
    Except ResolutionError α → Prop
  | .ok a => stack.Gives s'.unknown plan (.ok a)
  | .error e => e = .depthExceeded stack.config.maxDepth ∨ stack.Gives s.busy plan (.error e)

/-- The run `x` does what the plan gives in every settled session, and keeps it settled. -/
def Sound (stack : Stack) (plan : Plan α) (x : Run Session α) : Prop :=
  ∀ s outcome s', stack.Settled s → x s = (outcome, s') →
    s.Grows s' ∧ stack.Settled s' ∧ stack.Accounts s s' plan outcome

theorem Accounts.gives {s s' : Session} (hs' : stack.Settled s') (hgrow : s.Grows s')
    {plan : Plan α} {outcome : Except ResolutionError α}
    (h : stack.Accounts s s' plan outcome) :
    outcome = .error (.depthExceeded stack.config.maxDepth) ∨
      stack.Gives s.busy plan outcome := by
  cases outcome with
  | ok a =>
    have hsub : s.busy ⊆ s'.unknown := hgrow.busy_eq ▸ hs'.busy_unknown
    exact Or.inr (Gives.anti h hsub)
  | error e => exact h.imp_left (congrArg Except.error)

/-- A run in a settled session that does not run out of depth ends with what the plan gives. -/
theorem Sound.eq_of_gives {plan : Plan α} {x : Run Session α} (hx : stack.Sound plan x)
    {s s' : Session} (hs : stack.Settled s) {outcome outcome' : Except ResolutionError α}
    (hrun : x s = (outcome, s')) (hd : ¬ OutOfDepth outcome)
    (hg : stack.Gives s.busy plan outcome') : outcome = outcome' := by
  obtain ⟨hgrow, hs', hacc⟩ := hx s outcome s' hs hrun
  rcases hacc.gives hs' hgrow with rfl | h
  · exact absurd ⟨_, rfl⟩ hd
  · exact h.unique hg

variable {answer : Value → Run Session Value}

theorem sound_done (a : α) : stack.Sound (.done a) ((Plan.done a).run answer) := by
  intro s outcome s' hs h
  cases h
  exact ⟨.refl s, hs, .done a⟩

theorem sound_fail {e : ResolutionError} (he : ∀ limit, e ≠ .depthExceeded limit) :
    stack.Sound (.fail e : Plan α) ((Plan.fail e).run answer) := by
  intro s outcome s' hs h
  cases h
  exact ⟨.refl s, hs, Or.inr (.fail he)⟩

/-- One run after another. -/
theorem Sound.bind {β : Type} {x : Plan α} {X : Run Session α} {f : α → Plan β}
    {F : α → Run Session β} (hx : stack.Sound x X) (hf : ∀ a, stack.Sound (f a) (F a)) :
    stack.Sound (x >>= f) (X >>= F) := by
  intro s outcome s' hs h
  rcases hX : X s with ⟨e | a, s₁⟩
  · rw [Run.bind_error hX] at h
    cases h
    obtain ⟨hgrow, hs₁, hacc⟩ := hx s _ _ hs hX
    exact ⟨hgrow, hs₁, hacc.imp_right fun he => he.bind_error f⟩
  · rw [Run.bind_ok hX] at h
    obtain ⟨hgrow, hs₁, hacc⟩ := hx s _ _ hs hX
    obtain ⟨hgrow', hs', hacc'⟩ := hf a s₁ _ _ hs₁ h
    refine ⟨hgrow.trans hgrow', hs', ?_⟩
    cases outcome with
    | ok b =>
      have ha : stack.Gives s'.unknown x (.ok a) := hacc.anti hgrow'.unknown_subset
      exact ha.bind hacc'
    | error e =>
      refine hacc'.imp_right fun he => ?_
      have hsub : s.busy ⊆ s₁.unknown := hgrow.busy_eq ▸ hs₁.busy_unknown
      have ha : stack.Gives s.busy x (.ok a) := hacc.anti hsub
      rw [hgrow.busy_eq] at he
      exact ha.bind he

theorem sound_ask {v : Value} {x : Run Session Value} (hv : stack.Sound (stack.plan v) x) :
    stack.Sound (Plan.ask v) x := by
  intro s outcome s' hs h
  obtain ⟨hgrow, hs', hacc⟩ := hv s _ _ hs h
  refine ⟨hgrow, hs', ?_⟩
  cases outcome with
  | ok w => exact gives_ask_iff.mpr hacc
  | error e => exact hacc.imp_right gives_ask_iff.mpr

theorem Sound.deeper {plan : Plan α} {x : Run Session α} (hx : stack.Sound plan x) :
    stack.Sound plan (Session.deeper x) := by
  intro s outcome s' hs h
  rcases hX : x { s with depth := s.depth + 1 } with ⟨outcome₁, s₁⟩
  obtain ⟨hgrow, hs₁, hacc⟩ := hx _ _ _ (hs.withDepth _) hX
  simp only [Session.deeper, hX] at h
  cases h
  exact ⟨hgrow.deeper, hs₁.withDepth _, hacc⟩

/-- Working out a name that nobody has asked for lets the marked session grow. -/
theorem Sound.mark_grows {r : Resource} {keys : List String} {x : Run Session String}
    (hx : stack.Sound (r.naming keys) x) {s : Session} (hs : stack.Settled s)
    (hc : s.cells r.name = .fresh) : (s.mark r.name).Grows (x (s.mark r.name)).2 := by
  obtain ⟨hgrow, -, -⟩ := hx _ _ _ (hs.mark hc) rfl
  exact hgrow

/-- **Asking for a name** in a settled session: a known name is the right one, and a name that
has just been worked out may be remembered. -/
theorem sound_displayName {r : Resource} {keys : List String} (hr : stack.Names r keys)
    (hk : stack.Sound (r.naming keys) ((r.naming keys).run answer)) :
    stack.Sound (.name r keys .done) (r.displayName (Session.place r.name) keys answer) := by
  intro s outcome s' hs h
  rcases r.displayName_cases keys s (hk.mark_grows hs) with
    ⟨name, hknown, hd⟩ | ⟨-, hpending, hd⟩ | ⟨hc, outcome₁, s₁, hrun, hd⟩
  · rw [hd] at h
    cases h
    have hn : r.name ∉ s.unknown := by
      simp [Session.unknown, hknown]
    exact ⟨.refl s, hs, .name hn (hs.known r keys name hr hknown) (.done name)⟩
  · rw [hd] at h
    cases h
    exact ⟨.refl s, hs, Or.inr (.busy hpending)⟩
  · rw [hd] at h
    cases h
    obtain ⟨hgrow, hs₁, hacc⟩ := hk _ _ _ (hs.mark hc) hrun
    have hcell : (s₁.cells r.name).known = none := by
      rw [hgrow.guarded r.name (by simp [Session.mark])]
      simp [Session.mark]
    cases outcome with
    | ok name =>
      refine ⟨hgrow.close hc _, hs₁.close_ok hr hacc hcell, ?_⟩
      change stack.Gives (s₁.close r.name (.ok name)).unknown _ _
      rw [Session.unknown_close_ok]
      refine .name (fun hm => hm.2 rfl) (hacc.anti ?_) (.done name)
      exact Set.insert_subset hcell Set.sdiff_subset
    | error e =>
      refine ⟨hgrow.close hc _, hs₁.close_error hcell e, hacc.imp_right fun he => ?_⟩
      rw [Session.busy_mark] at he
      exact .nameError (Session.not_mem_busy_of_fresh hc) he

/-- How a name is worked out is sound if resolving values is. -/
theorem sound_naming (hv : ∀ v, stack.Sound (stack.plan v) (answer v)) (r : Resource)
    (keys : List String) : stack.Sound (r.naming keys) ((r.naming keys).run answer) := by
  unfold Resource.naming
  cases r.firstProperty? keys with
  | none => exact sound_done r.name
  | some property =>
    refine (sound_ask (hv property)).bind fun w => ?_
    cases w with
    | string name => exact sound_done name
    | null => exact sound_done r.name
    | boolean | number | list | mapping =>
      refine sound_fail fun limit h => ?_
      cases h

/-- **A plan run in a settled session** does what it gives, if resolving a value does. -/
theorem run_sound (hv : ∀ v, stack.Sound (stack.plan v) (answer v)) {plan : Plan α}
    (hp : plan.Honest stack fun _ _ => True) : stack.Sound plan (plan.run answer) := by
  induction plan with
  | done a => exact sound_done a
  | fail e => exact sound_fail hp.ne_depthExceeded
  | resolve v next ih => exact (sound_ask (hv v)).bind fun w => ih w (hp w trivial)
  | name r keys next ih =>
    exact (sound_displayName hp.1 (sound_naming hv r keys)).bind fun name => ih name (hp.2 name)

theorem resolveWithin_sound (stack : Stack) (levels : Nat) (v : Value) :
    stack.Sound (stack.plan v) (stack.resolveWithin levels v) := by
  induction levels generalizing v with
  | zero =>
    intro s outcome s' hs h
    cases h
    exact ⟨.refl s, hs, Or.inl rfl⟩
  | succ levels ih => exact (run_sound ih (stack.honest_plan v)).deeper

/-! ## 4. Operations -/

/-- **Every plan of a stack is sound** in every settled session. -/
theorem perform_sound {plan : Plan α} (hp : plan.Honest stack fun _ _ => True) :
    stack.Sound plan (stack.perform plan) :=
  fun s => run_sound (stack.resolveWithin_sound _) hp s

/-- A run of operations keeps a settled session settled, whatever their outcomes. -/
theorem Settled.after {s : Session} (h : stack.Settled s) (ops : List Operation) :
    stack.Settled (stack.after ops s) := by
  induction ops generalizing s with
  | nil => exact h
  | cons op ops ih =>
    obtain ⟨-, hs', -⟩ := perform_sound (stack.honest_operation op) s _ _ h rfl
    exact ih hs'

/-- Between operations no name is being worked out. -/
theorem busy_after_start (stack : Stack) (ops : List Operation) :
    (stack.after ops .start).busy = ∅ := by
  rw [(stack.after_grows ops .start).busy_eq]
  simp [Session.busy, Session.start, NameCell.fresh]

/-- **After any operations** a plan that is carried out ends with the depth exceeded, or with what
it gives without depth and without memory. -/
theorem perform_after_start (stack : Stack) (ops : List Operation) {plan : Plan α}
    (hp : plan.Honest stack fun _ _ => True) {outcome : Except ResolutionError α}
    (h : (stack.perform plan (stack.after ops .start)).1 = outcome) :
    outcome = .error (.depthExceeded stack.config.maxDepth) ∨ stack.Gives ∅ plan outcome := by
  subst h
  have hs : stack.Settled (stack.after ops .start) := (settled_start stack).after ops
  obtain ⟨hgrow, hs', hacc⟩ := perform_sound hp _ _ _ hs rfl
  have hgives := hacc.gives hs' hgrow
  rwa [stack.busy_after_start ops] at hgives

/-- So does an operation, with its plan. -/
theorem operate_after_start (stack : Stack) (ops : List Operation) (op : Operation)
    {outcome : Except ResolutionError Answer}
    (h : (stack.operate op (stack.after ops .start)).1 = outcome) :
    outcome = .error (.depthExceeded stack.config.maxDepth) ∨
      stack.Gives ∅ (op.plan stack) outcome :=
  stack.perform_after_start ops (stack.honest_operation op) h

/-- What an operation answers, after any operations, is what its plan gives. -/
theorem gives_of_operate_ok (stack : Stack) (ops : List Operation) {op : Operation}
    {answer : Answer} (h : (stack.operate op (stack.after ops .start)).1 = .ok answer) :
    stack.Gives ∅ (op.plan stack) (.ok answer) := by
  rcases stack.operate_after_start ops op h with hd | hg
  · cases hd
  · exact hg

/-- What a value resolves to, after any operations, is what its plan gives. -/
theorem gives_of_operate_resolve (stack : Stack) (ops : List Operation) {v w : Value}
    (h : (stack.operate (.resolve v) (stack.after ops .start)).1 = .ok (.value w)) :
    stack.Gives ∅ (stack.plan v) (.ok w) := by
  obtain ⟨x, hx, hw⟩ := gives_map_ok_iff.mp (stack.gives_of_operate_ok ops h)
  cases hw
  exact gives_ask_iff.mp hx

end Stack
end StackTemplate
