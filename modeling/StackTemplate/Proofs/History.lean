import StackTemplate.Proofs.Eventual

/-!
# History does not show

Names that earlier operations have worked out save depth and nothing else.  Two things are to
be shown of a session that is ahead of another one, in that it knows more names.

An answer that is reached in the session behind is reached in the session ahead (`Follows`).
Step by step the session ahead stays ahead.  The one doubtful step is a name that only it
knows: the other session works that name out and may learn further names on the way.  It learns
none that the session ahead does not know, because a known name asks for known names alone, and
a run asks for nothing that its plan does not ask for (`Spares`).

An answer that is reached after any operations is what the plan gives, and this is reached in a
new session from some limit on.

* `Gives.spares`: a run leaves unknown what its plan does not ask for.
* `follows_displayName`: the one doubtful step, a name that only the session ahead knows.
* `operate_after_eq`: what an operation ends with in a new session it ends with after any others.
* `endsWith_iff_gives`: what an operation ends with in all sessions, depth aside, its plan gives.
* `resolvesTo_iff_gives`: what a value resolves to in all sessions, depth aside, its plan gives.
-/

namespace StackTemplate

/-! ## 1. Sessions that know more -/

/-- The session `s` knows at least the names that `t` knows, and the same names are being worked
out. -/
structure Session.Behind (t s : Session) : Prop where
  busy : s.busy = t.busy
  unknown : s.unknown ⊆ t.unknown

theorem Session.Behind.close {t s : Session} (h : t.Behind s) (name : String)
    (outcome : Except ResolutionError String) :
    (t.close name outcome).Behind (s.close name outcome) where
  busy := by
    rw [busy_close, busy_close, h.busy]
  unknown := by
    cases outcome with
    | error e =>
      rw [unknown_close_error, unknown_close_error]
      exact Set.insert_subset_insert h.unknown
    | ok display =>
      rw [unknown_close_ok, unknown_close_ok]
      exact Set.sdiff_subset_sdiff_left h.unknown

namespace Stack

variable {stack : Stack} {α β : Type} {answer : Value → Run Session Value}

/-! ## 2. Names that a run does not ask for -/

/-- The run leaves the names in `names` unknown, unless one of them is being worked out from
outside. -/
def Spares (stack : Stack) (names : Set String) (x : Run Session α) : Prop :=
  ∀ s, stack.Settled s → s.busy ⊆ names → names ∩ s.unknown ⊆ (x s).2.unknown

variable {names : Set String}

/-- One run after another, when the first one can give no other value than `a`. -/
theorem Spares.bind {x : Plan α} {X : Run Session α} {F : α → Run Session β} {a : α}
    (hx : stack.Spares names X) (hsound : stack.Sound x X) (hg : stack.Gives names x (.ok a))
    (hf : stack.Spares names (F a)) : stack.Spares names (X >>= F) := by
  intro s hs hb
  have hfirst := hx s hs hb
  rcases hX : X s with ⟨e | a', s₁⟩
  · rw [hX] at hfirst
    rw [Run.bind_error hX]
    exact hfirst
  · rw [hX] at hfirst
    have ha : (.ok a' : Except ResolutionError α) = .ok a :=
      hsound.eq_of_gives hs hX (not_outOfDepth_ok a') (hg.anti hb)
    cases ha
    obtain ⟨hgrow, hs₁, -⟩ := hsound s _ _ hs hX
    rw [Run.bind_ok hX]
    have hrest := hf s₁ hs₁ (hgrow.busy_eq.trans_subset hb)
    intro name hname
    exact hrest ⟨hname.1, hfirst hname⟩

theorem Spares.deeper {x : Run Session α} (hx : stack.Spares names x) :
    stack.Spares names (Session.deeper x) :=
  fun s hs hb => hx { s with depth := s.depth + 1 } (hs.withDepth _) hb

theorem spares_displayName {r : Resource} {keys : List String} (hn : r.name ∉ names)
    (hsound : stack.Sound (r.naming keys) ((r.naming keys).run answer))
    (hx : stack.Spares (insert r.name names) ((r.naming keys).run answer)) :
    stack.Spares names (r.displayName (Session.place r.name) keys answer) := by
  intro s hs hb name hname
  rcases r.displayName_cases keys s (hsound.mark_grows hs) with
    ⟨_, -, h⟩ | ⟨-, -, h⟩ | ⟨hc, outcome, s₁, hrun, h⟩
  · rw [h]
    exact hname.2
  · rw [h]
    exact hname.2
  · rw [h]
    have hne : name ≠ r.name := by
      rintro rfl
      exact hn hname.1
    have hsub : (s.mark r.name).busy ⊆ insert r.name names := by
      rw [Session.busy_mark]
      exact Set.insert_subset_insert hb
    have hafter := hx _ (hs.mark hc) hsub
    rw [hrun, Session.unknown_mark hc] at hafter
    have h₁ : name ∈ s₁.unknown := hafter ⟨Set.mem_insert_of_mem _ hname.1, hname.2⟩
    simpa [Session.unknown, Session.close, hne] using h₁

/-- **A run asks for nothing that its plan does not ask for**: if the plan gives a value while
`names` are being worked out, no run of it works one of them out. -/
theorem Gives.spares {plan : Plan α} {a : α} (h : stack.Gives names plan (.ok a))
    (hp : plan.Honest stack fun _ _ => True) (levels : Nat) :
    stack.Spares names (plan.run (stack.resolveWithin levels)) := by
  generalize ho : (Except.ok a : Except ResolutionError α) = outcome at h
  induction h generalizing levels with
  | done b => exact fun s _ _ => Set.inter_subset_right
  | fail _ => cases ho
  | @resolve _ names v w next _ hv _ ihv ihn =>
    have hanswer : stack.Spares names (stack.resolveWithin levels v) := by
      cases levels with
      | zero => exact fun s _ _ => Set.inter_subset_right
      | succ levels => exact (ihv (stack.honest_plan v) levels rfl).deeper
    exact hanswer.bind (stack.resolveWithin_sound levels v) hv (ihn (hp w trivial) levels ho)
  | resolveError _ _ => cases ho
  | @name _ names r keys name next _ hr hk _ ihk ihn =>
    have hsound := sound_naming (stack.resolveWithin_sound levels) r keys
    have hnaming := ihk (stack.honest_naming hp.1) levels rfl
    have hgives : stack.Gives names (.name r keys .done) (.ok name) := .name hr hk (.done name)
    exact (spares_displayName hr hsound hnaming).bind (sound_displayName hp.1 hsound) hgives
      (ihn (hp.2 name) levels ho)
  | nameError _ _ _ => cases ho
  | busy _ => cases ho

/-! ## 3. A session that is ahead stays ahead -/

/-- Unless the run runs out of depth, it ends in every session that is ahead with the same
outcome, and the session ahead stays ahead. -/
def Follows (stack : Stack) (x : Run Session α) : Prop :=
  ∀ t s, stack.Settled t → stack.Settled s → t.Behind s → ¬ OutOfDepth (x t).1 →
    (x s).1 = (x t).1 ∧ (x t).2.Behind (x s).2

theorem follows_pure (a : α) : stack.Follows (pure a) :=
  fun _ _ _ _ hts _ => ⟨rfl, hts⟩

theorem follows_throw (e : ResolutionError) : stack.Follows (throw e : Run Session α) :=
  fun _ _ _ _ hts _ => ⟨rfl, hts⟩

theorem Follows.bind {x : Plan α} {X : Run Session α} {F : α → Run Session β}
    (hx : stack.Follows X) (hsound : stack.Sound x X) (hf : ∀ a, stack.Follows (F a)) :
    stack.Follows (X >>= F) := by
  intro t s ht hs hts hd
  rcases hXt : X t with ⟨e | a, t₁⟩
  · rw [Run.bind_error hXt] at hd ⊢
    have hfirst := hx t s ht hs hts
    rw [hXt] at hfirst
    obtain ⟨houtcome, hbehind⟩ :=
      hfirst fun h => hd (outOfDepth_error_iff.mpr (outOfDepth_error_iff.mp h))
    rcases hXs : X s with ⟨outcome, s₁⟩
    rw [hXs] at houtcome hbehind
    cases houtcome
    rw [Run.bind_error hXs]
    exact ⟨rfl, hbehind⟩
  · rw [Run.bind_ok hXt] at hd ⊢
    have hfirst := hx t s ht hs hts
    rw [hXt] at hfirst
    obtain ⟨houtcome, hbehind⟩ := hfirst (not_outOfDepth_ok a)
    rcases hXs : X s with ⟨outcome, s₁⟩
    rw [hXs] at houtcome hbehind
    cases houtcome
    rw [Run.bind_ok hXs]
    obtain ⟨-, ht₁, -⟩ := hsound t _ _ ht hXt
    obtain ⟨-, hs₁, -⟩ := hsound s _ _ hs hXs
    exact hf a t₁ s₁ ht₁ hs₁ hbehind hd

theorem Follows.deeper {x : Run Session α} (hx : stack.Follows x) :
    stack.Follows (Session.deeper x) := by
  intro t s ht hs hts hd
  obtain ⟨houtcome, hbehind⟩ :=
    hx { t with depth := t.depth + 1 } { s with depth := s.depth + 1 } (ht.withDepth _)
      (hs.withDepth _) ⟨hts.busy, hts.unknown⟩ hd
  exact ⟨houtcome, hbehind.busy, hbehind.unknown⟩

/-- A name that the session behind knows is known in the session ahead, and it is the same. -/
theorem known_of_behind {t s : Session} (ht : stack.Settled t) (hs : stack.Settled s)
    (hts : t.Behind s) {r : Resource} {keys : List String} (hr : stack.Names r keys)
    {name : String} (hk : (t.cells r.name).known = some name) :
    (s.cells r.name).known = some name := by
  cases hks : (s.cells r.name).known with
  | none =>
    have hunknown : (t.cells r.name).known = none := hts.unknown hks
    rw [hk] at hunknown
    cases hunknown
  | some name' =>
    have hg := (ht.known r keys name hr hk).anti (Set.insert_subset_insert hts.unknown)
    cases hs.eq_of_known hr hks subset_rfl hg
    rfl

/-- **A name that only the session ahead knows**: the session behind works it out, finds the
same name, and learns nothing on the way that the session ahead does not know. -/
theorem behind_of_known_ahead {t t₁ s : Session} (ht : stack.Settled t) (hs : stack.Settled s)
    (hts : t.Behind s) {r : Resource} {keys : List String} (hr : stack.Names r keys)
    (hsound : stack.Sound (r.naming keys) ((r.naming keys).run answer))
    (hspares : ∀ names name, stack.Gives names (r.naming keys) (.ok name) →
      stack.Spares names ((r.naming keys).run answer))
    (hc : t.cells r.name = .fresh) {name : String} (hk : (s.cells r.name).known = some name)
    {outcome : Except ResolutionError String}
    (hrun : (r.naming keys).run answer (t.mark r.name) = (outcome, t₁))
    (hd : ¬ OutOfDepth outcome) :
    outcome = .ok name ∧ (t₁.close r.name outcome).Behind s := by
  have hg := hs.known r keys name hr hk
  have hbusy : (t.mark r.name).busy ⊆ insert r.name s.unknown := by
    rw [Session.busy_mark, ← hts.busy]
    exact Set.insert_subset_insert hs.busy_unknown
  have ho : outcome = .ok name := hsound.eq_of_gives (ht.mark hc) hrun hd (hg.anti hbusy)
  subst ho
  obtain ⟨hgrow, -, -⟩ := hsound _ _ _ (ht.mark hc) hrun
  refine ⟨rfl, ?_, ?_⟩
  · rw [(hgrow.close hc _).busy_eq, hts.busy]
  · intro other ho
    have hspared := hspares _ _ hg _ (ht.mark hc) hbusy
    rw [hrun, Session.unknown_mark hc] at hspared
    have h₁ : other ∈ t₁.unknown := hspared ⟨Set.mem_insert_of_mem _ ho, hts.unknown ho⟩
    have hne : other ≠ r.name := by
      rintro rfl
      exact absurd hk (by rw [show (s.cells r.name).known = none from ho]; simp)
    rw [Session.unknown_close_ok]
    exact ⟨h₁, hne⟩

theorem follows_displayName {r : Resource} {keys : List String} (hr : stack.Names r keys)
    (hsound : stack.Sound (r.naming keys) ((r.naming keys).run answer))
    (hspares : ∀ names name, stack.Gives names (r.naming keys) (.ok name) →
      stack.Spares names ((r.naming keys).run answer))
    (hx : stack.Follows ((r.naming keys).run answer)) :
    stack.Follows (r.displayName (Session.place r.name) keys answer) := by
  intro t s ht hs hts hd
  rcases r.displayName_cases keys t (hsound.mark_grows ht) with
    ⟨name, hk, h⟩ | ⟨hk, hp, h⟩ | ⟨hc, outcome, t₁, hrun, h⟩
  · have hks := known_of_behind ht hs hts hr hk
    rw [h, r.displayName_of_known keys hks]
    exact ⟨rfl, hts⟩
  · have hbusy : r.name ∈ s.busy := hts.busy ▸ hp
    rw [h, r.displayName_of_pending keys (hs.busy_unknown hbusy) hbusy]
    exact ⟨rfl, hts⟩
  · rw [h] at hd ⊢
    cases hks : (s.cells r.name).known with
    | some name =>
      obtain ⟨rfl, hbehind⟩ := behind_of_known_ahead ht hs hts hr hsound hspares hc hks hrun hd
      rw [r.displayName_of_known keys hks]
      exact ⟨rfl, hbehind⟩
    | none =>
      have hnb : r.name ∉ s.busy := by
        rw [hts.busy]
        exact Session.not_mem_busy_of_fresh hc
      have hcs : s.cells r.name = .fresh := Session.fresh_of_not_mem_busy hnb hks
      have hmarks : (t.mark r.name).Behind (s.mark r.name) := by
        refine ⟨?_, ?_⟩
        · rw [Session.busy_mark, Session.busy_mark, hts.busy]
        · rw [Session.unknown_mark hc, Session.unknown_mark hcs]
          exact hts.unknown
      have hfollow := hx _ _ (ht.mark hc) (hs.mark hcs) hmarks
      rw [hrun] at hfollow
      obtain ⟨houtcome, hbehind⟩ := hfollow hd
      rcases hruns : (r.naming keys).run answer (s.mark r.name) with ⟨outcome', s₁⟩
      rw [hruns] at houtcome hbehind
      cases houtcome
      rw [r.displayName_of_fresh keys hcs (hsound.mark_grows hs hcs) hruns]
      exact ⟨rfl, hbehind.close r.name outcome⟩

theorem follows_naming (hv : ∀ v, stack.Follows (answer v))
    (hsound : ∀ v, stack.Sound (stack.plan v) (answer v)) (r : Resource) (keys : List String) :
    stack.Follows ((r.naming keys).run answer) := by
  unfold Resource.naming
  cases r.firstProperty? keys with
  | none => exact follows_pure r.name
  | some property =>
    refine (hv property).bind (sound_ask (hsound property)) fun w => ?_
    cases w with
    | string name => exact follows_pure name
    | null => exact follows_pure r.name
    | boolean | number | list | mapping => exact follows_throw _

/-- A plan follows if resolving a value does. -/
theorem follows_run {levels : Nat} (hv : ∀ v, stack.Follows (stack.resolveWithin levels v))
    {plan : Plan α} (hp : plan.Honest stack fun _ _ => True) :
    stack.Follows (plan.run (stack.resolveWithin levels)) := by
  have hsound := stack.resolveWithin_sound levels
  induction plan with
  | done a => exact follows_pure a
  | fail e => exact follows_throw e
  | resolve v next ih => exact (hv v).bind (sound_ask (hsound v)) fun w => ih w (hp w trivial)
  | name r keys next ih =>
    have hnaming := sound_naming hsound r keys
    have hspares (names : Set String) (name : String)
        (hg : stack.Gives names (r.naming keys) (.ok name)) :
        stack.Spares names ((r.naming keys).run (stack.resolveWithin levels)) :=
      hg.spares (stack.honest_naming hp.1) levels
    refine (follows_displayName hp.1 hnaming hspares (follows_naming hv hsound r keys)).bind
      (sound_displayName hp.1 hnaming) fun name => ?_
    exact ih name (hp.2 name)

theorem resolveWithin_follows (stack : Stack) (levels : Nat) (v : Value) :
    stack.Follows (stack.resolveWithin levels v) := by
  induction levels generalizing v with
  | zero => exact follows_throw _
  | succ levels ih => exact (follows_run ih (stack.honest_plan v)).deeper

/-! ## 4. Operations after operations -/

theorem start_behind_after (stack : Stack) (ops : List Operation) :
    Session.start.Behind (stack.after ops .start) where
  busy := (stack.after_grows ops .start).busy_eq
  unknown := (stack.after_grows ops .start).unknown_subset

/-- What an operation ends with in a new session it ends with after any operations. -/
theorem operate_after_eq (stack : Stack) (ops : List Operation) (op : Operation)
    (hd : ¬ OutOfDepth (stack.operate op .start).1) :
    (stack.operate op (stack.after ops .start)).1 = (stack.operate op .start).1 := by
  have hlevels : stack.levelsLeft (stack.after ops .start) = stack.levelsLeft .start := by
    rw [levelsLeft, (stack.after_grows ops .start).depth, levelsLeft]
  have hfollows := follows_run (stack.resolveWithin_follows (stack.levelsLeft .start))
    (stack.honest_operation op)
  have hs : stack.Settled (stack.after ops .start) := (settled_start stack).after ops
  have heq := hfollows _ _ (settled_start stack) hs (stack.start_behind_after ops) hd
  rw [operate, perform, hlevels]
  exact heq.1

/-- What an operation ends with from some limit on, it ends with from there on after any
operations. -/
theorem Eventually.after {op : Operation} {outcome : Except ResolutionError Answer}
    (h : stack.Eventually op outcome) : ∃ limit, ∀ n, limit ≤ n → ∀ ops : List Operation,
      ((stack.withLimit n).operate op ((stack.withLimit n).after ops .start)).1 = outcome := by
  have hd : ¬ OutOfDepth outcome := (eventually_iff_gives.mp h).not_outOfDepth
  obtain ⟨limit, hlimit⟩ := h
  refine ⟨limit, fun n hn ops => ?_⟩
  have hnew := hlimit n hn
  rw [(stack.withLimit n).operate_after_eq ops op (hnew ▸ hd), hnew]

/-- **History does not show.**  An operation that does not run out of depth in a new session ends
after any other operations as it does there; and if it does not run out of depth after them, it
ends so in a new session, from some limit on. -/
theorem operate_independent_of_history (stack : Stack) (ops : List Operation)
    (op : Operation) :
    (¬ OutOfDepth (stack.operate op .start).1 →
      (stack.operate op (stack.after ops .start)).1 = (stack.operate op .start).1) ∧
    (¬ OutOfDepth (stack.operate op (stack.after ops .start)).1 →
      stack.Eventually op (stack.operate op (stack.after ops .start)).1) := by
  refine ⟨stack.operate_after_eq ops op, fun hd => ?_⟩
  rcases stack.operate_after_start ops op rfl with hout | hg
  · exact absurd ⟨_, hout⟩ hd
  · exact eventually_iff_gives.mpr hg

/-- A name that is known saves the levels that it takes to work it out: what runs out of depth
in a new session has a value once the name is known, and it is the value that a new session
finds under larger limits. -/
theorem known_name_saves_levels :
    let role := Value.mapping [("Type", .string "AWS::IAM::Role"), ("Properties", .mapping
      [("RoleName", .mapping [("Ref", .string "AWS::StackName")])])]
    let stack := (ofDocument (.mapping [("Resources", .mapping [("R", role)])])).withLimit 3
    let v := Value.list [.mapping [("Ref", .string "R")]]
    let w := Value.list [.string "sample"]
    (stack.operate (.resolve v) .start).1 = .error (.depthExceeded 3) ∧
      (stack.operate (.resolve v) (stack.after [.values "R"] .start)).1 = .ok (.value w) ∧
      stack.Eventually (.resolve v) (.ok (.value w)) := by
  intro role stack v w
  have hnew : (stack.operate (.resolve v) .start).1 = .error (.depthExceeded 3) := by rfl
  have hafter : (stack.operate (.resolve v) (stack.after [.values "R"] .start)).1 =
      .ok (.value w) := by rfl
  obtain ⟨-, heventually⟩ := stack.operate_independent_of_history [.values "R"] (.resolve v)
  rw [hafter] at heventually
  exact ⟨hnew, hafter, heventually (not_outOfDepth_ok _)⟩

/-! ## 5. What an operation ends with -/

/-- What an operation ends with under a limit, after any operations. -/
def endedUnder (stack : Stack) (limit : Nat) (ops : List Operation) (op : Operation) :
    Except ResolutionError Answer :=
  ((stack.withLimit limit).operate op ((stack.withLimit limit).after ops .start)).1

/-- **What an operation ends with, depth aside.**  Under every limit and after any operations it
ends so or runs out of depth; and from some limit on it ends so. -/
structure EndsWith (stack : Stack) (op : Operation) (outcome : Except ResolutionError Answer) :
    Prop where
  under : ∀ limit ops, stack.endedUnder limit ops op = outcome ∨
    stack.endedUnder limit ops op = .error (.depthExceeded limit)
  eventually : ∃ limit, ∀ n, limit ≤ n → ∀ ops, stack.endedUnder n ops op = outcome

theorem endsWith_iff_gives {op : Operation} {outcome : Except ResolutionError Answer} :
    stack.EndsWith op outcome ↔ stack.Gives ∅ (op.plan stack) outcome := by
  rw [← eventually_iff_gives]
  constructor
  · rintro ⟨-, limit, h⟩
    exact ⟨limit, fun n hn => h n hn []⟩
  · intro h
    refine ⟨fun limit ops => ?_, h.after⟩
    rcases stack.operate_withLimit_after_cases ops op limit with hd | hg
    · exact Or.inr hd
    · exact Or.inl (hg.unique (eventually_iff_gives.mp h))

/-! ## 6. What a value resolves to -/

/-- What resolving a value ends with under a limit, after any operations. -/
def resolvedUnder (stack : Stack) (limit : Nat) (ops : List Operation) (v : Value) :
    Except ResolutionError Answer :=
  ((stack.withLimit limit).operate (.resolve v) ((stack.withLimit limit).after ops .start)).1

/-- **What a value resolves to, depth aside.**  Under every limit and after any operations
resolving it ends so or runs out of depth; and from some limit on it ends so. -/
structure ResolvesTo (stack : Stack) (v : Value) (outcome : Except ResolutionError Value) :
    Prop where
  under : ∀ limit ops, stack.resolvedUnder limit ops v = outcome.map .value ∨
    stack.resolvedUnder limit ops v = .error (.depthExceeded limit)
  eventually : ∃ limit, ∀ n, limit ≤ n → ∀ ops,
    stack.resolvedUnder n ops v = outcome.map .value

/-- A value resolves to what the operation of resolving it ends with. -/
theorem resolvesTo_iff_endsWith {v : Value} {outcome : Except ResolutionError Value} :
    stack.ResolvesTo v outcome ↔ stack.EndsWith (.resolve v) (outcome.map .value) :=
  ⟨fun h => ⟨h.under, h.eventually⟩, fun h => ⟨h.under, h.eventually⟩⟩

theorem resolvesTo_iff_gives {v : Value} {outcome : Except ResolutionError Value} :
    stack.ResolvesTo v outcome ↔ stack.Gives ∅ (stack.plan v) outcome := by
  rw [resolvesTo_iff_endsWith, endsWith_iff_gives, ← eventually_iff_gives, eventually_resolve_iff]

/-- Under a limit, after any operations, resolving a value runs out of depth or ends with what its
plan gives. -/
theorem resolvedUnder_cases (stack : Stack) (limit : Nat) (ops : List Operation) (v : Value) :
    stack.resolvedUnder limit ops v = .error (.depthExceeded limit) ∨
      ∃ outcome, stack.Gives ∅ (stack.plan v) outcome ∧
        stack.resolvedUnder limit ops v = outcome.map .value := by
  have h := stack.operate_withLimit_after_cases ops (.resolve v) limit
  rw [Operation.plan, gives_map_iff] at h
  simp only [gives_ask_iff] at h
  exact h

/-- What resolving a value ends with once, it resolves to. -/
theorem resolvesTo_of_resolvedUnder (limit : Nat) (ops : List Operation) {v w : Value}
    (h : stack.resolvedUnder limit ops v = .ok (.value w)) : stack.ResolvesTo v (.ok w) :=
  resolvesTo_iff_gives.mpr
    (eventually_resolve_ok_iff.mp (stack.eventually_of_operate limit ops h))

end Stack
end StackTemplate
