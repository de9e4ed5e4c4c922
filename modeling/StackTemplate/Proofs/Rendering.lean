import StackTemplate.Proofs.Decomposition
import StackTemplate.Proofs.Growth
import StackTemplate.Proofs.Traversal

/-!
# Filling in a text

A text is filled in piece by piece: a literal and an escape are copied, and a name is looked up.
The look-ups are all that can fail or change anything, and none of them depends on what the ones
before it have given.  So in any monad, filling in is to look up the names of the text in turn and
then to put their texts where the names are (`render_eq`), and all that is said here of filling in
is said of that list of look-ups.

With a state, the outcome of a look-up depends on when it is made, and `LookedUp` follows the state
from one to the next.  Without one, a name that is looked up again gives what it has given before.
Then it is the same to look up each name once, also for which error is the first.

* `Piece.fill`: the text of pieces with given texts for their names.
* `LookedUp`: names are looked up in turn, from one state to another.
* `FailsFirst`: the first of some names that fails.
-/

namespace StackTemplate

/-! ## 1. Names and the text between them -/

namespace Piece

/-- The text of the pieces with `texts`, in turn, for the placeholders that are no escapes. -/
def fill : List Piece → List String → List Char
  | [], _ => []
  | piece :: pieces, texts =>
    match piece.name? with
    | none => piece.source ++ fill pieces texts
    | some _ => (texts.headD "").toList ++ fill pieces texts.tail

end Piece

namespace Placeholder

open Piece (Decomposes fill)

/-- The part of the result that a piece gives. -/
def part {m : Type → Type} [Monad m] (lookup : String → m String) (piece : Piece) : m String :=
  match piece.name? with
  | some name => lookup name
  | none => pure (String.ofList piece.source)

variable {m : Type → Type} [Monad m] [LawfulMonad m]

theorem map_join_part (lookup : String → m String) (pieces : List Piece) :
    String.join <$> pieces.mapM (part lookup) =
      (fun texts => String.ofList (fill pieces texts)) <$>
        (pieces.filterMap Piece.name?).mapM lookup := by
  induction pieces with
  | nil => simp [fill, String.join]
  | cons piece rest ih =>
    have hrest (text : String) :
        (fun parts => text ++ String.join parts) <$> rest.mapM (part lookup) =
          (fun texts => text ++ String.ofList (fill rest texts)) <$>
            (rest.filterMap Piece.name?).mapM lookup := by
      simpa using congrArg (fun x => (text ++ ·) <$> x) ih
    rw [List.mapM_cons]
    cases hname : piece.name? with
    | none =>
      rw [List.filterMap_cons_none hname]
      simpa [part, fill, hname] using hrest (String.ofList piece.source)
    | some name =>
      rw [List.filterMap_cons_some hname]
      simp [part, fill, hname, hrest]

/-- **To fill in a text is to look up its names** and to put their texts between the rest. -/
theorem render_eq (template : String) (lookup : String → m String) :
    render template lookup =
      (fun texts => String.ofList (fill (pieces template) texts)) <$>
        (lookups template).mapM lookup := by
  rw [lookups, ← map_join_part, map_eq_pure_bind]
  rfl

theorem mapM_congr {lookup lookup' : String → m String} {names : List String}
    (h : ∀ name ∈ names, lookup name = lookup' name) : names.mapM lookup = names.mapM lookup' := by
  induction names with
  | nil => rfl
  | cons name rest ih =>
    obtain ⟨hname, hrest⟩ := List.forall_mem_cons.mp h
    rw [List.mapM_cons, List.mapM_cons, hname, ih hrest]

/-- A text is filled in alike by look-ups that agree on its names. -/
theorem render_congr {template : String} {lookup lookup' : String → m String}
    (h : ∀ name ∈ names template, lookup name = lookup' name) :
    render template lookup = render template lookup' := by
  rw [render_eq, render_eq, mapM_congr fun name hname => h name (List.mem_eraseDups.mpr hname)]

/-! ## 2. Look-ups that change a state -/

section Runs

variable {σ : Type} {lookup : String → Run σ String} {names texts : List String} {s s' : σ}

/-- **The names are looked up in turn**, from the state `s` on: they have the texts `texts`, and
the state after the last of them is `s'`. -/
inductive LookedUp (lookup : String → Run σ String) :
    (names : List String) → (s : σ) → (texts : List String) → (s' : σ) → Prop
  | nil {s : σ} : LookedUp lookup [] s [] s
  | cons {name text : String} {names texts : List String} {s s₁ s' : σ}
      (hname : lookup name s = (.ok text, s₁)) (hrest : LookedUp lookup names s₁ texts s') :
      LookedUp lookup (name :: names) s (text :: texts) s'

theorem LookedUp.mapM_eq (h : LookedUp lookup names s texts s') :
    names.mapM lookup s = (.ok texts, s') := by
  induction h with
  | nil => rfl
  | cons hname _ ih => rw [List.mapM_cons, Run.bind_ok hname, Run.bind_ok ih]; rfl

/-- All names are looked up, or the names up to one that fails. -/
theorem lookedUp_or (lookup : String → Run σ String) (names : List String) (s : σ) :
    (∃ texts s', LookedUp lookup names s texts s') ∨
      ∃ before name after texts s₁ e s', names = before ++ name :: after ∧
        LookedUp lookup before s texts s₁ ∧ lookup name s₁ = (.error e, s') := by
  induction names generalizing s with
  | nil => exact Or.inl ⟨[], s, .nil⟩
  | cons name rest ih =>
    rcases hname : lookup name s with ⟨e | text, s₁⟩
    · exact Or.inr ⟨[], name, rest, [], s, e, s₁, rfl, .nil, hname⟩
    · rcases ih s₁ with ⟨texts, s', h⟩ | ⟨before, failing, after, texts, s₂, e, s', rfl, h, hfails⟩
      · exact Or.inl ⟨text :: texts, s', .cons hname h⟩
      · exact Or.inr ⟨name :: before, failing, after, text :: texts, s₂, e, s', rfl,
          .cons hname h, hfails⟩

theorem LookedUp.mapM_append_eq {name : String} {e : ResolutionError} {s₁ : σ}
    (h : LookedUp lookup names s texts s₁) (hname : lookup name s₁ = (.error e, s'))
    (after : List String) : (names ++ name :: after).mapM lookup s = (.error e, s') := by
  induction h with
  | nil => rw [List.nil_append, List.mapM_cons, Run.bind_error hname]
  | cons hfirst _ ih =>
    rw [List.cons_append, List.mapM_cons, Run.bind_ok hfirst, Run.bind_error (ih hname)]

/-- A text is filled in with the texts of its names... -/
theorem LookedUp.render_eq {template : String}
    (h : LookedUp lookup (lookups template) s texts s') :
    render template lookup s = (.ok (String.ofList (fill (pieces template) texts)), s') := by
  rw [Placeholder.render_eq, map_eq_pure_bind, Run.bind_ok h.mapM_eq]
  rfl

/-- ...and the first look-up that fails is the last one. -/
theorem LookedUp.render_eq_error {template name : String} {after : List String}
    {e : ResolutionError} {s₁ : σ} (hnames : lookups template = names ++ name :: after)
    (h : LookedUp lookup names s texts s₁) (hname : lookup name s₁ = (.error e, s')) :
    render template lookup s = (.error e, s') := by
  rw [Placeholder.render_eq, hnames, map_eq_pure_bind,
    Run.bind_error (h.mapM_append_eq hname after)]

/-- A look-up that notes the names that it is asked for. -/
def noting (lookup : String → Run σ String) (name : String) : Run (σ × List String) String :=
  fun (s, noted) =>
    match lookup name s with
    | (outcome, s') => (outcome, (s', noted ++ [name]))

theorem LookedUp.noting (h : LookedUp lookup names s texts s') (noted : List String) :
    LookedUp (noting lookup) names (s, noted) texts (s', noted ++ names) := by
  induction h generalizing noted with
  | nil => simpa using .nil
  | @cons name text names texts s s₁ s' hname _ ih =>
    have hnoted : Placeholder.noting lookup name (s, noted) =
        (.ok text, (s₁, noted ++ [name])) := by
      simp only [Placeholder.noting, hname]
    have hrest := ih (noted ++ [name])
    rw [List.append_assoc] at hrest
    exact .cons hnoted hrest

end Runs

/-! ## 3. The decomposition -/

/-- **A text is filled in by its decomposition.**  Every text has exactly one.  Whatever is looked
up in whatever state, the names of its placeholders are looked up in turn, each as often as it
occurs, and nothing else is.  If one of them fails, that is the last look-up and the outcome is its
error; if none does, the outcome is the text with the placeholders replaced, where an escape stands
for itself. -/
theorem render_fills_decomposition (template : String) :
    (∃! pieces, Decomposes template.toList pieces) ∧
    ∀ pieces, Decomposes template.toList pieces →
      pieces.flatMap Piece.source = template.toList ∧
      ∀ {σ : Type} (lookup : String → Run σ String) (s : σ),
        (∃ texts s', LookedUp lookup (pieces.filterMap Piece.name?) s texts s' ∧
          render template lookup s = (.ok (String.ofList (fill pieces texts)), s')) ∨
        ∃ before name after texts s₁ e s',
          pieces.filterMap Piece.name? = before ++ name :: after ∧
          LookedUp lookup before s texts s₁ ∧ lookup name s₁ = (.error e, s') ∧
          render template lookup s = (.error e, s') := by
  refine ⟨⟨_, Piece.decomposes_scan _, fun _ => Piece.Decomposes.eq_scan⟩, fun pieces h => ?_⟩
  refine ⟨h.source_eq, fun {σ} lookup s => ?_⟩
  obtain rfl : pieces = Placeholder.pieces template := h.eq_scan
  rcases lookedUp_or lookup (lookups template) s with
    ⟨texts, s', hall⟩ | ⟨before, name, after, texts, s₁, e, s', hnames, hbefore, hname⟩
  · exact Or.inl ⟨texts, s', hall, hall.render_eq⟩
  · exact Or.inr ⟨before, name, after, texts, s₁, e, s', hnames, hbefore, hname,
      hbefore.render_eq_error hnames hname⟩

/-- A `$` before a placeholder, an escape, and a `${` that is never closed: one name is looked up.
The look-up counts how often it is called. -/
theorem escape_and_open_end_are_kept :
    let template := "$$\x7b a \x7d$\x7b!b\x7d$\x7b"
    let pieces : List Piece := [.literal ['$'], .placeholder [' ', 'a', ' '], .literal [],
      .placeholder ['!', 'b'], .literal ['$', '\x7b']]
    let found (name : String) : Run Nat String := fun n => (.ok ("<" ++ name ++ ">"), n + 1)
    let missed (name : String) : Run Nat String :=
      fun n => (.error (.unresolvedReference name), n + 1)
    Decomposes template.toList pieces ∧ (∀ other, Decomposes template.toList other → other = pieces) ∧
      render template found 0 = (.ok "$<a>$\x7b!b\x7d$\x7b", 1) ∧
      render template missed 0 = (.error (.unresolvedReference "a"), 1) := by
  intro template pieces found missed
  have hpieces : Decomposes template.toList pieces :=
    Piece.decomposes_iff.mpr (by decide +kernel)
  have hnames : pieces.filterMap Piece.name? = ["a"] := by decide +kernel
  have hfill : String.ofList (fill pieces ["<a>"]) = "$<a>$\x7b!b\x7d$\x7b" := by decide +kernel
  obtain ⟨hunique, hrender⟩ := render_fills_decomposition template
  obtain ⟨-, hrun⟩ := hrender pieces hpieces
  rw [hnames] at hrun
  refine ⟨hpieces, fun other hother => hunique.unique hother hpieces, ?_, ?_⟩
  · obtain ⟨texts, s', hall, h⟩ | ⟨_, _, _, _, _, _, _, _, _, hfails, _⟩ := hrun found 0
    · obtain _ | ⟨ha, _ | _⟩ := hall
      cases ha
      rw [h, ← hfill]
      rfl
    · cases hfails
  · obtain ⟨texts, s', hall, _⟩ | ⟨before, name, after, _, _, _, _, hsplit, hbefore, hfails, h⟩ :=
      hrun missed 0
    · obtain _ | ⟨ha, _⟩ := hall
      cases ha
    · obtain ⟨rfl, rfl, rfl⟩ : before = [] ∧ name = "a" ∧ after = [] := by
        cases before <;> simp_all
      cases hbefore
      cases hfails
      exact h

/-! ## 4. Look-ups without a state -/

section Pure

variable {ε : Type} {f : String → Except ε String} {e : ε}

/-- **The first of the names that `f` fails on**, and its error. -/
def FailsFirst (f : String → Except ε String) (names : List String) (e : ε) : Prop :=
  ∃ before name after, names = before ++ name :: after ∧
    (∀ n ∈ before, ∃ text, f n = .ok text) ∧ f name = .error e

theorem not_failsFirst_nil : ¬ FailsFirst f [] e := by
  rintro ⟨before, name, after, h, -, -⟩
  simp at h

theorem failsFirst_cons_iff {name : String} {rest : List String} :
    FailsFirst f (name :: rest) e ↔
      f name = .error e ∨ (∃ text, f name = .ok text) ∧ FailsFirst f rest e := by
  constructor
  · rintro ⟨before, failing, after, h, hbefore, hfails⟩
    cases before with
    | nil =>
      cases h
      exact Or.inl hfails
    | cons x before =>
      cases h
      obtain ⟨hx, hbefore⟩ := List.forall_mem_cons.mp hbefore
      exact Or.inr ⟨hx, before, failing, after, rfl, hbefore, hfails⟩
  · rintro (hname | ⟨hname, before, failing, after, rfl, hbefore, hfails⟩)
    · exact ⟨[], name, rest, rfl, by simp, hname⟩
    · exact ⟨name :: before, failing, after, rfl, List.forall_mem_cons.mpr ⟨hname, hbefore⟩, hfails⟩

theorem mapM_eq_error_iff {names : List String} :
    names.mapM f = .error e ↔ FailsFirst f names e :=
  mapM_error_iff

/-- A name that `f` does not fail on may be left out. -/
theorem failsFirst_filter_iff {p : String → Bool} {names : List String}
    (h : ∀ name, p name = false → ∃ text, f name = .ok text) :
    FailsFirst f (names.filter p) e ↔ FailsFirst f names e := by
  induction names with
  | nil => rfl
  | cons name rest ih =>
    cases hp : p name with
    | true =>
      rw [List.filter_cons_of_pos hp, failsFirst_cons_iff, failsFirst_cons_iff, ih]
    | false =>
      obtain ⟨text, htext⟩ := h name hp
      rw [List.filter_cons_of_neg (by simp [hp]), failsFirst_cons_iff, ih]
      simp [htext]

/-- So it does not matter that a name is looked up again. -/
theorem failsFirst_eraseDups_iff (names : List String) :
    FailsFirst f names.eraseDups e ↔ FailsFirst f names e := by
  induction hn : names.length using Nat.strongRecOn generalizing names with
  | _ n ih =>
    cases names with
    | nil => simp [not_failsFirst_nil]
    | cons name rest =>
      have hlt : (rest.filter fun other => !other == name).length < n := by
        have hle := List.length_filter_le (fun other => !other == name) rest
        rw [List.length_cons] at hn
        omega
      rw [List.eraseDups_cons, failsFirst_cons_iff, failsFirst_cons_iff, ih _ hlt _ rfl]
      refine or_congr_right (and_congr_right fun hname => failsFirst_filter_iff fun other ho => ?_)
      have heq : other = name := by simpa using ho
      exact heq ▸ hname

end Pure

/-- **The names of a text are what it looks up**, without repetitions.  If no look-up fails, the
names that are noted while the text is filled in are, each at its first appearance, the names of the
text.  If look-ups depend on the name alone, the text can be filled in if no name of it fails; the
error is the one of its first name that fails; and look-ups that agree on its names give the same. -/
theorem names_are_what_is_looked_up (template : String) :
    (∀ {σ : Type} (lookup : String → Run σ String) (s : σ),
      (∀ name s, ∃ text s', lookup name s = (.ok text, s')) →
        ∃ text s' noted, render template lookup s = (.ok text, s') ∧
          render template (noting lookup) (s, []) = (.ok text, (s', noted)) ∧
          names template = noted.eraseDups) ∧
    ∀ {ε : Type} (f : String → Except ε String),
      ((∃ text, render template f = .ok text) ↔
        ∀ name ∈ names template, ∃ text, f name = .ok text) ∧
      (∀ e, render template f = .error e ↔ FailsFirst f (names template) e) ∧
      ∀ g : String → Except ε String, (∀ name ∈ names template, f name = g name) →
        render template f = render template g := by
  refine ⟨fun lookup s hlookup => ?_, fun f => ⟨?_, fun e => ?_, fun g h => render_congr h⟩⟩
  · rcases lookedUp_or lookup (lookups template) s with
      ⟨texts, s', h⟩ | ⟨_, name, _, _, s₁, _, _, _, _, hfails⟩
    · exact ⟨_, s', lookups template, h.render_eq, (h.noting []).render_eq, rfl⟩
    · obtain ⟨text, s', htext⟩ := hlookup name s₁
      rw [htext] at hfails
      cases hfails
  · have hnames : (∀ name ∈ names template, ∃ text, f name = .ok text) ↔
        ∀ name ∈ lookups template, ∃ text, f name = .ok text := by
      simp only [names, List.mem_eraseDups]
    rw [hnames, ← exists_mapM_ok_iff, render_eq]
    cases (lookups template).mapM f <;> simp
  · rw [names, failsFirst_eraseDups_iff, ← mapM_eq_error_iff, render_eq]
    cases (lookups template).mapM f <;> simp

/-- A text with a name twice.  The second name is the first one that fails, so its error is the
outcome, although the first name comes again after it. -/
theorem repeated_name_is_one_name :
    let template := "$\x7bb\x7d-$\x7ba\x7d-$\x7bb\x7d"
    let found (name : String) : Run Nat String := fun n => (.ok name, n + 1)
    let f (name : String) : Except String String := if name = "b" then .ok "1" else .error name
    let g (name : String) : Except String String := if name = "c" then .error name else f name
    names template = ["b", "a"] ∧
      (∃ text s' noted, render template (noting found) (0, []) = (.ok text, (s', noted)) ∧
        noted.eraseDups = ["b", "a"]) ∧
      render template f = .error "a" ∧ render template g = render template f := by
  intro template found f g
  have hnames : names template = ["b", "a"] := by decide +kernel
  obtain ⟨hnoted, hpure⟩ := names_are_what_is_looked_up template
  obtain ⟨text, s', noted, -, hrun, hdups⟩ := hnoted found 0 fun name n => ⟨name, n + 1, rfl⟩
  obtain ⟨-, herror, -⟩ := hpure f
  obtain ⟨-, -, hcongr⟩ := hpure g
  refine ⟨hnames, ⟨text, s', noted, hrun, by rw [← hdups, hnames]⟩, ?_, ?_⟩
  · rw [herror, hnames]
    exact ⟨["b"], "a", [], rfl, by simp [f], rfl⟩
  · refine hcongr f ?_
    rw [hnames]
    decide +kernel

end Placeholder

end StackTemplate
