import StackTemplate.Proofs.Rendering

/-!
# Placeholders that stand for themselves

A text whose placeholders are replaced by themselves is the same text again, but for the blanks
around its names.  What has to be shown is that the pieces stay what they are when they are put
together: no literal text and no body may make a new placeholder with its neighbours, and none may
hide one.  None does, because the condition on a literal text before a placeholder does not speak
of what comes after it, and a body that is trimmed still has no `}`.

* `Piece.tidy`: a placeholder without the blanks around its name.
* `Decomposes.tidy`: tidied pieces are the decomposition of their text.
-/

namespace StackTemplate

namespace Piece

variable {s : List Char} {pieces : List Piece}

/-! ## 1. Tidy pieces -/

/-- A placeholder without the blanks around its name.  An escape is left as it is written. -/
def tidy : Piece → Piece
  | .literal text => .literal text
  | .placeholder body =>
    if isEscape (nameOf body) then .placeholder body else .placeholder (Text.trim body)

theorem nameOf_trim (body : List Char) : nameOf (Text.trim body) = nameOf body := by
  rw [nameOf, Text.trim_trim, nameOf]

/-- The name stays. -/
theorem name?_tidy (piece : Piece) : piece.tidy.name? = piece.name? := by
  cases piece with
  | literal text => rfl
  | placeholder body =>
    rw [tidy]
    split
    · rfl
    · rw [name?, name?, nameOf_trim]

/-- A piece that is not looked up stays as it is written. -/
theorem tidy_of_name?_eq_none {piece : Piece} (h : piece.name? = none) : piece.tidy = piece := by
  cases piece with
  | literal text => rfl
  | placeholder body =>
    rw [name?] at h
    split at h
    · next he => rw [tidy, if_pos he]
    · cases h

/-- A tidy placeholder is its name between `${` and `}`. -/
theorem source_tidy_of_name?_eq_some {piece : Piece} {name : String}
    (h : piece.name? = some name) :
    piece.tidy.source = (Piece.placeholder name.toList).source := by
  cases piece with
  | literal text => cases h
  | placeholder body =>
    rw [name?] at h
    split at h
    · cases h
    · next he =>
      cases h
      rw [tidy, if_neg he, nameOf, String.toList_ofList]

/-- **Tidied pieces are the decomposition of their text.** -/
theorem Decomposes.tidy (h : Decomposes s pieces) :
    Decomposes ((pieces.map Piece.tidy).flatMap source) (pieces.map Piece.tidy) := by
  induction h with
  | @last text h =>
    have htext : ([Piece.literal text].map Piece.tidy).flatMap source = text := by
      simp [Piece.tidy, source]
    rw [htext]
    exact .last h
  | @placeholder before body after pieces hbody hfirst _ ih =>
    obtain ⟨body', hbody', htidy⟩ : ∃ body', '\x7d' ∉ body' ∧
        (Piece.placeholder body).tidy = .placeholder body' := by
      rw [Piece.tidy]
      split
      · exact ⟨body, hbody, rfl⟩
      · exact ⟨Text.trim body, fun hmem => hbody ((Text.trim_isInfix body).subset hmem), rfl⟩
    rw [forall_not_opensAt_placeholder_iff] at hfirst
    simp only [List.map_cons, htidy, List.flatMap_cons, ← List.append_assoc]
    exact .placeholder hbody' (forall_not_opensAt_placeholder_iff.mpr hfirst) ih

end Piece

namespace Placeholder

open Piece (fill tidy)

/-! ## 2. Texts with placeholders for their names -/

/-- The placeholder for a name. -/
def quoted (name : String) : String := String.ofList (Piece.placeholder name.toList).source

/-- The text with each name replaced by the placeholder for it. -/
def requoted (template : String) : String :=
  Id.run (render template fun name => pure (quoted name))

theorem fill_quoted (pieces : List Piece) :
    fill pieces ((pieces.filterMap Piece.name?).map quoted) =
      (pieces.map tidy).flatMap Piece.source := by
  induction pieces with
  | nil => rfl
  | cons piece rest ih =>
    cases hname : piece.name? with
    | none =>
      rw [List.filterMap_cons_none hname]
      simp [fill, hname, ih, Piece.tidy_of_name?_eq_none hname]
    | some name =>
      rw [List.filterMap_cons_some hname]
      simp [fill, hname, ih, quoted, Piece.source_tidy_of_name?_eq_some hname]

theorem fill_tidy (pieces : List Piece) (texts : List String) :
    fill (pieces.map tidy) texts = fill pieces texts := by
  induction pieces generalizing texts with
  | nil => rfl
  | cons piece rest ih =>
    cases hname : piece.name? with
    | none => simp [fill, Piece.tidy_of_name?_eq_none hname, hname, ih]
    | some name => simp [fill, Piece.name?_tidy, hname, ih]

theorem requoted_eq (template : String) :
    requoted template = String.ofList (((pieces template).map tidy).flatMap Piece.source) := by
  rw [← fill_quoted, requoted, render_eq]
  simp [lookups]

/-- **The pieces of the text** are the same, without the blanks around the names... -/
theorem pieces_requoted (template : String) :
    pieces (requoted template) = (pieces template).map tidy := by
  rw [requoted_eq, pieces, String.toList_ofList]
  exact (Piece.decomposes_scan template.toList).tidy.eq_scan.symm

/-- ...and it looks up the same names. -/
theorem lookups_requoted (template : String) : lookups (requoted template) = lookups template := by
  rw [lookups, pieces_requoted, List.filterMap_map, lookups]
  exact List.filterMap_congr fun piece _ => piece.name?_tidy

theorem render_requoted {m : Type → Type} [Monad m] [LawfulMonad m] (template : String)
    (lookup : String → m String) :
    render (requoted template) lookup = render template lookup := by
  rw [render_eq, render_eq, lookups_requoted, pieces_requoted]
  simp only [fill_tidy]

/-- A text whose names have no blanks around them is the same text again. -/
theorem requoted_of_tidy {template : String}
    (h : ∀ piece ∈ pieces template, piece.tidy = piece) : requoted template = template := by
  have htidy : (pieces template).map tidy = pieces template :=
    (List.map_congr_left h).trans (List.map_id _)
  rw [requoted_eq, htidy, pieces, Piece.source_scan, String.ofList_toList]

/-- **To replace placeholders by themselves is neutral.**  The text that comes out is filled in as
the one before, it is replaced by itself, and it has the same names.  If no placeholder, the escapes
aside, has a blank next to one of its braces, then it is the text itself. -/
theorem requoting_is_neutral (template : String) :
    (∀ {ε : Type} (f : String → Except ε String),
      render (requoted template) f = render template f) ∧
    requoted (requoted template) = requoted template ∧
    names (requoted template) = names template ∧
    ((∀ body, .placeholder body ∈ pieces template →
        Piece.isEscape (Piece.nameOf body) = false →
          (∀ c, body.head? = some c → Text.isBlank c = false) ∧
            ∀ c, body.getLast? = some c → Text.isBlank c = false) →
      requoted template = template) := by
  refine ⟨fun f => render_requoted template f, ?_, ?_, fun h => requoted_of_tidy ?_⟩
  · rw [requoted, render_requoted, ← requoted]
  · rw [names, names, lookups_requoted]
  · rintro (text | body) hpiece
    · rfl
    · cases hescape : Piece.isEscape (Piece.nameOf body) with
      | true => rw [tidy, if_pos hescape]
      | false =>
        have htrim := Text.trim_eq_self_iff.mpr (h body hpiece hescape)
        rw [tidy, if_neg (by simp [hescape]), htrim]

/-- A `$` before a placeholder, a body with a `${` in it, and an escape with blanks, which are the
only blanks next to braces. -/
theorem nested_opening_requotes_to_itself :
    let template := "$$\x7b$\x7ba\x7d$\x7b !b \x7d$\x7b"
    pieces template = [.literal ['$'], .placeholder ['$', '\x7b', 'a'], .literal [],
        .placeholder [' ', '!', 'b', ' '], .literal ['$', '\x7b']] ∧
      requoted template = template := by
  intro template
  have hpieces : pieces template = [.literal ['$'], .placeholder ['$', '\x7b', 'a'], .literal [],
      .placeholder [' ', '!', 'b', ' '], .literal ['$', '\x7b']] := by decide +kernel
  obtain ⟨-, -, -, hsame⟩ := requoting_is_neutral template
  refine ⟨hpieces, hsame fun body hbody hescape => ?_⟩
  rw [hpieces] at hbody
  simp only [List.mem_cons, reduceCtorEq, Piece.placeholder.injEq, List.not_mem_nil, false_or,
    or_false] at hbody
  obtain rfl | rfl := hbody
  · constructor
    all_goals
      intro c hc
      cases hc
      decide
  · exact absurd hescape (by decide)

end Placeholder
end StackTemplate
