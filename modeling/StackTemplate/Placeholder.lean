import StackTemplate.Text.Blank
import StackTemplate.Text.Cut

/-!
# Placeholders

A placeholder is `${`, a body without `}`, and `}`.  `scan` takes a text apart into literal
text and placeholders, from the left, and gluing the pieces together gives the text back.  A
`${` without a later `}` is literal text.

The name of a placeholder is its body without the blanks around it.  A name that starts with
`!` makes the placeholder an escape: it stands for itself and is never looked up.

These are the texts of `Fn::Sub` (section 4.2 of the specification, "Substitute").
-/

namespace StackTemplate

/-- A piece of a text with placeholders. -/
inductive Piece where
  | literal (text : List Char)
  | placeholder (body : List Char)
deriving DecidableEq

namespace Piece

/-- The two characters that open a placeholder. -/
def opening : List Char := ['$', '\x7b']

/-- The character that closes a placeholder. -/
def closing : List Char := ['\x7d']

/-- A piece as it is written. -/
def source : Piece → List Char
  | .literal text => text
  | .placeholder body => opening ++ body ++ closing

/-- The pieces of a text. -/
def scan (s : List Char) : List Piece :=
  match _ : Text.cut? opening s with
  | none => [.literal s]
  | some (before, rest) =>
    match _ : Text.cut? closing rest with
    | none => [.literal s]
    | some (body, after) => .literal before :: .placeholder body :: scan after
termination_by s.length
decreasing_by
  have h₁ := Text.length_lt_of_cut? (by decide) ‹Text.cut? opening s = _›
  have h₂ := Text.length_lt_of_cut? (by decide) ‹Text.cut? closing rest = _›
  omega

/-- Nothing is lost: the pieces make up the text. -/
theorem source_scan (s : List Char) : (scan s).flatMap source = s := by
  induction hn : s.length using Nat.strongRecOn generalizing s with
  | _ n ih =>
    rw [scan]
    split
    · simp [source]
    · next before rest hb =>
      split
      · simp [source]
      · next body after ha =>
        have h₁ := Text.length_lt_of_cut? (by decide) hb
        have h₂ := Text.length_lt_of_cut? (by decide) ha
        have hs := Text.eq_of_cut? hb
        have hr := Text.eq_of_cut? ha
        simp only [List.flatMap_cons, ih after.length (by omega) after rfl, source]
        rw [hs, hr]
        simp [List.append_assoc]

/-- The name in a placeholder. -/
def nameOf (body : List Char) : String := String.ofList (Text.trim body)

/-- The name marks an escape (`is_escape`). -/
def isEscape (name : String) : Bool := name.toList.head? == some '!'

/-- The name that a piece looks up. -/
def name? : Piece → Option String
  | .literal _ => none
  | .placeholder body => if isEscape (nameOf body) then none else some (nameOf body)

end Piece

namespace Placeholder

/-- The pieces of a string. -/
def pieces (template : String) : List Piece := Piece.scan template.toList

/-- The names that a text looks up, in order and with repetitions. -/
def lookups (template : String) : List String := (pieces template).filterMap Piece.name?

/-- The names that a text looks up, in the order of their first appearance (`placeholders`). -/
def names (template : String) : List String := (lookups template).eraseDups

/-- The text with every placeholder that is no escape replaced by what `lookup` gives for its
name (`render`).  Names are looked up from the left, and what comes back is not looked at again. -/
def render {m : Type → Type} [Monad m] (template : String) (lookup : String → m String) :
    m String := do
  let parts ← (pieces template).mapM fun piece =>
    match piece.name? with
    | some name => lookup name
    | none => pure (String.ofList piece.source)
  return String.join parts

end Placeholder
end StackTemplate
