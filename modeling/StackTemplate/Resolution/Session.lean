import StackTemplate.Error
import StackTemplate.Template

/-!
# Sessions

A session is what a stack remembers between operations: how many levels of resolution are
open, and for each resource a cell with its display name.  A computation in a session ends
with a value or an error, and either way leaves a session behind.

A name cell is written once.  While a name is being worked out the cell is marked, and asking
for the name again is an error: the name refers to itself.  `displayName` is written over any
state that has a place for the cell, so it can be studied with one cell alone.
-/

namespace StackTemplate

/-! ## 1. Name cells -/

/-- The cell of one resource. -/
structure NameCell where
  /-- The display name, once it is known. -/
  known : Option String
  /-- The name is being worked out. -/
  pending : Bool
deriving DecidableEq

namespace NameCell

/-- The cell of a name that nobody has asked for. -/
def fresh : NameCell := ⟨none, false⟩

end NameCell

/-- The place of a name cell in a state. -/
structure CellPlace (σ : Type) where
  look : σ → NameCell
  store : NameCell → σ → σ
  look_store : ∀ cell s, look (store cell s) = cell
  store_look : ∀ s, store (look s) s = s
  store_store : ∀ cell cell' s, store cell (store cell' s) = store cell s

namespace CellPlace

/-- A state that is nothing but a cell. -/
def only : CellPlace NameCell where
  look cell := cell
  store cell _ := cell
  look_store _ _ := rfl
  store_look _ := rfl
  store_store _ _ _ := rfl

end CellPlace

/-- A computation that ends with a value or an error and changes a state. -/
abbrev Run (σ α : Type) := ExceptT ResolutionError (StateM σ) α

namespace Run

variable {σ α β : Type}

theorem bind_ok {x : Run σ α} {f : α → Run σ β} {s s₁ : σ} {a : α}
    (h : x s = (.ok a, s₁)) : (x >>= f) s = f a s₁ := by
  change (ExceptT.bind x f) s = _
  simp only [ExceptT.bind, ExceptT.mk, bind, StateT.bind]
  rw [h]
  rfl

theorem bind_error {x : Run σ α} {f : α → Run σ β} {s s₁ : σ} {e : ResolutionError}
    (h : x s = (.error e, s₁)) : (x >>= f) s = (.error e, s₁) := by
  change (ExceptT.bind x f) s = _
  simp only [ExceptT.bind, ExceptT.mk, bind, StateT.bind]
  rw [h]
  rfl

end Run

namespace Resource

/-- The name that the properties `keys` give a resource (`resolve_display_name`): the first of
them that is present is resolved.  A string is the name; without a property, or with one that
resolves to null, the declared name is used. -/
def nameFrom {σ : Type} (r : Resource) (keys : List String) (resolve : Value → Run σ Value) :
    Run σ String :=
  match r.firstProperty? keys with
  | none => pure r.name
  | some property => do
    match ← resolve property with
    | .string name => pure name
    | .null => pure r.name
    | found => throw (.invalidName r.name (.notString found))

/-- The display name of a resource, worked out at the first call that succeeds
(`display_name`; section 14 of the specification). -/
def displayName {σ : Type} (place : CellPlace σ) (r : Resource) (keys : List String)
    (resolve : Value → Run σ Value) : Run σ String := fun s =>
  match (place.look s).known with
  | some name => (.ok name, s)
  | none =>
    if (place.look s).pending then (.error (.invalidName r.name .refersToItself), s)
    else
      match r.nameFrom keys resolve (place.store ⟨none, true⟩ s) with
      | (.error e, s') => (.error e, place.store { place.look s' with pending := false } s')
      | (.ok name, s') =>
        let first := (place.look s').known.getD name
        (.ok first, place.store ⟨some first, false⟩ s')

end Resource

/-! ## 2. Sessions -/

/-- The state between and during the operations on a stack. -/
structure Session where
  /-- The levels of resolution that are open. -/
  depth : Nat
  /-- The name cell of every resource, by its declared name. -/
  cells : String → NameCell

namespace Session

/-- The session before the first operation. -/
def start : Session := ⟨0, fun _ => .fresh⟩

/-- The session with the cell of one resource replaced. -/
def setCell (s : Session) (name : String) (cell : NameCell) : Session :=
  { s with cells := fun other => if other = name then cell else s.cells other }

/-- The place of the cell of the resource `name`. -/
def place (name : String) : CellPlace Session where
  look s := s.cells name
  store cell s := s.setCell name cell
  look_store _ _ := if_pos rfl
  store_look s := by
    simp only [setCell]
    congr 1
    funext other
    split
    · next h => rw [h]
    · rfl
  store_store cell cell' s := by
    simp only [setCell]
    congr 1
    funext other
    split <;> rfl

/-- The body runs one level deeper, and the level is given back whatever the outcome (`enter`
and the guard that it returns). -/
def deeper {α : Type} (body : Run Session α) : Run Session α := fun s =>
  match body { s with depth := s.depth + 1 } with
  | (outcome, s') => (outcome, { s' with depth := s'.depth - 1 })

end Session
end StackTemplate
