import StackTemplate.Intrinsic.Basic

/-!
# Registries

A registry is a table from names to entries.  It is built from a list, in which a later entry
replaces an earlier one of the same name, and its names are listed in ascending order.
`Registry.builtin` holds the intrinsic functions (`builtin_functions`).
-/

namespace StackTemplate

/-- A table of named entries. -/
structure Registry (α : Type) where
  entries : List (String × α)

namespace Registry

variable {α : Type}

/-- Adds an entry, in the place of an older one of the same name. -/
def insert (r : Registry α) (name : String) (entry : α) : Registry α :=
  ⟨(name, entry) :: r.entries.filter (·.1 != name)⟩

/-- The registry of a list of entries. -/
def ofList (entries : List (String × α)) : Registry α :=
  entries.foldl (fun r e => r.insert e.1 e.2) ⟨[]⟩

def get? (r : Registry α) (name : String) : Option α := r.entries.lookup name

def contains (r : Registry α) (name : String) : Bool := (r.get? name).isSome

/-- The names in ascending order. -/
def names (r : Registry α) : List String :=
  (r.entries.map Prod.fst).mergeSort fun a b => decide (a ≤ b)

/-- What a registry says about a function. -/
structure Entry where
  signature : String
  description : String

/-- The intrinsic functions. -/
def builtin : Registry Entry :=
  ofList (Intrinsic.all.map fun f => (f.name, ⟨f.signature, f.description⟩))

/-- Look-up finds the entry just added, and else what was there before. -/
theorem get?_insert (r : Registry α) (name other : String) (entry : α) :
    (r.insert name entry).get? other = if other = name then some entry else r.get? other := by
  simp only [get?, insert, List.lookup_cons]
  by_cases h : other = name
  · simp [h]
  · rw [beq_eq_false_iff_ne.mpr h, if_neg h]
    induction r.entries with
    | nil => rfl
    | cons e rest ih =>
      obtain ⟨key, v⟩ := e
      by_cases hk : key = name
      · simp [hk, List.lookup_cons, ih, beq_eq_false_iff_ne.mpr h]
      · simp [hk, List.lookup_cons, ih]

end Registry
end StackTemplate
