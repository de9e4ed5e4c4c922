import StackTemplate.Number.Basic

/-!
# Values

A template is a tree of scalars, lists and mappings, and so is everything it resolves to.
The entries of a mapping keep the order in which they were written.  `WellKeyed` says that
no mapping of a value repeats a key; it stands beside the type, because look-up and
resolution make sense without it.
-/

namespace StackTemplate

/-- A template value. -/
inductive Value where
  | null
  | boolean (b : Bool)
  | number (n : Number)
  | string (s : String)
  | list (items : List Value)
  | mapping (entries : List (String × Value))

/-- The six kinds of value. -/
inductive ValueKind where
  | null | boolean | number | string | list | mapping
deriving DecidableEq, Repr

namespace ValueKind

/-- The word for a kind in messages. -/
def word : ValueKind → String
  | .null => "null"
  | .boolean => "boolean"
  | .number => "number"
  | .string => "string"
  | .list => "list"
  | .mapping => "mapping"

end ValueKind

/-- The entries of a mapping, in order. -/
abbrev Entries := List (String × Value)

namespace Value

/-- The kind of a value. -/
def kind : Value → ValueKind
  | .null => .null
  | .boolean _ => .boolean
  | .number _ => .number
  | .string _ => .string
  | .list _ => .list
  | .mapping _ => .mapping

/-- The text of a string; `none` for a value of another kind. -/
def asString? : Value → Option String
  | .string s => some s
  | _ => none

/-- The items of a list; `none` for a value of another kind. -/
def asList? : Value → Option (List Value)
  | .list items => some items
  | _ => none

/-- The entries of a mapping; `none` for a value of another kind. -/
def asMapping? : Value → Option Entries
  | .mapping entries => some entries
  | _ => none

/-- The texts of a list of strings; `none` for any other value. -/
def asStrings? (v : Value) : Option (List String) :=
  v.asList?.bind fun items => items.mapM asString?

/-- The texts of a list of `count` strings; `none` for any other value. -/
def asVector? (count : Nat) (v : Value) : Option (Vector String count) :=
  v.asStrings?.bind fun texts =>
    if h : texts.length = count then some ⟨texts.toArray, h⟩ else none

/-- The value under `key`; `none` also for a value that is no mapping. -/
def get? (v : Value) (key : String) : Option Value :=
  v.asMapping?.bind (·.lookup key)

/-- The text under `key`, if there is one and it is a string. -/
def getString? (v : Value) (key : String) : Option String :=
  (v.get? key).bind asString?

@[simp] theorem get?_mapping (entries : Entries) (key : String) :
    (Value.mapping entries).get? key = entries.lookup key := rfl

theorem mapM_asString?_eq_some_iff {items : List Value} {texts : List String} :
    items.mapM asString? = some texts ↔ items = texts.map .string := by
  induction items generalizing texts with
  | nil => simp [eq_comm]
  | cons v rest ih =>
    cases texts with
    | nil => cases v <;> simp [asString?, Option.bind_eq_some_iff]
    | cons text texts =>
      cases v with
      | string s => simpa [asString?, Option.bind_eq_some_iff, ← ih] using and_comm
      | null | boolean | number | list | mapping => simp [asString?]

theorem asStrings?_eq_some_iff {v : Value} {texts : List String} :
    v.asStrings? = some texts ↔ v = .list (texts.map .string) := by
  cases v <;> simp [asStrings?, asList?, mapM_asString?_eq_some_iff]

theorem asVector?_eq_some_iff {count : Nat} {v : Value} {texts : Vector String count} :
    v.asVector? count = some texts ↔ v = .list (texts.toList.map .string) := by
  rw [← asStrings?_eq_some_iff, asVector?, Option.bind_eq_some_iff]
  constructor
  · rintro ⟨found, hfound, h⟩
    split at h
    · cases h
      exact hfound
    · cases h
  · intro h
    exact ⟨texts.toList, h, by simp [Vector.toList]⟩

/-! ## Well-keyed values -/

mutual

/-- No mapping in the value repeats a key. -/
def WellKeyed : Value → Prop
  | .list items => WellKeyedItems items
  | .mapping entries => (entries.map Prod.fst).Nodup ∧ WellKeyedEntries entries
  | _ => True

def WellKeyedItems : List Value → Prop
  | [] => True
  | v :: rest => v.WellKeyed ∧ WellKeyedItems rest

def WellKeyedEntries : Entries → Prop
  | [] => True
  | (_, v) :: rest => v.WellKeyed ∧ WellKeyedEntries rest

end

theorem wellKeyedItems_iff {items : List Value} :
    WellKeyedItems items ↔ ∀ v ∈ items, v.WellKeyed := by
  induction items with
  | nil => simp [WellKeyedItems]
  | cons v rest ih => simp [WellKeyedItems, ih]

theorem wellKeyedEntries_iff {entries : Entries} :
    WellKeyedEntries entries ↔ ∀ e ∈ entries, e.2.WellKeyed := by
  induction entries with
  | nil => simp [WellKeyedEntries]
  | cons e rest ih => simp [WellKeyedEntries, ih]

/-- Induction over a value, with the hypothesis for every item of a list and every entry of
a mapping. -/
theorem induct {motive : Value → Prop} (null : motive .null)
    (boolean : ∀ b, motive (.boolean b)) (number : ∀ n, motive (.number n))
    (string : ∀ s, motive (.string s))
    (list : ∀ items, (∀ v ∈ items, motive v) → motive (.list items))
    (mapping : ∀ entries : Entries, (∀ e ∈ entries, motive e.2) → motive (.mapping entries))
    (v : Value) : motive v :=
  @Value.rec motive (fun items => ∀ v ∈ items, motive v)
    (fun entries => ∀ e ∈ entries, motive e.2) (fun e => motive e.2)
    null boolean number string list mapping
    (by simp) (fun v rest hv hrest => by simpa using ⟨hv, hrest⟩)
    (by simp) (fun e rest he hrest => by
      intro x hx
      rcases List.mem_cons.mp hx with rfl | hx
      · exact he
      · exact hrest x hx)
    (fun _ _ hv => hv) v

end Value
end StackTemplate
