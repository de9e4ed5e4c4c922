import StackTemplate.Value.Basic

/-!
# Templates

A template is a document with named sections.  A section that is absent or no mapping counts
as empty.  The declarations of parameters and conditions and the entries of the look-up
tables are read as they are written; a resource is a declared name with its definition
(section 3 of the specification, where a resource is an entity).
-/

namespace StackTemplate

/-- A declared resource. -/
structure Resource where
  name : String
  definition : Value

namespace Resource

/-- The declared type; empty when there is none. -/
def typeName (r : Resource) : String := (r.definition.getString? "Type").getD ""

/-- A property as it is written. -/
def property? (r : Resource) (key : String) : Option Value :=
  (r.definition.get? "Properties").bind (·.get? key)

/-- The first of the properties `keys` that is present. -/
def firstProperty? (r : Resource) (keys : List String) : Option Value :=
  keys.findSome? r.property?

end Resource

/-- A template document. -/
structure Template where
  document : Value

namespace Template

/-- The declarations of a section (`section`). -/
def declarations (t : Template) (name : String) : Entries :=
  ((t.document.get? name).bind Value.asMapping?).getD []

/-- The declaration of a parameter. -/
def parameter? (t : Template) (name : String) : Option Value :=
  (t.declarations "Parameters").lookup name

/-- The expression of a condition. -/
def condition? (t : Template) (name : String) : Option Value :=
  (t.declarations "Conditions").lookup name

/-- An entry of a look-up table (`mapping_value`). -/
def mappingEntry? (t : Template) (mapping key attr : String) : Option Value :=
  ((t.declarations "Mappings").lookup mapping).bind fun table =>
    (table.get? key).bind (·.get? attr)

/-- A declared resource. -/
def resource? (t : Template) (name : String) : Option Resource :=
  ((t.declarations "Resources").lookup name).map fun definition => ⟨name, definition⟩

/-- The declared resources, in the order of the template (`entities`). -/
def resources (t : Template) : List Resource :=
  (t.declarations "Resources").map fun (name, definition) => ⟨name, definition⟩

end Template
end StackTemplate
