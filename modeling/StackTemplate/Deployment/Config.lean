import StackTemplate.Deployment.Facts
import StackTemplate.Text.Decimal

/-!
# Configuration

Two settings steer a resolution: what negation does to its operand, and how deeply
resolutions may nest (section 16 of the specification).  Both can be read from a value or from
the environment; an environment variable that does not parse counts as absent.
-/

namespace StackTemplate

/-- What negation does to its operand. -/
inductive Negation where
  /-- The operand's value is passed on, whatever it is. -/
  | passthrough
  /-- The operand must be a boolean and is inverted. -/
  | invert
deriving DecidableEq

namespace Negation

/-- The word for a setting. -/
def word : Negation → String
  | .passthrough => "passthrough"
  | .invert => "invert"

/-- The setting with exactly this word. -/
def ofWord? : String → Option Negation
  | "passthrough" => some .passthrough
  | "invert" => some .invert
  | _ => none

/-- A text as it is compared with the words: trimmed, and ASCII letters in lower case. -/
def normal (s : String) : String :=
  String.ofList ((Text.trim s.toList).map Char.toLower)

/-- Reads a setting, blanks around it and the case of its letters aside (`from_str`); fails
with a message that quotes the normal form. -/
def read (s : String) : Except String Negation :=
  match ofWord? (normal s) with
  | some n => .ok n
  | none => .error (String.join ["unknown Fn::Not semantics '", normal s, "'"])

/-- A setting as a value: its word, or a mapping from its word to null. -/
def ofValue? : Value → Option Negation
  | .string s => ofWord? s
  | .mapping [(key, .null)] => ofWord? key
  | _ => none

end Negation

/-- The settings of a resolution. -/
structure Config where
  negation : Negation
  maxDepth : Nat
deriving DecidableEq

namespace Config

/-- The nesting that is allowed when nothing else is said. -/
def defaultMaxDepth : Nat := 128

/-- The settings that the environment makes (`default`). -/
def ofEnvironment (env : Environment) : Config where
  negation := ((env "TEMPLATE_DEREF_NOT_SEMANTICS").bind fun s =>
    (Negation.read s).toOption).getD .passthrough
  maxDepth := ((env "TEMPLATE_DEREF_MAX_DEPTH").bind fun s =>
    Text.readSize? s.toList).getD defaultMaxDepth

/-- A depth as a value: a whole number that is not negative. -/
def depthOfValue? : Value → Option Nat
  | .number (.integer i _) => if 0 ≤ i then some i.toNat else none
  | _ => none

/-- Settings from a mapping that has both, or from a list of the two in order. -/
def ofValue? : Value → Option Config
  | .mapping entries => do
    let negation ← Negation.ofValue? (← entries.lookup "not_semantics")
    let maxDepth ← depthOfValue? (← entries.lookup "max_depth")
    return ⟨negation, maxDepth⟩
  | .list [negation, maxDepth] => do
    return ⟨← Negation.ofValue? negation, ← depthOfValue? maxDepth⟩
  | _ => none

/-- The text of the mapping that `ofValue?` reads back. -/
def text (c : Config) : String :=
  String.join ["\x7b\"not_semantics\":\"", c.negation.word, "\",\"max_depth\":",
    c.maxDepth.repr, "\x7d"]

end Config
end StackTemplate
