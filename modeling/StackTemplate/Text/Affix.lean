/-!
# Beginnings and ends of texts

Whether a text starts or ends with a given one, character by character.
-/

namespace StackTemplate
namespace Text

/-- The text starts with `start`. -/
def startsWith (start s : String) : Bool := start.toList.isPrefixOf s.toList

/-- The text ends with `tail`. -/
def endsWith (tail s : String) : Bool := tail.toList.isSuffixOf s.toList

end Text
end StackTemplate
