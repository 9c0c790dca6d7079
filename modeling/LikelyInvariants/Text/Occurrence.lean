/-!
# Occurrences in a text

Whether a text has another one as its beginning, its ending or as a part anywhere in it, character
by character.
-/

namespace LikelyInvariants

/-- Whether one list occurs in another without gaps. -/
def occursIn {α : Type} [BEq α] (part : List α) : List α → Bool
  | [] => part.isEmpty
  | a :: as => part.isPrefixOf (a :: as) || occursIn part as

/-- Whether a text begins with another. -/
def beginsWith (text start : String) : Bool := start.toList.isPrefixOf text.toList

/-- Whether a text ends with another. -/
def endsWith (text ending : String) : Bool := ending.toList.isSuffixOf text.toList

/-- Whether another text is a part of a text. -/
def hasPart (text part : String) : Bool := occursIn part.toList text.toList

end LikelyInvariants
