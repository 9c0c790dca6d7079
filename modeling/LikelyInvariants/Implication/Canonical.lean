import LikelyInvariants.Implication.Term
import LikelyInvariants.Partition
import LikelyInvariants.Text.Occurrence

/-!
# One term for each class of equivalent terms

Two-way implications group terms into classes: two terms are in one class when a chain of two-way
implications connects them. Of each class one member, the canonical one, stands for the others. A
one-way implication about another member adds nothing to the one about the canonical member, so it
is dropped; the two-way implications all stay.
-/

namespace LikelyInvariants.Implication

/-- The terms that are in two-way implications, in order. -/
def equivalenceTerms (imps : List Implication) : List Term :=
  (imps.filter (·.iff)).flatMap fun i => [i.predicate, i.consequent]

/-- The text of the last term that comes from a source. -/
def lastText (terms : List Term) (source : TermSource) : String :=
  ((terms.filter (·.source = source)).getLast?.map (·.text)).getD ""

/-- Whether a text mentions the identity `null` or a result, which makes it a poor condition. -/
def isUndesirable (text : String) : Bool := hasPart text "null" || hasPart text "return"

/-- Whether a term should stand for a class rather than another: if the other is undesirable, or if
it is desirable itself and shorter. Lengths are in bytes. -/
def isPreferred (other text : String) : Bool :=
  isUndesirable other || (!isUndesirable text && text.utf8ByteSize < other.utf8ByteSize)

/-- The canonical member of a class: the sources compete in their order, each against the best of
the ones before it. -/
def best? (text : TermSource → String) (members : List TermSource) : Option TermSource :=
  match members.mergeSort fun s t => (s.compare t).isLE with
  | [] => none
  | m :: ms => some (ms.foldl (fun best s => if isPreferred (text best) (text s) then s else best) m)

/-- The classes of equivalent terms. The root above a predicate stays a root. -/
def classes (imps : List Implication) : List (List TermSource) :=
  Partition.ofPairs (fun _ _ => true) <|
    (imps.filter (·.iff)).map fun i => (i.predicate.source, i.consequent.source)

/-- Each class of equivalent terms with its canonical member. -/
def represented (imps : List Implication) : List (List TermSource × Option TermSource) :=
  let text := lastText (equivalenceTerms imps)
  (classes imps).map fun members => (members, best? text members)

/-- Whether a term has no equivalent or is the canonical one of its class. -/
def isCanonical (represented : List (List TermSource × Option TermSource))
    (source : TermSource) : Bool :=
  match represented.find? (source ∈ ·.1) with
  | none => true
  | some (_, canonical) => canonical = some source

/-- The implications without the one-way ones about terms that are not canonical. -/
def canonicalize (imps : List Implication) : List Implication :=
  let isCanonical := isCanonical (represented imps)
  imps.filter fun i => i.iff || (isCanonical i.predicate.source && isCanonical i.consequent.source)

end LikelyInvariants.Implication
