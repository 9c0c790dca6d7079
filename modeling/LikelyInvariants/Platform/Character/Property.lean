import LikelyInvariants.Platform.Character.Age
import LikelyInvariants.Platform.Character.Category
import LikelyInvariants.Platform.Character.Script
import LikelyInvariants.Platform.Character.ScriptExtension
import LikelyInvariants.Platform.Character.Segmentation
import LikelyInvariants.Platform.Character.Trait

/-!
# Properties of characters, by name

A set of characters can be named by a trait, a category or a script, or by a property and one of its
values. Some traits follow from categories and other traits and have no table. Names are compared
without regard to letter case, blanks, hyphens, low lines and a leading `is`.
-/

namespace LikelyInvariants.Character

/-- A name without what does not matter in it. A leading `is` stays in `isc`, which would otherwise
be a name of the control characters. -/
def looseName (name : String) : String :=
  let marked := ["is", "Is", "iS", "IS"].any fun mark => mark.toList.isPrefixOf name.toList
  let rest := if marked then name.toList.drop 2 else name.toList
  let kept := rest.filter fun c => c ≠ ' ' && c ≠ '_' && c ≠ '-' && c.toNat < 0x80
  let loose := String.ofList (kept.map Char.toLower)
  if marked && loose = "c" then "isc" else loose

/-- The characters with a trait of the table. -/
def trait (name : String) : CodePoints := (NamedSet.find? traits name).getD .empty

namespace Trait

def lowercase : CodePoints := (category "ll").union (trait "otherlowercase")

def uppercase : CodePoints := (category "lu").union (trait "otheruppercase")

def cased : CodePoints := CodePoints.unions [lowercase, uppercase, category "lt"]

def alphabetic : CodePoints :=
  CodePoints.unions [cased, categoryGroup ["lm", "lo", "nl"], trait "otheralphabetic"]

def math : CodePoints := (category "sm").union (trait "othermath")

/-- Marks, modifiers, format characters and the signs that stand inside words. -/
def caseIgnorable : CodePoints :=
  (categoryGroup ["mn", "me", "cf", "lm", "sk"]).union (CodePoints.ofText
    ["13 6 b 3g jz d3 44 55v+1 a 2 17u3 1q 2 4x 6 b"])

def changesWhenCasemapped : CodePoints :=
  CodePoints.unions [trait "changeswhenlowercased", trait "changeswhenuppercased",
    trait "changeswhentitlecased"]

def graphemeExtend : CodePoints :=
  (categoryGroup ["mn", "me"]).union (trait "othergraphemeextend")

def graphemeBase : CodePoints :=
  assigned.diff ((categoryGroup ["cc", "cf", "co", "zl", "zp"]).union graphemeExtend)

def identifierStart : CodePoints :=
  ((categoryGroup ["lu", "ll", "lt", "lm", "lo", "nl"]).union (trait "otheridstart")).diff
    ((trait "patternsyntax").union (trait "patternwhitespace"))

def identifierContinue : CodePoints :=
  (CodePoints.unions [identifierStart, categoryGroup ["mn", "mc", "nd", "pc"],
    trait "otheridcontinue"]).diff ((trait "patternsyntax").union (trait "patternwhitespace"))

/-- Characters whose compatible form cannot continue an identifier. -/
def unstableContinue : CodePoints := CodePoints.ofText
    ["oq 8ww+1 148x+5 ba+1 38 1*7"]

/-- Characters whose compatible form cannot start an identifier. -/
def unstableStart : CodePoints := CodePoints.ofText
    ["oq 248 3j 6p3+1 148x+5 ba+1 38 1*7 7z+1"]

def defaultIgnorable : CodePoints :=
  (CodePoints.unions [category "cf", trait "otherdefaultignorablecodepoint",
    trait "variationselector"]).diff
    (CodePoints.unions [trait "whitespace", trait "prependedconcatenationmark",
      CodePoints.range '\ufff9' '\ufffb', CodePoints.ofRanges [(0x13430, 0x13440)]])

/-- The traits that have no table. -/
def derived : List (List String × (Unit → CodePoints)) := [
  (["alpha", "alphabetic"], fun _ => alphabetic),
  (["lower", "lowercase"], fun _ => lowercase),
  (["upper", "uppercase"], fun _ => uppercase),
  (["cased"], fun _ => cased),
  (["math"], fun _ => math),
  (["ci", "caseignorable"], fun _ => caseIgnorable),
  (["cwcm", "changeswhencasemapped"], fun _ => changesWhenCasemapped),
  (["grext", "graphemeextend"], fun _ => graphemeExtend),
  (["grbase", "graphemebase"], fun _ => graphemeBase),
  (["ids", "idstart"], fun _ => identifierStart),
  (["idc", "idcontinue"], fun _ => identifierContinue),
  (["xids", "xidstart"], fun _ => identifierStart.diff unstableStart),
  (["xidc", "xidcontinue"], fun _ => identifierContinue.diff unstableContinue),
  (["di", "defaultignorablecodepoint"], fun _ => defaultIgnorable)]

end Trait

/-- The characters with a trait, by any of its names. -/
def trait? (name : String) : Option CodePoints :=
  match Trait.derived.find? (·.1.contains name) with
  | some (_, set) => some (set ())
  | none => NamedSet.find? traits name

/-- The set that is named by a trait, a category or a script. -/
def property? (name : String) : Option CodePoints :=
  let name := looseName name
  (trait? name).orElse fun _ => (category? name).orElse fun _ => NamedSet.find? scripts name

/-- The set that is named by a property and its value. -/
def propertyValue? (property value : String) : Option CodePoints :=
  let value := looseName value
  match looseName property with
  | "gc" | "generalcategory" => category? value
  | "sc" | "script" => NamedSet.find? scripts value
  | "scx" | "scriptextensions" => NamedSet.find? scriptExtensions value
  | "age" => age? value
  | "gcb" | "graphemeclusterbreak" => NamedSet.find? graphemeBreaks value
  | "wb" | "wordbreak" => NamedSet.find? wordBreaks value
  | "sb" | "sentencebreak" => NamedSet.find? sentenceBreaks value
  | _ => none

end LikelyInvariants.Character
