import LikelyInvariants.Platform.Character.Property

/-!
# Digits, blanks and word characters

The three classes that have an escape in patterns: the decimal digits of every script, the white
space, and the characters words are made of, which are alphabetic characters, marks, decimal digits,
connecting punctuation and the two joiners.
-/

namespace LikelyInvariants.Character

def digits : CodePoints := category "nd"

def blanks : CodePoints := trait "whitespace"

def wordCharacters : CodePoints :=
  CodePoints.unions [Trait.alphabetic, categoryGroup ["mn", "mc", "me", "nd", "pc"],
    trait "joincontrol"]

def isBlank (c : Char) : Bool := blanks.contains c

def isWord (c : Char) : Bool := wordCharacters.contains c

end LikelyInvariants.Character
