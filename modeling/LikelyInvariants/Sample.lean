import LikelyInvariants.Value

/-!
# Samples

A sample is one observation of a program point: a slot for each variable that is not constant. A
slot holds a value, with a mark that says whether the variable was assigned since the last
sample, or it is missing. A missing slot has no value by construction.
-/

namespace LikelyInvariants

/-- What is known about a slot, or about a tuple of slots. -/
inductive ModState where
  | unmodified
  | modified
  | missing
deriving DecidableEq

/-- The state of two slots taken together: missing if either is, else modified if either is. -/
def ModState.combine : ModState → ModState → ModState
  | .missing, _ => .missing
  | _, .missing => .missing
  | .modified, _ => .modified
  | _, .modified => .modified
  | .unmodified, .unmodified => .unmodified

/-- A value that was observed. -/
structure Reading where
  value : Value
  modified : Bool
deriving DecidableEq

/-- The state of a slot that holds a reading. -/
def Reading.state (r : Reading) : ModState := if r.modified then .modified else .unmodified

/-- The reading of a value in a given state; a missing one is none. -/
def Reading.of? (value : Value) : ModState → Option Reading
  | .missing => none
  | .unmodified => some ⟨value, false⟩
  | .modified => some ⟨value, true⟩

/-- One observation of a program point. -/
structure Sample where
  slots : List (Option Reading)
deriving DecidableEq

namespace Sample

/-- The sample of `n` missing slots. -/
def missing (n : Nat) : Sample := ⟨List.replicate n none⟩

def size (s : Sample) : Nat := s.slots.length

/-- The reading in a slot; a slot past the end is missing. -/
def reading? (s : Sample) (i : Nat) : Option Reading := s.slots[i]?.join

def value? (s : Sample) (i : Nat) : Option Value := (s.reading? i).map Reading.value

def state (s : Sample) (i : Nat) : ModState := (s.reading? i).elim .missing Reading.state

/-- The state of all slots taken together. -/
def combinedState (s : Sample) : ModState :=
  s.slots.foldl (fun acc slot => acc.combine (slot.elim .missing Reading.state)) .unmodified

end Sample

/-- The values of some variables in one sample, all of them present, with their joint state. -/
structure Tuple where
  values : List Value
  state : ModState

/-- The tuple of some readings. -/
def Tuple.ofReadings (rs : List Reading) : Tuple where
  values := rs.map Reading.value
  state := rs.foldl (fun acc r => acc.combine r.state) .unmodified

end LikelyInvariants
