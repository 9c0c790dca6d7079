import LikelyInvariants.Text.Duration

/-!
# Talking to a prover

A prover keeps a stack of assumptions. It is asked whether a formula follows from them; it answers
valid or invalid, or the conversation fails.
-/

namespace LikelyInvariants

/-- A request to a prover. -/
inductive ProverCommand where
  /-- Push a formula on the stack of assumptions. -/
  | assume (formula : String)
  /-- Ask whether a formula follows from the assumptions. -/
  | check (formula : String)
  /-- Pop the last assumption. -/
  | undo
deriving DecidableEq

inductive ProverResponse where
  /-- The request needs no answer. -/
  | ack
  | valid
  | invalid
deriving DecidableEq

/-- Why a conversation failed. -/
inductive ProverError where
  | unavailable (reason : String)
  /-- No answer came within so many milliseconds. -/
  | timeout (ms : Nat)
  | protocol (output : String)
  | io (reason : String)
deriving DecidableEq

def ProverError.message : ProverError → String
  | unavailable reason => s!"Prover unavailable: {reason}"
  | timeout ms => s!"Prover did not answer within {durationText ms}"
  | protocol output => s!"Unexpected prover output: {output}"
  | io reason => s!"Prover I/O error: {reason}"

def ProverResponse.name : ProverResponse → String
  | ack => "Ack"
  | valid => "Valid"
  | invalid => "Invalid"

/-- The formulas joined to one. -/
def conjunction (formulas : List String) : String :=
  "(AND " ++ " ".intercalate formulas ++ ")"

end LikelyInvariants
