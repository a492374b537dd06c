import SignerBench.App.Client

namespace SignerBench.App

namespace Script

inductive Fault where
  | exhausted
  | short
  /-- The script says that the link fails here, and why. -/
  | told (reason : String)
  deriving DecidableEq, Repr

def Fault.message : Fault → String
  | .exhausted => "no answer queued"
  | .short => "short answer"
  | .told reason => reason

end Script

structure Script where
  answers : List (Except Script.Fault Bytes)
  /-- The commands received, in reverse. -/
  sent : List Apdu.Command := []

namespace Script

def read (b : Bytes) : Except Fault Apdu.Answer :=
  match Apdu.Answer.ofBytes? b with
  | some a => .ok a
  | none => .error .short

def reply (c : Apdu.Command) (s : Script) : Except Fault Apdu.Answer × Script :=
  match s.answers with
  | [] => (.error .exhausted, { s with sent := c :: s.sent })
  | answer :: rest => (answer.bind read, ⟨rest, c :: s.sent⟩)

def run {α : Type} (request : Link Fault α) (s : Script) : Except (Error Fault) α × Script :=
  request.run.run reply s

end Script

end SignerBench.App
