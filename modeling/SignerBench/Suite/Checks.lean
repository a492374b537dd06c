import SignerBench.App.Error
import SignerBench.App.Keys
import SignerBench.Emulator.Error
import SignerBench.Vectors.Action
import SignerBench.Vectors.Fixture

namespace SignerBench.Suite

inductive Error where
  | emulator (cause : Emulator.Error)
  | app (cause : App.Error Emulator.Error)
  /-- There is no snapshot of the home screen. -/
  | noMainMenu
  | effectHash (name expected found : String)
  | signatureCount (name : String) (kind : Vectors.Authorization) (expected found : Nat)
  deriving Repr

def Error.message : Error → String
  | .emulator cause => cause.message
  | .app cause => "app error: " ++ cause.message Emulator.Error.message
  | .noMainMenu => "emulator has no main menu snapshot"
  | .effectHash name expected found =>
    name ++ ": effect hash " ++ found ++ " does not match " ++ expected
  | .signatureCount name kind expected found =>
    name ++ ": expected " ++ toString expected ++ " " ++ kind.name ++ " signatures, device returned " ++
      toString found

open Vectors (Authorization PlanCase)

/-- The same text but for the case of plain letters. -/
def sameIgnoringCase (a b : String) : Bool := a.toLower = b.toLower

def checkEffectHash (name expected : String) (r : App.SignedPlan) : Except Error Unit :=
  let found := Hex.encode r.effectHash.val
  if sameIgnoringCase found expected then .ok () else .error (.effectHash name expected found)

/-- The number of signatures of each kind, in the test case and in the device's answer. -/
def signatureCounts (t : PlanCase) (r : App.SignedPlan) : List (Authorization × Nat × Nat) :=
  [(.spendAuth, t.expectedSpendSigs.length, r.spendAuths.length),
    (.delegatorVote, t.expectedDelegatorVoteSigs.length, r.delegatorVotes.length),
    (.lqtVote, t.expectedLqtVoteSigs.length, r.lqtVotes.length)]

/-- The first kind that differs decides the error. -/
def checkSignatureCounts (t : PlanCase) (r : App.SignedPlan) : Except Error Unit :=
  match (signatureCounts t r).find? fun (_, expected, found) => expected ≠ found with
  | some (kind, expected, found) => .error (.signatureCount t.name kind expected found)
  | none => .ok ()

end SignerBench.Suite
