import SignerBench.Vectors.Authorizer
import SignerBench.Vectors.Fixture

namespace SignerBench.Vectors

def effectHashLength : Nat := 64

def signatureLength : Nat := 64

/-- The signatures from the one at `index` on, as text. -/
def checkLengths (kind : Authorization) (index : Nat) : List Bytes → Except Error (List String)
  | [] => .ok []
  | s :: rest =>
    if s.length ≠ signatureLength then .error (.signatureLength kind index s.length)
    else do
      let rest ← checkLengths kind (index + 1) rest
      return Hex.encode s :: rest

def checkSignatures (kind : Authorization) (expected : Nat) (signatures : List Bytes) :
    Except Error (List String) :=
  if signatures.length ≠ expected then .error (.signatureCount kind expected signatures.length)
  else checkLengths kind 0 signatures

/-- The test case of an authorized plan. -/
def PlanCase.make (index : Nat) (plan : Plan) (a : Authorized) : Except Error PlanCase := do
  if a.effectHash.length ≠ effectHashLength then throw (.effectHashLength a.effectHash.length)
  let required := plan.required
  let spends ← checkSignatures .spendAuth required.spendAuth a.spendAuths
  let delegatorVotes ← checkSignatures .delegatorVote required.delegatorVote a.delegatorVotes
  let lqtVotes ← checkSignatures .lqtVote required.lqtVote a.lqtVotes
  return ⟨UInt32.ofNat index, "Penumbra_PR4948_Vector_" ++ toString index, Hex.encode a.plan,
    Hex.encode a.effectHash, spends, delegatorVotes, lqtVotes, plan.actionNames, []⟩

/-- A plan with the words that its keys come from. -/
structure Submission where
  seed : String
  plan : Plan
  deriving DecidableEq, Repr

/-- Work that has plans authorized, each of which may fail. -/
abbrev Authorizing := Attempt Submission (fun _ => Except Error Authorized) Empty Error

def authorize (seed : String) (plan : Plan) : Authorizing Authorized :=
  ExceptT.mk (Dialogue.query ⟨seed, plan⟩)

def convert (seed : String) (index : Nat) (v : Json) : Authorizing PlanCase := do
  let plan ← Attempt.ofExcept ((Plan.ofJson v).mapError .plan)
  let authorized ← authorize seed plan
  Attempt.ofExcept (PlanCase.make index plan authorized)

end SignerBench.Vectors
