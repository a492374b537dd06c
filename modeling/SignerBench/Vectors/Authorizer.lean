import SignerBench.Bytes.Utf8
import SignerBench.Json.Printer
import SignerBench.Json.Record
import SignerBench.Outside
import SignerBench.Text.Basic
import SignerBench.Vectors.Error

namespace SignerBench.Vectors

/-- A plan in its binary form, the hash of its effects, and its signatures in the order of its actions. -/
structure Authorized where
  plan : Bytes
  effectHash : Bytes
  spendAuths : List Bytes
  delegatorVotes : List Bytes
  lqtVotes : List Bytes
  deriving DecidableEq, Repr

namespace Authorizer

open Json (Record Row)

def request (seed : String) (plan : Plan) : Bytes :=
  Bytes.ofText (Json.compact (.object [("seed_phrase", .text seed), ("plan", plan.toJson)]))

structure Answer where
  plan : String
  effectHash : String
  spendAuths : List String
  delegatorVotes : List String
  lqtVotes : List String
  deriving DecidableEq, Repr

def answerRecord : Record [String, String, List String, List String, List String] where
  name := "AuthorizeResponse"
  fields := .cons (.text "plan") (.cons (.text "effect_hash") (.cons (.texts "spend_auths")
    (.cons (.texts "delegator_vote_auths") (.cons (.texts "lqt_vote_auths") .nil))))

def Answer.read (output : Bytes) : Json.Read Answer := do
  let (plan, effectHash, spendAuths, delegatorVotes, lqtVotes, ()) ←
    Json.readBytes answerRecord.read output
  return ⟨plan, effectHash, spendAuths, delegatorVotes, lqtVotes⟩

/-- The first text that is no hexadecimal decides the error. -/
def Answer.decode (a : Answer) : Except HexError Authorized := do
  let plan ← Hex.decode a.plan
  let effectHash ← Hex.decode a.effectHash
  let spendAuths ← a.spendAuths.mapM Hex.decode
  let delegatorVotes ← a.delegatorVotes.mapM Hex.decode
  let lqtVotes ← a.lqtVotes.mapM Hex.decode
  return ⟨plan, effectHash, spendAuths, delegatorVotes, lqtVotes⟩

/-- What the run of the program comes to. A program that did not succeed has the first say, then one that was
not fed its request, then its answer. -/
def conclude (program : String) : Program.Outcome → Except Error Authorized
  | .notStarted cause => .error (.authorizer (.system program cause))
  | .ended status fed output errors =>
    if !status.success then
      .error (.authorizer (.ended program status (Text.trim (Utf8.decodeLossy errors))))
    else match fed with
      | .error cause => .error (.authorizer (.system program cause))
      | .ok () => do
        let answer ← (Answer.read output).mapError .json
        answer.decode.mapError .hex

end Authorizer

end SignerBench.Vectors
