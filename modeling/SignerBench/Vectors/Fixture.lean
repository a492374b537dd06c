import SignerBench.Bytes.Basic
import SignerBench.Files.Access
import SignerBench.Json.Record
import SignerBench.Vectors.Error
import SignerBench.Outside

namespace SignerBench.Vectors

/-- The state of the published plans. -/
def commit : String := "d2e56dbf6c721784056d88740b072c3c194cf6eb"

/-- The words that the keys of the test vectors are derived from. -/
def testSeed : String := "equip will roof matter pink blind book anxiety banner elbow sun young"

def defaultBase : String := "https://raw.githubusercontent.com/penumbra-zone/penumbra"

def planCount : Nat := 11

/-- Plans that are of no use here. -/
def skipped : List Nat := [2]

def testCasesFile : String := "penumbra_pr4948_action_testcases.json"

def plansFile : String := "penumbra_pr4948_transaction_plans.json"

def planUrl (base commit : String) (index : Nat) : String :=
  Web.base base ++ "/" ++ commit ++
    "/crates/core/transaction/tests/signing_test_vectors/transaction_plan_" ++ toString index ++ ".json"

open Json (Field Fields Record Row)

structure SpendCase where
  idx : UInt32
  /-- Also names the snapshots of the test. -/
  name : String
  blob : String
  expectedEffectHash : String
  expectedSpendSig : String
  metadata : List String
  deriving DecidableEq, Repr

structure PlanCase where
  idx : UInt32
  /-- Also names the snapshots of the test. -/
  name : String
  blob : String
  expectedEffectHash : String
  expectedSpendSigs : List String
  expectedDelegatorVoteSigs : List String
  expectedLqtVoteSigs : List String
  actionTypes : List String
  metadata : List String
  deriving DecidableEq, Repr

namespace SpendCase

abbrev Columns : List Type := [UInt32, String, String, String, String, List String]

def record : Record Columns where
  name := "TestCase"
  fields := .cons (.word32 "idx") (.cons (.text "name") (.cons (.text "blob")
    (.cons (.text "expected_effect_hash") (.cons (.text "expected_spend_sig")
      (.cons (.texts "metadata") .nil)))))

def ofRow : Row Columns → SpendCase
  | (idx, name, blob, effectHash, spendSig, metadata, ()) => ⟨idx, name, blob, effectHash, spendSig, metadata⟩

def toRow (t : SpendCase) : Row Columns :=
  (t.idx, t.name, t.blob, t.expectedEffectHash, t.expectedSpendSig, t.metadata, ())

def read (room : Nat) (d : Json.Draft) : Json.Read SpendCase := (record.read room d).map ofRow

def toJson (t : SpendCase) : Json := record.write t.toRow

def decodeBlob (t : SpendCase) : Except HexError Bytes := Hex.decode t.blob

end SpendCase

namespace PlanCase

abbrev Columns : List Type :=
  [UInt32, String, String, String, List String, List String, List String, List String, List String]

def record : Record Columns where
  name := "Pr4948TestCase"
  fields := .cons (.word32 "idx") (.cons (.text "name") (.cons (.text "blob")
    (.cons (.text "expected_effect_hash") (.cons (.texts "expected_spend_sigs")
      (.cons (.texts "expected_delegator_vote_sigs") (.cons (.texts "expected_lqt_vote_sigs")
        (.cons (.texts "actionTypes") (.cons (.texts "metadata") .nil))))))))

def ofRow : Row Columns → PlanCase
  | (idx, name, blob, effectHash, spends, delegatorVotes, lqtVotes, actionTypes, metadata, ()) =>
    ⟨idx, name, blob, effectHash, spends, delegatorVotes, lqtVotes, actionTypes, metadata⟩

def toRow (t : PlanCase) : Row Columns :=
  (t.idx, t.name, t.blob, t.expectedEffectHash, t.expectedSpendSigs, t.expectedDelegatorVoteSigs,
    t.expectedLqtVoteSigs, t.actionTypes, t.metadata, ())

def read (room : Nat) (d : Json.Draft) : Json.Read PlanCase := (record.read room d).map ofRow

def toJson (t : PlanCase) : Json := record.write t.toRow

def decodeBlob (t : PlanCase) : Except HexError Bytes := Hex.decode t.blob

end PlanCase

/-- Work on files that fails with an error of this library. -/
abbrev FileWork := Attempt Files.Ask Files.Reply Empty Error

/-- Work on one file, which names it where it fails. -/
def onFile {α : Type} (path : String) (work : Files.Access α) : FileWork α :=
  ExceptT.adapt (fun e => Error.file path (.system e)) work

/-- Reads a file that holds a list of test cases. -/
def load {α : Type} (read : Nat → Json.Draft → Json.Read α) (path : String) : FileWork (List α) := do
  let content ← onFile path (Files.Access.read path)
  if (Bytes.toText? content).isNone then throw (.file path .notText)
  match Json.readBytes (Json.Draft.readList read) content with
  | .ok cases => return cases
  | .error e => throw (.json e)

end SignerBench.Vectors
