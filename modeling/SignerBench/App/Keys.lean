import SignerBench.App.Error
import SignerBench.Bytes.Basic
import SignerBench.Bytes.Hex
import SignerBench.Json.Printer

namespace SignerBench.App

def logForm (name : String) (parts : List (String × String)) : String :=
  name ++ " \x7b " ++ String.intercalate ", " (parts.map fun p => p.1 ++ ": " ++ p.2) ++ " \x7d"

def hexLog (b : Bytes) : String := Text.quote (Hex.encode b)

def hexJson (b : Bytes) : Json := .text (Hex.encode b)

variable {ε : Type}

/-- The bytes from the place `first` up to `last`, all of which an answer must have. -/
def slice (first last : Nat) (data : Bytes) : Except (Error ε) Bytes :=
  if first ≤ last ∧ last ≤ data.length then .ok ((data.drop first).take (last - first)) else .error .cutShort

def fill (n : Nat) (b : Bytes) : Except (Error ε) (Block n) :=
  if h : b.length = n then .ok ⟨b, h⟩ else .error .cutShort

def word (b : Bytes) : Except (Error ε) UInt16 :=
  match b with
  | low :: high :: _ => .ok (Bytes.word16 low high)
  | _ => .error .cutShort

structure FullViewingKey where
  ak : Block 32
  nk : Block 32
  deriving DecidableEq, Repr

namespace FullViewingKey

def ofBytes (data : Bytes) : Except (Error ε) FullViewingKey := do
  if data.length < 64 then throw .publicKey
  let ak ← fill 32 (← slice 0 32 data)
  let nk ← fill 32 (← slice 32 64 data)
  return ⟨ak, nk⟩

def bytes (k : FullViewingKey) : Bytes := k.ak.val ++ k.nk.val

def toJson (k : FullViewingKey) : Json := .object [("ak", hexJson k.ak.val), ("nk", hexJson k.nk.val)]

def toLog (k : FullViewingKey) : String :=
  logForm "FullViewingKey" [("ak", hexLog k.ak.val), ("nk", hexLog k.nk.val)]

end FullViewingKey

structure Address where
  raw : Block 80
  deriving DecidableEq, Repr

namespace Address

def ofBytes (data : Bytes) : Except (Error ε) Address := do
  if data.length < 80 then throw .publicKey
  let raw ← fill 80 (← slice 0 80 data)
  return ⟨raw⟩

def toJson (a : Address) : Json := .object [("raw", hexJson a.raw.val)]

def toLog (a : Address) : String := "Address(" ++ hexLog a.raw.val ++ ")"

end Address

abbrev Signature := Block 64

def Signature.ofBytes (data : Bytes) : Except (Error ε) Signature := do
  if data.length < 64 then throw .signature
  fill 64 (← slice 0 64 data)

/-- What a device answers to a plan that was approved: the hash of its effects, and how many signatures of each kind
it holds ready. -/
structure Approval where
  effectHash : Block 64
  spendAuth : UInt16
  delegatorVote : UInt16
  lqtVote : UInt16
  deriving DecidableEq, Repr

/-- The last count may be missing, which means none. -/
def Approval.ofBytes (data : Bytes) : Except (Error ε) Approval := do
  if data.length < 68 then throw .noSignature
  let effectHash ← fill 64 (← slice 0 64 data)
  let counts ← slice 64 data.length data
  let spendAuth ← word (← slice 0 2 counts)
  let delegatorVote ← word (← slice 2 4 counts)
  let lqtVote ← if 6 ≤ counts.length then word (← slice 4 6 counts) else pure 0
  return ⟨effectHash, spendAuth, delegatorVote, lqtVote⟩

/-- The hash of a plan's effects, and one signature for each action that needs one. -/
structure SignedPlan where
  effectHash : Block 64
  spendAuths : List Signature
  delegatorVotes : List Signature
  lqtVotes : List Signature
  deriving DecidableEq, Repr

namespace SignedPlan

def listJson (signatures : List Signature) : Json := .array (signatures.map fun s => hexJson s.val)

def toJson (r : SignedPlan) : Json :=
  .object [("effect_hash", hexJson r.effectHash.val), ("spend_auth_signatures", listJson r.spendAuths),
    ("delegator_vote_signatures", listJson r.delegatorVotes), ("lqt_vote_signatures", listJson r.lqtVotes)]

def toLog (r : SignedPlan) : String :=
  logForm "SignResponse" [("effect_hash", hexLog r.effectHash.val),
    ("spend_auth_signatures", toString r.spendAuths.length),
    ("delegator_vote_signatures", toString r.delegatorVotes.length),
    ("lqt_vote_signatures", toString r.lqtVotes.length)]

end SignedPlan

end SignerBench.App

namespace SignerBench.App.Metadata

def maxEntries : Nat := 254

def maxEntryBytes : Nat := 119

def entryBytes (entry : Bytes) : Bytes := UInt8.ofNat entry.length :: entry

def pack (entries : List Bytes) : Option Bytes :=
  if entries.length ≤ maxEntries ∧ entries.all (·.length ≤ maxEntryBytes) then
    some (UInt8.ofNat entries.length :: entries.flatMap entryBytes)
  else none

def encode (entries : List String) : Option Bytes := pack (entries.map Bytes.ofText)

end SignerBench.App.Metadata
