import SignerBench.Account
import SignerBench.Apdu
import SignerBench.App.About
import SignerBench.App.Keys
import SignerBench.Dialogue

namespace SignerBench.App

open Account Apdu

abbrev Link (ε : Type) := Attempt Command (fun _ => Except ε Answer) Empty (Error ε)

variable {ε : Type}

/-- A request stops at the first exchange that goes wrong. The link fails, or the answer is looked at by those who
asked. -/
def exchange (c : Command) : Link ε Answer := do
  match ← Attempt.query c with
  | .ok answer => return answer
  | .error e => throw (.transport e)

/-- A status other than success is refused. One without a description is refused as `unknown` says. -/
def checkStatus (unknown : UInt16 → Error ε) (a : Answer) : Link ε Unit := do
  unless a.status = Status.ok do
    match Status.description? a.status with
    | some description => throw (.refused a.status description)
    | none => throw (unknown a.status)

def refusedUnknown (status : UInt16) : Error ε := .refused status "[APDU_ERROR] Unknown"

def request (c : Command) : Link ε Bytes := do
  let answer ← exchange c
  checkStatus refusedUnknown answer
  return answer.data

def cla : UInt8 := 0x80

inductive Instruction where
  | address
  | sign
  | fullViewingKey
  | metadata
  | spendAuth
  | delegatorVote
  | lqtVote
  deriving DecidableEq, Repr

def Instruction.code : Instruction → UInt8
  | .address => 1
  | .sign => 2
  | .fullViewingKey => 3
  | .metadata => 4
  | .spendAuth => 5
  | .delegatorVote => 6
  | .lqtVote => 7

def command (i : Instruction) (p1 : UInt8) (data : Bytes) : Command := ⟨cla, i.code, p1, 0, data⟩

def chunkSize : Nat := 250

def maxChunks : Nat := 255

/-- The commands that carry these chunks, the last one marked. -/
def chunkCommands (i : Instruction) : List Bytes → List Command
  | [] => []
  | [last] => [command i 2 last]
  | chunk :: rest => command i 1 chunk :: chunkCommands i rest

/-- Exchanges commands in order and gives the last answer, or `last` where there is none. -/
def exchangeAll (last : Answer) : List Command → Link ε Answer
  | [] => return last
  | c :: cs => do
    let answer ← exchange c
    checkStatus .unknownStatus answer
    exchangeAll answer cs

/-- Announces a payload with `head` and sends it in chunks. -/
def sendChunks (i : Instruction) (head payload : Bytes) : Link ε Bytes := do
  let chunks := payload.chunks chunkSize
  if chunks.length = 0 then throw .emptyMessage
  if maxChunks < chunks.length then throw .messageSize
  let first ← exchange (command i 0 head)
  checkStatus .unknownStatus first
  let answer ← exchangeAll first (chunkCommands i chunks)
  return answer.data

def selector (path : Path) (index : AddressIndex) : Bytes := path.bytes ++ index.bytes

def fullViewingKey (path : Path) (index : AddressIndex) : Link ε FullViewingKey := do
  let data ← request (command .fullViewingKey 0 (selector path index))
  Attempt.ofExcept (FullViewingKey.ofBytes data)

/-- Asks for an address, which the device shows first if `shown`. -/
def addressOf (shown : Bool) (path : Path) (index : AddressIndex) : Link ε Address := do
  let data ← request (command .address (if shown then 1 else 0) (selector path index))
  Attempt.ofExcept (Address.ofBytes data)

def address (path : Path) (index : AddressIndex) : Link ε Address := addressOf false path index

def showAddress (path : Path) (index : AddressIndex) : Link ε Address := addressOf true path index

def sendMetadata (metadata : List String) : Link ε Unit := do
  match Metadata.encode metadata with
  | none => throw .messageSize
  | some payload => discard (sendChunks .metadata [] payload)

def signature (i : Instruction) (index : Nat) : Link ε Signature := do
  let data ← request (command i 0 (Bytes.le16 (UInt16.ofNat index)))
  Attempt.ofExcept (Signature.ofBytes data)

def signatures (i : Instruction) (count : UInt16) : Link ε (List Signature) :=
  (List.range count.toNat).mapM (signature i)

/-- Has the device sign a plan. Its metadata, if there is any, goes first, and the device holds its last answer
back until the plan has been approved. -/
def sign (path : Path) (blob : Bytes) (metadata : List String) : Link ε SignedPlan := do
  if blob.isEmpty then throw .emptyMessage
  unless metadata.isEmpty do sendMetadata metadata
  let data ← sendChunks .sign path.bytes blob
  let approval ← Attempt.ofExcept (Approval.ofBytes data)
  let spendAuths ← signatures .spendAuth approval.spendAuth
  let delegatorVotes ← signatures .delegatorVote approval.delegatorVote
  let lqtVotes ← signatures .lqtVote approval.lqtVote
  return ⟨approval.effectHash, spendAuths, delegatorVotes, lqtVotes⟩

def version : Link ε Version := do
  let answer ← exchange ⟨cla, 0, 0, 0, []⟩
  unless answer.status = Status.ok do throw (.unknownStatus answer.status)
  match Version.ofBytes? answer.data with
  | some v => return v
  | none => throw .version

def appInfo : Link ε AppInfo := do
  let answer ← exchange ⟨0xb0, 1, 0, 0, []⟩
  checkStatus .unknownStatus answer
  Attempt.ofExcept (AppInfo.ofBytes answer.data)

def deviceInfo : Link ε DeviceInfo := do
  let answer ← exchange ⟨0xe0, 1, 0, 0, []⟩
  unless answer.status = Status.ok do throw (.unknownStatus answer.status)
  Attempt.ofExcept (DeviceInfo.ofBytes answer.data)

end SignerBench.App
