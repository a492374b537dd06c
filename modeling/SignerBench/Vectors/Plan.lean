import SignerBench.Json.Decode
import SignerBench.Json.Value
import SignerBench.Vectors.Action

namespace SignerBench.Vectors

structure Action where
  kind : ActionKind
  body : Json
  deriving DecidableEq, Repr

/-- Actions are told apart by their kind. Their bodies and the rest of a plan are kept as they are. -/
structure Plan where
  actions : List Action
  transactionParameters : Option Json
  detectionData : Option Json
  memo : Option Json
  /-- All other entries. -/
  extra : Json.Entries
  deriving DecidableEq, Repr

inductive PlanError where
  | shape (mismatch : Json.Mismatch)
  /-- An action with this many entries, where one is wanted. -/
  | cases (found : Nat)
  | unknownCase (name : String)
  deriving Repr

def PlanError.message : PlanError → String
  | .shape mismatch => mismatch.message
  | .cases found => "action plan must hold exactly one case, found " ++ toString found
  | .unknownCase name => "unknown action case " ++ Text.quote name

def foundIn : Json → Json.Found
  | .null => .null
  | .bool b => .bool b
  | .number n => .number n
  | .text s => .text s
  | .array _ => .sequence
  | .object _ => .map

/-- A value of another kind than the wanted one. -/
def refuse {α : Type} (v : Json) (expected : String) : Except PlanError α :=
  .error (.shape (.wrongType (foundIn v) expected))

def Action.ofJson : Json → Except PlanError Action
  | .object [(name, body)] =>
    match ActionKind.ofName? name with
    | some kind => .ok ⟨kind, body⟩
    | none => .error (.unknownCase name)
  | .object entries => .error (.cases entries.length)
  | v => refuse v "a map"

def Action.toJson (a : Action) : Json := .object [(a.kind.name, a.body)]

def readActions : Json → Except PlanError (List Action)
  | .array items => items.mapM Action.ofJson
  | v => refuse v "a sequence"

inductive PlanEntry where
  | actions
  | transactionParameters
  | detectionData
  | memo
  deriving DecidableEq, Repr

def PlanEntry.name : PlanEntry → String
  | .actions => "actions"
  | .transactionParameters => "transactionParameters"
  | .detectionData => "detectionData"
  | .memo => "memo"

/-- Two of the names have another spelling. -/
def PlanEntry.ofName? (s : String) : Option PlanEntry :=
  if s = "actions" then some .actions
  else if s = "transactionParameters" ∨ s = "transaction_parameters" then some .transactionParameters
  else if s = "detectionData" ∨ s = "detection_data" then some .detectionData
  else if s = "memo" then some .memo
  else none

/-- What has been read of a plan. An entry that is there with the value null has been read, too. -/
structure PlanSlots where
  actions : Option (List Action) := none
  transactionParameters : Option Json := none
  detectionData : Option Json := none
  memo : Option Json := none
  /-- In reverse. -/
  extra : Json.Entries := []

/-- The value of an entry that must not have been read before. -/
def fresh {α : Type} (entry : PlanEntry) (slot : Option α) (value : Except PlanError α) :
    Except PlanError (Option α) :=
  match slot with
  | some _ => .error (.shape (.duplicateField entry.name))
  | none => value.map some

def PlanSlots.put (s : PlanSlots) (key : String) (v : Json) : Except PlanError PlanSlots :=
  match PlanEntry.ofName? key with
  | some .actions => do
    let slot ← fresh .actions s.actions (readActions v)
    return { s with actions := slot }
  | some .transactionParameters => do
    let slot ← fresh .transactionParameters s.transactionParameters (.ok v)
    return { s with transactionParameters := slot }
  | some .detectionData => do
    let slot ← fresh .detectionData s.detectionData (.ok v)
    return { s with detectionData := slot }
  | some .memo => do
    let slot ← fresh .memo s.memo (.ok v)
    return { s with memo := slot }
  | none => .ok { s with extra := (key, v) :: s.extra }

def PlanSlots.putAll (s : PlanSlots) : Json.Entries → Except PlanError PlanSlots
  | [] => .ok s
  | (key, v) :: rest => do
    let s ← s.put key v
    putAll s rest

/-- An entry with the value null counts as absent. -/
def present (slot : Option Json) : Option Json := slot.filter (· ≠ .null)

structure Required where
  spendAuth : Nat
  delegatorVote : Nat
  lqtVote : Nat
  deriving DecidableEq, Repr

def Required.get (r : Required) : Authorization → Nat
  | .spendAuth => r.spendAuth
  | .delegatorVote => r.delegatorVote
  | .lqtVote => r.lqtVote

namespace Plan

def ofJson : Json → Except PlanError Plan
  | .object entries => do
    let s ← PlanSlots.putAll {} entries
    return ⟨s.actions.getD [], present s.transactionParameters, present s.detectionData, present s.memo,
      s.extra.reverse⟩
  | v => refuse v "struct TransactionPlan"

def entry (e : PlanEntry) (v : Option Json) : Json.Entries := (v.map fun v => (e.name, v)).toList

/-- The actions come first, then what is there of the other known entries, then the rest. -/
def toJson (p : Plan) : Json :=
  .object ((PlanEntry.actions.name, .array (p.actions.map Action.toJson)) ::
    entry .transactionParameters p.transactionParameters ++ entry .detectionData p.detectionData ++
    entry .memo p.memo ++ p.extra)

def actionNames (p : Plan) : List String := p.actions.map (·.kind.name)

def needed (p : Plan) (a : Authorization) : Nat := p.actions.countP (·.kind.authorization? = some a)

def required (p : Plan) : Required := ⟨p.needed .spendAuth, p.needed .delegatorVote, p.needed .lqtVote⟩

end Plan

end SignerBench.Vectors
