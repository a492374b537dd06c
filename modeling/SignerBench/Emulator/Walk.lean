import SignerBench.Emulator.Session

namespace SignerBench.Emulator.Session

open Device

/-- Performs the steps one after the other, and gives the snapshots taken so far with those behind each step. -/
def performAll (s : Session) (current : Snapshot) (taken : List Snapshot) : List Step → Work (List Snapshot)
  | [] => return taken
  | step :: rest => do
    s.perform step
    let next ← s.waitUntilNot current
    performAll s next (taken ++ [next]) rest

/-- Takes a snapshot before the first step and behind each of them. -/
def navigate (s : Session) (env : Environment) (dir name : String) (schedule : List Step) : Work Unit := do
  let first ← s.snapshot
  let taken ← s.performAll first [first] schedule
  Work.check (Snapshot.Goldens.compare env dir name taken)

def advance (s : Session) : Work Unit :=
  match s.options.device.layout? with
  | some layout => s.tap layout.next
  | none => s.click .right

/-- The end of a review: the element that asks for approval, its screen, and all the snapshots. -/
structure Arrival where
  target : Element
  screen : Snapshot
  taken : List Snapshot

/-- Goes on until the approve keyword is shown, over so many screens at most. -/
def findApproval (s : Session) (current : Snapshot) (taken : List Snapshot) : (left : Nat) → Work Arrival
  | 0 => throw (.approveNotFound s.options.approveKeyword s.options.maxReviewScreens)
  | left + 1 => do
    match ← s.findText s.options.approveKeyword with
    | some target => return ⟨target, current, taken⟩
    | none =>
      s.advance
      let next ← s.waitUntilNot current
      findApproval s next (taken ++ [next]) left

def approve (s : Session) (target : Element) : Work Unit :=
  match s.options.device.layout?, s.options.approveAction with
  | none, _ => s.click .both
  | some layout, .holdConfirm => s.hold layout.confirm s.options.approveHold
  | some _, .tapKeyword =>
    match target.middle? with
    | some place => s.tap place
    | none => throw .offScreen

/-- Walks through a review, approves it, and compares the snapshots of all its screens and of the one behind it
with their goldens. -/
def reviewAndApprove (s : Session) (env : Environment) (dir name : String) : Work Unit := do
  let first ← s.snapshot
  let arrival ← s.findApproval first [first] s.options.maxReviewScreens
  s.approve arrival.target
  let last ← s.waitUntilNot arrival.screen
  Work.check (Snapshot.Goldens.compare env dir name (arrival.taken ++ [last]))

end SignerBench.Emulator.Session
