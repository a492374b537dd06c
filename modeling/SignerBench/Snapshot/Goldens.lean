import SignerBench.Files.Access
import SignerBench.Files.Path
import SignerBench.Outside
import SignerBench.Snapshot.Basic
import SignerBench.Snapshot.Report

namespace SignerBench.Snapshot

open Files

inductive Reason where
  | noGoldens (dir : String)
  | count (captured expected : Nat)
  /-- The first snapshot that differs. -/
  | differs (file : String)
  deriving DecidableEq, Repr

def Reason.message : Reason → String
  | .noGoldens dir => "no goldens in " ++ dir
  | .count captured expected =>
    "captured " ++ toString captured ++ " snapshots, expected " ++ toString expected
  | .differs file => "snapshot " ++ file ++ " differs"

structure Mismatch where
  /-- Of the set. -/
  name : String
  reason : Reason
  /-- The file of the report, if one could be written. -/
  report : Option String
  deriving DecidableEq, Repr

def Mismatch.message (m : Mismatch) : String :=
  "snapshots for " ++ m.name ++ " do not match: " ++ m.reason.message ++
    match m.report with
    | some path => " (report: " ++ path ++ ")"
    | none => ""

namespace Goldens

inductive Error where
  | files (cause : OsError)
  | mismatch (mismatch : Mismatch)
  deriving DecidableEq, Repr

abbrev Check := Attempt Ask Reply Empty Error

def places (captured goldens : List Snapshot) : List Nat :=
  List.range (max captured.length goldens.length)

section

variable (same : Snapshot → Snapshot → Bool)

def agreeBy (captured goldens : List Snapshot) (index : Nat) : Bool :=
  match captured[index]?, goldens[index]? with
  | some c, some g => same c g
  | _, _ => false

def verdictBy (dir : String) (captured goldens : List Snapshot) : Option Reason :=
  if goldens = [] then some (.noGoldens dir)
  else if goldens.length ≠ captured.length then some (.count captured.length goldens.length)
  else ((places captured goldens).find? fun i => !agreeBy same captured goldens i).map (.differs <| fileName ·)

def reportStepBy (captured goldens : List Snapshot) (index : Nat) : ReportStep :=
  ⟨fileName index, captured[index]?.map base64, goldens[index]?.map base64, agreeBy same captured goldens index⟩

def reportBy (name : String) (reason : Reason) (captured goldens : List Snapshot) : Report :=
  ⟨name, false, reason.message, (places captured goldens).map (reportStepBy same captured goldens)⟩

end

/-- Both sets have a snapshot at this place, and the two are the same. -/
def agreeAt (captured goldens : List Snapshot) (index : Nat) : Bool := agreeBy samePixels captured goldens index

/-- Nothing if the sets agree, which sets without goldens never do. -/
def verdict (dir : String) (captured goldens : List Snapshot) : Option Reason :=
  verdictBy samePixels dir captured goldens

def report (name : String) (reason : Reason) (captured goldens : List Snapshot) : Report :=
  reportBy samePixels name reason captured goldens

/-- Replaces a directory by one that holds just this set. -/
def writeSet (dir : String) (snapshots : List Snapshot) : Access Unit := do
  if ← Access.isThere dir then Access.removeDirs dir
  Access.createDirs dir
  snapshots.zipIdx.forM fun (s, index) => Access.write (join dir (fileName index)) s.png

def isImage (name : String) : Bool := name.endsWith ".png" && name != ".png"

/-- The set that a directory holds, in the order of the file names. -/
def readSet (dir : String) : Access (List Snapshot) := do
  if ← Access.isDir dir then
    let names ← Access.list dir
    ((names.filter isImage).mergeSort fun a b => decide (a ≤ b)).mapM fun name =>
      Snapshot.mk <$> Access.read (join dir name)
  else return []

def updateRequested (env : Environment) : Bool :=
  match env "UPDATE_SNAPSHOTS" with
  | some v => v = "1" ∨ v.toLower = "true"
  | none => false

def reportDir (env : Environment) : Access String :=
  match env "REPORT_TMP_DIR" with
  | some dir => do
    Access.createDirs dir
    return dir
  | none => Access.scratchDir "penumbra-zemu"

def render (path : String) (r : Report) : Access Unit := Access.write path (Bytes.ofText r.html)

def writeReport (env : Environment) (r : Report) : Access String := do
  let dir ← reportDir env
  let path := join dir (r.name ++ ".html")
  render path r
  return path

/-- Where the captured sets and the goldens of a test are, below a common directory. -/
def capturedDir (base name : String) : String := join (join base "snapshots-tmp") name

def goldenDir (base name : String) : String := join (join base "snapshots") name

/-- A comparison of pictures by `same`. -/
def compareBy (same : Snapshot → Snapshot → Bool) (env : Environment) (base name : String) (captured : List Snapshot) :
    Check Unit := do
  ExceptT.adapt Error.files (writeSet (capturedDir base name) captured)
  let dir := goldenDir base name
  if updateRequested env then ExceptT.adapt Error.files (writeSet dir captured)
  else
    let goldens ← ExceptT.adapt Error.files (readSet dir)
    match verdictBy same dir captured goldens with
    | none => return ()
    | some reason =>
      let written ← ExceptT.lift (writeReport env (reportBy same name reason captured goldens)).run
      throw (.mismatch ⟨name, reason, written.toOption⟩)

/-- Stores a captured set and compares it with its goldens. A report that cannot be written changes nothing in
the verdict. -/
def compare (env : Environment) (base name : String) (captured : List Snapshot) : Check Unit :=
  compareBy samePixels env base name captured

end Goldens

end SignerBench.Snapshot
