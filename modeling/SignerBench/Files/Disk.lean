import SignerBench.Files.Tree

namespace SignerBench.Files

/-- How the disk fails a change that the path allows: before anything is done, or when so many of the outer directories
are made or so many bytes are written. -/
structure Fault where
  done : Option Nat
  cause : OsError

/-- A tree on a disk that may fail while directories are made and files are written. -/
structure Disk where
  tree : Tree
  /-- Each change to come takes one of these. Behind the last one nothing fails any more. -/
  faults : List (Option Fault) := []

namespace Disk

/-- The tree when so many of the directories above the end of a path are there. -/
def withOuterDirs (t : Tree) (path : String) (count : Nat) : Tree :=
  match Route.ofText path with
  | .ok r =>
    let outer := Route.ofNames false (r.parents.reverse.take count)
    (t.makeDirs outer outer.parents).2
  | .error _ => t

def createDirs (d : Disk) (path : String) : Except OsError Unit × Disk :=
  match d.faults with
  | some fault :: faults =>
    match fault.done with
    | some count => (.error fault.cause, ⟨withOuterDirs d.tree path count, faults⟩)
    | none => (.error fault.cause, ⟨d.tree, faults⟩)
  | faults =>
    let (result, t) := d.tree.createDirs path
    (result, ⟨t, faults.tail⟩)

/-- A file is emptied when it is opened, and what it held is lost if its writing fails then. -/
def write (d : Disk) (path : String) (content : Bytes) : Except OsError Unit × Disk :=
  match d.faults with
  | some fault :: faults =>
    match fault.done with
    | some size =>
      let (result, t) := d.tree.change (d.tree.write path (content.take size))
      (result.bind fun _ => .error fault.cause, ⟨t, faults⟩)
    | none => (.error fault.cause, ⟨d.tree, faults⟩)
  | faults =>
    let (result, t) := d.tree.change (d.tree.write path content)
    (result, ⟨t, faults.tail⟩)

/-- The rest does not fail but for the path. -/
def reply (scratch : String) : (ask : Ask) → Disk → Reply ask × Disk
  | .write path content, d => d.write path content
  | .createDirs path, d => d.createDirs path
  | ask, d =>
    let (answer, t) := d.tree.reply scratch ask
    (answer, { d with tree := t })

end Disk

end SignerBench.Files
