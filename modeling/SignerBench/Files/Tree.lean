import SignerBench.Files.Access
import SignerBench.Files.Folder
import SignerBench.Files.Path

namespace SignerBench.Files

/-- Directories and regular files, without links. A path is walked name by name, and a directory that it only passes
through must be there. -/
structure Tree where
  root : Folder := .nil

/-- A directory in a tree, with its name and the directory around it, and so on to the root. -/
structure Spot where
  folder : Folder
  around : List (String × Folder)

namespace Spot

def start (t : Tree) : Spot := ⟨t.root, []⟩

/-- The directory above the root is the root. -/
def up (s : Spot) : Spot :=
  match s.around with
  | [] => s
  | (_, outer) :: around => ⟨outer, around⟩

/-- The tree with another directory in this place. -/
def replace (s : Spot) (folder : Folder) : Tree :=
  ⟨s.around.foldl (fun inner (name, outer) => outer.set name (.dir inner)) folder⟩

def walk (s : Spot) : List String → Except OsError Spot
  | [] => .ok s
  | name :: rest =>
    if name = "." then s.walk rest
    else if name = ".." then s.up.walk rest
    else do
      checkName name
      match s.folder.get? name with
      | none => .error .notFound
      | some (.file _) => .error .notDirectory
      | some (.dir folder) => walk ⟨folder, (name, s.folder) :: s.around⟩ rest

end Spot

namespace Tree

def walk (t : Tree) (names : List String) : Except OsError Spot := (Spot.start t).walk names

def find (t : Tree) (r : Route) : Except OsError (Option Node) := do
  let s ← t.walk r.way
  match r.ending with
  | .here => return some (.dir s.folder)
  | .up => return some (.dir s.up.folder)
  | .name name =>
    checkName name
    match s.folder.get? name with
    | some (.file content) => if r.slash then .error .notDirectory else return some (.file content)
    | found => return found

def look (t : Tree) (path : String) : Except OsError (Option Node) := do t.find (← Route.ofText path)

def isFile (t : Tree) (path : String) : Bool :=
  match t.look path with
  | .ok (some (.file _)) => true
  | _ => false

def isDirAt (t : Tree) (r : Route) : Bool :=
  match t.find r with
  | .ok (some (.dir _)) => true
  | _ => false

def isDir (t : Tree) (path : String) : Bool :=
  match Route.ofText path with
  | .ok r => t.isDirAt r
  | .error _ => false

def isThere (t : Tree) (path : String) : Bool :=
  match t.look path with
  | .ok (some _) => true
  | _ => false

def list (t : Tree) (path : String) : Except OsError (List String) := do
  match ← t.look path with
  | some (.dir folder) => return folder.names
  | some (.file _) => .error .notDirectory
  | none => .error .notFound

def read (t : Tree) (path : String) : Except OsError Bytes := do
  match ← t.look path with
  | some (.file content) => return content
  | some (.dir _) => .error .isDirectory
  | none => .error .notFound

/-- A path with a slash behind it is no name for a file, whatever is there. -/
def write (t : Tree) (path : String) (content : Bytes) : Except OsError Tree := do
  let r ← Route.ofText path
  let s ← t.walk r.way
  match r.ending with
  | .here => .error .isDirectory
  | .up => .error .isDirectory
  | .name name =>
    if r.slash then .error .isDirectory
    checkName name
    match s.folder.get? name with
    | some (.dir _) => .error .isDirectory
    | _ => return s.replace (s.folder.set name (.file content))

def makeDir (t : Tree) (r : Route) : Except OsError Tree := do
  let s ← t.walk r.way
  match r.ending with
  | .here => .error .alreadyThere
  | .up => .error .alreadyThere
  | .name name =>
    checkName name
    match s.folder.get? name with
    | some _ => .error .alreadyThere
    | none => return s.replace (s.folder.set name (.dir .nil))

/-- Makes a directory, unless it is there. -/
def settle (t : Tree) (r : Route) : Except OsError Unit × Tree :=
  match t.makeDir r with
  | .ok made => (.ok (), made)
  | .error e => (if t.isDirAt r then .ok () else .error e, t)

/-- Makes a directory. Where the way to it is missing, the directories above it are made first, which are given
from the inner to the outer ones, and those made before an error stay. -/
def makeDirs (t : Tree) (r : Route) : List String → Except OsError Unit × Tree
  | [] => t.settle r
  | name :: outer =>
    match t.makeDir r with
    | .error .notFound =>
      match makeDirs t (Route.ofNames false (name :: outer).reverse) outer with
      | (.ok (), t) => t.settle r
      | failed => failed
    | _ => t.settle r

/-- An empty path names the directory that the program works in, and that is there. -/
def createDirs (t : Tree) (path : String) : Except OsError Unit × Tree :=
  if path = "" then (.ok (), t)
  else match Route.ofText path with
  | .ok r => t.makeDirs r r.parents
  | .error e => (.error e, t)

/-- Takes away an empty directory. A path that ends in no name of it does not serve. -/
def removeDir (t : Tree) (r : Route) : Except OsError Tree := do
  let s ← t.walk r.way
  match r.ending with
  | .here => .error .invalid
  | .up => .error .notEmpty
  | .name name => return s.replace (s.folder.erase name)

/-- Empties a directory and then takes it away. Where the way to it led through what is gone by then, that is all. -/
def removeDirs (t : Tree) (path : String) : Except OsError Unit × Tree :=
  let place : Except OsError (Route × Spot) := do
    let r ← Route.ofText path
    match ← t.find r with
    | some (.dir _) => return (r, ← t.walk r.names)
    | some (.file _) => .error .notDirectory
    | none => .error .notFound
  match place with
  | .error e => (.error e, t)
  | .ok (r, s) =>
    let emptied := s.replace .nil
    match emptied.removeDir r with
    | .ok t => (.ok (), t)
    | .error .notFound => (.ok (), emptied)
    | .error e => (.error e, emptied)

/-- Keeps the tree where a change is refused. A tree has room for all that is written, so only a path can be refused;
writes that fail on the way are those of `Disk`. -/
def change (t : Tree) : Except OsError Tree → Except OsError Unit × Tree
  | .ok t => (.ok (), t)
  | .error e => (.error e, t)

def withDir (t : Tree) (path : String) : Tree := (t.createDirs path).2

/-- The tree with a file and the directories above it, as far as they can be made. -/
def withFile (t : Tree) (path : String) (content : Bytes) : Tree :=
  let t :=
    match Route.ofText path with
    | .ok r => if r.way = [] then t else t.withDir (String.intercalate "/" r.way)
    | .error _ => t
  (t.change (t.write path content)).2

def contents (t : Tree) (top : Place) : List (Place × Option Bytes) :=
  match t.walk top with
  | .ok s => s.folder.contents
  | .error _ => []

/-- The tree's reply, which fails for a path alone. Work of the scratch kind goes to the directory `scratch`. -/
def reply (scratch : String) : (ask : Ask) → Tree → Reply ask × Tree
  | .isFile path, t => (t.isFile path, t)
  | .isDir path, t => (t.isDir path, t)
  | .isThere path, t => (t.isThere path, t)
  | .list path, t => (t.list path, t)
  | .read path, t => (t.read path, t)
  | .write path content, t => t.change (t.write path content)
  | .createDirs path, t => t.createDirs path
  | .removeDirs path, t => t.removeDirs path
  | .scratchDir _, t =>
    let (made, t) := t.createDirs scratch
    (made.map fun _ => scratch, t)

end Tree

end SignerBench.Files
