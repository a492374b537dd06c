import SignerBench.Files.Error
import SignerBench.Text.Basic

namespace SignerBench.Files

/-- The name `rel` as seen from the directory `base`; a name from the root stands for itself. -/
def join (base rel : String) : String :=
  if rel.startsWith "/" then rel
  else if base = "" ∨ base.endsWith "/" then base ++ rel
  else base ++ "/" ++ rel

/-- Most bytes in the name of an entry. -/
def maxName : Nat := 255

/-- A path has fewer bytes than this. -/
def maxPath : Nat := 4096

def checkName (name : String) : Except OsError Unit :=
  if maxName < name.utf8ByteSize then .error .nameTooLong else .ok ()

def hasZero (s : String) : Bool := s.toList.contains '\x00'

/-- The last step of a path: a name, or one that leads to a directory that is known already. -/
inductive Ending where
  | name (s : String)
  | here
  | up
  deriving DecidableEq, Repr

structure Route where
  /-- The directories to walk through. -/
  way : List String
  ending : Ending
  /-- A slash stands behind the last name, which makes it a directory's. -/
  slash : Bool
  deriving DecidableEq, Repr

namespace Route

def ofNames (slash : Bool) (names : List String) : Route :=
  match names.getLast? with
  | none => ⟨[], .here, slash⟩
  | some last =>
    ⟨names.dropLast, if last = "." then .here else if last = ".." then .up else .name last, slash⟩

def names (r : Route) : List String :=
  match r.ending with
  | .name s => r.way ++ [s]
  | .here => r.way ++ ["."]
  | .up => r.way ++ [".."]

def ofText (path : String) : Except OsError Route :=
  if hasZero path then .error .zeroInName
  else if path = "" then .error .notFound
  else if maxPath ≤ path.utf8ByteSize then .error .nameTooLong
  else
    let pieces := (Text.pieces '/' path.toList).map String.ofList
    .ok (ofNames (path.endsWith "/") (pieces.filter (· ≠ "")))

/-- What the path leads through, from the directory that the last name is in to the outermost one. A name that
leads nowhere does not count. -/
def parents (r : Route) : List String := ((r.names.filter (· ≠ ".")).dropLast).reverse

end Route

end SignerBench.Files
