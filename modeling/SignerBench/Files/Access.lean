import SignerBench.Bytes.Basic
import SignerBench.Dialogue
import SignerBench.Files.Error

namespace SignerBench.Files

inductive Ask where
  | isFile (path : String)
  | isDir (path : String)
  | isThere (path : String)
  /-- The names of the entries of a directory, in any order. -/
  | list (path : String)
  | read (path : String)
  /-- Replaces a file, or makes it. -/
  | write (path : String) (content : Bytes)
  /-- Makes a directory and those above it, as far as they are missing. -/
  | createDirs (path : String)
  /-- Removes a directory with all that it holds. -/
  | removeDirs (path : String)
  /-- A directory for what is of use after the run only. -/
  | scratchDir (tag : String)
  deriving DecidableEq, Repr

def Reply : Ask → Type
  | .isFile _ => Bool
  | .isDir _ => Bool
  | .isThere _ => Bool
  | .list _ => Except OsError (List String)
  | .read _ => Except OsError Bytes
  | .write _ _ => Except OsError Unit
  | .createDirs _ => Except OsError Unit
  | .removeDirs _ => Except OsError Unit
  | .scratchDir _ => Except OsError String

abbrev Access := Attempt Ask Reply Empty OsError

namespace Access

def isFile (path : String) : Access Bool := Attempt.query (Ask.isFile path)

def isDir (path : String) : Access Bool := Attempt.query (Ask.isDir path)

def isThere (path : String) : Access Bool := Attempt.query (Ask.isThere path)

def list (path : String) : Access (List String) := ExceptT.mk (Dialogue.query (Ask.list path))

def read (path : String) : Access Bytes := ExceptT.mk (Dialogue.query (Ask.read path))

def write (path : String) (content : Bytes) : Access Unit :=
  ExceptT.mk (Dialogue.query (Ask.write path content))

def createDirs (path : String) : Access Unit := ExceptT.mk (Dialogue.query (Ask.createDirs path))

def removeDirs (path : String) : Access Unit := ExceptT.mk (Dialogue.query (Ask.removeDirs path))

def scratchDir (tag : String) : Access String := ExceptT.mk (Dialogue.query (Ask.scratchDir tag))

end Access

end SignerBench.Files
