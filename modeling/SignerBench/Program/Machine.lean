import SignerBench.Files.Tree

namespace SignerBench.Program.Machine

open Files

def folder (entries : List (String × Node)) : Folder :=
  entries.foldr (fun (name, node) rest => .cons name node rest) .nil

/-- The tools, each with the exit code that it has for arguments that it does not know. -/
def tools : List (String × Nat) :=
  [("cat", 1), ("env", 125), ("false", 1), ("od", 1), ("sh", 2), ("tr", 1), ("true", 0)]

def thing : Node := .file []

/-- A tool is a file that holds the tool's name. -/
def toolFolder : Node := .dir (folder (tools.map fun (name, _) => (name, .file (Bytes.ofText name))))

def tree : Tree where
  root := folder
    [("bin", toolFolder), ("dev", .dir (folder [("null", thing), ("zero", thing)])),
      ("etc", .dir (folder [("passwd", thing)])), ("root", .dir .nil), ("usr", .dir (folder [("bin", toolFolder)]))]

def workDir : String := "/root"

def toolAt (path : String) : Except OsError String := do
  match ← tree.look (join workDir path) with
  | none => .error .notFound
  | some (.dir _) => .error .permission
  | some (.file content) =>
    match Bytes.toText? content with
    | some name => if name = "" then .error .permission else return name
    | none => .error .permission

/-- The tool that a program's name stands for. A name without a directory is looked for among the tools. -/
def tool (program : String) : Except OsError String :=
  if program = "" then .error .notFound
  else if program.toList.contains '/' then toolAt program
  else toolAt (join "/usr/bin" program)

/-- An argument has fewer bytes than this. -/
def maxArgument : Nat := 131072

/-- Why a program cannot be given these arguments, of which its name is the first, if it cannot. -/
def argumentFault? (arguments : List String) : Option OsError :=
  if arguments.any hasZero then some .zeroInArgument
  else if arguments.any (maxArgument ≤ ·.utf8ByteSize) then some .argumentsTooLong
  else none

end SignerBench.Program.Machine
