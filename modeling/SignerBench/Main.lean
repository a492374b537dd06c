import SignerBench.Vectors.Command

namespace SignerBench.Host

open Vectors

def osError : IO.Error → Files.OsError
  | .noFileOrDirectory _ _ _ => .notFound
  | .permissionDenied _ _ _ => .permission
  | .alreadyExists _ _ _ => .alreadyThere
  | .inappropriateType _ code _ => if code = 21 then .isDirectory else .notDirectory
  | e => ⟨none, toString e⟩

def attempt {α : Type} (work : IO α) : IO (Except Files.OsError α) := do
  try
    return .ok (← work)
  catch e =>
    return .error (osError e)

def read (path : String) : IO (Except Files.OsError Bytes) :=
  attempt do
    let content ← IO.FS.readBinFile path
    return content.toList

/-- What reading tells about a path: a directory is there, but cannot be read as a file is. -/
def isThere (path : String) : IO Bool := do
  match ← read path with
  | .ok _ => return true
  | .error e => return e = .isDirectory

def isDir (path : String) : IO Bool := do
  match ← read path with
  | .ok _ => return false
  | .error e => return e = .isDirectory

/-- The generator never lists a directory, and the system is not asked to. -/
def files : (ask : Files.Ask) → IO (Files.Reply ask)
  | .isFile path => return (← read path).toBool
  | .isDir path => isDir path
  | .isThere path => isThere path
  | .list _ => return .error .permission
  | .read path => read path
  | .write path content => attempt (IO.FS.writeBinFile path ⟨content.toArray⟩)
  | .createDirs path => attempt (IO.FS.createDirAll path)
  | .removeDirs path => attempt (IO.FS.removeDirAll path)
  | .scratchDir _ => attempt (toString <$> IO.FS.createTempDir)

def reply : (ask : Command.Ask) → IO (Command.Reply ask)
  | .fetch requests => return requests.map fun r => (r.index, .unreachable "Network is unreachable")
  | .run _ => return .notStarted .permission
  | .files ask => files ask

end SignerBench.Host

open SignerBench in
/-- Leaves its exit code to the caller, and says on the error stream why it is not zero. There is no network and no way
to start another program here, so no plan is ever fetched. -/
def main (args : List String) : IO UInt32 := do
  let ending ← (Vectors.Command.execute args).runM Host.reply
  IO.print ending.output
  match ending.complaint with
  | some text => IO.eprintln ("error: " ++ text ++ "\n\n" ++ Vectors.CommandLine.usage)
  | none => pure ()
  match ending.problem with
  | some text => IO.eprintln text
  | none => pure ()
  return UInt32.ofNat ending.code
