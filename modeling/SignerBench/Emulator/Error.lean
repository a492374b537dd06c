import SignerBench.Bytes.Hex
import SignerBench.Json.Decode
import SignerBench.Outside
import SignerBench.Snapshot.Goldens
import SignerBench.Text.Basic

namespace SignerBench.Emulator

inductive ProcessFault where
  | notStarted (binary : String) (cause : Files.OsError)
  | endedEarly (status : Program.ExitStatus)
  deriving DecidableEq, Repr

def ProcessFault.message : ProcessFault → String
  | .notStarted binary cause => "could not spawn " ++ binary ++ ": " ++ cause.message
  | .endedEarly status => "emulator exited early with " ++ status.describe

inductive ApiFault where
  | refused (url : String) (status : Nat)
  | unreachable (reason : String)
  deriving DecidableEq, Repr

def ApiFault.message : ApiFault → String
  | .refused url status => url ++ " returned status " ++ toString status
  | .unreachable reason => reason

/-- What a screen did not come to in time. -/
inductive Awaited where
  | change
  | text (wanted : String)
  deriving DecidableEq, Repr

def Awaited.message : Awaited → String
  | .change => "screen did not change"
  | .text wanted => "text " ++ Text.quote wanted ++ " not found"

inductive Error where
  | missingElf (path : String)
  | process (cause : ProcessFault)
  | startTimeout (limit : Nat)
  | screenTimeout (awaited : Awaited) (limit : Nat)
  /-- So many screens were looked at. -/
  | approveNotFound (keyword : String) (screens : Nat)
  | mismatch (mismatch : Snapshot.Mismatch)
  | api (cause : ApiFault)
  | invalidAnswer
  | system (cause : Files.OsError)
  /-- The emulator's reply has another form than it should. -/
  | reply (cause : Json.ReadError)
  | hex (cause : HexError)
  /-- The middle of an element is no place on any screen. -/
  | offScreen
  deriving Repr

def Error.message : Error → String
  | .missingElf path => "app elf not found: " ++ path
  | .process cause => "emulator process: " ++ cause.message
  | .startTimeout limit => "emulator did not become ready within " ++ Text.span limit
  | .screenTimeout awaited limit => "screen timeout after " ++ Text.span limit ++ ": " ++ awaited.message
  | .approveNotFound keyword screens =>
    "approve keyword " ++ Text.quote keyword ++ " not found after " ++ toString screens ++ " screens"
  | .mismatch m => m.message
  | .api cause => "emulator api: " ++ cause.message
  | .invalidAnswer => "invalid apdu answer"
  | .system cause => cause.message
  | .reply _ => "malformed reply of the emulator"
  | .hex cause => cause.message
  | .offScreen => "the element lies off the screen"

def Error.ofGoldens : Snapshot.Goldens.Error → Error
  | .files cause => .system cause
  | .mismatch m => .mismatch m

end SignerBench.Emulator
