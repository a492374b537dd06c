import SignerBench.Bytes.Hex
import SignerBench.Files.Error
import SignerBench.Json.Decode
import SignerBench.Outside
import SignerBench.Vectors.Plan

namespace SignerBench.Vectors

inductive FileFault where
  | system (cause : Files.OsError)
  | notText
  deriving DecidableEq, Repr

def FileFault.message : FileFault → String
  | .system cause => cause.message
  | .notText => "stream did not contain valid UTF-8"

/-- Why the authorizer gave no answer. -/
inductive AuthorizerFault where
  | system (program : String) (cause : Files.OsError)
  /-- It ended without success, and said this about it. -/
  | ended (program : String) (status : Program.ExitStatus) (said : String)
  | refused (reason : String)
  deriving DecidableEq, Repr

def AuthorizerFault.message : AuthorizerFault → String
  | .system program cause => program ++ ": " ++ cause.message
  | .ended program status said => program ++ " exited with " ++ status.describe ++ ": " ++ said
  | .refused reason => reason

inductive Error where
  | file (path : String) (cause : FileFault)
  | json (cause : Json.ReadError)
  | hex (cause : HexError)
  | plan (cause : PlanError)
  | authorizer (cause : AuthorizerFault)
  | effectHashLength (found : Nat)
  | signatureCount (kind : Authorization) (expected found : Nat)
  | signatureLength (kind : Authorization) (index length : Nat)
  /-- The authorizer broke down. -/
  | crash
  deriving Repr

def Error.message : Error → String
  | .file path cause => path ++ ": " ++ cause.message
  | .json (.fault _) => "malformed text"
  | .json (.mismatch m) => m.message
  | .hex cause => cause.message
  | .plan cause => "invalid transaction plan: " ++ cause.message
  | .authorizer cause => "authorizer failed: " ++ cause.message
  | .effectHashLength found => "effect hash must be 64 bytes, got " ++ toString found
  | .signatureCount kind expected found =>
    "expected " ++ toString expected ++ " " ++ kind.name ++ " signatures, got " ++ toString found
  | .signatureLength kind index length =>
    kind.name ++ " signature " ++ toString index ++ " must be 64 bytes, got " ++ toString length
  | .crash => "the authorizer broke down"

end SignerBench.Vectors
