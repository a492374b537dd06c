namespace SignerBench.App

inductive Error (ε : Type) where
  | transport (cause : ε)
  /-- The device answered with this status, which means what the description says. -/
  | refused (status : UInt16) (description : String)
  /-- The device answered with a status that has no description. -/
  | unknownStatus (status : UInt16)
  | emptyMessage
  | messageSize
  | publicKey
  | noSignature
  | signature
  | version
  | format
  | text
  /-- The answer ends inside one of its fields. -/
  | cutShort
  deriving DecidableEq, Repr

def Error.message {ε : Type} (cause : ε → String) : Error ε → String
  | .transport e => "Transport | " ++ cause e
  | .refused status description => "App Error: | " ++ toString status.toNat ++ " " ++ description
  | .unknownStatus status => "Unknown error: " ++ toString status.toNat
  | .emptyMessage => "message cannot be empty"
  | .messageSize => "message size is invalid (too big)"
  | .publicKey => "received an invalid PK"
  | .noSignature => "received no signature back"
  | .signature => "received an invalid signature"
  | .version => "This version is not supported"
  | .format => "response format ID not recognized"
  | .text => "Utf8 conversion error"
  | .cutShort => "the answer is cut short"

end SignerBench.App
