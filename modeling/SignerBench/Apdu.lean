import SignerBench.Bytes.Basic

namespace SignerBench.Apdu.Status

def ok : UInt16 := 0x9000

def description? (status : UInt16) : Option String :=
  if status = 0x6400 then some "error during apdu execution"
  else if status = 0x6700 then some "apdu command wrong length"
  else if status = 0x6982 then some "empty apdu buffer"
  else if status = 0x6983 then some "apdu buffer too small"
  else if status = 0x6984 then some "apdu parameters invalid"
  else if status = 0x6985 then some "apdu preconditions not satisfied"
  else if status = 0x6986 then some "apdu command not allowed"
  else if status = 0x6a80 then some "apdu data field incorrect (bad key)"
  else if status = 0x6b00 then some "apdu p1 or p2 incorrect"
  else if status = 0x6d00 then some "apdu instruction not supported or invalid"
  else if status = 0x6e00 then some "apdu class not supported or invalid"
  else if status = 0x6f00 then some "unknown apdu error"
  else if status = 0x6f01 then some "apdu sign verify error"
  else none

end SignerBench.Apdu.Status

namespace SignerBench.Apdu

structure Command where
  cla : UInt8
  ins : UInt8
  p1 : UInt8
  p2 : UInt8
  data : Bytes
  deriving DecidableEq, Repr

def Command.bytes (c : Command) : Bytes :=
  [c.cla, c.ins, c.p1, c.p2, UInt8.ofNat c.data.length] ++ c.data

structure Answer where
  data : Bytes
  status : UInt16
  deriving DecidableEq, Repr

/-- The status stands in the last two bytes, the higher one first. -/
def Answer.ofBytes? (b : Bytes) : Option Answer :=
  match b.reverse with
  | low :: high :: rest => some ⟨rest.reverse, Bytes.word16 low high⟩
  | _ => none

end SignerBench.Apdu
