import SignerBench.Bytes.Basic

namespace SignerBench.Image

/-- Bits are taken from each byte the lowest first. -/
structure Bits where
  data : Array UInt8
  position : Nat

abbrev BitReader := StateT Bits Option

namespace BitReader

def bit : BitReader Nat := fun s =>
  match s.data[s.position / 8]? with
  | some b => some ((b.toNat >>> (s.position % 8)) % 2, { s with position := s.position + 1 })
  | none => none

def bits : Nat → BitReader Nat
  | 0 => pure 0
  | n + 1 => do
    let low ← bit
    let high ← bits n
    return low + 2 * high

def toByte : BitReader Unit := modify fun s => { s with position := (s.position + 7) / 8 * 8 }

end BitReader

open BitReader

/-- A prefix code: how many words there are of each length, and the symbols in the order of their words. -/
structure PrefixCode where
  counts : List Nat
  symbols : Array Nat

def PrefixCode.ofLengths (lengths : List Nat) : PrefixCode :=
  let sizes := (List.range 15).map (· + 1)
  ⟨sizes.map fun n => lengths.countP (· = n),
    (sizes.flatMap fun n => (lengths.zipIdx.filter (·.1 = n)).map (·.2)).toArray⟩

/-- The words of the longest kind that words of these lengths leave to spare, if they do not crowd each other
out. -/
def PrefixCode.spare (c : PrefixCode) : Option Nat :=
  c.counts.foldlM (fun left n => if n ≤ 2 * left then some (2 * left - n) else none) 1

/-- A code that has no words to spare. -/
def PrefixCode.full? (lengths : List Nat) : Option PrefixCode :=
  let code := PrefixCode.ofLengths lengths
  if code.spare = some 0 then some code else none

/-- A code for distances. It may also have no words, or a single one of one bit. -/
def PrefixCode.distances? (lengths : List Nat) : Option PrefixCode :=
  let used := lengths.filter (· ≠ 0)
  if used = [] ∨ used = [1] then some (PrefixCode.ofLengths lengths) else PrefixCode.full? lengths

/-- Reads a word bit by bit, with the value of the first word of the length reached and its place among all. -/
def PrefixCode.read (symbols : Array Nat) (value first place : Nat) : List Nat → BitReader Nat
  | [] => failure
  | count :: counts => do
    let value := value + (← bit)
    if value < first + count then
      match symbols[place + (value - first)]? with
      | some s => return s
      | none => failure
    else PrefixCode.read symbols (2 * value) (2 * (first + count)) (place + count) counts

def PrefixCode.symbol (c : PrefixCode) : BitReader Nat := PrefixCode.read c.symbols 0 0 0 c.counts

/-- The base and the count of further bits of each length symbol. -/
def lengthCodes : List (Nat × Nat) :=
  [(3, 0), (4, 0), (5, 0), (6, 0), (7, 0), (8, 0), (9, 0), (10, 0), (11, 1), (13, 1), (15, 1), (17, 1), (19, 2),
  (23, 2), (27, 2), (31, 2), (35, 3), (43, 3), (51, 3), (59, 3), (67, 4), (83, 4), (99, 4), (115, 4), (131, 5),
  (163, 5), (195, 5), (227, 5), (258, 0)]

def distanceCodes : List (Nat × Nat) :=
  [(1, 0), (2, 0), (3, 0), (4, 0), (5, 1), (7, 1), (9, 2), (13, 2), (17, 3), (25, 3), (33, 4), (49, 4), (65, 5),
  (97, 5), (129, 6), (193, 6), (257, 7), (385, 7), (513, 8), (769, 8), (1025, 9), (1537, 9), (2049, 10),
  (3073, 10), (4097, 11), (6145, 11), (8193, 12), (12289, 12), (16385, 13), (24577, 13)]

def extended (table : List (Nat × Nat)) (symbol : Nat) : BitReader Nat := do
  match table[symbol]? with
  | some (base, extra) => return base + (← bits extra)
  | none => failure

/-- Repeats `length` bytes from `distance` bytes back. -/
def repeatBack (distance : Nat) : Nat → Array UInt8 → Array UInt8
  | 0, out => out
  | length + 1, out => repeatBack distance length (out.push (out.getD (out.size - distance) 0))

def endOfBlock : Nat := 256

/-- Reads the symbols of a block. Each takes a bit or more, so `room` bits are room enough. -/
def readSymbols (literals distances : PrefixCode) (room : Nat) (out : Array UInt8) :
    BitReader (Array UInt8) := do
  match room with
  | 0 => failure
  | room + 1 =>
    let s ← literals.symbol
    if s < 256 then readSymbols literals distances room (out.push (UInt8.ofNat s))
    else if s = endOfBlock then return out
    else
      let length ← extended lengthCodes (s - 257)
      let distance ← extended distanceCodes (← distances.symbol)
      if distance ≤ out.size then readSymbols literals distances room (repeatBack distance length out) else failure

def readStored : Nat → Array UInt8 → BitReader (Array UInt8)
  | 0, out => pure out
  | n + 1, out => do
    let b ← bits 8
    readStored n (out.push (UInt8.ofNat b))

def fixedLiterals : List Nat :=
  List.replicate 144 8 ++ List.replicate 112 9 ++ List.replicate 24 7 ++ List.replicate 8 8

/-- The order in which the lengths of the code for lengths are written. -/
def lengthOrder : List Nat := [16, 17, 18, 0, 8, 7, 9, 6, 10, 5, 11, 4, 12, 3, 13, 2, 14, 1, 15]

/-- Reads code lengths behind those read so far in reverse. -/
def readLengths (code : PrefixCode) (total room : Nat) (done : List Nat) : BitReader (List Nat) := do
  match room with
  | 0 => if done.length = total then return done.reverse else failure
  | room + 1 =>
    if done.length = total then return done.reverse
    else if total < done.length then failure
    else
      let s ← code.symbol
      if s < 16 then readLengths code total room (s :: done)
      else if s = 16 then
        match done with
        | last :: _ =>
          let n ← bits 2
          readLengths code total room (List.replicate (3 + n) last ++ done)
        | [] => failure
      else if s = 17 then
        let n ← bits 3
        readLengths code total room (List.replicate (3 + n) 0 ++ done)
      else
        let n ← bits 7
        readLengths code total room (List.replicate (11 + n) 0 ++ done)

/-- The symbols that have a meaning: for literals and lengths, and for distances. -/
def literalCount : Nat := 286

def distanceCount : Nat := 30

def readCodes : BitReader (PrefixCode × PrefixCode) := do
  let literals := 257 + (← bits 5)
  let distances := 1 + (← bits 5)
  let count := 4 + (← bits 4)
  if literalCount < literals ∨ distanceCount < distances then failure
  let given ← (List.range count).mapM fun _ => bits 3
  let lengths := (List.range 19).map fun symbol =>
    match (lengthOrder.zip given).find? (·.1 = symbol) with
    | some (_, n) => n
    | none => 0
  let code ← (PrefixCode.full? lengths : Option PrefixCode)
  let all ← readLengths code (literals + distances) (literals + distances) []
  if all[endOfBlock]? = some 0 then failure
  let literalCode ← (PrefixCode.full? (all.take literals) : Option PrefixCode)
  let distanceCode ← (PrefixCode.distances? (all.drop literals) : Option PrefixCode)
  return (literalCode, distanceCode)

/-- Reads blocks up to the last one. Each takes bits, so `room` bits are room enough. -/
def readBlocks (room : Nat) (out : Array UInt8) : BitReader (Array UInt8) := do
  match room with
  | 0 => failure
  | room + 1 =>
    let last ← bit
    let kind ← bits 2
    let out ←
      if kind = 0 then do
        toByte
        let size ← bits 16
        let check ← bits 16
        if size + check = 65535 then readStored size out else failure
      else if kind = 1 then do
        readSymbols (PrefixCode.ofLengths fixedLiterals) (PrefixCode.ofLengths (List.replicate 32 5)) room out
      else if kind = 2 then do
        let (literals, distances) ← readCodes
        readSymbols literals distances room out
      else failure
    if last = 1 then return out else readBlocks room out

/-- Passes over the sum at the end of a stream. -/
def readSum : BitReader Unit := do
  toByte
  let _ ← bits 32

/-- Expands what stands between a header of two bytes and a sum of four. The sum must be there, but it is not looked at,
and neither is what follows it. -/
def inflate (stream : Bytes) : Option (Array UInt8) :=
  match stream with
  | method :: flags :: rest =>
    let header := method.toNat * 256 + flags.toNat
    if method % 16 = 8 ∧ method / 16 ≤ 7 ∧ header % 31 = 0 ∧ flags.toNat / 32 % 2 = 0 then
      let reader := do
        let out ← readBlocks (8 * rest.length) #[]
        readSum
        return out
      (reader ⟨rest.toArray, 0⟩).map (·.1)
    else none
  | _ => none

end SignerBench.Image
