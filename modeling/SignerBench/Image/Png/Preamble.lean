import SignerBench.Bytes.Basic
import SignerBench.Image.Png.Header

namespace SignerBench.Image.Png

def untilZero? : Bytes → Option (Bytes × Bytes)
  | [] => none
  | b :: rest => if b = 0 then some ([], rest) else (untilZero? rest).map fun (word, rest) => (b :: word, rest)

/-- What stands behind a keyword of 1 to 79 bytes. -/
def behindKeyword? (b : Bytes) : Option Bytes := do
  let (keyword, rest) ← untilZero? b
  if 1 ≤ keyword.length ∧ keyword.length ≤ 79 then some rest else none

def isText (b : Bytes) : Bool := (Bytes.toText? b).isSome

def isRemark (b : Bytes) : Bool := (behindKeyword? b).isSome

/-- A compressed text. It is not expanded. -/
def isPackedRemark (b : Bytes) : Bool :=
  match behindKeyword? b with
  | some (method :: _) => method = 0
  | _ => false

/-- A text in any language: whether it is compressed and how, the language, the keyword in that language, and
the text. -/
def isWideRemark (b : Bytes) : Bool :=
  match behindKeyword? b with
  | some (packed :: method :: rest) =>
    match untilZero? rest with
    | some (language, rest) =>
      match untilZero? rest with
      | some (keyword, text) =>
        (packed = 0 && isText text || packed = 1 && method = 0) && language.all (· < 128) && isText keyword
      | none => false
    | none => false
  | _ => false

open Chunk

/-- What the chunks so far have told. -/
structure Preamble where
  header : Option Header
  palette : Option Bytes
  /-- The kinds met of those that must not come twice. -/
  met : List Kind
  /-- The number of the last chunk of an animation. -/
  frame : Option Nat

namespace Preamble

def empty : Preamble := ⟨none, none, [], none⟩

def once (p : Preamble) (kind : Kind) : Option Preamble :=
  if kind ∈ p.met then none else some { p with met := kind :: p.met }

/-- Whether there are as many bytes of transparency as the colours ask for. -/
def allowsTransparency (p : Preamble) (h : Header) (b : Bytes) : Bool :=
  match h.color with
  | .grey => 2 ≤ b.length
  | .rgb => 6 ≤ b.length
  | .indexed => p.palette.isSome
  | .greyAlpha => false
  | .rgbAlpha => false

def nextFrame (p : Preamble) : Nat :=
  match p.frame with
  | some n => n + 1
  | none => 0

/-- Whether this describes a frame that is all of the picture. -/
def isWholeFrame (p : Preamble) (h : Header) (b : Bytes) : Bool :=
  match (b.drop 24).take 2 with
  | [dispose, blend] =>
    number (b.take 4) = p.nextFrame && number ((b.drop 4).take 4) = h.width
      && number ((b.drop 8).take 4) = h.height && number ((b.drop 12).take 4) = 0
      && number ((b.drop 16).take 4) = 0 && dispose ≤ 2 && blend ≤ 1
  | _ => false

/-- Takes in the data of a chunk behind the header. -/
def learn (p : Preamble) (h : Header) (kind : Kind) (b : Bytes) : Option Preamble :=
  let require (good : Bool) (next : Option Preamble) : Option Preamble := if good then next else none
  if kind = Kind.header then none
  else if kind = Kind.palette then { p with palette := some b }.once kind
  else if kind = Kind.transparency then require (p.allowsTransparency h b) (p.once kind)
  else if kind = Kind.gamma then require (4 ≤ b.length) (p.once kind)
  else if kind = Kind.chromaticities then require (32 ≤ b.length) (p.once kind)
  else if kind = Kind.scale then require ((b.drop 8).head?.any (· ≤ 1)) (p.once kind)
  else if kind = Kind.intent then require (b.head?.any (· ≤ 3)) (p.once kind)
  else if kind = Kind.animation then require (8 ≤ b.length) (some p)
  else if kind = Kind.frame then require (p.isWholeFrame h b) (some { p with frame := some p.nextFrame })
  else if kind = Kind.text then require (isRemark b) (some p)
  else if kind = Kind.packedText then require (isPackedRemark b) (some p)
  else if kind = Kind.wideText then require (isWideRemark b) (some p)
  else some p

def add (p : Preamble) (c : Chunk) : Option Preamble :=
  if !c.usable then none
  else if c.data = [] then some p
  else
    match p.header with
    | none => (Header.ofBytes c.data).map fun h => { p with header := some h }
    | some h => p.learn h c.kind c.data

end Preamble

/-- Reads on to the chunk that the picture begins with, and stops before it. Each chunk has twelve bytes or more,
so `room` is room enough when there are no more chunks. -/
def readPreamble (room : Nat) (p : Preamble) (b : Bytes) : Option (Preamble × Bytes) :=
  match room with
  | 0 => none
  | room + 1 => do
    let kind ← Chunk.kind? b
    if p.header.isNone && kind ≠ Kind.header then none
    else if kind = Kind.picture || kind = Kind.framePicture then some (p, b)
    else if kind = Kind.ending then none
    else
      let (c, rest) ← Chunk.take? b
      readPreamble room (← p.add c) rest

/-- The data of the picture, from all chunks of this kind in a row. Behind them another chunk must begin. -/
def readPicture (room : Nat) (b : Bytes) : Option Bytes :=
  match room with
  | 0 => none
  | room + 1 => do
    if (← Chunk.kind? b) ≠ Kind.picture then some []
    else
      let (c, rest) ← Chunk.take? b
      if c.usable then return c.data ++ (← readPicture room rest) else none

/-- The data of a picture that is a frame of an animation, whose chunks are numbered on. -/
def readFrame (room next : Nat) (b : Bytes) : Option Bytes :=
  match room with
  | 0 => none
  | room + 1 => do
    if (← Chunk.kind? b) ≠ Kind.framePicture then some []
    else
      let (c, rest) ← Chunk.take? b
      if 4 ≤ c.data.length ∧ number (c.data.take 4) = next ∧ c.usable then
        return c.data.drop 4 ++ (← readFrame room (next + 1) rest)
      else none

end SignerBench.Image.Png
