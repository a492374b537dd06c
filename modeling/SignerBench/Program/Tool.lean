import SignerBench.Bytes.Hex
import SignerBench.Text.Basic

namespace SignerBench.Program.Tool

/-- The letters behind a backslash that stand for a byte. -/
def escapes : List (Char × UInt8) := [('n', 10), ('t', 9), ('\\', 92)]

def isOctal (c : Char) : Bool := '0' ≤ c && c ≤ '7'

/-- Backslash escapes, read behind the bytes so far in reverse. Up to three octal digits give a byte. -/
def unescape (done : Bytes) : (fuel : Nat) → List Char → Bytes
  | _, [] => done.reverse
  | 0, _ => done.reverse
  | fuel + 1, '\\' :: rest =>
    match (rest.take 3).takeWhile isOctal, rest.head?.bind (escapes.lookup ·) with
    | [], some byte => unescape (byte :: done) fuel rest.tail
    | [], none => unescape (92 :: done) fuel rest
    | digits, _ =>
      let byte := UInt8.ofNat (digits.foldl (fun n c => 8 * n + Text.digitValue c) 0)
      unescape (byte :: done) fuel (rest.drop digits.length)
  | fuel + 1, c :: rest => unescape ((Bytes.ofText (String.singleton c)).reverse ++ done) fuel rest

def unescaped (cs : List Char) : Bytes := unescape [] cs.length cs

/-- An argument in a slot for texts or for numbers, filled up on the left. What is no number counts as zero. -/
def fill (zeros number : Bool) (width : Nat) (argument : String) : Bytes :=
  let body := if number then toString ((Text.number? argument.toList).getD 0) else argument
  List.replicate (width - body.utf8ByteSize) (if zeros && number then 48 else 32) ++ Bytes.ofText body

/-- A pattern with its arguments put in. A slot for one is a percent sign, a width, and a letter. -/
def format (arguments : List String) : (fuel : Nat) → List Char → Bytes
  | _, [] => []
  | 0, _ => []
  | fuel + 1, '%' :: rest =>
    let width := rest.takeWhile Text.isDigit
    match rest.drop width.length with
    | kind :: behind =>
      fill (width.head? = some '0') (kind = 'd') (Text.decimal width) (arguments.headD "") ++
        format arguments.tail fuel behind
    | [] => []
  | fuel + 1, cs =>
    let plain := cs.takeWhile (· ≠ '%')
    unescaped plain ++ format arguments fuel (cs.drop plain.length)

/-- The bytes as two digits each, sixteen to a line. -/
def dump (b : Bytes) : Bytes :=
  (Bytes.chunks 16 b).flatMap fun line =>
    Bytes.ofText (String.join (line.map fun x => " " ++ Hex.encode [x])) ++ [10]

def output? (name : String) (arguments : List String) (input : Bytes) : Option Bytes :=
  match name, arguments with
  | "cat", [] => some input
  | "od", ["-An", "-v", "-tx1"] => some (dump input)
  | "tr", ["-d", unwanted] => some (input.filter fun b => !(unescaped unwanted.toList).contains b)
  | _, _ => none

end SignerBench.Program.Tool
