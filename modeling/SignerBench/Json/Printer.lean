import SignerBench.Json.Decode

namespace SignerBench.Json

/-- Quotes, backslashes and control characters are escaped, and nothing else. -/
def escapeChar (c : Char) : List Char :=
  if c = '"' then ['\\', '"']
  else if c = '\\' then ['\\', '\\']
  else if c = '\x08' then ['\\', 'b']
  else if c = '\x0c' then ['\\', 'f']
  else if c = '\n' then ['\\', 'n']
  else if c = '\r' then ['\\', 'r']
  else if c = '\t' then ['\\', 't']
  else if c.toNat < 0x20 then
    ['\\', 'u', '0', '0', (c.toNat / 16).digitChar, (c.toNat % 16).digitChar]
  else [c]

def quoted (s : String) : List Char := '"' :: s.toList.flatMap escapeChar ++ ['"']

def numberText : Number → String
  | .integer n => toString n
  | .float x => floatText x

/-- The parts of a branch, each with the separator in front of it that its place asks for. -/
def separated (first between : List Char) : List (List Char) → List Char
  | [] => []
  | p :: ps => first ++ p ++ ps.flatMap (between ++ ·)

mutual

def compactChars : Json → List Char
  | .null => ['n', 'u', 'l', 'l']
  | .bool true => ['t', 'r', 'u', 'e']
  | .bool false => ['f', 'a', 'l', 's', 'e']
  | .number n => (numberText n).toList
  | .text s => quoted s
  | .array items => '[' :: separated [] [','] (compactItems items) ++ [']']
  | .object entries => '\x7b' :: separated [] [','] (compactEntries entries) ++ ['\x7d']

def compactItems : List Json → List (List Char)
  | [] => []
  | v :: vs => compactChars v :: compactItems vs

def compactEntries : List (String × Json) → List (List Char)
  | [] => []
  | (k, v) :: es => (quoted k ++ ':' :: compactChars v) :: compactEntries es

end

def compact (v : Json) : String := String.ofList (compactChars v)

def newline (depth : Nat) : List Char := '\n' :: List.replicate (2 * depth) ' '

mutual

def prettyChars (depth : Nat) : Json → List Char
  | .null => ['n', 'u', 'l', 'l']
  | .bool true => ['t', 'r', 'u', 'e']
  | .bool false => ['f', 'a', 'l', 's', 'e']
  | .number n => (numberText n).toList
  | .text s => quoted s
  | .array [] => ['[', ']']
  | .array (v :: vs) =>
    '[' :: separated (newline (depth + 1)) (',' :: newline (depth + 1))
      (prettyChars (depth + 1) v :: prettyItems (depth + 1) vs) ++ newline depth ++ [']']
  | .object [] => ['\x7b', '\x7d']
  | .object ((k, v) :: es) =>
    '\x7b' :: separated (newline (depth + 1)) (',' :: newline (depth + 1))
      ((quoted k ++ ':' :: ' ' :: prettyChars (depth + 1) v) :: prettyEntries (depth + 1) es) ++
      newline depth ++ ['\x7d']

def prettyItems (depth : Nat) : List Json → List (List Char)
  | [] => []
  | v :: vs => prettyChars depth v :: prettyItems depth vs

def prettyEntries (depth : Nat) : List (String × Json) → List (List Char)
  | [] => []
  | (k, v) :: es => (quoted k ++ ':' :: ' ' :: prettyChars depth v) :: prettyEntries depth es

end

def pretty (v : Json) : String := String.ofList (prettyChars 0 v)

end SignerBench.Json
