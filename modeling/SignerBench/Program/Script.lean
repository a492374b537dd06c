namespace SignerBench.Program

/-- What a part of a word stands for. -/
inductive Meaning where
  | text (s : String)
  /-- The value of a parameter or variable. -/
  | named (name : String)
  /-- The output of a script. -/
  | output (script : List Char)
  deriving DecidableEq, Repr

structure WordPart where
  meaning : Meaning
  quoted : Bool
  deriving DecidableEq, Repr

abbrev Word := List WordPart

structure Command where
  words : List Word := []
  /-- The output goes to the errors. -/
  toErrors : Bool := false
  /-- The output goes to a file that nobody reads. -/
  dropped : Bool := false
  deriving DecidableEq, Repr

/-- Commands of which each reads what the one before it writes. -/
abbrev Pipeline := List Command

namespace Script

def isNameChar (c : Char) : Bool := c.isAlphanum || c = '_'

def isSign (c : Char) : Bool := c.isDigit || ['#', '$'].contains c

def endsWord (c : Char) : Bool := [' ', '\t', '\n', ';', '|', '>'].contains c

def single (c : Char) (quoted : Bool) : WordPart := ⟨.text (String.singleton c), quoted⟩

def upTo (c : Char) (cs : List Char) : List Char × List Char :=
  let inner := cs.takeWhile (· ≠ c)
  (inner, cs.drop (inner.length + 1))

/-- What stands behind a dollar sign, and what follows it. -/
def behindDollar : List Char → Meaning × List Char
  | '(' :: rest =>
    let (script, rest) := upTo ')' rest
    (.output script, rest)
  | c :: rest =>
    if isSign c then (.named (String.singleton c), rest)
    else
      let name := (c :: rest).takeWhile isNameChar
      (.named (String.ofList name), (c :: rest).drop name.length)
  | [] => (.text "$", [])

/-- The parts between double quotes, behind those read so far, and what follows. Each step reads a character, so
that `fuel` of them suffice for a text of that length. -/
def doubleQuoted (parts : Word) : (fuel : Nat) → List Char → Word × List Char
  | _, [] => (parts, [])
  | 0, cs => (parts, cs)
  | _ + 1, '"' :: rest => (parts, rest)
  | fuel + 1, '$' :: rest =>
    let (meaning, rest) := behindDollar rest
    doubleQuoted (parts ++ [⟨meaning, true⟩]) fuel rest
  | fuel + 1, c :: rest => doubleQuoted (parts ++ [single c true]) fuel rest

def word (parts : Word) : (fuel : Nat) → List Char → Word × List Char
  | _, [] => (parts, [])
  | 0, cs => (parts, cs)
  | fuel + 1, '\x27' :: rest =>
    let (inner, rest) := upTo '\x27' rest
    word (parts ++ [⟨.text (String.ofList inner), true⟩]) fuel rest
  | fuel + 1, '"' :: rest =>
    let (parts, rest) := doubleQuoted (parts ++ [⟨.text "", true⟩]) rest.length rest
    word parts fuel rest
  | fuel + 1, '$' :: rest =>
    let (meaning, rest) := behindDollar rest
    word (parts ++ [⟨meaning, false⟩]) fuel rest
  | fuel + 1, c :: rest =>
    if endsWord c then (parts, c :: rest) else word (parts ++ [single c false]) fuel rest

/-- A word, or what stands between words. -/
inductive Token where
  | word (w : Word)
  | pipe
  | next
  | toErrors
  | toNowhere
  deriving DecidableEq, Repr

def tokens : (fuel : Nat) → List Char → List Token
  | 0, _ => []
  | _, [] => []
  | fuel + 1, '|' :: rest => .pipe :: tokens fuel rest
  | fuel + 1, '>' :: '&' :: '2' :: rest => .toErrors :: tokens fuel rest
  | fuel + 1, '>' :: rest =>
    let target := rest.dropWhile (· = ' ')
    .toNowhere :: tokens fuel (word [] target.length target).2
  | fuel + 1, c :: rest =>
    if c = ';' ∨ c = '\n' then .next :: tokens fuel rest
    else if endsWord c then tokens fuel rest
    else
      let (w, rest) := word [] (rest.length + 1) (c :: rest)
      .word w :: tokens fuel rest

/-- The pipelines of some tokens, behind the beginning of the first one. -/
def pipelines (first : Pipeline) (here : Command) : List Token → List Pipeline
  | [] => [first ++ [here]]
  | .word w :: rest => pipelines first { here with words := here.words ++ [w] } rest
  | .toErrors :: rest => pipelines first { here with toErrors := true } rest
  | .toNowhere :: rest => pipelines first { here with dropped := true } rest
  | .pipe :: rest => pipelines (first ++ [here]) {} rest
  | .next :: rest => (first ++ [here]) :: pipelines [] {} rest

def parse (cs : List Char) : List Pipeline := pipelines [] {} (tokens (cs.length + 1) cs)

/-- The variable that a word sets, and the word of its value. -/
def assignment? (w : Word) : Option (String × Word) :=
  let isName (p : WordPart) : Bool :=
    match p with
    | ⟨.text s, false⟩ => s.toList.all isNameChar
    | _ => false
  let name := w.takeWhile isName
  let text := String.join (name.map fun p =>
    match p.meaning with
    | .text s => s
    | _ => "")
  match w.drop name.length with
  | ⟨.text "=", false⟩ :: value => some (text, value)
  | _ => none

end Script

end SignerBench.Program
