import SignerBench.Text.Basic
import SignerBench.Vectors.Generator

namespace SignerBench.Vectors

structure Job where
  options : GeneratorOptions
  outDir : String
  /-- The authorizer. -/
  program : String
  arguments : List String
  deriving DecidableEq, Repr

namespace CommandLine

/-- The options that take one value. -/
inductive Setting where
  | commit
  | baseUrl
  | count
  | skip
  | seed
  | outDir
  deriving DecidableEq, Repr

def Setting.name : Setting → String
  | .commit => "commit"
  | .baseUrl => "base-url"
  | .count => "count"
  | .skip => "skip"
  | .seed => "seed"
  | .outDir => "out-dir"

def Setting.all : List Setting := [.commit, .baseUrl, .count, .skip, .seed, .outDir]

inductive Misuse where
  | unknown (argument : String)
  | valueMissing (option : String)
  | valueUnwanted (option : String)
  | repeated (option : String)
  | invalidValue (option value : String)
  | optionMissing (option : String)
  deriving DecidableEq, Repr

def Misuse.message : Misuse → String
  | .unknown argument => "unexpected argument '" ++ argument ++ "' found"
  | .valueMissing option => "a value is required for '--" ++ option ++ "' but none was supplied"
  | .valueUnwanted option => "no value is wanted for '--" ++ option ++ "'"
  | .repeated option => "the argument '--" ++ option ++ "' cannot be used multiple times"
  | .invalidValue option value => "invalid value '" ++ value ++ "' for '--" ++ option ++ "'"
  | .optionMissing option => "the argument '--" ++ option ++ "' is required"

/-- Why there is no job to do. -/
inductive Stop where
  | help
  | version
  | misuse (cause : Misuse)
  deriving DecidableEq, Repr

/-- The options met so far. -/
structure Given where
  commit : Option String := none
  baseUrl : Option String := none
  count : Option Nat := none
  skip : Option (List Nat) := none
  seed : Option String := none
  outDir : Option String := none
  authorizer : List String := []

/-- The value of an option that is met for the first time. -/
def once {α : Type} (s : Setting) (slot : Option α) (value : α) : Except Stop (Option α) :=
  match slot with
  | some _ => .error (.misuse (.repeated s.name))
  | none => .ok (some value)

def readCount (s : Setting) (value : List Char) : Except Stop Nat :=
  match Text.number? value with
  | some n => if n < UInt64.size then .ok n else .error (.misuse (.invalidValue s.name (String.ofList value)))
  | none => .error (.misuse (.invalidValue s.name (String.ofList value)))

def Given.put (g : Given) (s : Setting) (value : String) : Except Stop Given :=
  match s with
  | .commit => do
    let slot ← once s g.commit value
    return { g with commit := slot }
  | .baseUrl => do
    let slot ← once s g.baseUrl value
    return { g with baseUrl := slot }
  | .count => do
    let n ← readCount s value.toList
    let slot ← once s g.count n
    return { g with count := slot }
  | .skip => do
    let ns ← (Text.pieces ',' value.toList).mapM (readCount s)
    return { g with skip := some (g.skip.getD [] ++ ns) }
  | .seed => do
    let slot ← once s g.seed value
    return { g with seed := slot }
  | .outDir => do
    if value = "" then throw (.misuse (.invalidValue s.name value))
    let slot ← once s g.outDir value
    return { g with outDir := slot }

inductive Argument where
  /-- A long option, and the value behind its equals sign. -/
  | long (name : String) (value : Option String)
  /-- Short options. -/
  | short (letters : List Char)
  /-- No option follows. -/
  | terminator
  | plain

def Argument.ofText (s : String) : Argument :=
  match s.toList with
  | ['-', '-'] => .terminator
  | '-' :: '-' :: rest =>
    let name := String.ofList (rest.takeWhile (· ≠ '='))
    match rest.dropWhile (· ≠ '=') with
    | _ :: value => .long name (some (String.ofList value))
    | [] => .long name none
  | '-' :: c :: rest => .short (c :: rest)
  | _ => .plain

/-- An argument that can be the value of the option before it. -/
def isValue (s : String) : Bool :=
  match Argument.ofText s with
  | .plain => true
  | _ => false

/-- What a group of short options comes to: the option that takes a value, and the part of the value that stands
in the group. -/
def readLetters (argument : String) : List Char → Except Stop (Setting × String)
  | 'h' :: _ => .error .help
  | 'V' :: _ => .error .version
  | 'o' :: '=' :: value => .ok (.outDir, String.ofList value)
  | 'o' :: value => .ok (.outDir, String.ofList value)
  | _ => .error (.misuse (.unknown argument))

def readArguments (g : Given) : List String → Except Stop Given
  | [] => .ok g
  | argument :: rest =>
    match Argument.ofText argument with
    | .plain => .error (.misuse (.unknown argument))
    | .terminator =>
      match rest with
      | [] => .ok g
      | next :: _ => .error (.misuse (.unknown next))
    | .short letters =>
      match readLetters argument letters with
      | .error stop => .error stop
      | .ok (s, value) =>
        if letters.length = 1 then takeValue g s rest
        else
          match g.put s value with
          | .ok g => readArguments g rest
          | .error stop => .error stop
    | .long "help" none => .error .help
    | .long "version" none => .error .version
    | .long "authorizer" none =>
      if rest = [] then .error (.misuse (.valueMissing "authorizer"))
      else .ok { g with authorizer := g.authorizer ++ rest }
    | .long "authorizer" (some value) => readArguments { g with authorizer := g.authorizer ++ [value] } rest
    | .long name value =>
      match Setting.all.find? (·.name = name), value with
      | some s, none => takeValue g s rest
      | some s, some value =>
        match g.put s value with
        | .ok g => readArguments g rest
        | .error stop => .error stop
      | none, _ =>
        if name = "help" ∨ name = "version" then .error (.misuse (.valueUnwanted name))
        else .error (.misuse (.unknown argument))
where
  /-- The next argument is the value of the option. -/
  takeValue (g : Given) (s : Setting) : List String → Except Stop Given
    | [] => .error (.misuse (.valueMissing s.name))
    | value :: rest =>
      if isValue value then
        match g.put s value with
        | .ok g => readArguments g rest
        | .error stop => .error stop
      else .error (.misuse (.valueMissing s.name))

def Given.job (g : Given) : Except Stop Job :=
  match g.authorizer with
  | [] => .error (.misuse (.optionMissing "authorizer"))
  | program :: arguments =>
    let defaults : GeneratorOptions := {}
    let options : GeneratorOptions :=
      ⟨g.baseUrl.getD defaults.base, g.commit.getD defaults.commit, g.count.getD defaults.count,
        g.skip.getD defaults.skip, g.seed.getD defaults.seed⟩
    .ok ⟨options, g.outDir.getD ".", program, arguments⟩

def read (arguments : List String) : Except Stop Job := do
  let g ← readArguments {} arguments
  g.job

def versionText : String := "generate-testcases 1.0.0\n"

def usage : String := "Usage: generate-testcases [OPTIONS] --authorizer <AUTHORIZER>...\n"

def helpText : String :=
  "Generate Penumbra signing fixtures from the reference transaction plans\n\n" ++ usage ++ "\nOptions:\n" ++
  "      --commit <COMMIT>             Penumbra commit to take the plans from [default: " ++ commit ++ "]\n" ++
  "      --base-url <BASE_URL>         Raw content host of the Penumbra repository [default: " ++ defaultBase ++
  "]\n" ++
  "      --count <COUNT>               Fetch plans \x600..count\x60 [default: 11]\n" ++
  "      --skip <SKIP>                 Plan indices to leave out [default: 2]\n" ++
  "      --seed <SEED>                 Seed phrase the plans are authorized with [default: \"" ++ testSeed ++
  "\"]\n" ++
  "  -o, --out-dir <OUT_DIR>           Directory the two JSON files are written to [default: .]\n" ++
  "      --authorizer <AUTHORIZER>...  Authorizer program followed by its arguments, e.g. " ++
  "\x60--authorizer node tools/authorize-plan.mjs\x60\n" ++
  "  -h, --help                        Print help\n" ++
  "  -V, --version                     Print version\n"

end CommandLine

end SignerBench.Vectors
