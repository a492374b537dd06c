import SignerBench.Bytes.Utf8
import SignerBench.Outside
import SignerBench.Program.Machine
import SignerBench.Program.Script
import SignerBench.Program.Tool

namespace SignerBench.Program

namespace Shell

structure State where
  named : List (String × String) := []
  arguments : List String
  input : Bytes
  /-- Some command has taken the input. -/
  fed : Bool := false
  output : Bytes := []
  errors : Bytes := []
  status : ExitStatus := .exited 0
  ended : Bool := false

def ownNumber : String := "1"

def State.value (s : State) (name : String) : String :=
  if name = "#" then toString s.arguments.length
  else if name = "$" then ownNumber
  else match Text.number? name.toList with
    | some n => (s.arguments[n - 1]?).getD ""
    | none => (s.named.lookup name).getD ""

def chomp (s : String) : String := String.ofList (s.toList.reverse.dropWhile (· = '\n')).reverse

/-- Scripts inside a word are run by `inner`. -/
def expandPart (inner : List Char → State → State) (m : Meaning) (s : State) : String × State :=
  match m with
  | .text t => (t, s)
  | .named name => (s.value name, s)
  | .output script =>
    let after := inner script { s with output := [] }
    (chomp (Utf8.decodeLossy after.output), { after with output := s.output })

def expandText (inner : List Char → State → State) (s : State) : Word → String × State
  | [] => ("", s)
  | p :: ps =>
    let (first, s) := expandPart inner p.meaning s
    let (rest, s) := expandText inner s ps
    (first ++ rest, s)

/-- A word none of whose parts is fixed falls apart at blanks. -/
def isFixed (w : Word) : Bool := w.any fun p => p.quoted || p.meaning matches .text _

def expandWords (inner : List Char → State → State) (s : State) : List Word → List String × State
  | [] => ([], s)
  | w :: ws =>
    let (text, s) := expandText inner s w
    let (rest, s) := expandWords inner s ws
    let fields := ((Text.pieces ' ' text.toList).filter fun p => !p.isEmpty).map String.ofList
    ((if isFixed w then [text] else fields) ++ rest, s)

def State.write (s : State) (c : Command) (b : Bytes) : State :=
  if c.toErrors then { s with errors := s.errors ++ b }
  else if c.dropped then s
  else { s with output := s.output ++ b }

def State.exits (s : State) (code : Nat) : State := { s with status := .exited code }

/-- The signal of a number, or of a name without the letters that all of them begin with. -/
def signal? (s : String) : Option Nat :=
  (Text.number? s.toList).or ((signalNames.idxOf? ("SIG" ++ s)).map (· + 1))

/-- Sends a signal to the shell itself. There is no other process. -/
def State.kill (s : State) : List String → State
  | [option, target] =>
    match signal? (String.ofList option.toList.tail) with
    | some signal => if target = ownNumber then { s with status := .signalled signal, ended := true } else s.exits 1
    | none => s.exits 2
  | _ => s.exits 2

/-- Runs a tool. Another shell, which may be run by way of `env`, runs its script by `inner`. -/
def runTool (inner : List Char → State → State) : (tool : String) → List String → Bytes → State
  | "sh", "-c" :: script :: words, input => inner script.toList { arguments := words.tail, input }
  | "env", "sh" :: "-c" :: script :: words, input => inner script.toList { arguments := words.tail, input }
  | tool, arguments, input =>
    match Tool.output? tool arguments input with
    | some output => { arguments, input := [], fed := true, output }
    | none => ({ arguments, input } : State).exits ((Machine.tools.lookup tool).getD 0)

def runWords (inner : List Char → State → State) (c : Command) (s : State) : List String → State
  | "printf" :: pattern :: values => (s.write c (Tool.format values (pattern.length + 1) pattern.toList)).exits 0
  | "echo" :: words => (s.write c (Bytes.ofText (String.intercalate " " words ++ "\n"))).exits 0
  | ["exit", code] => { s.exits ((Text.number? code.toList).getD 2) with ended := true }
  | "kill" :: arguments => s.kill arguments
  | name :: arguments =>
    match Machine.tool name with
    | .ok tool =>
      let r := runTool inner tool arguments s.input
      { s with input := r.input, fed := s.fed || r.fed, errors := s.errors ++ r.errors, status := r.status }.write c
        r.output
    | .error e => s.exits (if e = .permission then 126 else 127)
  | [] => s

def runCommand (inner : List Char → State → State) (c : Command) (s : State) : State :=
  match c.words with
  | [w] =>
    match Script.assignment? w with
    | some (name, value) =>
      let (text, s) := expandText inner s value
      { s with named := (name, text) :: s.named }
    | none =>
      let (words, s) := expandWords inner s [w]
      runWords inner c s words
  | ws =>
    let (words, s) := expandWords inner s ws
    runWords inner c s words

/-- What a command writes is the input of the next one. -/
def runPipeline (inner : List Char → State → State) (s : State) (p : Pipeline) : State :=
  if s.ended then s
  else match p with
  | [] => s
  | [last] => runCommand inner last s
  | c :: rest =>
    let first := runCommand inner c { s with output := [] }
    let last := runPipeline inner { first with input := first.output, output := s.output } rest
    { last with input := first.input, fed := first.fed }

/-- Runs a script. Scripts lie inside each other `depth` times at most. -/
def run : (depth : Nat) → List Char → State → State
  | 0, _, s => s
  | depth + 1, script, s => (Script.parse script).foldl (runPipeline (run depth)) s

end Shell

namespace Simulated

open Shell

/-- How much a program can be given that does not take its input. -/
def pipeSize : Nat := 65536

/-- Runs a program as a machine does that has a shell and a few tools. The arguments are looked at before the program
is looked for. A program that leaves a long input alone cannot be fed. -/
def run (r : Run) : Outcome :=
  match Machine.argumentFault? (r.program :: r.arguments), Machine.tool r.program with
  | some e, _ => .notStarted e
  | none, .error e => .notStarted e
  | none, .ok tool =>
    -- Scripts lie inside each other no deeper than there are characters in the arguments.
    let depth := r.arguments.foldl (fun n a => n + a.length) 1
    let s := runTool (Shell.run depth) tool r.arguments r.input
    let fed : Except Files.OsError Unit :=
      if s.fed ∨ r.input.length ≤ pipeSize then .ok () else .error .brokenPipe
    .ended s.status fed s.output s.errors

end Simulated

end SignerBench.Program
