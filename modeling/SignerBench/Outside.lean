import SignerBench.Bytes.Basic
import SignerBench.Files.Error

namespace SignerBench.Web

/-- An address without the slashes at its end, for a path to follow. -/
def base (address : String) : String := String.ofList (address.toList.reverse.dropWhile (· = '/')).reverse

def ofPort (port : Nat) : String := "http://127.0.0.1:" ++ toString port

inductive Response where
  | body (content : Bytes)
  /-- The service answered with the status of an error. -/
  | refused (status : Nat)
  /-- There was no answer, for this reason. -/
  | unreachable (reason : String)
  deriving DecidableEq, Repr

end SignerBench.Web

namespace SignerBench

abbrev Environment := String → Option String

namespace Program

inductive ExitStatus where
  | exited (code : Nat)
  | signalled (signal : Nat)
  deriving DecidableEq, Repr

/-- The names of the signals from the first one on. -/
def signalNames : List String :=
  ["SIGHUP", "SIGINT", "SIGQUIT", "SIGILL", "SIGTRAP", "SIGABRT", "SIGBUS", "SIGFPE", "SIGKILL", "SIGUSR1",
    "SIGSEGV", "SIGUSR2", "SIGPIPE", "SIGALRM", "SIGTERM", "SIGSTKFLT", "SIGCHLD", "SIGCONT", "SIGSTOP",
    "SIGTSTP", "SIGTTIN", "SIGTTOU", "SIGURG", "SIGXCPU", "SIGXFSZ", "SIGVTALRM", "SIGPROF", "SIGWINCH",
    "SIGIO", "SIGPWR", "SIGSYS"]

def signalName? (signal : Nat) : Option String := if signal = 0 then none else signalNames[signal - 1]?

namespace ExitStatus

def success (s : ExitStatus) : Bool := s = .exited 0

def describe : ExitStatus → String
  | .exited code => "exit status: " ++ toString code
  | .signalled signal =>
    "signal: " ++ toString signal ++
      match signalName? signal with
      | some name => " (" ++ name ++ ")"
      | none => ""

end ExitStatus

structure Run where
  program : String
  arguments : List String
  input : Bytes
  deriving DecidableEq, Repr

inductive Outcome where
  | notStarted (cause : Files.OsError)
  /-- The program ended. Feeding it its input may have failed. -/
  | ended (status : ExitStatus) (fed : Except Files.OsError Unit) (output errors : Bytes)
  deriving Repr

end Program

end SignerBench
