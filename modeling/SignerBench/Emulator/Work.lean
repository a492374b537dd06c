import SignerBench.App.Error
import SignerBench.Dialogue
import SignerBench.Emulator.Api
import SignerBench.Emulator.Options

namespace SignerBench.Emulator

inductive Ask where
  /-- Calls a service of the emulator at this address. -/
  | call (base : String) (call : Call)
  /-- The time in milliseconds. -/
  | now
  | sleep (ms : Nat)
  | files (ask : Files.Ask)
  /-- A port that is not in use. -/
  | freePort
  | spawn (binary : String) (arguments : List String)
  /-- How the emulator's process ended, if it has. -/
  | ended
  | kill

def Reply : Ask → Type
  | .call _ _ => Web.Response
  | .now => Nat
  | .sleep _ => Unit
  | .files ask => Files.Reply ask
  | .freePort => Except Files.OsError Nat
  | .spawn _ _ => Except Files.OsError Unit
  | .ended => Except Files.OsError (Option Program.ExitStatus)
  | .kill => Except Files.OsError Unit

/-- Work with an emulator. It waits for a number of milliseconds before it takes a loop again. -/
abbrev Work := Attempt Ask Reply Nat Error

namespace Work

def call (base : String) (c : Call) : Work Bytes := Attempt.demand (Ask.call base c) (c.content base)

def now : Work Nat := Attempt.query Ask.now

def sleep (ms : Nat) : Work Unit := Attempt.query (Ask.sleep ms)

def ofSystem {α : Type} (r : Except Files.OsError α) : Except Error α := r.mapError .system

def freePort : Work Nat := Attempt.demand Ask.freePort ofSystem

def ended : Work (Option Program.ExitStatus) := Attempt.demand Ask.ended ofSystem

def kill : Work Unit := Attempt.demand Ask.kill ofSystem

def spawn (binary : String) (arguments : List String) : Work Unit :=
  Attempt.demand (Ask.spawn binary arguments) fun r => r.mapError fun e => .process (.notStarted binary e)

def isFile (path : String) : Work Bool := Attempt.query (Ask.files (.isFile path))

/-- A check of snapshots, as a part of such work. -/
def check (c : Snapshot.Goldens.Check Unit) : Work Unit :=
  ExceptT.adapt Error.ofGoldens (ExceptT.mk (c.run.via Ask.files (fun _ r => r) Empty.elim))

end Work

end SignerBench.Emulator
