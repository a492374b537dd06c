import SignerBench.Dialogue.Joint
import SignerBench.Emulator.Start
import SignerBench.Emulator.Session
import SignerBench.Emulator.Walk
import SignerBench.Suite.Checks
import SignerBench.Suite.Settings

namespace SignerBench.Suite

open Dialogue Emulator

/-- Starts the emulator for a model. The device is the model's, whatever the options say. -/
def startWith (env : Environment) (m : Device.Model) (o : Options) : Work Session :=
  Session.start env m.elf { o with device := m.kind }

def start (env : Environment) (m : Device.Model) : Work Session := startWith env m (defaultOptions m.kind)

/-- Two halves of a test, of which the first one gives its result. -/
abbrev Flow (α : Type) := Joint Ask Reply Nat Error α Unit

abbrev Part (α : Type) := Attempt Ask Reply Nat Error α

def ofWork {α : Type} (w : Work α) : Part α := ExceptT.adapt Error.emulator w

def ofApp {α : Type} (w : Attempt Ask Reply Nat (App.Error Emulator.Error) α) : Part α :=
  ExceptT.adapt Error.app w

/-- Waits until the home screen is gone and, if it is given, until a text is shown, then walks through the
review. -/
def review (s : Session) (env : Environment) (dir name : String) (awaited : Option String) : Part Unit := do
  match s.mainMenu with
  | none => throw .noMainMenu
  | some home =>
    discard (ofWork (s.waitUntilNot home))
    match awaited with
    | some text => ofWork (s.waitForText text)
    | none => pure ()
    ofWork (s.reviewAndApprove env dir name)

def flow {α : Type} (request : Part α) (review : Part Unit) : Flow α := ⟨.ofAttempt request, .ofAttempt review⟩

def showAddressAndApprove (s : Session) (env : Environment) (dir : String) (path : Account.Path)
    (index : Account.AddressIndex) (name : String) : Flow App.Address :=
  flow (ofApp (s.app (App.showAddress path index))) (review s env dir name none)

def signAndApprove (s : Session) (env : Environment) (dir : String) (path : Account.Path) (blob : Bytes)
    (metadata : List String) (name : String) (awaited : Option String) : Flow App.SignedPlan :=
  flow (ofApp (s.app (App.sign path blob metadata))) (review s env dir name awaited)

end SignerBench.Suite
