import SignerBench.App.Client
import SignerBench.Emulator.Work
import SignerBench.Text.LetterCase

namespace SignerBench.Emulator

structure Session where
  options : Options
  /-- The address of its services. -/
  base : String
  /-- The home screen. -/
  mainMenu : Option Snapshot := none
  /-- It is a process of ours, and not one that was there before. -/
  owned : Bool := false

namespace Session

def events (s : Session) : Work (List Element) := do
  let content ← Work.call s.base .events
  Attempt.ofExcept (readScreen content)

def snapshot (s : Session) : Work Snapshot := Snapshot.mk <$> Work.call s.base .screenshot

def click (s : Session) (b : Device.Button) : Work Unit := discard (Work.call s.base (.button b))

def finger (s : Session) (touch : Touch) (place : Device.Point) : Work Unit :=
  discard (Work.call s.base (.finger touch place))

def tap (s : Session) (place : Device.Point) : Work Unit := s.finger .tap place

def hold (s : Session) (place : Device.Point) (ms : Nat) : Work Unit := do
  s.finger .press place
  Work.sleep ms
  s.finger .release place

def perform (s : Session) : Device.Step → Work Unit
  | .click b => s.click b
  | .tap place => s.tap place
  | .hold place ms => s.hold place ms

def findText (s : Session) (wanted : String) : Work (Option Element) := do
  let elements ← s.events
  return elements.find? fun e => Text.mentions e.text wanted

/-- Looks again and again until something is found, and at least once. Past the deadline it gives up. -/
def poll {α : Type} (s : Session) (deadline : Nat) (late : Error) (look : Work (Option α)) : Work α :=
  Attempt.loop do
    match ← look with
    | some found => return found
    | none =>
      let now ← Work.now
      if deadline ≤ now then throw late
      Attempt.again s.options.pollInterval

/-- Waits until the screen shows other pixels, and gives the new screen. -/
def waitUntilNot (s : Session) (reference : Snapshot) : Work Snapshot := do
  let start ← Work.now
  s.poll (start + s.options.screenTimeout) (.screenTimeout .change s.options.screenTimeout) do
    let current ← s.snapshot
    return if current.samePixels reference then none else some current

def waitForTextUntil (s : Session) (wanted : String) (deadline limit : Nat) : Work Unit :=
  s.poll deadline (.screenTimeout (.text wanted) limit) do
    let found ← s.findText wanted
    return found.map fun _ => ()

def waitForText (s : Session) (wanted : String) : Work Unit := do
  let start ← Work.now
  s.waitForTextUntil wanted (start + s.options.screenTimeout) s.options.screenTimeout

end Session

def readExchange (base : String) (c : Apdu.Command) (r : Web.Response) : Except Error Apdu.Answer := do
  let content ← (Call.apdu c.bytes).content base r
  readAnswer content

namespace Session

def exchange (s : Session) (c : Apdu.Command) : Work Apdu.Answer :=
  Attempt.demand (Ask.call s.base (.apdu c.bytes)) (readExchange s.base c)

/-- A request to the app, held with the emulator. -/
def app {α : Type} (s : Session) (request : App.Link Error α) :
    Attempt Ask Reply Nat (App.Error Error) α :=
  ExceptT.mk (request.run.via (fun c => Ask.call s.base (.apdu c.bytes)) (readExchange s.base) Empty.elim)

end Session

end SignerBench.Emulator
