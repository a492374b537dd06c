import SignerBench.Dialogue.Joint
import SignerBench.Emulator.Work
import SignerBench.Files.Tree
import SignerBench.Program.Shell

namespace SignerBench.Emulator

open Device

namespace Replica

structure Screen where
  /-- What the services answer here, with the status that they answer with. -/
  events : Bytes
  eventsStatus : Nat := 200
  png : Bytes
  pngStatus : Nat := 200
  buttonStatus : Nat := 200
  fingerStatus : Nat := 200
  /-- After so many looks at this screen the next one follows by itself. -/
  leaveAfter : Option Nat := none
  /-- The screens that some of the buttons and touches lead to. -/
  leads : List (String × Int) := []
  deriving Repr

structure ApduAnswer where
  content : Bytes
  status : Nat := 200
  /-- The command leads to this screen. -/
  leadsTo : Option Int := none
  /-- The answer is held back until this screen is shown. -/
  heldUntil : Option Nat := none
  deriving Repr

end Replica

open Replica

/-- A device that is a list of screens, with a clock and files of its own. Touches and buttons lead from screen to
screen. -/
structure Replica where
  screens : List Screen
  shown : Nat := 0
  /-- How often the screen has been looked at. -/
  looks : Nat := 0
  answers : List ApduAnswer := []
  held : Option ApduAnswer := none
  /-- The inputs and the commands received, in reverse. -/
  inputs : List String := []
  commands : List Bytes := []
  clock : Nat := 0
  tree : Files.Tree := {}
  scratch : String := "scratch"
  /-- Its services can be reached. -/
  reachable : Bool := true
  /-- The program of the emulator, and how its process ended if it has. -/
  binary : String := "speculos"
  ended : Option Program.ExitStatus := none
  /-- The arguments that the process was started with. -/
  arguments : Option (List String) := none
  nextPort : Nat := 5000

namespace Replica

def blank : Screen := { events := [], png := [] }

def screen (r : Replica) : Screen := (r.screens[r.shown]?).getD blank

def goTo (r : Replica) (index : Int) : Replica :=
  { r with shown := min index.toNat (r.screens.length - 1), looks := 0 }

/-- One look at the screen, which may be the last one before the screen goes on by itself. -/
def look (r : Replica) : Replica :=
  let r := { r with looks := r.looks + 1 }
  if r.screen.leaveAfter = some r.looks then r.goTo (r.shown + 1) else r

def respond (status : Nat) (content : Bytes) : Web.Response :=
  if status < 400 then .body content else .refused status

/-- An input leads to another screen, as the screen says or else by so much. -/
def act (r : Replica) (name note : String) (usual : Int) : Replica :=
  { r with inputs := note :: r.inputs }.goTo ((r.screen.leads.lookup name).getD usual)

def buttonTarget (r : Replica) : Button → Int
  | .left => r.shown - 1
  | .right => r.shown + 1
  | .both => 0

def touchTarget (r : Replica) : Touch → Int
  | .press => r.shown
  | .release => r.shown + 1
  | .tap => r.shown + 1

/-- The answer that is due, unless it is held back. -/
def release (r : Replica) : Option Web.Response × Replica :=
  match r.held with
  | none => (some (.refused 503), r)
  | some a =>
    if a.heldUntil.all (· = r.shown) then (some (respond a.status a.content), { r with held := none })
    else (none, r)

def apdu (r : Replica) (command : Bytes) : Option Web.Response × Replica :=
  match r.held with
  | some _ => r.release
  | none =>
    let r := { r with commands := command :: r.commands }
    match r.answers with
    | [] => (some (.refused 503), r)
    | a :: rest =>
      let r := { r with answers := rest, held := some a }
      match a.leadsTo with
      | some index => (r.goTo index).release
      | none => r.release

def press (r : Replica) (b : Button) : Replica :=
  r.act b.name ("button " ++ b.name ++ " " ++ Touch.tap.name) (r.buttonTarget b)

def touch (r : Replica) (t : Touch) (p : Point) : Replica :=
  r.act t.name ("finger " ++ t.name ++ " " ++ toString p.x.toNat ++ " " ++ toString p.y.toNat) (r.touchTarget t)

/-- The services answer with the status that the screen has for them, and act all the same. -/
def call (r : Replica) : Call → Option Web.Response × Replica
  | .events => (some (respond r.screen.eventsStatus r.screen.events), r.look)
  | .screenshot => (some (respond r.screen.pngStatus r.screen.png), r.look)
  | .button b => (some (respond r.screen.buttonStatus []), r.press b)
  | .finger t p => (some (respond r.screen.fingerStatus []), r.touch t p)
  | .apdu command => r.apdu command

/-- Any other program than the emulator's ends at once. -/
def spawn (r : Replica) (binary : String) (arguments : List String) : Except Files.OsError Unit × Replica :=
  let started := { r with arguments := some arguments }
  if binary = r.binary then
    match Program.Machine.argumentFault? (binary :: arguments) with
    | some cause => (.error cause, r)
    | none => (.ok (), started)
  else
    match Program.Simulated.run ⟨binary, arguments, []⟩ with
    | .notStarted cause => (.error cause, r)
    | .ended status _ _ _ => (.ok (), { started with ended := some status })

def reply : (q : Ask) → Replica → Option (Reply q) × Replica
  | .call _ c, r => if r.reachable then r.call c else (some (.unreachable "Connection refused"), r)
  | .now, r => (some r.clock, r)
  | .sleep ms, r => (some (), { r with clock := r.clock + ms })
  | .files ask, r =>
    let (answer, tree) := r.tree.reply r.scratch ask
    (some answer, { r with tree := tree })
  | .freePort, r => (some (.ok r.nextPort), { r with nextPort := r.nextPort + 1 })
  | .spawn binary arguments, r =>
    let (answer, r) := r.spawn binary arguments
    (some answer, r)
  | .ended, r => (some (.ok r.ended), r)
  | .kill, r => (some (.ok ()), r)

/-- Time passes only where the program sleeps or waits, and each wait takes some. -/
def world : Dialogue.World Ask Reply Nat Replica := ⟨reply, fun ms r => { r with clock := r.clock + max ms 1 }⟩

end Replica

end SignerBench.Emulator
