import SignerBench.Text.LetterCase
import SignerBench.Text.Quoted

namespace SignerBench.Device

structure Point where
  x : UInt32
  y : UInt32
  deriving DecidableEq, Repr

/-- The places of a touch screen that lead on, back, to the app's information, and to approval. -/
structure TouchLayout where
  next : Point
  back : Point
  info : Point
  confirm : Point
  deriving DecidableEq, Repr

inductive Kind where
  | nanoX
  | nanoSP
  | stax
  | flex
  deriving DecidableEq, Repr

namespace Kind

def all : List Kind := [nanoX, nanoSP, stax, flex]

def name : Kind → String
  | nanoX => "nanox"
  | nanoSP => "nanosp"
  | stax => "stax"
  | flex => "flex"

def ofName (s : String) : Except String Kind :=
  match all.find? (·.name = s) with
  | some k => .ok k
  | none => .error ("unknown device model " ++ Text.quote s)

/-- Devices without a touch screen have two buttons. -/
def layout? : Kind → Option TouchLayout
  | nanoX => none
  | nanoSP => none
  | stax => some ⟨⟨335, 606⟩, ⟨36, 606⟩, ⟨335, 35⟩, ⟨335, 606⟩⟩
  | flex => some ⟨⟨430, 550⟩, ⟨55, 550⟩, ⟨405, 75⟩, ⟨420, 525⟩⟩

def isTouch (k : Kind) : Bool := k.layout?.isSome

end Kind

structure Model where
  kind : Kind
  /-- Begins the names of the device's snapshots. -/
  tag : String
  elf : String
  deriving Repr

def Model.snapshotName (m : Model) (test : String) : String := Text.lowercase m.tag ++ "-" ++ test

inductive Button where
  | left
  | right
  | both
  deriving DecidableEq, Repr

def Button.name : Button → String
  | .left => "left"
  | .right => "right"
  | .both => "both"

inductive Step where
  | click (button : Button)
  | tap (place : Point)
  | hold (place : Point) (ms : Nat)
  deriving DecidableEq, Repr

/-- Forward one page, open and close the information, go to the last entry and back to the first. -/
def mainMenuCounts : List Int := [1, 0, 0, 4, -5]

/-- So many clicks to the right, or to the left for a count below zero; both buttons for zero. -/
def clicks (n : Int) : List Step :=
  if n = 0 then [.click .both]
  else List.replicate n.natAbs (.click (if 0 < n then .right else .left))

/-- On a touch screen the walk opens the information, pages through it once, and goes back. -/
def mainMenuSchedule (kind : Kind) (counts : List Int) : List Step :=
  match kind.layout? with
  | some layout => [.tap layout.info, .tap layout.next, .tap layout.back]
  | none => counts.flatMap clicks

end SignerBench.Device
