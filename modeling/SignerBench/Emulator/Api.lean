import SignerBench.Apdu
import SignerBench.Device
import SignerBench.Emulator.Error
import SignerBench.Json.Printer
import SignerBench.Json.Record
import SignerBench.Outside

namespace SignerBench.Emulator

open Device Json

/-- A piece of text on the screen, and the box that it stands in. -/
structure Element where
  text : String
  x : UInt32
  y : UInt32
  w : UInt32
  h : UInt32
  deriving DecidableEq, Repr

inductive Touch where
  | press
  | release
  | tap
  deriving DecidableEq, Repr

def Touch.name : Touch → String
  | .press => "press"
  | .release => "release"
  | .tap => "press-and-release"

inductive Call where
  | events
  | screenshot
  | button (button : Button)
  | finger (touch : Touch) (place : Point)
  /-- A command to the app. -/
  | apdu (command : Bytes)
  deriving DecidableEq, Repr

namespace Call

/-- The service, as it is addressed behind the address of the emulator. -/
def target : Call → String
  | .events => "/events?currentscreenonly=true"
  | .screenshot => "/screenshot"
  | .button b => "/button/" ++ b.name
  | .finger _ _ => "/finger"
  | .apdu _ => "/apdu"

/-- What is posted with the call, or nothing where it only asks. -/
def body : Call → Option Json
  | .events => none
  | .screenshot => none
  | .button _ => some (.object [("action", .text Touch.tap.name)])
  | .finger touch place =>
    some (.object [("action", .text touch.name), ("x", .ofNat place.x.toNat), ("y", .ofNat place.y.toNat)])
  | .apdu command => some (.object [("data", .text (Hex.encode command))])

/-- The content of the emulator's response to a call. -/
def content (base : String) (c : Call) : Web.Response → Except Error Bytes
  | .body content => .ok content
  | .refused status => .error (.api (.refused (base ++ c.target) status))
  | .unreachable reason => .error (.api (.unreachable reason))

end Call

namespace Element

/-- A number of the box, zero where it is missing. -/
def side (name : String) : Json.Field UInt32 := { Field.word32 name with fallback := some 0 }

def record : Record [String, UInt32, UInt32, UInt32, UInt32] where
  name := "ScreenEvent"
  fields := .cons (.text "text") (.cons (side "x") (.cons (side "y") (.cons (side "w") (.cons (side "h") .nil))))

def read (room : Nat) (d : Draft) : Read Element :=
  (record.read room d).map fun (text, x, y, w, h, ()) => ⟨text, x, y, w, h⟩

def toJson (e : Element) : Json := record.write (e.text, e.x, e.y, e.w, e.h, ())

/-- The middle of the box, if it is a place that can be touched. -/
def middle? (e : Element) : Option Point :=
  if e.x.toNat + e.w.toNat / 2 < UInt32.size ∧ e.y.toNat + e.h.toNat / 2 < UInt32.size then
    some ⟨e.x + e.w / 2, e.y + e.h / 2⟩
  else none

end Element

def screenRecord : Record [List Element] where
  name := "Events"
  fields := .cons ⟨"events", Draft.readList Element.read, fun es => .array (es.map Element.toJson), none⟩ .nil

def apduRecord : Record [String] where
  name := "ApduReply"
  fields := .cons (.text "data") .nil

def readScreen (content : Bytes) : Except Error (List Element) :=
  match readBytes screenRecord.read content with
  | .ok (elements, ()) => .ok elements
  | .error e => .error (.reply e)

def readAnswer (content : Bytes) : Except Error Apdu.Answer :=
  match readBytes apduRecord.read content with
  | .error e => .error (.reply e)
  | .ok (data, ()) =>
    match Hex.decode data with
    | .error e => .error (.hex e)
    | .ok b =>
      match Apdu.Answer.ofBytes? b with
      | some a => .ok a
      | none => .error .invalidAnswer

end SignerBench.Emulator
