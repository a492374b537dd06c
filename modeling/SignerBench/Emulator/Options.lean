import SignerBench.Device
import SignerBench.Outside

namespace SignerBench.Emulator

/-- How a touch screen is told to approve once the approve keyword is shown. -/
inductive ApproveAction where
  /-- Hold the place of the layout that confirms. -/
  | holdConfirm
  /-- Tap the element with the keyword. -/
  | tapKeyword
  deriving DecidableEq, Repr

/-- Times are milliseconds, as naturals. A system counts its time up to 2 ^ 63 seconds, and aborts on a deadline beyond
that; here a deadline has no bound. -/
structure Options where
  /-- The words that the device's keys are derived from. -/
  seed : String := ""
  device : Device.Kind := .nanoSP
  logging : Bool := true
  /-- Open a window. -/
  window : Bool := false
  /-- Further arguments for the emulator. -/
  custom : List String := []
  approveKeyword? : Option String := none
  startText? : Option String := none
  approveAction : ApproveAction := .holdConfirm
  approveHold : Nat := 3000
  /-- Bounds the time until the home screen is shown. -/
  startTimeout : Nat := 20000
  /-- Bounds each wait for a screen. -/
  screenTimeout : Nat := 20000
  pollInterval : Nat := 100
  /-- How many screens of a review are looked at for the approve keyword. -/
  maxReviewScreens : Nat := 100
  binary? : Option String := none
  deriving Repr

namespace Options

def binary (o : Options) (env : Environment) : String :=
  (o.binary?.or (env "SPECULOS_BIN")).getD "speculos"

/-- The text that marks the screen on which a review is approved. -/
def approveKeyword (o : Options) : String :=
  o.approveKeyword?.getD (if o.device.isTouch then "Hold to sign" else "APPROVE")

/-- The text that the home screen shows once the app runs. -/
def startText (o : Options) : String :=
  o.startText?.getD (if o.device.isTouch then "This application enables" else "ready")

end Options

end SignerBench.Emulator
