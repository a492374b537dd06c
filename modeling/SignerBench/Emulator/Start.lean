import SignerBench.Emulator.Session

namespace SignerBench.Emulator

/-- The arguments of the emulator, of which the app comes last. -/
def Options.arguments (o : Options) (apiPort apduPort : Nat) (elf : String) : List String :=
  ["--model", o.device.name, "--display", if o.window then "qt" else "headless", "--api-port", toString apiPort,
    "--apdu-port", toString apduPort] ++
    (if o.seed = "" then [] else ["--seed", o.seed]) ++ o.custom ++ [elf]

namespace Session

/-- Waits until the emulator answers, which a process that has ended never does. -/
def waitForAnswer (s : Session) (deadline : Nat) : Work Unit :=
  s.poll deadline (.startTimeout s.options.startTimeout) do
    if s.owned then
      match ← Work.ended with
      | some status => throw (.process (.endedEarly status))
      | none => pure ()
    match ← ExceptT.lift s.events.run with
    | .ok _ => return some ()
    | .error _ => return none

/-- Waits for the home screen, for which one deadline bounds all, and takes its snapshot. -/
def waitReady (s : Session) : Work Session := do
  let start ← Work.now
  let deadline := start + s.options.startTimeout
  s.waitForAnswer deadline
  s.waitForTextUntil s.options.startText deadline s.options.startTimeout
  let home ← s.snapshot
  return { s with mainMenu := some home }

def attach (address : String) (o : Options) : Work Session := waitReady ⟨o, Web.base address, none, false⟩

def start (env : Environment) (elf : String) (o : Options) : Work Session := do
  unless ← Work.isFile elf do throw (.missingElf elf)
  let apiPort ← Work.freePort
  let apduPort ← Work.freePort
  Work.spawn (o.binary env) (o.arguments apiPort apduPort elf)
  waitReady ⟨o, Web.base (Web.ofPort apiPort), none, true⟩

/-- Ends the emulator if it is ours. -/
def close (s : Session) : Work Unit := if s.owned then Work.kill else pure ()

end Session

end SignerBench.Emulator
