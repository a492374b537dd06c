import SignerBench.App.Error
import SignerBench.Bytes.Basic

namespace SignerBench.App

structure Version where
  mode : UInt8
  major : UInt16
  minor : UInt16
  patch : UInt16
  locked : Bool
  targetId : Bytes
  deriving DecidableEq, Repr

/-- The numbers have one byte or two bytes each. A lock flag and a target may follow. -/
def Version.ofBytes? (data : Bytes) : Option Version :=
  let narrow (b : UInt8) : UInt16 := b.toUInt16
  match data with
  | [mode, a, b, c] => some ⟨mode, narrow a, narrow b, narrow c, false, [0, 0, 0, 0]⟩
  | [mode, a, b, c, lock, t₁, t₂, t₃, t₄] =>
    some ⟨mode, narrow a, narrow b, narrow c, lock != 0, [t₁, t₂, t₃, t₄]⟩
  | [mode, a₁, a₂, b₁, b₂, c₁, c₂] =>
    some ⟨mode, Bytes.word16 a₂ a₁, Bytes.word16 b₂ b₁, Bytes.word16 c₂ c₁, false, [0, 0, 0, 0]⟩
  | [mode, a₁, a₂, b₁, b₂, c₁, c₂, lock, t₁, t₂, t₃, t₄] =>
    some ⟨mode, Bytes.word16 a₂ a₁, Bytes.word16 b₂ b₁, Bytes.word16 c₂ c₁, lock != 0, [t₁, t₂, t₃, t₄]⟩
  | _ => none

structure AppInfo where
  name : String
  version : String
  flagLength : UInt8
  flags : UInt8
  deriving DecidableEq, Repr

def AppInfo.has (i : AppInfo) (flag : UInt8) : Bool := i.flags &&& flag != 0

def AppInfo.recovery (i : AppInfo) : Bool := i.has 1
def AppInfo.signedMcu (i : AppInfo) : Bool := i.has 2
def AppInfo.onboarded (i : AppInfo) : Bool := i.has 4
def AppInfo.pinValidated (i : AppInfo) : Bool := i.has 128

structure DeviceInfo where
  targetId : Bytes
  seVersion : String
  flag : Bytes
  mcuVersion : String
  deriving DecidableEq, Repr

/-- A field behind its length byte, and what follows it. -/
def takeField (b : Bytes) : Option (Bytes × Bytes) :=
  match b with
  | n :: rest => if n.toNat ≤ rest.length then some (rest.take n.toNat, rest.drop n.toNat) else none
  | [] => none

def readText {ε : Type} (b : Bytes) : Except (Error ε) String :=
  match Bytes.toText? b with
  | some s => .ok s
  | none => .error .text

/-- The name's length counts the two bytes in front of the name, though the version begins that many bytes behind
the name's start. -/
def AppInfo.ofBytes {ε : Type} (data : Bytes) : Except (Error ε) AppInfo :=
  match data with
  | [] => .error .cutShort
  | format :: rest =>
    if format ≠ 1 then .error .format
    else match rest with
      | [] => .error .cutShort
      | n :: rest =>
        if n.toNat < 2 ∨ rest.length < n.toNat then .error .cutShort
        else match takeField (rest.drop n.toNat) with
          | some (version, flagLength :: flags :: _) => do
            let name ← readText (rest.take (n.toNat - 2))
            let version ← readText version
            return ⟨name, version, flagLength, flags⟩
          | _ => .error .cutShort

/-- One zero byte at the end of the controller's version is no part of it. -/
def dropLastZero (b : Bytes) : Option Bytes :=
  match b.reverse with
  | [] => none
  | last :: rest => if last = 0 then some rest.reverse else some b

def DeviceInfo.ofBytes {ε : Type} (data : Bytes) : Except (Error ε) DeviceInfo :=
  match data with
  | t₁ :: t₂ :: t₃ :: t₄ :: rest =>
    let fields := do
      let (seVersion, rest) ← takeField rest
      let (flag, rest) ← takeField rest
      let (mcuVersion, _) ← takeField rest
      let mcuVersion ← dropLastZero mcuVersion
      return (seVersion, flag, mcuVersion)
    match fields with
    | none => .error .cutShort
    | some (seVersion, flag, mcuVersion) => do
      let seVersion ← readText seVersion
      let mcuVersion ← readText mcuVersion
      return ⟨[t₁, t₂, t₃, t₄], seVersion, flag, mcuVersion⟩
  | _ => .error .cutShort

end SignerBench.App
