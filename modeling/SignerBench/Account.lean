import SignerBench.Bytes.Basic
import SignerBench.Text.Basic
import SignerBench.Text.Quoted

namespace SignerBench.Account

structure AddressIndex where
  account : UInt32
  /-- Picks one of the account's randomized addresses. -/
  randomizer : Option (Block 12)
  deriving DecidableEq, Repr

/-- The account, a flag, and the randomizer or as many zeros. -/
def AddressIndex.bytes (i : AddressIndex) : Bytes :=
  Bytes.le32 i.account ++ match i.randomizer with
    | some r => 1 :: r.val
    | none => 0 :: (Block.zero 12).val

@[simp] theorem AddressIndex.length_bytes (i : AddressIndex) : i.bytes.length = 17 := by
  obtain ⟨account, _ | r⟩ := i
  · rfl
  · simp [bytes, r.property]

def hardened : UInt32 := 0x80000000

def coinType : UInt32 := 6532

structure Path where
  purpose : UInt32
  coin : UInt32
  account : UInt32
  deriving DecidableEq, Repr

inductive PathError where
  | missingRoot
  | wrongLength (found : Nat)
  | notHardened (component : String)
  | invalidIndex (component : String)
  deriving DecidableEq, Repr

def PathError.message : PathError → String
  | .missingRoot => "path must start with \"m/\""
  | .wrongLength found => "expected 3 components, found " ++ toString found
  | .notHardened component => "component " ++ Text.quote component ++ " is not hardened"
  | .invalidIndex component => "component " ++ Text.quote component ++ " is not a valid index"

namespace Path

def components (p : Path) : List UInt32 := [p.purpose, p.coin, p.account]

def forAccount (account : UInt32) : Path := ⟨hardened ||| 44, hardened ||| coinType, hardened ||| account⟩

def bytes (p : Path) : Bytes := p.components.flatMap Bytes.le32

@[simp] theorem length_bytes (p : Path) : p.bytes.length = 12 := rfl

def stripMark (component : List Char) : Option (List Char) :=
  match component.reverse with
  | c :: rest => if c = '\x27' ∨ c = 'h' then some rest.reverse else none
  | [] => none

def readComponent (component : List Char) : Except PathError UInt32 :=
  match stripMark component with
  | none => .error (.notHardened (String.ofList component))
  | some digits =>
    match Text.number? digits with
    | some n =>
      if n < 0x80000000 then .ok (hardened ||| UInt32.ofNat n)
      else .error (.invalidIndex (String.ofList component))
    | none => .error (.invalidIndex (String.ofList component))

def parse (s : String) : Except PathError Path :=
  match s.toList with
  | 'm' :: '/' :: rest =>
    match Text.pieces '/' rest with
    | [a, b, c] => do
      let purpose ← readComponent a
      let coin ← readComponent b
      let account ← readComponent c
      return ⟨purpose, coin, account⟩
    | parts => .error (.wrongLength parts.length)
  | _ => .error .missingRoot

/-- Every component is written as a hardened one. -/
def toText (p : Path) : String :=
  "m" ++ String.join (p.components.map fun c => "/" ++ toString (c &&& ~~~hardened).toNat ++ "'")

end Path

end SignerBench.Account
