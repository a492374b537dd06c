import SignerBench.Bytes.Hex

namespace SignerBench.Base64

def value? (c : Char) : Option Nat :=
  if 'A' ≤ c ∧ c ≤ 'Z' then some (c.toNat - 65)
  else if 'a' ≤ c ∧ c ≤ 'z' then some (c.toNat - 71)
  else if '0' ≤ c ∧ c ≤ '9' then some (c.toNat + 4)
  else if c = '+' then some 62
  else if c = '/' then some 63
  else none

def number? (a b c d : Char) : Option Nat := do
  return (((← value? a) * 64 + (← value? b)) * 64 + (← value? c)) * 64 + (← value? d)

def threeBytes (n : Nat) : Bytes := [UInt8.ofNat (n / 65536), UInt8.ofNat (n / 256 % 256), UInt8.ofNat (n % 256)]

/-- The bytes of a last group that is padded. The bits in front of the padding that fill no byte have to be zero. -/
def readLast (a b c : Char) : Option Bytes :=
  if c = '=' then (number? a b 'A' 'A').bind fun n => if n % 65536 = 0 then some ((threeBytes n).take 1) else none
  else (number? a b c 'A').bind fun n => if n % 256 = 0 then some ((threeBytes n).take 2) else none

def readGroups : List Char → Option Bytes
  | [] => some []
  | a :: b :: c :: d :: rest =>
    if d = '=' then if rest = [] then readLast a b c else none
    else do
      let n ← number? a b c d
      let more ← readGroups rest
      return threeBytes n ++ more
  | _ => none

def decode (text : String) : Option Bytes := readGroups text.toList

variable {a b c : UInt8} {n : Nat}

/-- The 64 signs are told apart. -/
theorem value?_sign (small : n < 64) : value? (sign n) = some n := by
  have all : ∀ n < 64, value? (sign n) = some n := by decide
  exact all n small

/-- The padding is none of them. -/
theorem sign_ne (small : n < 64) : sign n ≠ '=' := by
  intro padding
  have value := value?_sign small
  rw [padding] at value
  cases value

def combined (a b c : UInt8) : Nat := a.toNat * 65536 + b.toNat * 256 + c.toNat

theorem combined_lt (a b c : UInt8) : combined a b c < 16777216 := by
  have ha := a.toNat_lt
  have hb := b.toNat_lt
  have hc := c.toNat_lt
  unfold combined
  omega

/-- The bytes of a number of 24 bits are those that it was made of. -/
theorem threeBytes_combined (a b c : UInt8) : threeBytes (combined a b c) = [a, b, c] := by
  have hb := b.toNat_lt
  have hc := c.toNat_lt
  have first : combined a b c / 65536 = a.toNat := by unfold combined; omega
  have second : combined a b c / 256 % 256 = b.toNat := by unfold combined; omega
  have third : combined a b c % 256 = c.toNat := by unfold combined; omega
  rw [threeBytes, first, second, third, UInt8.ofNat_toNat, UInt8.ofNat_toNat, UInt8.ofNat_toNat]

def signs (n : Nat) : List Char := [sign (n / 262144), sign (n / 4096 % 64), sign (n / 64 % 64), sign (n % 64)]

theorem group_eq (a b c : UInt8) : group a b c = signs (combined a b c) := rfl

theorem number?_signs (small : n < 16777216) :
    number? (sign (n / 262144)) (sign (n / 4096 % 64)) (sign (n / 64 % 64)) (sign (n % 64)) = some n := by
  have whole : ((n / 262144 * 64 + n / 4096 % 64) * 64 + n / 64 % 64) * 64 + n % 64 = n := by omega
  simp only [number?, value?_sign (show n / 262144 < 64 by omega), value?_sign (Nat.mod_lt _ (by decide : 0 < 64))]
  exact congrArg some whole

def groups : Bytes → List Char
  | a :: b :: c :: rest => group a b c ++ groups rest
  | [a, b] => (group a b 0).take 3 ++ ['=']
  | [a] => (group a 0 0).take 2 ++ ['=', '=']
  | [] => []

/-- The signs written so far stand in front, whatever follows. -/
theorem writeGroups_eq (done : List Char) (bytes : Bytes) : writeGroups done bytes = done.reverse ++ groups bytes := by
  induction done, bytes using writeGroups.induct with
  | case1 done a b c rest ih => simp [writeGroups, groups, ih]
  | case2 done a b => simp [writeGroups, groups]
  | case3 done a => simp [writeGroups, groups]
  | case4 done => simp [writeGroups, groups]

/-- The induction takes three bytes at a time. The last group has one byte, two, or none. -/
theorem readGroups_groups (bytes : Bytes) : readGroups (groups bytes) = some bytes := by
  induction bytes using groups.induct with
  | case1 a b c rest ih =>
    have last : sign (combined a b c % 64) ≠ '=' := sign_ne (Nat.mod_lt _ (by decide))
    rw [groups, group_eq, signs]
    simp only [List.cons_append, List.nil_append]
    rw [readGroups, if_neg last, number?_signs (combined_lt a b c), ih]
    exact congrArg (fun bytes => some (bytes ++ rest)) (threeBytes_combined a b c)
  | case2 a b =>
    have zero : combined a b 0 % 256 = 0 := by unfold combined; simp; omega
    have third : sign (combined a b 0 / 64 % 64) ≠ '=' := sign_ne (Nat.mod_lt _ (by decide))
    have fourth : 'A' = sign (combined a b 0 % 64) := by
      rw [show combined a b 0 % 64 = 0 by omega]
      rfl
    rw [groups, group_eq, signs]
    simp only [List.take, List.cons_append, List.nil_append]
    rw [readGroups, if_pos rfl, if_pos rfl, readLast, if_neg third, fourth, number?_signs (combined_lt a b 0),
      Option.bind_some, if_pos zero, threeBytes_combined]
    rfl
  | case3 a =>
    have zero : combined a 0 0 % 65536 = 0 := by unfold combined; simp
    have third : 'A' = sign (combined a 0 0 / 64 % 64) := by
      rw [show combined a 0 0 / 64 % 64 = 0 by omega]
      rfl
    have fourth : 'A' = sign (combined a 0 0 % 64) := by
      rw [show combined a 0 0 % 64 = 0 by omega]
      rfl
    have whole := number?_signs (combined_lt a 0 0)
    rw [← third, ← fourth] at whole
    rw [groups, group_eq, signs]
    simp only [List.take, List.cons_append, List.nil_append]
    rw [readGroups, if_pos rfl, if_pos rfl, readLast, if_pos rfl, whole, Option.bind_some, if_pos zero,
      threeBytes_combined]
    rfl
  | case4 => rfl

/-- Every byte string is read back from its text. -/
theorem decode_encode (bytes : Bytes) : decode (encode bytes) = some bytes := by
  rw [decode, encode, String.toList_ofList, writeGroups_eq, List.reverse_nil, List.nil_append, readGroups_groups]

/-- The text is empty where there are no bytes, and nowhere else. -/
theorem encode_eq_empty_iff {bytes : Bytes} : encode bytes = "" ↔ bytes = [] := by
  constructor
  · intro empty
    have read := decode_encode bytes
    rw [empty] at read
    exact (Option.some.inj read).symm
  · rintro rfl
    rfl

end SignerBench.Base64
