import SignerBench.Proofs.JsonWords

namespace SignerBench

namespace Decimal

variable {i : Interval} {s : Scientific} {p : Nat}

theorem scale_pos {num den : Nat} (pos : 0 < den) (e : Int) : 0 < (scale num den e).2 := by
  unfold scale
  split
  · exact pos
  · exact Nat.mul_pos pos (Nat.pow_pos (by decide))

/-- Zero is not among the numbers of an interval above zero. -/
theorem digits_of_holds (low : 0 < i.low) (h : i.holds s = true) : s.digits ≠ 0 := by
  intro hzero
  have hden : 0 < (scale s.digits 1 s.exponent).2 := scale_pos Nat.one_pos s.exponent
  have hlow := Nat.mul_pos low hden
  have hnum : (scale s.digits 1 s.exponent).1 = 0 := by
    unfold scale
    rw [hzero]
    split
    · exact Nat.zero_mul _
    · rfl
  unfold Interval.holds at h
  simp only [hnum, Nat.zero_mul] at h
  split at h
  · simp only [Bool.and_eq_true, decide_eq_true_eq] at h
    omega
  · simp only [Bool.and_eq_true, decide_eq_true_eq] at h
    omega

theorem digits_of_onGrid {e : Int} (low : 0 < i.low) (h : i.onGrid e = some s) : s.digits ≠ 0 := by
  unfold Interval.onGrid at h
  dsimp only at h
  split at h
  case h_1 hdown hup =>
    cases h
    split
    · exact digits_of_holds low hdown
    · exact digits_of_holds low hup
  case h_2 hdown _ =>
    cases h
    exact digits_of_holds low hdown
  case h_3 _ hup =>
    cases h
    exact digits_of_holds low hup
  case h_4 => cases h

theorem digits_trim (room : Nat) (h : s.digits ≠ 0) : (s.trim room).digits ≠ 0 := by
  induction room generalizing s with
  | zero => exact h
  | succ room ih =>
    rw [Scientific.trim]
    split
    case isTrue hzero =>
      refine ih (s := ⟨s.digits / 10, s.exponent + 1⟩) ?_
      dsimp only
      omega
    case isFalse => exact h

theorem low_pos (h : p ≠ 0) : 0 < (Interval.ofPattern p).low := by
  have hsignificand : 1 ≤ Binary64.significand p := by
    unfold Binary64.significand Binary64.fractionUnit
    split <;> omega
  have hunit : 0 < 1 <<< Binary64.shift p := by
    rw [Nat.shiftLeft_eq, Nat.one_mul]
    exact Nat.two_pow_pos _
  refine Nat.mul_pos ?_ hunit
  split <;> omega

/-- The digits begin with a zero only where nothing is written behind them. -/
theorem shortest_digits (p : Nat) : (shortest p).digits ≠ 0 ∨ (shortest p).exponent = 0 := by
  unfold shortest
  split
  case isTrue => exact .inr rfl
  case isFalse h =>
    dsimp only
    split
    case h_1 s hs =>
      obtain ⟨n, _, hgrid⟩ := List.exists_of_findSome?_eq_some hs
      exact .inl (digits_trim 17 (digits_of_onGrid (low_pos h) hgrid))
    case h_2 => exact .inr rfl

end Decimal

namespace Json

variable {cs ds : List Char} {rest : Bytes} {negative : Bool} {m : Mantissa}

inductive Exponent : List Char → Prop where
  | none : Exponent []
  | signed {sign : Char} {ds : List Char} (mark : sign = '+' ∨ sign = '-') (some : ds ≠ [])
      (digits : ∀ c ∈ ds, c.isDigit) : Exponent ('e' :: sign :: ds)

inductive Tail : List Char → Prop where
  | whole {cs : List Char} (exponent : Exponent cs) : Tail cs
  | fraction {ds cs : List Char} (some : ds ≠ []) (digits : ∀ c ∈ ds, c.isDigit) (exponent : Exponent cs) :
      Tail ('.' :: (ds ++ cs))

inductive Unsigned : List Char → Prop where
  | mk {front tail : List Char} (first : Front front) (behind : Tail tail) : Unsigned (front ++ tail)

theorem digits_zeros (zeros : Nat) : ∀ c ∈ List.replicate zeros '0', c.isDigit := by
  intro c hc
  rw [List.eq_of_mem_replicate hc]
  rfl

theorem Front.ne_nil (front : Front cs) : cs ≠ [] := by
  cases front <;> exact List.cons_ne_nil _ _

theorem Front.zeros {n : Nat} (pos : n ≠ 0) (zeros : Nat) : Front (Nat.toDigits 10 n ++ List.replicate zeros '0') := by
  obtain ⟨c, ds, hds, hc⟩ := head_toDigits (Nat.pos_of_ne_zero pos)
  have hdigits := List.forall_mem_append.mpr ⟨isDigit_toDigits n, digits_zeros zeros⟩
  rw [hds] at hdigits ⊢
  exact .digits hc hdigits

theorem Front.take {k : Nat} (front : Front cs) (pos : 0 < k) : Front (cs.take k) := by
  obtain ⟨k, rfl⟩ := Nat.exists_eq_succ_of_ne_zero (Nat.ne_of_gt pos)
  cases front with
  | zero =>
    rw [List.take_succ_cons, List.take_nil]
    exact .zero
  | digits first all =>
    rw [List.take_succ_cons]
    exact .digits first fun d hd => all d (List.mem_of_mem_take (i := k + 1) hd)

theorem Tail.point (some : ds ≠ []) (digits : ∀ c ∈ ds, c.isDigit) : Tail ('.' :: ds) := by
  have hfraction := Tail.fraction some digits .none
  rwa [List.append_nil] at hfraction

/-- The layout of a number without a fraction, which is written with `.0` so that it stays a float. -/
theorem Unsigned.whole (front : Front cs) : Unsigned (cs ++ ['.', '0']) :=
  .mk front (.point (List.cons_ne_nil '0' []) (digits_zeros 1))

theorem Unsigned.broken {k : Nat} (front : Front cs) (pos : 0 < k) (inside : k < cs.length) :
    Unsigned (cs.take k ++ '.' :: cs.drop k) := by
  have hsome : cs.drop k ≠ [] := by
    rw [Ne, List.drop_eq_nil_iff]
    omega
  exact .mk (front.take pos) (.point hsome fun d hd => front.all d (List.mem_of_mem_drop hd))

theorem Unsigned.small (front : Front cs) (zeros : Nat) :
    Unsigned (['0'] ++ '.' :: (List.replicate zeros '0' ++ cs)) :=
  .mk .zero (.point (List.append_ne_nil_of_right_ne_nil _ front.ne_nil)
    (List.forall_mem_append.mpr ⟨digits_zeros zeros, front.all⟩))

/-- One digit in front, the others behind the point, and an exponent. -/
theorem Unsigned.scientific (front : Front cs) (exponent : Exponent ds) :
    Unsigned ((if cs.length = 1 then cs else cs.take 1 ++ '.' :: cs.drop 1) ++ ds) := by
  split
  case isTrue => exact .mk front (.whole exponent)
  case isFalse hmany =>
    have hsome : cs.drop 1 ≠ [] := by
      have hlength := List.length_pos_iff.mpr front.ne_nil
      rw [Ne, List.drop_eq_nil_iff]
      omega
    rw [List.append_assoc, List.cons_append]
    exact .mk (front.take Nat.one_pos) (.fraction hsome (fun d hd => front.all d (List.mem_of_mem_drop hd)) exponent)

theorem toList_toString (n : Nat) : (toString n).toList = Nat.toDigits 10 n := Nat.toList_repr

theorem exponent_toString (below : Prop) [Decidable below] (n : Nat) :
    Exponent ('e' :: ((if below then "-" else "+").toList ++ (toString n).toList)) := by
  have hdigits := isDigit_toDigits n
  have hsome : Nat.toDigits 10 n ≠ [] := Nat.toDigits_ne_nil
  rw [toList_toString]
  split
  · exact .signed (.inr rfl) hsome hdigits
  · exact .signed (.inl rfl) hsome hdigits

/-- What is written of a floating-point number has the form of a number in each layout, behind its sign. -/
theorem unsigned_floatText (x : Binary64) :
    ∃ cs, (floatText x).toList = sign x.negative ++ cs ∧ Unsigned cs := by
  have hleads := Decimal.shortest_digits x.pattern
  unfold floatText
  extract_lets s digits count point zeros mantissa exponent body
  have htext : digits.toList = Nat.toDigits 10 s.digits := toList_toString _
  have hfront : Front digits.toList := htext ▸ front_toDigits _
  have hcount : digits.toList.length = count := String.length_toList
  have hzeros (n : Nat) : (zeros n).toList = List.replicate n '0' := String.toList_ofList
  have hbody : Unsigned body.toList := by
    unfold body
    split
    case isTrue => exact .whole .zero
    split
    case isTrue =>
      -- Zeros stand only behind digits that begin with another one, or the number would begin with a zero.
      have hwhole : Front (digits.toList ++ List.replicate s.exponent.toNat '0') := by
        rcases hleads with leads | bare
        · rw [htext]
          exact .zeros leads _
        · have hbare : s.exponent = 0 := bare
          rw [hbare]
          simpa using hfront
      simpa [hzeros] using Unsigned.whole hwhole
    split
    case isTrue => simpa using Unsigned.broken hfront (k := point.toNat) (by omega) (by omega)
    split
    case isTrue => simpa [hzeros] using Unsigned.small hfront (-point).toNat
    case isFalse =>
      have hform := Unsigned.scientific hfront (exponent_toString (exponent < 0) exponent.natAbs)
      rw [hcount] at hform
      unfold mantissa
      split <;> simp_all
  refine ⟨body.toList, ?_, hbody⟩
  cases x.negative with
  | true => exact String.toList_append
  | false => rfl

theorem unsigned_toDigits (n : Nat) : Unsigned (Nat.toDigits 10 n) := by
  have hform := Unsigned.mk (front_toDigits n) (.whole .none)
  rwa [List.append_nil] at hform

theorem unsigned_numberText (n : Number) :
    ∃ negative cs, (numberText n).toList = sign negative ++ cs ∧ Unsigned cs := by
  cases n with
  | float x => exact ⟨x.negative, unsigned_floatText x⟩
  | integer n =>
    cases n with
    | ofNat n => exact ⟨false, _, toList_ofNat n, unsigned_toDigits n⟩
    | negSucc n => exact ⟨true, _, toList_negSucc n, unsigned_toDigits (n + 1)⟩

/-- These characters are taken as one scalar, whatever the number stops at. -/
def Scans (scan : Bytes → Scan) (cs : List Char) : Prop :=
  ∃ v, ∀ rest, Stops rest → scan (charBytes cs ++ rest) = ⟨.scalar v, rest⟩

def Mantissa.fractions (m : Mantissa) (digits : Bytes) : Mantissa :=
  digits.foldl (fun m b => m.fraction (digitValue b)) { m with full := false }

/-- The value depends on the digits, but where the number ends does not. -/
theorem scans_exponent {sign : Char} (mark : sign = '+' ∨ sign = '-') (some : ds ≠ []) (digits : ∀ c ∈ ds, c.isDigit) :
    Scans (scanExponent negative m) (sign :: ds) := by
  obtain ⟨c, ds, rfl⟩ := List.exists_cons_of_ne_nil some
  have hdigit := (isDigit_byte (digits c List.mem_cons_self)).1
  have hscan (down : Bool) (rest : Bytes) (stops : Stops rest) : (if isDigit (UInt8.ofNat c.toNat) then
      ⟨.scalar (m.withExponent negative down (UInt8.ofNat c.toNat :: (charBytes ds ++ rest).takeWhile isDigit)),
        (charBytes ds ++ rest).dropWhile isDigit⟩
      else ⟨.broken .misplaced .misplaced, []⟩) =
        (⟨.scalar (m.withExponent negative down (UInt8.ofNat c.toNat :: charBytes ds)), rest⟩ : Scan) := by
    obtain ⟨htake, hdrop⟩ := span_digits (fun d hd => digits d (List.mem_cons_of_mem c hd)) fun b hb => (stops b hb).1
    rw [hdigit, htake, hdrop]
    rfl
  unfold Scans
  rw [charBytes_cons, charBytes_digit digits]
  rcases mark with rfl | rfl
  · exact ⟨_, hscan false⟩
  · exact ⟨_, hscan true⟩

theorem scanFraction_whole (some : ds ≠ []) (digits : ∀ c ∈ ds, c.isDigit) (stops : Stops rest) :
    scanFraction negative m (charBytes ds ++ rest) = ⟨.scalar ((m.fractions (charBytes ds)).float negative), rest⟩ := by
  obtain ⟨c, ds, rfl⟩ := List.exists_cons_of_ne_nil some
  obtain ⟨htake, hdrop⟩ := span_digits digits fun b hb => (stops b hb).1
  rw [charBytes_digit digits, List.cons_append] at htake hdrop ⊢
  rw [scanFraction, if_pos (isDigit_byte (digits c List.mem_cons_self)).1, htake, hdrop]
  cases rest with
  | nil => rfl
  | cons b rest => exact if_neg (ne_true_of_eq_false (stops b rfl).2.2)

theorem scanFraction_exponent (some : ds ≠ []) (digits : ∀ c ∈ ds, c.isDigit) (rest : Bytes) :
    scanFraction negative m (charBytes ds ++ byte 'e' :: rest) =
      scanExponent negative (m.fractions (charBytes ds)) rest := by
  obtain ⟨c, ds, rfl⟩ := List.exists_cons_of_ne_nil some
  have hends : ∀ b ∈ (byte 'e' :: rest).head?, isDigit b = false := by
    rintro b ⟨⟩
    rfl
  obtain ⟨htake, hdrop⟩ := span_digits digits hends
  rw [charBytes_digit digits, List.cons_append] at htake hdrop ⊢
  rw [scanFraction, if_pos (isDigit_byte (digits c List.mem_cons_self)).1, htake, hdrop]
  rfl

theorem scans_fraction (some : ds ≠ []) (digits : ∀ c ∈ ds, c.isDigit) (exponent : Exponent cs) :
    Scans (scanFraction negative m) (ds ++ cs) := by
  cases exponent with
  | none =>
    rw [List.append_nil]
    exact ⟨_, fun rest stops => scanFraction_whole some digits stops⟩
  | @signed sign es mark some' digits' =>
    obtain ⟨v, hv⟩ : Scans (scanExponent negative (m.fractions (charBytes ds))) (sign :: es) :=
      scans_exponent mark some' digits'
    refine ⟨v, fun rest stops => ?_⟩
    rw [charBytes_append, List.append_assoc, ← hv rest stops]
    exact scanFraction_exponent some digits _

theorem scans_tail (tail : Tail cs) : Scans (scanTail negative m) cs := by
  cases tail with
  | whole exponent =>
    cases exponent with
    | none => exact ⟨_, fun rest stops => scanTail_stops stops negative m⟩
    | signed mark some digits => exact scans_exponent mark some digits
  | fraction some digits exponent => exact scans_fraction some digits exponent

/-- Nothing that stands behind the first digits is a digit. -/
theorem Tail.ends (tail : Tail cs) (stops : Stops rest) : ∀ b ∈ (charBytes cs ++ rest).head?, isDigit b = false := by
  cases tail with
  | whole exponent =>
    cases exponent with
    | none => exact fun b hb => (stops b hb).1
    | signed =>
      rintro b ⟨⟩
      rfl
  | fraction =>
    rintro b ⟨⟩
    rfl

/-- However a number is laid out, the scanner takes it whole. -/
theorem scans_unsigned (form : Unsigned cs) : Scans (scanNumber negative) cs := by
  obtain ⟨front, tail⟩ := form
  obtain ⟨v, hv⟩ := scans_tail tail
  refine ⟨v, fun rest stops => ?_⟩
  rw [charBytes_append, List.append_assoc, scanNumber_front front (tail.ends stops)]
  exact hv rest stops

theorem Unsigned.charBytes_eq (form : Unsigned cs) : ∃ b r, charBytes cs = b :: r ∧ isDigit b = true := by
  obtain ⟨front, _⟩ := form
  obtain ⟨b, r, hbytes, hdigit⟩ := front.charBytes_eq
  rw [charBytes_append, hbytes]
  exact ⟨b, _, rfl, hdigit⟩

/-- The text of any number is one word. -/
theorem spells_anyNumber (n : Number) : ∃ v, Spells (numberText n).toList [.scalar v] Stops := by
  obtain ⟨negative, cs, htext, form⟩ := unsigned_numberText n
  obtain ⟨v, hv⟩ : Scans (scanNumber negative) cs := scans_unsigned form
  rw [htext]
  exact ⟨v, spells_signed form.charBytes_eq hv⟩

end Json

end SignerBench
