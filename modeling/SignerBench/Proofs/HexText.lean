import SignerBench.Bytes.Hex

namespace SignerBench

theorem Bytes.ofText_ofList (cs : List Char) : Bytes.ofText (.ofList cs) = cs.flatMap String.utf8EncodeChar := by
  rw [Bytes.ofText, String.toUTF8, String.toByteArray_ofList, List.utf8Encode, List.data_toByteArray]

/-- With `Bytes.high_of_utf8` this tells the bytes of a text by their size: those below 128 are characters of their own.
-/
theorem Bytes.utf8_of_ascii {c : Char} (h : c.toNat < 128) : String.utf8EncodeChar c = [UInt8.ofNat c.toNat] :=
  if_pos (Nat.le_of_lt_succ h)

theorem Bytes.high_of_utf8 {c : Char} (h : 128 ≤ c.toNat) : ∀ b ∈ String.utf8EncodeChar c, 128 ≤ b.toNat := by
  have hvalid : c.toNat < 0x110000 := by
    have hchar := c.valid
    unfold UInt32.isValidChar Nat.isValidChar at hchar
    unfold Char.toNat
    omega
  have hbyte {n : Nat} (high : 128 ≤ n) (small : n < 256) : 128 ≤ (UInt8.ofNat n).toNat := by
    rw [UInt8.toNat_ofNat', Nat.mod_eq_of_lt small]
    exact high
  unfold Char.toNat at h hvalid
  intro b hb
  unfold String.utf8EncodeChar at hb
  dsimp only at hb
  rw [if_neg (by omega)] at hb
  split at hb
  case isTrue =>
    simp only [List.mem_cons, List.not_mem_nil, or_false] at hb
    rcases hb with rfl | rfl <;> exact hbyte (by omega) (by omega)
  split at hb
  case isTrue =>
    simp only [List.mem_cons, List.not_mem_nil, or_false] at hb
    rcases hb with rfl | rfl | rfl <;> exact hbyte (by omega) (by omega)
  case isFalse =>
    simp only [List.mem_cons, List.not_mem_nil, or_false] at hb
    rcases hb with rfl | rfl | rfl | rfl <;> exact hbyte (by omega) (by omega)

namespace Hex

/-- Half a byte as it stands in a text. -/
theorem value_digit {n : UInt8} (h : n.toNat < 16) :
    ∃ c, String.utf8EncodeChar (digit n) = [c] ∧ value c = some n := by
  have hall : ∀ k ∈ List.range 16, (String.utf8EncodeChar (digit (.ofNat k))).map value = [some (.ofNat k)] := by
    decide
  have hn := hall n.toNat (List.mem_range.mpr h)
  rw [UInt8.ofNat_toNat] at hn
  obtain ⟨c, rest, hc, hvalue, hrest⟩ := List.map_eq_cons_iff.mp hn
  exact ⟨c, by rw [hc, List.map_eq_nil_iff.mp hrest], hvalue⟩

/-- The text of one byte. -/
theorem digits_bytes (b : UInt8) : ∃ high low h l, (digits b).flatMap String.utf8EncodeChar = [high, low] ∧
    value high = some h ∧ value low = some l ∧ 16 * h + l = b := by
  have hb := b.toNat_lt
  have hhigh : (b / 16).toNat = b.toNat / 16 := UInt8.toNat_div b 16
  have hlow : (b % 16).toNat = b.toNat % 16 := UInt8.toNat_mod b 16
  obtain ⟨high, henc, hvalue⟩ := value_digit (n := b / 16) (by omega)
  obtain ⟨low, henc', hvalue'⟩ := value_digit (n := b % 16) (by omega)
  refine ⟨high, low, b / 16, b % 16, ?_, hvalue, hvalue', ?_⟩
  · rw [digits, List.flatMap_cons, List.flatMap_cons, List.flatMap_nil, henc, henc']
    rfl
  · apply UInt8.toNat_inj.mp
    have h16 : (16 : UInt8).toNat = 16 := rfl
    rw [UInt8.toNat_add, UInt8.toNat_mul, hhigh, hlow, h16]
    omega

theorem ofText_encode_cons (b : UInt8) (rest : Bytes) : Bytes.ofText (encode (b :: rest)) =
    (digits b).flatMap String.utf8EncodeChar ++ Bytes.ofText (encode rest) := by
  rw [encode, encode, Bytes.ofText_ofList, Bytes.ofText_ofList, List.flatMap_cons, List.flatMap_append]

theorem length_encode (b : Bytes) : (Bytes.ofText (encode b)).length = 2 * b.length := by
  induction b with
  | nil => rfl
  | cons b rest ih =>
    obtain ⟨high, low, _, _, hbytes, _⟩ := digits_bytes b
    rw [ofText_encode_cons, hbytes, List.length_append, ih, List.length_cons, List.length_cons, List.length_cons,
      List.length_nil]
    omega

/-- What was read before comes first, so the induction on the bytes can go on behind any part of the text. -/
theorem readPairs_encode (position : Nat) (done b : Bytes) :
    readPairs position done (Bytes.ofText (encode b)) = .ok (done.reverse ++ b) := by
  induction b generalizing position done with
  | nil => exact congrArg Except.ok (List.append_nil _).symm
  | cons b rest ih =>
    obtain ⟨high, low, h, l, hbytes, hhigh, hlow, hb⟩ := digits_bytes b
    rw [ofText_encode_cons, hbytes, List.cons_append, List.cons_append, List.nil_append, readPairs, hhigh, hlow]
    dsimp only
    rw [hb, ih, List.reverse_cons, List.append_assoc]
    rfl

theorem decode_encode (b : Bytes) : decode (encode b) = .ok b := by
  have heven : ¬ (Bytes.ofText (encode b)).length % 2 = 1 := by
    rw [length_encode]
    omega
  exact (if_neg heven).trans (readPairs_encode 0 [] b)

/-- A list of texts reads back as the list that it was written from. -/
theorem mapM_decode_encode (bs : List Bytes) : (bs.map encode).mapM decode = .ok bs := by
  induction bs with
  | nil => rfl
  | cons b rest ih =>
    rw [List.map_cons, List.mapM_cons, decode_encode, ih]
    rfl

/-- A finite check: a byte is a digit just if its lowercase form is one of the sixteen that are written. -/
theorem value_of_ascii : ∀ k ∈ List.range 128, value (UInt8.ofNat k) =
    ((List.range 16).find? fun n => digit (UInt8.ofNat n) = (Char.ofNat k).toLower).map UInt8.ofNat := by
  decide +kernel

theorem value_of_high {x : UInt8} (h : 128 ≤ x.toNat) : value x = none := by
  unfold value
  simp only [UInt8.le_iff_toNat_le]
  have h57 : (57 : UInt8).toNat = 57 := rfl
  have h70 : (70 : UInt8).toNat = 70 := rfl
  have h102 : (102 : UInt8).toNat = 102 := rfl
  rw [if_neg (by omega), if_neg (by omega), if_neg (by omega)]

theorem digit_injective {n m : UInt8} (hn : n.toNat < 16) (hm : m.toNat < 16) (h : digit n = digit m) : n = m := by
  have hall : ∀ i ∈ List.range 16, ∀ j ∈ List.range 16, digit (.ofNat i) = digit (.ofNat j) → i = j := by decide +kernel
  have hij := hall n.toNat (List.mem_range.mpr hn) m.toNat (List.mem_range.mpr hm)
  rw [UInt8.ofNat_toNat, UInt8.ofNat_toNat] at hij
  exact UInt8.toNat_inj.mp (hij h)

inductive Reads (c : Char) : Option UInt8 → Prop where
  | digit {n x : UInt8} (bytes : String.utf8EncodeChar c = [x]) (read : value x = some n) (small : n.toNat < 16)
      (lower : c.toLower = digit n) : Reads c (some n)
  | other {x : UInt8} {rest : Bytes} (bytes : String.utf8EncodeChar c = x :: rest) (unread : value x = none)
      (nowhere : ∀ n : UInt8, n.toNat < 16 → c.toLower ≠ Hex.digit n) : Reads c none

theorem reads_ascii {c : Char} (h : c.toNat < 128) : ∃ n, Reads c n := by
  have hvalue := value_of_ascii c.toNat (List.mem_range.mpr h)
  rw [Char.ofNat_toNat] at hvalue
  have hbytes := Bytes.utf8_of_ascii h
  cases hfind : (List.range 16).find? fun n => digit (UInt8.ofNat n) = c.toLower with
  | some n =>
    rw [hfind] at hvalue
    have hn := List.mem_range.mp (List.mem_of_find?_eq_some hfind)
    have hlower : digit (UInt8.ofNat n) = c.toLower := by simpa using List.find?_some hfind
    have hsmall : (UInt8.ofNat n).toNat < 16 := by
      rw [UInt8.toNat_ofNat']
      omega
    exact ⟨_, .digit hbytes hvalue hsmall hlower.symm⟩
  | none =>
    rw [hfind] at hvalue
    refine ⟨_, .other hbytes hvalue fun n hn hlower => ?_⟩
    have hnone := List.find?_eq_none.mp hfind n.toNat (List.mem_range.mpr hn)
    rw [UInt8.ofNat_toNat] at hnone
    exact hnone (decide_eq_true hlower.symm)

theorem reads_beyond {c : Char} (h : 128 ≤ c.toNat) : Reads c none := by
  have hlower : c.toLower = c := by
    refine dif_neg fun ⟨_, hz⟩ => ?_
    have hle := UInt32.le_iff_toNat_le.mp hz
    unfold Char.toNat at h
    have hbound : 'Z'.val.toNat = 90 := rfl
    omega
  have hdigit : ∀ n : UInt8, n.toNat < 16 → c.toLower ≠ digit n := by
    have hall : ∀ i ∈ List.range 16, (digit (.ofNat i)).toNat < 128 := by decide +kernel
    intro n hn heq
    have hlow := hall n.toNat (List.mem_range.mpr hn)
    rw [UInt8.ofNat_toNat, ← heq, hlower] at hlow
    exact absurd hlow (Nat.not_lt.mpr h)
  obtain ⟨x, rest, hbytes⟩ := List.exists_cons_of_ne_nil (String.utf8EncodeChar_ne_nil (c := c))
  have hhigh := Bytes.high_of_utf8 h x (hbytes ▸ List.mem_cons_self)
  exact .other hbytes (value_of_high hhigh) hdigit

/-- Each character is a digit with one value, or no digit at all, whether it is one byte or more. -/
theorem reads (c : Char) : ∃ n, Reads c n := by
  rcases Nat.lt_or_ge c.toNat 128 with h | h
  · exact reads_ascii h
  · exact ⟨none, reads_beyond h⟩

theorem halves_small (b : UInt8) : (b / 16).toNat < 16 ∧ (b % 16).toNat < 16 := by
  have hb := b.toNat_lt
  have hhigh : (b / 16).toNat = b.toNat / 16 := UInt8.toNat_div b 16
  have hlow : (b % 16).toNat = b.toNat % 16 := UInt8.toNat_mod b 16
  omega

/-- The digits of a byte, in either case. -/
theorem digits_eq_iff {b h l : UInt8} {c c' : Char} (hh : h.toNat < 16) (hl : l.toNat < 16)
    (hc : c.toLower = digit h) (hc' : c'.toLower = digit l) :
    digits b = [c.toLower, c'.toLower] ↔ b = 16 * h + l := by
  have hb := b.toNat_lt
  have hhigh : (b / 16).toNat = b.toNat / 16 := UInt8.toNat_div b 16
  have hlow : (b % 16).toNat = b.toNat % 16 := UInt8.toNat_mod b 16
  have hsum : b = 16 * h + l ↔ b / 16 = h ∧ b % 16 = l := by
    have h16 : (16 : UInt8).toNat = 16 := rfl
    rw [← UInt8.toNat_inj, ← UInt8.toNat_inj, ← UInt8.toNat_inj, hhigh, hlow, UInt8.toNat_add, UInt8.toNat_mul, h16]
    omega
  rw [hsum, digits, hc, hc', List.cons.injEq, List.cons.injEq, and_iff_left rfl]
  constructor
  · rintro ⟨heq, heq'⟩
    exact ⟨digit_injective (halves_small b).1 hh heq, digit_injective (halves_small b).2 hl heq'⟩
  · rintro ⟨rfl, rfl⟩
    exact ⟨rfl, rfl⟩

theorem lower_eq_nil_iff {more : Bytes} : [] = more.flatMap digits ↔ more = [] := by
  cases more with
  | nil => exact iff_of_true rfl rfl
  | cons => exact iff_of_false (fun h => nomatch h) fun h => nomatch h

theorem lower_cons_iff {x y : Char} {xs : List Char} {more : Bytes} : x :: y :: xs = more.flatMap digits ↔
    ∃ b rest, more = b :: rest ∧ digits b = [x, y] ∧ xs = rest.flatMap digits := by
  constructor
  · intro h
    cases more with
    | nil => cases h
    | cons b rest =>
      obtain ⟨hx, h⟩ := List.cons.inj h
      obtain ⟨hy, h⟩ := List.cons.inj h
      exact ⟨b, rest, rfl, by rw [digits, hx, hy], h⟩
  · rintro ⟨b, rest, rfl, hb, rfl⟩
    rw [List.flatMap_cons, hb]
    rfl

/-- What is no digit is refused where a pair begins, also if it is all that is left. -/
theorem readPairs_unread {c : Char} (other : Reads c none) (position : Nat) (done rest b : Bytes) :
    readPairs position done (String.utf8EncodeChar c ++ rest) ≠ .ok b := by
  cases other with
  | @other x ys bytes unread =>
    rw [bytes, List.cons_append]
    cases ys ++ rest with
    | nil => exact fun h => nomatch h
    | cons y ys =>
      rw [readPairs, unread]
      exact fun h => nomatch h

theorem readPairs_half {c : Char} {n : Option UInt8} (reads : Reads c n) (position : Nat) (done b : Bytes) :
    readPairs position done (String.utf8EncodeChar c) ≠ .ok b := by
  cases reads with
  | digit bytes =>
    rw [bytes]
    exact fun h => nomatch h
  | other bytes unread nowhere =>
    rw [← List.append_nil (String.utf8EncodeChar c)]
    exact readPairs_unread (.other bytes unread nowhere) position done [] b

theorem readPairs_unread_behind {c c' : Char} {h : UInt8} (digit : Reads c (some h)) (other : Reads c' none)
    (position : Nat) (done rest b : Bytes) :
    readPairs position done (String.utf8EncodeChar c ++ (String.utf8EncodeChar c' ++ rest)) ≠ .ok b := by
  cases digit with
  | digit bytes read =>
    cases other with
    | other bytes' unread =>
      rw [bytes, bytes', List.cons_append, List.cons_append, List.nil_append, readPairs, read, unread]
      exact fun h => nomatch h

theorem readPairs_pair {c c' : Char} {h l : UInt8} (high : Reads c (some h)) (low : Reads c' (some l)) (position : Nat)
    (done rest : Bytes) : readPairs position done (String.utf8EncodeChar c ++ (String.utf8EncodeChar c' ++ rest)) =
      readPairs (position + 2) ((16 * h + l) :: done) rest := by
  cases high with
  | digit bytes read =>
    cases low with
    | digit bytes' read' =>
      rw [bytes, bytes', List.cons_append, List.cons_append, List.nil_append, List.nil_append, readPairs, read, read']

/-- No byte has as one of its halves what is no digit. -/
theorem digits_ne_of_unread {b : UInt8} {c c' : Char} (other : Reads c none ∨ Reads c' none) :
    digits b ≠ [c.toLower, c'.toLower] := by
  intro hb
  rcases other with first | second
  · cases first with
    | other _ _ nowhere => exact nowhere _ (halves_small b).1 (List.cons.inj hb).1.symm
  · cases second with
    | other _ _ nowhere => exact nowhere _ (halves_small b).2 (List.cons.inj (List.cons.inj hb).2).1.symm

theorem digits_eq_iff_of_reads {b h l : UInt8} {c c' : Char} (high : Reads c (some h)) (low : Reads c' (some l)) :
    digits b = [c.toLower, c'.toLower] ↔ b = 16 * h + l := by
  cases high with
  | digit _ _ small lower =>
    cases low with
    | digit _ _ small' lower' => exact digits_eq_iff small small' lower lower'

/-- Pairs of digits are read exactly if they are the digits of the bytes, in either case. The induction is on the
characters, two by two, as a character that is no digit may have more than one byte. -/
theorem readPairs_eq_ok_iff (position : Nat) (done : Bytes) : ∀ (cs : List Char) (b : Bytes),
    readPairs position done (cs.flatMap String.utf8EncodeChar) = .ok b ↔
      ∃ more, b = done.reverse ++ more ∧ cs.map Char.toLower = more.flatMap digits
  | [], b => by
    simp only [List.map_nil, lower_eq_nil_iff]
    constructor
    · rintro ⟨⟩
      exact ⟨[], (List.append_nil _).symm, rfl⟩
    · rintro ⟨_, rfl, rfl⟩
      exact congrArg Except.ok (List.append_nil _).symm
  | [c], b => by
    obtain ⟨_, hreads⟩ := reads c
    rw [List.flatMap_singleton]
    refine iff_of_false (readPairs_half hreads position done b) ?_
    rintro ⟨more, _, hmore⟩
    cases more with
    | nil => cases hmore
    | cons => exact nomatch (List.cons.inj hmore).2
  | c :: c' :: cs, b => by
    obtain ⟨high, hhigh⟩ := reads c
    obtain ⟨low, hlow⟩ := reads c'
    simp only [List.map_cons, lower_cons_iff, List.flatMap_cons]
    match high, low with
    | none, _ =>
      refine iff_of_false (readPairs_unread hhigh position done _ b) ?_
      rintro ⟨_, _, _, _, _, hb, _⟩
      exact digits_ne_of_unread (.inl hhigh) hb
    | some _, none =>
      refine iff_of_false (readPairs_unread_behind hhigh hlow position done _ b) ?_
      rintro ⟨_, _, _, _, _, hb, _⟩
      exact digits_ne_of_unread (.inr hlow) hb
    | some h, some l =>
      rw [readPairs_pair hhigh hlow, readPairs_eq_ok_iff]
      simp only [digits_eq_iff_of_reads hhigh hlow, List.reverse_cons, List.append_assoc, List.singleton_append]
      constructor
      · rintro ⟨more, rfl, hmore⟩
        exact ⟨_, rfl, _, _, rfl, rfl, hmore⟩
      · rintro ⟨_, rfl, _, more, rfl, rfl, hmore⟩
        exact ⟨more, rfl, hmore⟩

/-- An odd byte at the end is always refused, whatever it is. -/
theorem even_of_readPairs {position : Nat} {done text b : Bytes} (h : readPairs position done text = .ok b) :
    text.length % 2 = 0 := by
  fun_induction readPairs position done text with
  | case1 => rfl
  | case2 => cases h
  | case3 position done high low rest _ _ _ _ ih =>
    have hrest := ih h
    rw [List.length_cons, List.length_cons]
    omega
  | case4 => cases h
  | case5 => cases h

/-- A text gives bytes exactly if it is their text but for the case of its letters. -/
theorem decode_eq_ok_iff {s : String} {b : Bytes} : decode s = .ok b ↔ s.toLower = encode b := by
  have htext : Bytes.ofText s = s.toList.flatMap String.utf8EncodeChar := by
    rw [← Bytes.ofText_ofList, String.ofList_toList]
  have hdecode : decode s = .ok b ↔ readPairs 0 [] (Bytes.ofText s) = .ok b := by
    unfold decode
    dsimp only
    split
    case isTrue odd =>
      refine iff_of_false (fun h => nomatch h) fun h => ?_
      have heven := even_of_readPairs h
      omega
    case isFalse => exact Iff.rfl
  have hlower : s.toLower.toList = s.toList.map Char.toLower := String.toList_map
  rw [hdecode, htext, readPairs_eq_ok_iff, ← String.toList_inj, hlower, encode, String.toList_ofList]
  constructor
  · rintro ⟨_, rfl, h⟩
    exact h
  · intro h
    exact ⟨b, rfl, h⟩

end Hex

end SignerBench
