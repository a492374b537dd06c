import Mathlib.Data.List.Basic
import SignerBench.Json.Printer
import SignerBench.Proofs.HexText

namespace SignerBench.Json

def charBytes (cs : List Char) : Bytes := cs.flatMap String.utf8EncodeChar

@[simp] theorem charBytes_nil : charBytes [] = [] := rfl

@[simp] theorem charBytes_append (cs cs' : List Char) : charBytes (cs ++ cs') = charBytes cs ++ charBytes cs' :=
  List.flatMap_append

theorem charBytes_cons (c : Char) (cs : List Char) : charBytes (c :: cs) = String.utf8EncodeChar c ++ charBytes cs :=
  List.flatMap_cons

/-- These characters are scanned as these words, whatever of this kind stands behind them. -/
def Spells (cs : List Char) (ws : List Token) (ahead : Bytes → Prop) : Prop :=
  ∀ rest, ahead rest → ∀ room done, (charBytes cs ++ rest).length ≤ room →
    ∃ room', rest.length ≤ room' ∧
      scanAll room done (charBytes cs ++ rest) = scanAll room' (ws.reverse ++ done) rest

def Anything (_ : Bytes) : Prop := True

/-- Nothing that a number would go on with. -/
def Stops (rest : Bytes) : Prop := ∀ b ∈ rest.head?, isDigit b = false ∧ b ≠ byte '.' ∧ isExponentMark b = false

variable {cs cs' : List Char} {ws ws' : List Token} {ahead ahead' : Bytes → Prop} {b : UInt8} {r rest : Bytes}
  {token : Token}

theorem Spells.nil : Spells [] [] ahead := fun _ _ room _ hroom => ⟨room, hroom, rfl⟩

/-- What the first part may be followed by has to hold of the text of the second. -/
theorem Spells.append (h : Spells cs ws ahead) (h' : Spells cs' ws' ahead')
    (next : ∀ rest, ahead' rest → ahead (charBytes cs' ++ rest)) : Spells (cs ++ cs') (ws ++ ws') ahead' := by
  intro rest hrest room done hroom
  rw [charBytes_append, List.append_assoc] at hroom ⊢
  obtain ⟨room₁, hroom₁, hscan⟩ := h _ (next rest hrest) room done hroom
  obtain ⟨room₂, hroom₂, hscan'⟩ := h' rest hrest room₁ _ hroom₁
  refine ⟨room₂, hroom₂, ?_⟩
  rw [hscan, hscan', List.reverse_append, List.append_assoc]

/-- Behind words that end by themselves anything may follow. -/
theorem Spells.then (h : Spells cs ws Anything) (h' : Spells cs' ws' ahead) :
    Spells (cs ++ cs') (ws ++ ws') ahead :=
  h.append h' fun _ _ => trivial

theorem Spells.weaken (h : Spells cs ws Anything) : Spells cs ws ahead := fun rest _ => h rest trivial

theorem spells_token (bytes : charBytes cs = b :: r) (solid : isSpace b = false)
    (scanned : ∀ rest, ahead rest → scan b (r ++ rest) = ⟨token, rest⟩) : Spells cs [token] ahead := by
  intro rest hrest room done hroom
  rw [bytes, List.cons_append] at hroom ⊢
  cases room with
  | zero => cases hroom
  | succ room =>
    refine ⟨room, ?_, ?_⟩
    · rw [List.length_cons, List.length_append] at hroom
      omega
    · rw [scanAll, solid, scanned rest hrest]
      rfl

/-- A blank is scanned as no word at all. -/
theorem spells_blank {c : Char} (bytes : charBytes [c] = [b]) (blank : isSpace b = true) : Spells [c] [] Anything := by
  intro rest _ room done hroom
  rw [bytes, List.singleton_append] at hroom ⊢
  cases room with
  | zero => cases hroom
  | succ room =>
    refine ⟨room, Nat.le_of_succ_le_succ hroom, ?_⟩
    rw [scanAll, blank]
    rfl

theorem spells_space : Spells [' '] [] Anything := spells_blank (b := 32) rfl rfl

theorem spells_newline (depth : Nat) : Spells (newline depth) [] Anything := by
  have hblanks (n : Nat) : Spells (List.replicate n ' ') [] Anything := by
    induction n with
    | zero => exact .nil
    | succ n ih => exact spells_space.then ih
  exact (spells_blank (b := 10) rfl rfl).then (hblanks _)

/-- A byte that stands for itself in a text. -/
def Plain (b : UInt8) : Prop := b ≠ byte '"' ∧ b ≠ byte '\\' ∧ 0x20 ≤ b

theorem scanText_cons (plain : Plain b) (d : Draught) (rest : Bytes) :
    scanText d (b :: rest) = scanText (d.add [b]) rest := by
  obtain ⟨quote, slash, low⟩ := plain
  rw [scanText.eq_def d (b :: rest)]
  exact (if_neg quote).trans ((if_neg slash).trans (if_neg (UInt8.not_lt.mpr low)))

/-- Plain bytes are taken one by one, as long as no half of a surrogate pair waits for the other. -/
theorem scanText_append {bs : Bytes} (plain : ∀ b ∈ bs, Plain b) (d : Draught) (rest : Bytes) (free : d.lead = none) :
    scanText d (bs ++ rest) = scanText (d.add bs) rest := by
  induction bs generalizing d with
  | nil =>
    obtain ⟨done, _, lost⟩ := d
    cases free
    simp [Draught.add]
  | cons b bs ih =>
    obtain ⟨hb, hplain⟩ := List.forall_mem_cons.mp plain
    rw [List.cons_append, scanText_cons hb, ih hplain _ rfl]
    simp [Draught.add]

theorem scanText_short {d : Draught} {e c : UInt8} (other : e ≠ byte 'u') (short : shortEscape e = some c) :
    scanText d (byte '\\' :: e :: rest) = scanText (d.add [c]) rest := by
  rw [scanText.eq_def d (byte '\\' :: e :: rest)]
  refine (if_neg (by decide)).trans ((if_pos rfl).trans ((if_neg other).trans ?_))
  rw [short]

/-- Four hexadecimal digits make one unit of UTF-16, which may be half of a character. -/
theorem scanText_unit {d : Draught} {h₁ h₂ h₃ h₄ : UInt8} {unit : Nat} (hex : hexUnit h₁ h₂ h₃ h₄ = some unit) :
    scanText d (byte '\\' :: byte 'u' :: h₁ :: h₂ :: h₃ :: h₄ :: rest) = scanText (d.addUnit unit) rest := by
  rw [scanText.eq_def d (byte '\\' :: byte 'u' :: h₁ :: h₂ :: h₃ :: h₄ :: rest)]
  refine (if_neg (by decide)).trans ((if_pos rfl).trans ((if_pos rfl).trans ?_))
  dsimp only
  rw [hex]

/-- Each control character has its number in the text. -/
theorem hexUnit_control : ∀ n ∈ List.range 32,
    charBytes [(n / 16).digitChar, (n % 16).digitChar] =
        [byte (n / 16).digitChar, byte (n % 16).digitChar] ∧
      hexUnit (byte '0') (byte '0') (byte (n / 16).digitChar) (byte (n % 16).digitChar) = some n := by
  decide +kernel

theorem plain_of_high (h : 128 ≤ b.toNat) : Plain b := by
  refine ⟨?_, ?_, ?_⟩
  · rintro rfl
    exact absurd h (by decide)
  · rintro rfl
    exact absurd h (by decide)
  · exact UInt8.le_iff_toNat_le.mpr (Nat.le_trans (by decide) h)

/-- A character that is not escaped has only plain bytes. -/
theorem plain_utf8 {c : Char} (quote : c ≠ '"') (slash : c ≠ '\\') (low : 0x20 ≤ c.toNat) :
    ∀ b ∈ String.utf8EncodeChar c, Plain b := by
  rcases Nat.lt_or_ge c.toNat 128 with ascii | high
  · have hnat : (UInt8.ofNat c.toNat).toNat = c.toNat := by
      rw [UInt8.toNat_ofNat']
      omega
    rw [Bytes.utf8_of_ascii ascii, List.forall_mem_singleton]
    refine ⟨fun h => quote (Char.toNat_inj.mp ?_), fun h => slash (Char.toNat_inj.mp ?_), ?_⟩
    · rw [← hnat, h]
      rfl
    · rw [← hnat, h]
      rfl
    · rw [UInt8.le_iff_toNat_le, hnat]
      exact low
  · exact fun b hb => plain_of_high (Bytes.high_of_utf8 high b hb)

/-- The text of a character, read behind what has been read, adds the character. -/
theorem scanText_escapeChar (d : Draught) (free : d.lead = none) (c : Char) (rest : Bytes) :
    scanText d (charBytes (escapeChar c) ++ rest) = scanText (d.add (String.utf8EncodeChar c)) rest := by
  -- A character has a letter for its escape, or its number, or stands for itself.
  by_cases short : c ∈ ['"', '\\', '\x08', '\x0c', '\n', '\r', '\t']
  · simp only [List.mem_cons, List.not_mem_nil, or_false] at short
    rcases short with rfl | rfl | rfl | rfl | rfl | rfl | rfl <;> exact scanText_short (by decide) rfl
  simp only [List.mem_cons, List.not_mem_nil, or_false, not_or] at short
  obtain ⟨quote, slash, back, form, line, ret, tab⟩ := short
  rw [escapeChar, if_neg quote, if_neg slash, if_neg back, if_neg form, if_neg line, if_neg ret, if_neg tab]
  by_cases control : c.toNat < 0x20
  · obtain ⟨hbytes, hunit⟩ := hexUnit_control c.toNat (List.mem_range.mpr control)
    have hadd : d.addUnit c.toNat = d.add (String.utf8EncodeChar c) := by
      have hlead : isLeading c.toNat = false := by simp [isLeading]; omega
      have htrail : isTrailing c.toNat = false := by simp [isTrailing]; omega
      have hchar : Utf8.encodeChar c = String.utf8EncodeChar c := by
        rw [Utf8.encodeChar, String.singleton_eq_ofList, Bytes.ofText_ofList, List.flatMap_singleton]
      simp [Draught.addUnit, free, hlead, htrail, hchar]
    have htext : charBytes ['\\', 'u', '0', '0', (c.toNat / 16).digitChar, (c.toNat % 16).digitChar] =
        byte '\\' :: byte 'u' :: byte '0' :: byte '0' ::
          charBytes [(c.toNat / 16).digitChar, (c.toNat % 16).digitChar] := rfl
    rw [if_pos control, htext, hbytes, ← hadd]
    exact scanText_unit hunit
  · rw [if_neg control, charBytes_cons, charBytes_nil, List.append_nil]
    exact scanText_append (plain_utf8 quote slash (Nat.not_lt.mp control)) d rest free

/-- The induction is on the characters, with `scanText_escapeChar` for each. -/
theorem scanText_escaped (cs : List Char) (d : Draught) (free : d.lead = none) (rest : Bytes) :
    scanText d (charBytes (cs.flatMap escapeChar) ++ rest) = scanText (d.add (charBytes cs)) rest := by
  induction cs generalizing d with
  | nil => exact scanText_append (List.forall_mem_nil _) d rest free
  | cons c cs ih =>
    rw [List.flatMap_cons, charBytes_append, List.append_assoc, scanText_escapeChar d free, ih _ rfl, charBytes_cons]
    simp [Draught.add, free]

/-- A text in quotes is read as the text, whatever characters it has, and ends by itself. -/
theorem spells_quoted (s : String) : Spells (quoted s) [.quoted (.ok s)] Anything := by
  have hbytes : charBytes (quoted s) = byte '"' :: (charBytes (s.toList.flatMap escapeChar) ++ [byte '"']) := by
    rw [quoted, charBytes_append, charBytes_cons]
    rfl
  have hfinish : (Draught.empty.add (charBytes s.toList)).finish = .ok s := by
    have htext : Bytes.toText? (charBytes s.toList) = some s := by
      rw [charBytes, ← Bytes.ofText_ofList, String.ofList_toList, Bytes.toText?_ofText]
    simp [Draught.finish, Draught.add, Draught.empty, htext]
  refine spells_token hbytes rfl fun rest _ => ?_
  have hscan : scan (byte '"') (charBytes (s.toList.flatMap escapeChar) ++ [byte '"'] ++ rest) =
      scanText .empty (charBytes (s.toList.flatMap escapeChar) ++ ([byte '"'] ++ rest)) := by
    rw [List.append_assoc]
    rfl
  rw [hscan, scanText_escaped _ _ rfl]
  rw [List.singleton_append, scanText.eq_def, ← hfinish]
  exact if_pos rfl

/-- The bytes of digits. -/
theorem charBytes_digits {ds : List Char} (digits : ∀ c ∈ ds, c.isDigit) :
    charBytes ds = ds.map fun c => UInt8.ofNat c.toNat := by
  induction ds with
  | nil => rfl
  | cons c ds ih =>
    obtain ⟨hc, hds⟩ := List.forall_mem_cons.mp digits
    have hle : c.toNat ≤ 57 := (Char.isDigit_iff_toNat.mp hc).2
    rw [charBytes_cons, Bytes.utf8_of_ascii (by omega), ih hds, List.map_cons, List.singleton_append]

theorem charBytes_digit {c : Char} {ds : List Char} (digits : ∀ d ∈ c :: ds, d.isDigit) :
    charBytes (c :: ds) = UInt8.ofNat c.toNat :: charBytes ds := by
  rw [charBytes_digits digits, List.map_cons, charBytes_digits fun d hd => digits d (List.mem_cons_of_mem c hd)]

theorem toNat_digit {c : Char} (digit : c.isDigit) : (UInt8.ofNat c.toNat).toNat = c.toNat := by
  have hle : c.toNat ≤ 57 := (Char.isDigit_iff_toNat.mp digit).2
  rw [UInt8.toNat_ofNat']
  omega

theorem isDigit_byte {c : Char} (digit : c.isDigit) :
    isDigit (UInt8.ofNat c.toNat) = true ∧ digitValue (UInt8.ofNat c.toNat) = c.toNat - '0'.toNat := by
  obtain ⟨hlow, hhigh⟩ := Char.isDigit_iff_toNat.mp digit
  have hzero : '0'.toNat = 48 := rfl
  have hnine : '9'.toNat = 57 := rfl
  have hnat := toNat_digit digit
  have h48 : (48 : UInt8).toNat = 48 := rfl
  have h57 : (57 : UInt8).toNat = 57 := rfl
  refine ⟨?_, by rw [digitValue, hnat, hzero]⟩
  simp only [isDigit, Bool.and_eq_true, decide_eq_true_eq, UInt8.le_iff_toNat_le]
  omega

/-- As long as the number fits a word, its digits are taken. -/
theorem foldl_whole {ds : List Char} (digits : ∀ c ∈ ds, c.isDigit) {value : Nat}
    (fits : Nat.ofDigitChars 10 ds value < wordLimit) :
    (charBytes ds).foldl (fun m b => m.whole (digitValue b)) ⟨value, 0, false⟩ =
      (⟨Nat.ofDigitChars 10 ds value, 0, false⟩ : Mantissa) := by
  induction ds generalizing value with
  | nil => rfl
  | cons c ds ih =>
    obtain ⟨hc, hds⟩ := List.forall_mem_cons.mp digits
    have hdigit := (isDigit_byte hc).2
    rw [Nat.ofDigitChars_cons] at fits ⊢
    -- The value only grows, so what fits at the end fits on the way.
    have hle : 10 * value + (c.toNat - '0'.toNat) ≤ Nat.ofDigitChars 10 ds (10 * value + (c.toNat - '0'.toNat)) := by
      rw [Nat.ofDigitChars_eq_ofDigitChars_zero]
      exact Nat.le_trans (Nat.le_mul_of_pos_left _ (Nat.pow_pos (by decide))) (Nat.le_add_right _ _)
    have hwhole : (⟨value, 0, false⟩ : Mantissa).whole (digitValue (UInt8.ofNat c.toNat)) =
        ⟨10 * value + (c.toNat - '0'.toNat), 0, false⟩ := by
      rw [hdigit, Nat.mul_comm 10 value]
      refine if_neg ?_
      rintro (full | large)
      · cases full
      · dsimp only at large
        omega
    rw [charBytes_digits digits, List.map_cons, List.foldl_cons, hwhole, ← charBytes_digits hds]
    exact ih hds fits

/-- The first digit of a number is no zero, but for zero itself. -/
theorem head_toDigits {n : Nat} (pos : 0 < n) : ∃ c ds, Nat.toDigits 10 n = c :: ds ∧ c ≠ '0' := by
  induction n using Nat.strongRecOn with
  | _ n ih =>
    rcases Nat.lt_or_ge n 10 with small | large
    · rw [Nat.toDigits_of_lt_base small]
      refine ⟨_, _, rfl, ?_⟩
      have hall : ∀ k ∈ List.range 10, 0 < k → k.digitChar ≠ '0' := by decide
      exact hall n (List.mem_range.mpr small) pos
    · obtain ⟨c, ds, hds, hc⟩ := ih (n / 10) (by omega) (by omega)
      rw [Nat.toDigits_of_base_le (by decide) large, hds]
      exact ⟨c, _, rfl, hc⟩

theorem scanTail_stops (stops : Stops rest) (negative : Bool) (m : Mantissa) :
    scanTail negative m rest = ⟨.scalar (m.plain negative), rest⟩ := by
  cases rest with
  | nil => rfl
  | cons b rest =>
    obtain ⟨_, point, mark⟩ := stops b rfl
    rw [scanTail, if_neg point, mark]
    rfl

theorem isDigit_toDigits (n : Nat) : ∀ c ∈ Nat.toDigits 10 n, c.isDigit :=
  fun _ => Nat.isDigit_of_mem_toDigits (by decide) (by decide)

/-- Where no digit follows, just these digits are taken. -/
theorem span_digits {ds : List Char} (digits : ∀ c ∈ ds, c.isDigit) (ends : ∀ b ∈ rest.head?, isDigit b = false) :
    (charBytes ds ++ rest).takeWhile isDigit = charBytes ds ∧ (charBytes ds ++ rest).dropWhile isDigit = rest := by
  have hbytes : ∀ b ∈ charBytes ds, isDigit b = true := by
    rw [charBytes_digits digits]
    intro b hb
    obtain ⟨c, hc, rfl⟩ := List.mem_map.mp hb
    exact (isDigit_byte (digits c hc)).1
  rw [List.takeWhile_append_of_pos hbytes, List.dropWhile_append_of_pos hbytes]
  cases rest with
  | nil => exact ⟨List.append_nil _, rfl⟩
  | cons b rest =>
    rw [List.takeWhile_cons, List.dropWhile_cons, ends b rfl]
    exact ⟨List.append_nil _, rfl⟩

inductive Front : List Char → Prop where
  | zero : Front ['0']
  | digits {c : Char} {ds : List Char} (first : c ≠ '0') (all : ∀ d ∈ c :: ds, d.isDigit) : Front (c :: ds)

theorem Front.all (front : Front cs) : ∀ c ∈ cs, c.isDigit := by
  cases front with
  | zero => exact List.forall_mem_singleton.mpr rfl
  | digits _ all => exact all

theorem front_toDigits (n : Nat) : Front (Nat.toDigits 10 n) := by
  rcases Nat.eq_zero_or_pos n with rfl | pos
  · exact .zero
  · obtain ⟨c, ds, hds, hc⟩ := head_toDigits pos
    rw [hds]
    exact .digits hc (hds ▸ isDigit_toDigits n)

/-- The first byte of a number is that of its first digit. -/
theorem Front.charBytes_eq (front : Front cs) :
    ∃ b r, charBytes cs = b :: r ∧ isDigit b = true := by
  have hbytes := charBytes_digits front.all
  cases front with
  | zero => exact ⟨_, _, hbytes, rfl⟩
  | digits _ all => exact ⟨_, _, hbytes, (isDigit_byte (all _ List.mem_cons_self)).1⟩

/-- The digits in front are taken, as far as they go. -/
theorem scanNumber_front (front : Front cs) (ends : ∀ b ∈ rest.head?, isDigit b = false) (negative : Bool) :
    scanNumber negative (charBytes cs ++ rest) =
      scanTail negative ((charBytes cs).foldl (fun m b => m.whole (digitValue b)) ⟨0, 0, false⟩) rest := by
  obtain ⟨htake, hdrop⟩ := span_digits front.all ends
  -- Behind a zero no digit is taken, so zero is scanned in its own way.
  cases front with
  | zero =>
    change scanNumber negative (byte '0' :: rest) = scanTail negative ⟨0, 0, false⟩ rest
    cases rest with
    | nil => rfl
    | cons b rest =>
      rw [scanNumber, if_pos rfl]
      exact if_neg (ne_true_of_eq_false (ends b rfl))
  | @digits c ds first all =>
    have hdigit := all c List.mem_cons_self
    have hfirst : UInt8.ofNat c.toNat ≠ byte '0' := by
      intro h
      have hnat := toNat_digit hdigit
      rw [h] at hnat
      exact first (Char.toNat_inj.mp hnat.symm)
    have hscan : scanNumber negative (charBytes (c :: ds) ++ rest) =
        scanTail negative (((charBytes (c :: ds) ++ rest).takeWhile isDigit).foldl
          (fun m b => m.whole (digitValue b)) ⟨0, 0, false⟩) ((charBytes (c :: ds) ++ rest).dropWhile isDigit) := by
      rw [charBytes_digit all]
      exact (if_neg hfirst).trans (if_pos (isDigit_byte hdigit).1)
    rw [hscan, htake, hdrop]

/-- The digits of a number are read as the number. -/
theorem scanNumber_digits {n : Nat} (fits : n < wordLimit) (stops : Stops rest) (negative : Bool) :
    scanNumber negative (charBytes (Nat.toDigits 10 n) ++ rest) =
      ⟨.scalar ((⟨n, 0, false⟩ : Mantissa).plain negative), rest⟩ := by
  have hvalue : Nat.ofDigitChars 10 (Nat.toDigits 10 n) 0 < wordLimit := by rwa [Nat.ofDigitChars_ten_toDigits]
  have hfold := foldl_whole (isDigit_toDigits n) hvalue
  rw [Nat.ofDigitChars_ten_toDigits] at hfold
  rw [scanNumber_front (front_toDigits n) fun b hb => (stops b hb).1, hfold, scanTail_stops stops]

theorem scan_digit (digit : isDigit b = true) : scan b rest = scanNumber false (b :: rest) := by
  have hother {c : Char} (h : isDigit (byte c) = false) : b ≠ byte c := by
    rintro rfl
    rw [h] at digit
    cases digit
  unfold scan
  rw [if_neg (hother rfl), if_neg (hother rfl), if_neg (hother rfl), if_neg (hother rfl), if_neg (hother rfl),
    if_neg (hother rfl), if_neg (hother rfl), if_neg (hother rfl), if_neg (hother rfl), if_neg (hother rfl),
    if_neg (hother rfl), if_pos digit]

theorem isSpace_digit (digit : isDigit b = true) : isSpace b = false := by
  cases hspace : isSpace b with
  | false => rfl
  | true =>
    simp only [isSpace, Bool.or_eq_true, decide_eq_true_eq] at hspace
    obtain ((rfl | rfl) | rfl) | rfl := hspace <;> exact absurd digit (by decide)

def sign : Bool → List Char
  | true => ['-']
  | false => []

/-- A number is scanned from behind its sign. -/
theorem spells_signed {negative : Bool} {value : Except Fault Scalar}
    (starts : ∃ b r, charBytes cs = b :: r ∧ isDigit b = true)
    (scanned : ∀ rest, Stops rest → scanNumber negative (charBytes cs ++ rest) = ⟨.scalar value, rest⟩) :
    Spells (sign negative ++ cs) [.scalar value] Stops := by
  cases negative with
  | true => exact spells_token (charBytes_cons '-' cs) rfl scanned
  | false =>
    obtain ⟨b, r, hbytes, hdigit⟩ := starts
    refine spells_token hbytes (isSpace_digit hdigit) fun rest stops => ?_
    rw [scan_digit hdigit, ← List.cons_append, ← hbytes]
    exact scanned rest stops

theorem toList_ofNat (n : Nat) : (numberText (.integer (.ofNat n))).toList = sign false ++ Nat.toDigits 10 n :=
  Nat.toList_repr

theorem toList_negSucc (n : Nat) :
    (numberText (.integer (.negSucc n))).toList = sign true ++ Nat.toDigits 10 (n + 1) := by
  have hrepr : numberText (.integer (.negSucc n)) = "-" ++ (n + 1).repr := rfl
  rw [hrepr, String.toList_append, Nat.toList_repr]
  rfl

/-- A whole number that fits a word of 64 bits, with a sign or without. -/
def Number.Whole : Number → Prop
  | .integer n => -0x8000000000000000 ≤ n ∧ n < 0x10000000000000000
  | .float _ => False

theorem spells_number {n : Number} (whole : n.Whole) :
    Spells (numberText n).toList [.scalar (.ok (.number n))] Stops := by
  cases n with
  | float x => cases whole
  | integer n =>
    obtain ⟨low, high⟩ := whole
    cases n with
    | ofNat n =>
      rw [toList_ofNat]
      exact spells_signed (front_toDigits n).charBytes_eq fun rest stops =>
        scanNumber_digits (Int.ofNat_lt.mp high) stops false
    | negSucc n =>
      have hplain : (⟨n + 1, 0, false⟩ : Mantissa).plain true = .ok (.number (.integer (.negSucc n))) := by
        refine (if_neg Bool.false_ne_true).trans ((if_pos rfl).trans (if_neg ?_))
        rintro (zero | large)
        · cases zero
        · dsimp only at large
          omega
      have hfits : n + 1 < wordLimit := by
        have hlimit : wordLimit = 0x10000000000000000 := rfl
        omega
      rw [toList_negSucc, ← hplain]
      exact spells_signed (front_toDigits (n + 1)).charBytes_eq fun rest stops => scanNumber_digits hfits stops true

mutual

def Whole : Json → Prop
  | .number n => n.Whole
  | .array items => WholeItems items
  | .object entries => WholeEntries entries
  | .null | .bool _ | .text _ => True

def WholeItems : List Json → Prop
  | [] => True
  | v :: vs => Whole v ∧ WholeItems vs

def WholeEntries : List (String × Json) → Prop
  | [] => True
  | (_, v) :: es => Whole v ∧ WholeEntries es

end

mutual

/-- The words that a value is written with. -/
def words : Json → List Token
  | .null => [.scalar (.ok .null)]
  | .bool b => [.scalar (.ok (.bool b))]
  | .number n => [.scalar (.ok (.number n))]
  | .text s => [.quoted (.ok s)]
  | .array [] => [.openArray, .closeArray]
  | .array (v :: vs) => .openArray :: (words v ++ (wordsItems vs ++ [.closeArray]))
  | .object [] => [.openObject, .closeObject]
  | .object ((k, v) :: es) =>
    .openObject :: .quoted (.ok k) :: .colon :: (words v ++ (wordsEntries es ++ [.closeObject]))

def wordsItems : List Json → List Token
  | [] => []
  | v :: vs => .comma :: (words v ++ wordsItems vs)

def wordsEntries : List (String × Json) → List Token
  | [] => []
  | (k, v) :: es => .comma :: .quoted (.ok k) :: .colon :: (words v ++ wordsEntries es)

end

/-- Marks that are words by themselves. -/
theorem spells_mark {c : Char} (bytes : charBytes [c] = [b]) (solid : isSpace b = false)
    (scanned : ∀ rest, scan b rest = ⟨token, rest⟩) : Spells [c] [token] Anything :=
  spells_token bytes solid fun rest _ => scanned rest

theorem spells_word {w : Char} {cs : List Char} {value : Scalar} (bytes : charBytes (w :: cs) = b :: charBytes cs)
    (solid : isSpace b = false) (scanned : ∀ rest, scan b rest = scanWord (charBytes cs) value rest) :
    Spells (w :: cs) [.scalar (.ok value)] Anything := by
  refine spells_token bytes solid fun rest _ => ?_
  rw [scanned]
  generalize charBytes cs = word
  induction word with
  | nil => rfl
  | cons w word ih => exact (if_pos rfl).trans ih

/-- A separator, a line break or a bracket ends a number. -/
theorem stops_cons {c : Char} (h : c = ',' ∨ c = '\n' ∨ c = ']' ∨ c = '\x7d') :
    Stops (charBytes (c :: cs) ++ rest) := by
  rcases h with rfl | rfl | rfl | rfl
  all_goals
    rintro b ⟨⟩
    decide

variable {parts : List (List Char)} {part gap lead closing : List Char}

/-- The parts of a branch, and how it is closed. Between them may stand blanks. -/
theorem spells_branch (blank : Spells lead [] Anything) (first : Spells part ws Stops)
    (others : Spells (parts.flatMap ((',' :: gap) ++ ·)) ws' Stops) (closed : Spells closing [token] Anything)
    (stops : ∀ rest, Stops (charBytes closing ++ rest)) :
    Spells (lead ++ (part ++ (parts.flatMap ((',' :: gap) ++ ·) ++ closing))) (ws ++ (ws' ++ [token])) Stops := by
  have hothers : Spells (parts.flatMap ((',' :: gap) ++ ·) ++ closing) (ws' ++ [token]) Stops :=
    others.append closed.weaken fun _ _ => stops _
  refine blank.then (first.append hothers fun rest _ => ?_)
  cases parts with
  | nil => exact stops rest
  | cons => exact stops_cons (.inl rfl)

/-- A key with its value. Between them stand a colon and blanks, if any. -/
theorem spells_entry {k : String} (blank : Spells gap [] Anything) (value : Spells part ws Stops) :
    Spells (quoted k ++ ':' :: (gap ++ part)) (.quoted (.ok k) :: .colon :: ws) Stops := by
  have hcolon : Spells [':'] [.colon] Anything := spells_mark rfl rfl fun _ => rfl
  exact (spells_quoted k).then (hcolon.then (blank.then value))

/-- A part behind the first. -/
theorem spells_next (blank : Spells gap [] Anything) (first : Spells part ws Stops)
    (others : Spells (parts.flatMap ((',' :: gap) ++ ·)) ws' Stops) :
    Spells ((part :: parts).flatMap ((',' :: gap) ++ ·)) (.comma :: (ws ++ ws')) Stops := by
  have hcomma : Spells [','] [.comma] Anything := spells_mark rfl rfl fun _ => rfl
  rw [List.flatMap_cons, List.append_assoc]
  refine hcomma.then (blank.then (first.append others fun rest stops => ?_))
  cases parts with
  | nil => exact stops
  | cons => exact stops_cons (.inl rfl)

theorem spells_openArray : Spells ['['] [.openArray] Anything := spells_mark rfl rfl fun _ => rfl

theorem spells_closeArray : Spells [']'] [.closeArray] Anything := spells_mark rfl rfl fun _ => rfl

theorem spells_openObject : Spells ['\x7b'] [.openObject] Anything := spells_mark rfl rfl fun _ => rfl

theorem spells_closeObject : Spells ['\x7d'] [.closeObject] Anything := spells_mark rfl rfl fun _ => rfl

/-- The line break and the blanks in front of a bracket. -/
theorem spells_closing (depth : Nat) {close : Char} (closed : Spells [close] [token] Anything) :
    Spells (newline depth ++ [close]) [token] Anything :=
  (spells_newline depth).then closed

mutual

/-- The text of a value is scanned as the words of the value, at any depth. The recursion is that of the printer. -/
theorem spells_pretty (depth : Nat) : ∀ v : Json, Whole v → Spells (prettyChars depth v) (words v) Stops
  | .null, _ => (spells_word (b := byte 'n') rfl rfl fun _ => rfl).weaken
  | .bool true, _ => (spells_word (b := byte 't') rfl rfl fun _ => rfl).weaken
  | .bool false, _ => (spells_word (b := byte 'f') rfl rfl fun _ => rfl).weaken
  | .number n, whole => spells_number whole
  | .text s, _ => (spells_quoted s).weaken
  | .array [], _ => spells_openArray.then spells_closeArray.weaken
  | .array (v :: vs), ⟨whole, wholes⟩ => by
    have hbranch := spells_branch (spells_newline (depth + 1)) (spells_pretty (depth + 1) v whole)
      (spells_prettyItems (depth + 1) vs wholes) (spells_closing depth spells_closeArray)
      fun _ => stops_cons (.inr (.inl rfl))
    simpa [prettyChars, separated, words] using spells_openArray.then hbranch
  | .object [], _ => spells_openObject.then spells_closeObject.weaken
  | .object ((k, v) :: es), ⟨whole, wholes⟩ => by
    have hentry := spells_entry (k := k) spells_space (spells_pretty (depth + 1) v whole)
    have hbranch := spells_branch (spells_newline (depth + 1)) hentry (spells_prettyEntries (depth + 1) es wholes)
      (spells_closing depth spells_closeObject) fun _ => stops_cons (.inr (.inl rfl))
    simpa [prettyChars, separated, words] using spells_openObject.then hbranch

theorem spells_prettyItems (depth : Nat) : ∀ vs : List Json, WholeItems vs →
    Spells ((prettyItems depth vs).flatMap ((',' :: newline depth) ++ ·)) (wordsItems vs) Stops
  | [], _ => .nil
  | v :: vs, ⟨whole, wholes⟩ =>
    spells_next (spells_newline depth) (spells_pretty depth v whole) (spells_prettyItems depth vs wholes)

theorem spells_prettyEntries (depth : Nat) : ∀ es : List (String × Json), WholeEntries es →
    Spells ((prettyEntries depth es).flatMap ((',' :: newline depth) ++ ·)) (wordsEntries es) Stops
  | [], _ => .nil
  | (_, v) :: es, ⟨whole, wholes⟩ =>
    spells_next (spells_newline depth) (spells_entry spells_space (spells_pretty depth v whole))
      (spells_prettyEntries depth es wholes)

end

/-- In a text that spells these words the scanner finds them. -/
theorem Spells.tokens {text : Bytes} (h : Spells cs ws Stops) (holds : text = charBytes cs) : tokens text = ws := by
  obtain ⟨room, _, hscan⟩ := h [] (fun _ h => nomatch h) _ [] (Nat.le_refl _)
  rw [List.append_nil, List.append_nil] at hscan
  rw [Json.tokens, holds, hscan]
  cases room <;> exact List.reverse_reverse _

theorem tokens_pretty {v : Json} (whole : Whole v) : tokens (Bytes.ofText (pretty v)) = words v :=
  (spells_pretty 0 v whole).tokens (Bytes.ofText_ofList _)

end SignerBench.Json
