import SignerBench.Account
import SignerBench.Proofs.Results

namespace SignerBench.Text

/-- A number as it may be written: digits behind at most one plus sign. -/
inductive Numeral : List Char → Nat → Prop where
  | plain {digits : List Char} (some : digits ≠ []) (all : ∀ c ∈ digits, c.isDigit) :
      Numeral digits (Nat.ofDigitChars 10 digits 0)
  | signed {digits : List Char} (some : digits ≠ []) (all : ∀ c ∈ digits, c.isDigit) :
      Numeral ('+' :: digits) (Nat.ofDigitChars 10 digits 0)

variable {cs digits : List Char} {n : Nat}

theorem pieces_eq_splitOn (separator : Char) (cs : List Char) : pieces separator cs = cs.splitOn separator := by
  induction cs with
  | nil => exact (List.splitOn_nil separator).symm
  | cons c cs ih =>
    obtain ⟨p, ps, h⟩ := List.exists_cons_of_ne_nil (List.splitOn_ne_nil separator cs)
    rw [List.splitOn_cons_eq_if_modifyHead, pieces, ih, h]
    by_cases hc : c = separator <;> simp [hc]

theorem decimal_eq (digits : List Char) : decimal digits = Nat.ofDigitChars 10 digits 0 := by
  rw [Nat.ofDigitChars_eq_foldl]
  rfl

/-- Some digits, and nothing else. -/
theorem value_eq_some_iff :
    (if digits ≠ [] ∧ digits.all isDigit then some (decimal digits) else none) = some n ↔
      digits ≠ [] ∧ (∀ c ∈ digits, c.isDigit) ∧ Nat.ofDigitChars 10 digits 0 = n := by
  rw [Option.ite_none_right_eq_some, decimal_eq, List.all_eq_true, and_assoc, Option.some_inj]
  rfl

/-- Without a sign the whole text is to be digits. -/
theorem number?_unsigned (unsigned : ∀ rest, digits ≠ '+' :: rest) :
    number? digits = if digits ≠ [] ∧ digits.all isDigit then some (decimal digits) else none := by
  cases digits with
  | nil => rfl
  | cons c rest =>
    have hc : c ≠ '+' := fun h => unsigned rest (h ▸ rfl)
    simp [number?]

/-- Just the numerals are read as numbers, of whatever size. -/
theorem number?_eq_some_iff : number? cs = some n ↔ Numeral cs n := by
  constructor
  · intro h
    by_cases hsign : ∃ rest, cs = '+' :: rest
    · obtain ⟨rest, rfl⟩ := hsign
      obtain ⟨some, all, rfl⟩ := value_eq_some_iff.mp h
      exact .signed some all
    · rw [number?_unsigned fun rest hrest => hsign ⟨rest, hrest⟩] at h
      obtain ⟨some, all, rfl⟩ := value_eq_some_iff.mp h
      exact .plain some all
  · intro h
    cases h with
    | plain some all =>
      have unsigned : ∀ rest, cs ≠ '+' :: rest := by
        rintro rest rfl
        exact absurd (all '+' List.mem_cons_self) (by decide)
      rw [number?_unsigned unsigned]
      exact value_eq_some_iff.mpr ⟨some, all, rfl⟩
    | signed some all => exact value_eq_some_iff.mpr ⟨some, all, rfl⟩

/-- The usual digits of a number are one of its numerals. -/
theorem numeral_repr (n : Nat) : Numeral (Nat.toDigits 10 n) n := by
  have h := Numeral.plain (Nat.toDigits_ne_nil (n := n) (b := 10)) fun _ =>
    Nat.isDigit_of_mem_toDigits (by decide) (by decide)
  rwa [Nat.ofDigitChars_ten_toDigits] at h

theorem Numeral.not_mem {separator : Char} (h : Numeral cs n) (sign : separator ≠ '+')
    (other : separator.isDigit = false) : separator ∉ cs := by
  intro hmem
  cases h with
  | plain some all => exact absurd (all separator hmem) (by simp [other])
  | signed some all =>
    rcases List.mem_cons.mp hmem with h | h
    · exact sign h
    · exact absurd (all separator h) (by simp [other])

end SignerBench.Text

namespace SignerBench.Account.Path

open Text

def limit : Nat := 0x80000000

def Marks (c : Char) : Prop := c = '\x27' ∨ c = 'h'

/-- A component as it may be written: a number and a mark, which stand for the number's hardened word. -/
inductive Component : List Char → UInt32 → Prop where
  | mk {number : List Char} {n : Nat} {mark : Char} {word : UInt32} (numeral : Numeral number n) (small : n < limit)
      (marks : Marks mark) (value : word.toNat = limit + n) : Component (number ++ [mark]) word

inductive Spoiled : List Char → PathError → Prop where
  | unmarked {component : List Char} (unmarked : ∀ front mark, component = front ++ [mark] → ¬ Marks mark) :
      Spoiled component (.notHardened (.ofList component))
  | noIndex {front : List Char} {mark : Char} (marks : Marks mark)
      (unread : ∀ n, Numeral front n → limit ≤ n) :
      Spoiled (front ++ [mark]) (.invalidIndex (.ofList (front ++ [mark])))

/-- A path as it may be written. -/
inductive Written : List Char → Path → Prop where
  | mk {a b c : List Char} {p : Path} (purpose : Component a p.purpose) (coin : Component b p.coin)
      (account : Component c p.account) : Written ('m' :: '/' :: (a ++ '/' :: (b ++ '/' :: c))) p

/-- Why a text is no path. Of components that are wrong the first one counts. -/
inductive Rejected : List Char → PathError → Prop where
  | root {text : List Char} (rootless : ¬ ['m', '/'] <+: text) : Rejected text .missingRoot
  | length {rest : List Char} (other : (rest.splitOn '/').length ≠ 3) :
      Rejected ('m' :: '/' :: rest) (.wrongLength (rest.splitOn '/').length)
  | component {rest component : List Char} {before after : List (List Char)} {e : PathError}
      (three : (rest.splitOn '/').length = 3) (split : rest.splitOn '/' = before ++ component :: after)
      (good : ∀ c ∈ before, ∃ word, Component c word) (spoiled : Spoiled component e) :
      Rejected ('m' :: '/' :: rest) e

variable {component front rest : List Char} {word : UInt32} {e : PathError} {p : Path} {s : String}

/-- The highest bit is set if it was not, and nothing tells whether it was. -/
theorem toNat_hardened_or (x : UInt32) : (hardened ||| x).toNat = limit + x.toNat % limit := by
  have hx := x.toNat_lt
  have hhardened : hardened.toNat = 2 ^ 31 * 1 := rfl
  have hlow : x.toNat % 2 ^ 31 < 2 ^ 31 := Nat.mod_lt _ (by decide)
  have hsplit (a : Nat) := Nat.two_pow_add_eq_or_of_lt hlow a
  have hlimit : limit = 2 ^ 31 := rfl
  have htop : 2 ^ 31 * 1 ||| 2 ^ 31 * (x.toNat / 2 ^ 31) = 2 ^ 31 * 1 := by
    have htwo : x.toNat / 2 ^ 31 = 0 ∨ x.toNat / 2 ^ 31 = 1 := by omega
    rcases htwo with h | h <;> rw [h] <;> rfl
  calc (hardened ||| x).toNat
      = 2 ^ 31 * 1 ||| (2 ^ 31 * (x.toNat / 2 ^ 31) ||| x.toNat % 2 ^ 31) := by
        rw [UInt32.toNat_or, hhardened, ← hsplit, Nat.div_add_mod]
    _ = limit + x.toNat % limit := by
        rw [← Nat.or_assoc, htop, ← hsplit, Nat.mul_one, hlimit]

theorem toNat_unhardened (x : UInt32) : (x &&& ~~~hardened).toNat = x.toNat % limit := by
  have hmask : (~~~hardened).toNat = 2 ^ 31 - 1 := rfl
  rw [UInt32.toNat_and, hmask, Nat.and_two_pow_sub_one_eq_mod]
  rfl

theorem stripMark_concat (front : List Char) (mark : Char) :
    stripMark (front ++ [mark]) = if mark = '\x27' ∨ mark = 'h' then some front else none := by
  rw [stripMark, List.reverse_append, List.reverse_singleton, List.singleton_append]
  dsimp only
  rw [List.reverse_reverse]

/-- One mark at the end is taken away, of either kind. -/
theorem stripMark_eq_some_iff :
    stripMark component = some front ↔ ∃ mark, Marks mark ∧ component = front ++ [mark] := by
  rcases List.eq_nil_or_concat' component with rfl | ⟨init, last, rfl⟩
  · simp [stripMark]
  · rw [stripMark_concat, Option.ite_none_right_eq_some, Option.some_inj]
    constructor
    · rintro ⟨marks, rfl⟩
      exact ⟨last, marks, rfl⟩
    · rintro ⟨mark, marks, h⟩
      obtain ⟨rfl, rfl⟩ := List.append_singleton_inj.mp h
      exact ⟨marks, rfl⟩

theorem stripMark_eq_none_iff :
    stripMark component = none ↔ ∀ front mark, component = front ++ [mark] → ¬ Marks mark := by
  constructor
  · rintro h front mark rfl marks
    rw [stripMark_eq_some_iff.mpr ⟨mark, marks, rfl⟩] at h
    cases h
  · intro h
    cases hs : stripMark component with
    | none => rfl
    | some front =>
      obtain ⟨mark, marks, rfl⟩ := stripMark_eq_some_iff.mp hs
      exact absurd marks (h front mark rfl)

/-- With `readComponent_of_spoiled` and `component_or_spoiled` this says what is read of every component. -/
theorem readComponent_of_component (h : Component component word) : readComponent component = .ok word := by
  cases h with
  | @mk number n mark word numeral small marks value =>
    have hn : (UInt32.ofNat n).toNat = n := by
      unfold limit at small
      rw [UInt32.toNat_ofNat']
      omega
    have hword : hardened ||| UInt32.ofNat n = word := by
      apply UInt32.toNat_inj.mp
      rw [toNat_hardened_or, hn, Nat.mod_eq_of_lt small, value]
    rw [readComponent, stripMark_eq_some_iff.mpr ⟨mark, marks, rfl⟩]
    dsimp only
    rw [number?_eq_some_iff.mpr numeral, ← hword]
    exact if_pos small

theorem readComponent_of_spoiled (h : Spoiled component e) : readComponent component = .error e := by
  cases h with
  | unmarked unmarked => rw [readComponent, stripMark_eq_none_iff.mpr unmarked]
  | @noIndex front mark marks unread =>
    rw [readComponent, stripMark_eq_some_iff.mpr ⟨mark, marks, rfl⟩]
    dsimp only
    cases hnumber : number? front with
    | none => rfl
    | some n => exact if_neg (Nat.not_lt.mpr (unread n (number?_eq_some_iff.mp hnumber)))

theorem component_or_spoiled (component : List Char) :
    (∃ word, Component component word) ∨ ∃ e, Spoiled component e := by
  cases hmark : stripMark component with
  | none => exact .inr ⟨_, .unmarked (stripMark_eq_none_iff.mp hmark)⟩
  | some front =>
    obtain ⟨mark, marks, rfl⟩ := stripMark_eq_some_iff.mp hmark
    by_cases hnumber : ∃ n, Numeral front n ∧ n < limit
    · obtain ⟨n, numeral, small⟩ := hnumber
      have hvalue : (UInt32.ofNat (limit + n)).toNat = limit + n := by
        unfold limit at small ⊢
        rw [UInt32.toNat_ofNat']
        omega
      exact .inl ⟨_, .mk numeral small marks hvalue⟩
    · exact .inr ⟨_, .noIndex marks fun n numeral => Nat.le_of_not_lt fun small => hnumber ⟨n, numeral, small⟩⟩

theorem Component.not_mem (h : Component component word) : '/' ∉ component := by
  cases h with
  | mk numeral small marks value =>
    intro hmem
    rcases List.mem_append.mp hmem with hmem | hmem
    · exact numeral.not_mem (by decide) rfl hmem
    · rcases marks with rfl | rfl <;> exact absurd hmem (by decide)

theorem Component.hardened (h : Component component word) : limit ≤ word.toNat := by
  cases h with
  | mk _ _ _ value => exact value ▸ Nat.le_add_right _ _

def Hardened (p : Path) : Prop := ∀ c ∈ p.components, limit ≤ c.toNat

instance (p : Path) : Decidable p.Hardened := List.decidableBAll (fun c : UInt32 => limit ≤ c.toNat) p.components

/-- Behind the root a path is its three components, and their number is checked before any of them. -/
theorem parse_root (h : s.toList = 'm' :: '/' :: rest) : parse s = match rest.splitOn '/' with
    | [a, b, c] => do
      let purpose ← readComponent a
      let coin ← readComponent b
      let account ← readComponent c
      return ⟨purpose, coin, account⟩
    | parts => .error (.wrongLength parts.length) := by
  rw [parse, h, ← pieces_eq_splitOn]
  rfl

theorem parse_of_written (h : Written s.toList p) : parse s = .ok p := by
  generalize htext : s.toList = text at h
  cases h with
  | @mk a b c p purpose coin account =>
    have hsplit : (a ++ '/' :: (b ++ '/' :: c)).splitOn '/' = [a, b, c] := by
      rw [List.splitOn_append_cons_self_of_not_mem purpose.not_mem,
        List.splitOn_append_cons_self_of_not_mem coin.not_mem, List.splitOn_eq_singleton account.not_mem]
    rw [parse_root htext, hsplit]
    dsimp only
    rw [readComponent_of_component purpose, readComponent_of_component coin, readComponent_of_component account]
    rfl

/-- The components are read from left to right. -/
theorem parse_of_spoiled {before after : List (List Char)} (h : s.toList = 'm' :: '/' :: rest)
    (three : (rest.splitOn '/').length = 3) (split : rest.splitOn '/' = before ++ component :: after)
    (good : ∀ c ∈ before, ∃ word, Component c word) (spoiled : Spoiled component e) : parse s = .error e := by
  have hspoiled := readComponent_of_spoiled spoiled
  rw [parse_root h, split]
  rw [split] at three
  match before, after, three, good with
  | [], [b, c], _, _ =>
    dsimp only [List.nil_append]
    rw [hspoiled]
    rfl
  | [a], [c], _, good =>
    obtain ⟨word, ha⟩ := good a List.mem_cons_self
    dsimp only [List.cons_append, List.nil_append]
    rw [readComponent_of_component ha, hspoiled]
    rfl
  | [a, b], [], _, good =>
    obtain ⟨word, ha⟩ := good a List.mem_cons_self
    obtain ⟨word', hb⟩ := good b (List.mem_cons_of_mem _ List.mem_cons_self)
    dsimp only [List.cons_append, List.nil_append]
    rw [readComponent_of_component ha, readComponent_of_component hb, hspoiled]
    rfl
  | _ :: _ :: _ :: _, _, three, _ =>
    simp only [List.cons_append, List.length_cons, List.length_append] at three
    omega

/-- Whatever is wrong with a text, the first check that finds something tells it. -/
theorem parse_of_rejected (h : Rejected s.toList e) : parse s = .error e := by
  generalize htext : s.toList = text at h
  cases h with
  | root rootless =>
    unfold parse
    rw [htext]
    split
    · exact absurd ⟨_, rfl⟩ rootless
    · rfl
  | @length rest other =>
    rw [parse_root htext]
    split
    case h_1 hsplit => exact absurd (hsplit ▸ rfl) other
    case h_2 => rfl
  | component three split good spoiled => exact parse_of_spoiled htext three split good spoiled

/-- Of components in a row all are good, or one is the first that is spoiled. -/
theorem components_or_spoiled (components : List (List Char)) :
    (∀ c ∈ components, ∃ word, Component c word) ∨ ∃ before component after e,
      components = before ++ component :: after ∧ (∀ c ∈ before, ∃ word, Component c word) ∧ Spoiled component e := by
  induction components with
  | nil => exact .inl (List.forall_mem_nil _)
  | cons component rest ih =>
    rcases component_or_spoiled component with good | ⟨e, spoiled⟩
    · rcases ih with hrest | ⟨before, c, after, e, rfl, hbefore, spoiled⟩
      · exact .inl (List.forall_mem_cons.mpr ⟨good, hrest⟩)
      · exact .inr ⟨component :: before, c, after, e, rfl, List.forall_mem_cons.mpr ⟨good, hbefore⟩, spoiled⟩
    · exact .inr ⟨[], component, rest, e, rfl, List.forall_mem_nil _, spoiled⟩

/-- A text is written as a path or rejected for a reason, and never both, as `parse` tells one thing of it. -/
theorem written_or_rejected (text : List Char) : (∃ p, Written text p) ∨ ∃ e, Rejected text e := by
  by_cases root : ['m', '/'] <+: text
  case neg => exact .inr ⟨_, .root root⟩
  obtain ⟨rest, rfl⟩ := root
  by_cases three : (rest.splitOn '/').length = 3
  case neg => exact .inr ⟨_, .length three⟩
  rcases components_or_spoiled (rest.splitOn '/') with good | ⟨before, component, after, e, split, good, spoiled⟩
  · obtain ⟨a, b, c, hsplit⟩ := List.length_eq_three.mp three
    have joined : ['/'].intercalate (rest.splitOn '/') = rest := List.intercalate_splitOn '/'
    have hrest : rest = a ++ '/' :: (b ++ '/' :: c) := by
      rw [← joined, hsplit]
      simp [List.intercalate]
    rw [hsplit] at good
    obtain ⟨purpose, ha⟩ := good a (by simp)
    obtain ⟨coin, hb⟩ := good b (by simp)
    obtain ⟨account, hc⟩ := good c (by simp)
    exact .inl ⟨⟨purpose, coin, account⟩, hrest ▸ .mk ha hb hc⟩
  · exact .inr ⟨e, .component three split good spoiled⟩

/-- The texts that are read are known without the parser. -/
theorem parse_ok_iff : parse s = .ok p ↔ Written s.toList p := by
  refine ⟨fun h => ?_, parse_of_written⟩
  rcases written_or_rejected s.toList with ⟨p', written⟩ | ⟨e, rejected⟩
  · cases h.symm.trans (parse_of_written written)
    exact written
  · cases h.symm.trans (parse_of_rejected rejected)

theorem parse_error_iff : parse s = .error e ↔ Rejected s.toList e := by
  refine ⟨fun h => ?_, parse_of_rejected⟩
  rcases written_or_rejected s.toList with ⟨p, written⟩ | ⟨e', rejected⟩
  · cases h.symm.trans (parse_of_written written)
  · cases h.symm.trans (parse_of_rejected rejected)
    exact rejected

theorem Written.hardened {text : List Char} (h : Written text p) : p.Hardened := by
  cases h with
  | mk purpose coin account =>
    intro c hc
    simp only [components, List.mem_cons, List.not_mem_nil, or_false] at hc
    rcases hc with rfl | rfl | rfl
    · exact purpose.hardened
    · exact coin.hardened
    · exact account.hardened

theorem hardened_forAccount (account : UInt32) : (forAccount account).Hardened := by
  intro c hc
  simp only [forAccount, components, List.mem_cons, List.not_mem_nil, or_false] at hc
  rcases hc with rfl | rfl | rfl <;> rw [toNat_hardened_or] <;> exact Nat.le_add_right _ _

def componentText (c : UInt32) : List Char := Nat.toDigits 10 (c.toNat % limit) ++ ['\x27']

theorem toList_toText (p : Path) : p.toText.toList = 'm' :: '/' :: (componentText p.purpose ++
    '/' :: (componentText p.coin ++ '/' :: componentText p.account)) := by
  simp only [toText, components, List.map_cons, List.map_nil, toNat_unhardened, Nat.toString_eq_repr]
  simp [componentText, String.join, Nat.toList_repr]

theorem component_componentText {c : UInt32} (h : limit ≤ c.toNat) : Component (componentText c) c := by
  have hvalue : limit + c.toNat % limit = c.toNat := by
    have hc := c.toNat_lt
    unfold limit at h ⊢
    omega
  exact .mk (numeral_repr _) (Nat.mod_lt _ (by decide)) (.inl rfl) hvalue.symm

theorem written_toText (h : p.Hardened) : Written p.toText.toList p := by
  rw [toList_toText]
  refine .mk (component_componentText (h _ ?_)) (component_componentText (h _ ?_)) (component_componentText (h _ ?_))
  all_goals simp [components]

/-- A text is read as a path if and only if it is written as one. Else the first thing that is wrong with it is told:
its root, the number of its components, or the first of these that is spoiled. Paths that are read, and those of
accounts, have hardened components only, and every such path is read back from its text. -/
theorem parse_exact :
    (∀ s p, parse s = .ok p ↔ Written s.toList p) ∧ (∀ s e, parse s = .error e ↔ Rejected s.toList e) ∧
      (∀ p : Path, p.Hardened → parse p.toText = .ok p) ∧ (∀ s p, parse s = .ok p → p.Hardened) ∧
        ∀ account, (forAccount account).Hardened :=
  ⟨fun _ _ => parse_ok_iff, fun _ _ => parse_error_iff, fun _ h => parse_of_written (written_toText h),
    fun _ _ h => (parse_ok_iff.mp h).hardened, hardened_forAccount⟩

def edges : Path := ⟨0x80000000, 0xffffffff, 0x80000007⟩

theorem edges_reread : edges.Hardened ∧ edges.toText = "m/0'/2147483647'/7'" ∧ parse edges.toText = .ok edges := by
  have hardened : edges.Hardened := by decide
  exact ⟨hardened, by decide +kernel, parse_exact.2.2.1 edges hardened⟩

def accountText (account : UInt32) : String := "m/44'/6532'/" ++ toString account.toNat ++ "'"

variable {account : UInt32}

theorem toList_accountText (account : UInt32) : (accountText account).toList = 'm' :: '/' :: (['4', '4', '\x27'] ++
    '/' :: (['6', '5', '3', '2', '\x27'] ++ '/' :: (Nat.toDigits 10 account.toNat ++ ['\x27']))) := by
  simp [accountText, Nat.toString_eq_repr, Nat.toList_repr]

theorem component_purpose : Component ['4', '4', '\x27'] (hardened ||| 44) :=
  @Component.mk ['4', '4'] 44 '\x27' _ (numeral_repr 44) (by decide) (.inl rfl) rfl

theorem component_coin : Component ['6', '5', '3', '2', '\x27'] (hardened ||| coinType) :=
  @Component.mk ['6', '5', '3', '2'] 6532 '\x27' _ (numeral_repr 6532) (by decide) (.inl rfl) rfl

theorem parse_accountText (small : account.toNat < limit) : parse (accountText account) = .ok (forAccount account) := by
  apply parse_of_written
  rw [toList_accountText]
  refine .mk component_purpose component_coin (.mk (numeral_repr _) small (.inl rfl) ?_)
  exact (toNat_hardened_or account).trans (by rw [Nat.mod_eq_of_lt small])

/-- The two components before the account are good, so the account is what is wrong. -/
theorem parse_accountText_large (large : limit ≤ account.toNat) :
    parse (accountText account) = .error (.invalidIndex (toString account.toNat ++ "'")) := by
  have unread : ∀ n, Numeral (Nat.toDigits 10 account.toNat) n → limit ≤ n := by
    intro n numeral
    have hn := number?_eq_some_iff.mpr numeral
    rw [number?_eq_some_iff.mpr (numeral_repr _)] at hn
    exact Option.some.inj hn ▸ large
  have hslash : '/' ∉ Nat.toDigits 10 account.toNat ++ ['\x27'] := by
    intro hmem
    rcases List.mem_append.mp hmem with hmem | hmem
    · exact (numeral_repr _).not_mem (by decide) rfl hmem
    · exact absurd hmem (by decide)
  have hsplit : (['4', '4', '\x27'] ++ '/' :: (['6', '5', '3', '2', '\x27'] ++ '/' ::
      (Nat.toDigits 10 account.toNat ++ ['\x27']))).splitOn '/' =
        [['4', '4', '\x27'], ['6', '5', '3', '2', '\x27']] ++ [Nat.toDigits 10 account.toNat ++ ['\x27']] := by
    rw [List.splitOn_append_cons_self_of_not_mem component_purpose.not_mem,
      List.splitOn_append_cons_self_of_not_mem component_coin.not_mem, List.splitOn_eq_singleton hslash]
    rfl
  have htext : String.ofList (Nat.toDigits 10 account.toNat ++ ['\x27']) = toString account.toNat ++ "'" := by
    apply String.toList_inj.mp
    simp [Nat.toString_eq_repr, Nat.toList_repr]
  apply parse_of_rejected
  rw [toList_accountText, ← htext]
  refine .component (by rw [hsplit]; rfl) hsplit ?_ (.noIndex (.inl rfl) unread)
  intro c hc
  simp only [List.mem_cons, List.not_mem_nil, or_false] at hc
  rcases hc with rfl | rfl
  · exact ⟨_, component_purpose⟩
  · exact ⟨_, component_coin⟩

theorem toText_forAccount (account : UInt32) :
    (forAccount account).toText = accountText (account &&& ~~~hardened) := by
  apply String.toList_inj.mp
  rw [toList_toText, toList_accountText, toNat_unhardened]
  have haccount : componentText (forAccount account).account = Nat.toDigits 10 (account.toNat % limit) ++ ['\x27'] := by
    have hmod : (hardened ||| account).toNat % limit = account.toNat % limit := by
      rw [toNat_hardened_or, Nat.add_mod_left, Nat.mod_mod]
    rw [← hmod]
    rfl
  have hpurpose : componentText (forAccount account).purpose = ['4', '4', '\x27'] := by
    change componentText (hardened ||| 44) = _
    decide
  have hcoin : componentText (forAccount account).coin = ['6', '5', '3', '2', '\x27'] := by
    change componentText (hardened ||| coinType) = _
    decide
  rw [haccount, hpurpose, hcoin]

/-- Accounts share a path just if they are the same but for the highest bit. -/
theorem forAccount_eq_iff {other : UInt32} :
    forAccount account = forAccount other ↔ account.toNat % limit = other.toNat % limit := by
  have hwords : forAccount account = forAccount other ↔ hardened ||| account = hardened ||| other := by
    simp [forAccount]
  rw [hwords, ← UInt32.toNat_inj, toNat_hardened_or, toNat_hardened_or, Nat.add_left_cancel_iff]

theorem unhardened_small (small : account.toNat < limit) : account &&& ~~~hardened = account := by
  apply UInt32.toNat_inj.mp
  rw [toNat_unhardened, Nat.mod_eq_of_lt small]

/-- The path of an account below the limit is the one that its text names, and is written as that text. From the limit
on the text is refused, and the path is that of the account with the number less by the limit: there are as many paths
as numbers below it. -/
theorem forAccount_exact (account : UInt32) :
    (account.toNat < limit → parse (accountText account) = .ok (forAccount account) ∧
      (forAccount account).toText = accountText account) ∧
    (limit ≤ account.toNat → parse (accountText account) = .error (.invalidIndex (toString account.toNat ++ "'")) ∧
      forAccount account = forAccount (account - 0x80000000) ∧
        (forAccount account).toText = accountText (account - 0x80000000)) ∧
    ∀ other, forAccount account = forAccount other ↔ account.toNat % limit = other.toNat % limit := by
  refine ⟨fun small => ⟨parse_accountText small, ?_⟩, fun large => ?_, fun other => forAccount_eq_iff⟩
  · rw [toText_forAccount, unhardened_small small]
  · have hsub : (account - 0x80000000).toNat = account.toNat - limit := UInt32.toNat_sub_of_le _ _ large
    have hsmall : (account - 0x80000000).toNat < limit := by
      have haccount := account.toNat_lt
      unfold limit at hsub ⊢
      omega
    have hpath : forAccount account = forAccount (account - 0x80000000) :=
      forAccount_eq_iff.mpr (by rw [hsub, Nat.mod_eq_sub_mod large])
    refine ⟨parse_accountText_large large, hpath, ?_⟩
    rw [hpath, toText_forAccount, unhardened_small hsmall]

/-- The last account with a path of its own. -/
theorem last_account_named : (0x7fffffff : UInt32).toNat < limit ∧
    parse (accountText 0x7fffffff) = .ok (forAccount 0x7fffffff) ∧
      (forAccount 0x7fffffff).toText = accountText 0x7fffffff := by
  have small : (0x7fffffff : UInt32).toNat < limit := by decide
  exact ⟨small, (forAccount_exact 0x7fffffff).1 small⟩

/-- The first account behind the limit has the path of account zero, although its text is refused. -/
theorem account_at_limit_confused : forAccount 0x80000000 = forAccount 0 ∧
    parse (accountText 0x80000000) = .error (.invalidIndex "2147483648'") ∧
      (forAccount 0x80000000).toText ≠ accountText 0x80000000 := by
  have large : limit ≤ (0x80000000 : UInt32).toNat := by decide
  refine ⟨rfl, parse_accountText_large large, ?_⟩
  decide +kernel

end SignerBench.Account.Path
