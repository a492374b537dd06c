import Mathlib.Algebra.Group.Nat.Defs
import SignerBench.Proofs.Directories
import SignerBench.Proofs.FilePath
import SignerBench.Snapshot.Goldens

namespace SignerBench.Text

theorem ofDigits_cons (c : Char) (cs : List Char) :
    Nat.ofDigitChars 10 (c :: cs) 0 = 10 ^ cs.length * (c.toNat - '0'.toNat) + Nat.ofDigitChars 10 cs 0 := by
  rw [Nat.ofDigitChars_cons, Nat.mul_zero, Nat.zero_add, Nat.ofDigitChars_eq_ofDigitChars_zero]

theorem ofDigits_lt {cs : List Char} (h : ∀ c ∈ cs, c.isDigit) : Nat.ofDigitChars 10 cs 0 < 10 ^ cs.length := by
  induction cs with
  | nil => decide
  | cons c cs ih =>
    obtain ⟨hc, hcs⟩ := List.forall_mem_cons.mp h
    have hdigit : c.toNat - '0'.toNat ≤ 9 := by
      have hc' : c.toNat ≤ 57 := (Char.isDigit_iff_toNat.mp hc).2
      have hzero : '0'.toNat = 48 := rfl
      omega
    have hrest := ih hcs
    have hmul := Nat.mul_le_mul_left (10 ^ cs.length) hdigit
    rw [ofDigits_cons, List.length_cons, Nat.pow_succ]
    omega

/-- Of rows that have one length, the one with the larger first digit is the larger number. -/
theorem ofDigits_lt_of_head {c d : Char} {cs ds : List Char} (hc : c.isDigit) (hcs : ∀ c ∈ cs, c.isDigit)
    (hlen : cs.length = ds.length) (h : c.toNat < d.toNat) :
    Nat.ofDigitChars 10 (c :: cs) 0 < Nat.ofDigitChars 10 (d :: ds) 0 := by
  have hlead : c.toNat - '0'.toNat + 1 ≤ d.toNat - '0'.toNat := by
    have hc' := (Char.isDigit_iff_toNat.mp hc).1
    omega
  have hmul := Nat.mul_le_mul_left (10 ^ cs.length) hlead
  have hbound := ofDigits_lt hcs
  rw [Nat.mul_add, Nat.mul_one] at hmul
  rw [ofDigits_cons, ofDigits_cons, ← hlen]
  omega

/-- Of rows of digits that have one length the smaller number comes first. Behind the same row the rest decides. -/
theorem digits_lt_iff {a b : List Char} (ha : ∀ c ∈ a, c.isDigit) (hb : ∀ c ∈ b, c.isDigit)
    (hlen : a.length = b.length) (x y : List Char) :
    a ++ x < b ++ y ↔ Nat.ofDigitChars 10 a 0 < Nat.ofDigitChars 10 b 0 ∨ a = b ∧ x < y := by
  induction a generalizing b with
  | nil =>
    cases b with
    | nil => simp
    | cons d ds => cases hlen
  | cons c cs ih =>
    cases b with
    | nil => cases hlen
    | cons d ds =>
      obtain ⟨hc, hcs⟩ := List.forall_mem_cons.mp ha
      obtain ⟨hd, hds⟩ := List.forall_mem_cons.mp hb
      have hlen' : cs.length = ds.length := Nat.succ.inj hlen
      rw [List.cons_append, List.cons_append, List.cons_lt_cons_iff]
      rcases Nat.lt_trichotomy c.toNat d.toNat with hcd | hcd | hcd
      · exact iff_of_true (.inl hcd) (.inl (ofDigits_lt_of_head hc hcs hlen' hcd))
      · obtain rfl := Char.toNat_inj.mp hcd
        rw [ofDigits_cons, ofDigits_cons, hlen', Nat.add_lt_add_iff_left, List.cons_inj_right, ih hcs hds hlen']
        simp
      · have hvalue := ofDigits_lt_of_head hd hds hlen'.symm hcd
        refine iff_of_false ?_ ?_
        · rintro (hlt | ⟨rfl, _⟩)
          · exact Nat.lt_asymm hcd hlt
          · exact Nat.lt_irrefl _ hcd
        · rintro (hlt | ⟨heq, _⟩)
          · exact Nat.lt_asymm hvalue hlt
          · rw [heq] at hvalue
            exact Nat.lt_irrefl _ hvalue

/-- Rows of digits that have one length tell their number apart. -/
theorem ofDigits_injective {a b : List Char} (ha : ∀ c ∈ a, c.isDigit) (hb : ∀ c ∈ b, c.isDigit)
    (hlen : a.length = b.length) (h : Nat.ofDigitChars 10 a 0 = Nat.ofDigitChars 10 b 0) : a = b := by
  have hab := digits_lt_iff ha hb hlen [] []
  have hba := digits_lt_iff hb ha hlen.symm [] []
  rw [List.append_nil, List.append_nil, h] at hab hba
  exact List.le_antisymm (List.not_lt.mp (by simp [hba])) (List.not_lt.mp (by simp [hab]))

/-- The first digits of a row are those of the quotient by a power of ten. -/
theorem ofDigits_take {cs : List Char} (h : ∀ c ∈ cs, c.isDigit) (n : Nat) :
    Nat.ofDigitChars 10 (cs.take n) 0 = Nat.ofDigitChars 10 cs 0 / 10 ^ (cs.length - n) := by
  have hrest : Nat.ofDigitChars 10 (cs.drop n) 0 < 10 ^ (cs.drop n).length :=
    ofDigits_lt fun c hc => h c (List.mem_of_mem_drop hc)
  have hsplit : Nat.ofDigitChars 10 cs 0 =
      10 ^ (cs.drop n).length * Nat.ofDigitChars 10 (cs.take n) 0 + Nat.ofDigitChars 10 (cs.drop n) 0 := by
    rw [← Nat.ofDigitChars_eq_ofDigitChars_zero, ← Nat.ofDigitChars_append, List.take_append_drop]
  rw [hsplit, ← List.length_drop, Nat.mul_add_div (Nat.pow_pos (by decide)), Nat.div_eq_of_lt hrest, Nat.add_zero]

theorem padded_toList (width n : Nat) :
    (padded width n).toList = List.replicate (width - n.repr.length) '0' ++ Nat.toDigits 10 n := by
  rw [padded, String.toList_append, String.toList_ofList, Nat.toString_eq_repr, Nat.toList_repr]

theorem padded_digits (width n : Nat) : ∀ c ∈ (padded width n).toList, c.isDigit := by
  intro c hc
  rw [padded_toList] at hc
  rcases List.mem_append.mp hc with hc | hc
  · rw [List.eq_of_mem_replicate hc]
    rfl
  · exact Nat.isDigit_of_mem_toDigits (by decide) (by decide) hc

theorem padded_value (width n : Nat) : Nat.ofDigitChars 10 (padded width n).toList 0 = n := by
  rw [padded_toList, Nat.ofDigitChars_append, Nat.ofDigitChars_replicate_zero, Nat.mul_zero,
    Nat.ofDigitChars_ten_toDigits]

/-- A number that is longer than the width is not cut. -/
theorem padded_length (width n : Nat) : (padded width n).toList.length = max width n.repr.length := by
  rw [padded_toList, List.length_append, List.length_replicate, ← Nat.toList_repr, String.length_toList]
  omega

theorem utf8ByteSize_le (cs : List Char) : (String.ofList cs).utf8ByteSize ≤ 4 * cs.length := by
  induction cs with
  | nil => decide
  | cons c cs ih =>
    have hchar := c.utf8Size_le_four
    rw [String.ofList_cons, String.utf8ByteSize_append, String.utf8ByteSize_singleton, List.length_cons]
    omega

end SignerBench.Text

namespace SignerBench.Snapshot

open Files

theorem fileName_toList (index : Nat) : (fileName index).toList = (Text.padded 5 index).toList ++ ".png".toList :=
  String.toList_append

theorem fileName_injective {i j : Nat} (h : fileName i = fileName j) : i = j := by
  have hdigits : (Text.padded 5 i).toList = (Text.padded 5 j).toList :=
    List.append_cancel_right (by rw [← fileName_toList, ← fileName_toList, h])
  rw [← Text.padded_value 5 i, ← Text.padded_value 5 j, hdigits]

/-- How many digits the number of a place has in the name of its file. -/
def width (index : Nat) : Nat := max 5 index.repr.length

theorem width_le_iff {index digits : Nat} (h : 5 ≤ digits) : width index ≤ digits ↔ index < 10 ^ digits := by
  rw [width, Nat.max_le, and_iff_right h, Nat.length_repr_le_iff (by omega)]

theorem lt_width (index : Nat) : index < 10 ^ width index := (width_le_iff (Nat.le_max_left ..)).mp (Nat.le_refl _)

theorem width_mono {i j : Nat} (h : i ≤ j) : width i ≤ width j :=
  (width_le_iff (Nat.le_max_left ..)).mpr (Nat.lt_of_le_of_lt h (lt_width j))

theorem width_of_few {index : Nat} (h : index < 100000) : width index = 5 :=
  Nat.le_antisymm ((width_le_iff (Nat.le_refl 5)).mpr h) (Nat.le_max_left ..)

/-- A number that is not padded has as many digits as its powers of ten tell. -/
theorem le_of_width {index digits : Nat} (h : 5 ≤ digits) (more : digits < width index) : 10 ^ digits ≤ index :=
  Nat.le_of_not_lt fun hlt => Nat.not_le_of_lt more ((width_le_iff h).mpr hlt)

theorem digits_length (index : Nat) : (Text.padded 5 index).toList.length = width index := Text.padded_length 5 index

/-- The file of a smaller number comes first if and only if the larger number shows at least as much in as many digits
from its left. -/
theorem fileName_lt_iff {i j : Nat} (h : i < j) : fileName i < fileName j ↔ i ≤ j / 10 ^ (width j - width i) := by
  have hdigits := Text.padded_digits 5 j
  have hfront (c : Char) (hc : c ∈ (Text.padded 5 j).toList.take (width i)) : c.isDigit :=
    hdigits c (List.mem_of_mem_take hc)
  have hlen : (Text.padded 5 i).toList.length = ((Text.padded 5 j).toList.take (width i)).length := by
    rw [List.length_take, digits_length, digits_length, Nat.min_eq_left (width_mono (Nat.le_of_lt h))]
  have hvalue := Text.ofDigits_take hdigits (width i)
  rw [Text.padded_value, digits_length] at hvalue
  rw [String.lt_iff, fileName_toList, fileName_toList, ← List.take_append_drop (width i) (Text.padded 5 j).toList,
    List.append_assoc, Text.digits_lt_iff (Text.padded_digits 5 i) hfront hlen, Text.padded_value, hvalue]
  constructor
  · rintro (hlt | ⟨heq, _⟩)
    · exact Nat.le_of_lt hlt
    · rw [← heq, Text.padded_value] at hvalue
      exact Nat.le_of_eq hvalue
  · intro hle
    refine (Nat.lt_or_eq_of_le hle).imp_right fun heq => ⟨?_, ?_⟩
    · exact Text.ofDigits_injective (Text.padded_digits 5 i) hfront hlen
        (((Text.padded_value 5 i).trans heq).trans hvalue.symm)
    -- The longer number goes on with a digit, the shorter one with the point.
    · cases hrest : (Text.padded 5 j).toList.drop (width i) with
      | nil =>
        have hwidth := List.drop_eq_nil_iff.mp hrest
        rw [digits_length, ← Nat.sub_eq_zero_iff_le] at hwidth
        rw [hwidth, Nat.pow_zero, Nat.div_one] at heq
        omega
      | cons d ds =>
        have hd := hdigits d (List.mem_of_mem_drop (hrest ▸ List.mem_cons_self))
        have hpoint : '.'.toNat < d.toNat := Nat.lt_of_lt_of_le (by decide) (Char.isDigit_iff_toNat.mp hd).1
        exact List.cons_lt_cons_iff.mpr (.inl hpoint)

theorem fileName_lt {i j : Nat} (h : i < j) (hj : j < 100000) : fileName i < fileName j := by
  rw [fileName_lt_iff h, width_of_few hj, width_of_few (Nat.lt_trans h hj), Nat.sub_self, Nat.pow_zero, Nat.div_one]
  exact Nat.le_of_lt h

theorem fileName_length (index : Nat) : 4 < (fileName index).toList.length := by
  have hdigits : 5 ≤ width index := Nat.le_max_left ..
  have hpng : ".png".toList.length = 4 := rfl
  rw [fileName_toList, List.length_append, digits_length]
  omega

theorem fileName_ne {name : String} (index : Nat) (short : name.toList.length ≤ 4) : fileName index ≠ name := by
  rintro rfl
  exact absurd (fileName_length index) (by omega)

theorem fileName_plain (index : Nat) : Plain (fileName index) where
  nonempty := fileName_ne index (by decide)
  slash h := by
    rw [fileName_toList] at h
    rcases List.mem_append.mp h with h | h
    · exact absurd (Text.padded_digits 5 index _ h) (by decide)
    · exact absurd h (by decide)

theorem fileName_proper (index : Nat) : Proper (fileName index) :=
  ⟨fileName_ne index (by decide), fileName_ne index (by decide)⟩

theorem fileName_no_zero (index : Nat) : hasZero (fileName index) = false := by
  rw [hasZero, fileName_toList, List.contains_append, Bool.or_eq_false_iff]
  refine ⟨Bool.eq_false_iff.mpr fun hzero => ?_, by decide⟩
  exact absurd (Text.padded_digits 5 index _ (List.contains_iff_mem.mp hzero)) (by decide)

theorem fileName_size {index : Nat} (h : index < 1000000) : (fileName index).utf8ByteSize ≤ 40 := by
  have hwidth : width index ≤ 6 := (width_le_iff (by decide)).mpr h
  have hsize := Text.utf8ByteSize_le (fileName index).toList
  have hpng : ".png".toList.length = 4 := rfl
  rw [String.ofList_toList, fileName_toList, List.length_append, digits_length] at hsize
  omega

theorem endsWith_fileName (index : Nat) : (fileName index).endsWith ".png" = true :=
  endsWith_iff.mpr ⟨(Text.padded 5 index).toList, (fileName_toList index).symm⟩

theorem isImage_fileName (index : Nat) : Goldens.isImage (fileName index) = true := by
  have hne : fileName index ≠ ".png" := fileName_ne index (by decide)
  simp [Goldens.isImage, endsWith_fileName, hne]

theorem fileName_lt_of_le {i j : Nat} (ne : i ≠ j) (h : fileName i ≤ fileName j) : fileName i < fileName j :=
  String.not_le.mp fun hle => ne (fileName_injective (String.le_antisymm h hle))

/-- How many of the first `count` files are listed before that of this place. -/
def rank (count place : Nat) : Nat := (List.range count).countP fun i => decide (fileName i < fileName place)

theorem rank_eq {count place n : Nat} (h : n ≤ count) (below : ∀ i < n, fileName i < fileName place)
    (above : ∀ i, n ≤ i → i < count → ¬ fileName i < fileName place) : rank count place = n := by
  obtain ⟨m, rfl⟩ := Nat.exists_eq_add_of_le h
  have hbelow : (List.range n).countP (fun i => decide (fileName i < fileName place)) = n := by
    refine (List.countP_eq_length.mpr fun i hi => ?_).trans List.length_range
    exact decide_eq_true (below i (List.mem_range.mp hi))
  have habove : ((List.range m).map (n + ·)).countP (fun i => decide (fileName i < fileName place)) = 0 := by
    refine List.countP_eq_zero.mpr fun i hi => ?_
    obtain ⟨k, hk, rfl⟩ := List.mem_map.mp hi
    rw [decide_eq_true_eq]
    exact above _ (Nat.le_add_right ..) (Nat.add_lt_add_left (List.mem_range.mp hk) n)
  rw [rank, List.range_add, List.countP_append, hbelow, habove, Nat.add_zero]

/-- While the numbers have one length, the listing has them in their order. -/
theorem rank_of_few {count place : Nat} (few : count ≤ 100000) (h : place < count) : rank count place = place := by
  refine rank_eq (Nat.le_of_lt h) (fun i hi => fileName_lt hi (by omega)) fun i hi hcount => ?_
  rcases Nat.lt_or_eq_of_le hi with hlt | rfl
  · exact String.lt_asymm (fileName_lt hlt (by omega))
  · exact String.lt_irrefl _

/-- Of the five-digit names, those up to `10000.png` come before `100000.png`. -/
theorem fileName_lt_early {i : Nat} (h : i < 100000) : fileName i < fileName 100000 ↔ i ≤ 10000 := by
  have hwidth : width 100000 = 6 := rfl
  have hfirst : 100000 / 10 ^ (6 - 5) = 10000 := rfl
  rw [fileName_lt_iff h, hwidth, width_of_few h, hfirst]

/-- Of the numbers that are too long the first is listed first. -/
theorem fileName_lt_late {i : Nat} (h : 100000 < i) : fileName 100000 < fileName i := by
  have hwidth : width 100000 = 6 := rfl
  have hdigits : 6 ≤ width i := hwidth ▸ width_mono (Nat.le_of_lt h)
  have hpow : 10 ^ (width i - 1) ≤ i := le_of_width (by omega) (by omega)
  have hsplit : 10 ^ (width i - 1) = 100000 * 10 ^ (width i - 6) := by
    rw [← Nat.pow_add 10 5]
    congr 1
    omega
  rw [fileName_lt_iff h, hwidth, Nat.le_div_iff_mul_le (Nat.pow_pos (by decide)), ← hsplit]
  exact hpow

/-- The first number that is too long comes right behind the one of its first digits. -/
theorem rank_of_many {count : Nat} (many : 100000 < count) : rank count 100000 = 10001 := by
  refine rank_eq (by omega) (fun i hi => (fileName_lt_early (by omega)).mpr (by omega)) fun i hi _ => ?_
  rcases Nat.lt_trichotomy i 100000 with hlt | rfl | hlt
  · rw [fileName_lt_early hlt]
    omega
  · exact String.lt_irrefl _
  · exact String.lt_asymm (fileName_lt_late hlt)

/-- In a row of the first places that is ordered as the listing, each stands at its rank. -/
theorem getElem?_rank {count place : Nat} {order : List Nat} (all : order.Perm (List.range count))
    (sorted : order.Pairwise fun i j => fileName i < fileName j) (h : place < count) :
    order[rank count place]? = some place := by
  obtain ⟨front, rest, rfl⟩ := List.append_of_mem (all.mem_iff.mpr (List.mem_range.mpr h))
  obtain ⟨_, hrest, hfront⟩ := List.pairwise_append.mp sorted
  have hbefore : front.countP (fun i => decide (fileName i < fileName place)) = front.length :=
    List.countP_eq_length.mpr fun i hi => decide_eq_true (hfront i hi place List.mem_cons_self)
  have hbehind : (place :: rest).countP (fun i => decide (fileName i < fileName place)) = 0 := by
    refine List.countP_eq_zero.mpr fun i hi => ?_
    rw [decide_eq_true_eq]
    rcases List.mem_cons.mp hi with rfl | hi
    · exact String.lt_irrefl _
    · exact String.lt_asymm (List.rel_of_pairwise_cons hrest hi)
  rw [rank, ← all.countP_eq, List.countP_append, hbefore, hbehind, Nat.add_zero,
    List.getElem?_append_right (Nat.le_refl _), Nat.sub_self, List.getElem?_cons_zero]

/-- The pictures of a set in the order of the listing, each at its rank. -/
structure Arranged (snapshots listed : List Snapshot) : Prop where
  length : listed.length = snapshots.length
  picture : ∀ place < snapshots.length, listed[rank snapshots.length place]? = snapshots[place]?

variable {snapshots listed : List Snapshot}

/-- An order of the files that fits the listing puts each of them at its rank, as no two have one name. -/
theorem arranged_of_sorted {entries : List (Snapshot × Nat)} (all : entries.Perm snapshots.zipIdx)
    (sorted : entries.Pairwise fun a b => fileName a.2 < fileName b.2) :
    Arranged snapshots (entries.map Prod.fst) where
  length := by rw [List.length_map, all.length_eq, List.length_zipIdx]
  picture place h := by
    have hplaces : (entries.map Prod.snd).Perm (List.range snapshots.length) := by
      rw [List.range_eq_range', ← List.zipIdx_map_snd]
      exact all.map _
    have hrank := getElem?_rank hplaces (List.pairwise_map.mpr sorted) h
    rw [List.getElem?_map, Option.map_eq_some_iff] at hrank
    obtain ⟨entry, hentry, rfl⟩ := hrank
    rw [List.getElem?_map, hentry, Option.map_some]
    exact (List.mem_zipIdx_iff_getElem?.mp (all.mem_iff.mp (List.mem_of_getElem? hentry))).symm

/-- Up to 100000 pictures come back in the order of their capture. -/
theorem Arranged.eq_of_few (h : Arranged snapshots listed) (few : snapshots.length ≤ 100000) : listed = snapshots := by
  refine List.ext_getElem? fun place => ?_
  by_cases hplace : place < snapshots.length
  · rw [← h.picture place hplace, rank_of_few few hplace]
  · rw [List.getElem?_eq_none (h.length ▸ Nat.le_of_not_lt hplace), List.getElem?_eq_none (Nat.le_of_not_lt hplace)]

/-- From 100001 on they do not: the one of place 100000 is read at place 10001. -/
theorem Arranged.early (h : Arranged snapshots listed) (many : 100000 < snapshots.length) :
    listed[10001]? = snapshots[100000]? := by
  rw [← h.picture 100000 many, rank_of_many many]

end SignerBench.Snapshot
