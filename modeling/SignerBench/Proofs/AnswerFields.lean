import SignerBench.App.Client
import SignerBench.Proofs.Results

namespace SignerBench

namespace Bytes

def wordAt (b : Bytes) (place : Nat) : UInt16 := word16 (b.getD place 0) (b.getD (place + 1) 0)

def countAt (b : Bytes) (place : Nat) : Nat := (b.getD place 0).toNat + 256 * (b.getD (place + 1) 0).toNat

/-- There is no overflow in a word of two bytes. -/
theorem toNat_word16 (low high : UInt8) : (word16 low high).toNat = low.toNat + 256 * high.toNat := by
  have := low.toNat_lt
  have := high.toNat_lt
  simp [word16]
  omega

theorem toNat_wordAt (b : Bytes) (place : Nat) : (b.wordAt place).toNat = b.countAt place := toNat_word16 _ _

theorem wordAt_drop (b : Bytes) (n place : Nat) : wordAt (b.drop n) place = b.wordAt (n + place) := by
  simp [wordAt, List.getD_eq_getElem?_getD, Nat.add_assoc]

end Bytes

namespace App

variable {ε : Type} {data : Bytes} {first last n : Nat}

/-- A slice inside the data is no error. -/
theorem slice_ok (hle : first ≤ last) (hlast : last ≤ data.length) :
    (slice first last data : Except (Error ε) Bytes) = .ok ((data.drop first).take (last - first)) :=
  if_pos ⟨hle, hlast⟩

/-- A block inside the data is filled. -/
theorem fill_slice (data : Bytes) (hn : first + n = last) (hlast : last ≤ data.length) :
    ((slice first last data : Except (Error ε) Bytes) >>= fill n) =
      .ok ⟨(data.drop first).take n, by rw [List.length_take, List.length_drop]; omega⟩ := by
  subst hn
  rw [slice_ok (Nat.le_add_right _ _) hlast, Nat.add_sub_cancel_left]
  exact dif_pos _

/-- A word inside the data is read. -/
theorem word_slice (data : Bytes) (hn : first + 2 = last) (hlast : last ≤ data.length) :
    ((slice first last data : Except (Error ε) Bytes) >>= word) = .ok (data.wordAt first) := by
  subst hn
  have hlength : (data.drop first).length = data.length - first := List.length_drop
  rw [slice_ok (Nat.le_add_right _ _) hlast, Nat.add_sub_cancel_left, ← Nat.add_zero first, ← Bytes.wordAt_drop]
  match hdrop : data.drop first with
  | low :: high :: rest => rfl
  | [_] | [] =>
    rw [hdrop] at hlength
    simp only [List.length_cons, List.length_nil] at hlength
    omega

/-- A reader that looks at the length of an answer first. Behind that look it takes no slice that is not there, for a
slice that is not there would be an error. -/
structure Guarded {α : Type} (read : Bytes → Except (Error ε) α) (need : Nat) (short : Error ε) : Prop where
  few : ∀ d, d.length < need → read d = .error short
  enough : ∀ d, need ≤ d.length → ∃ a, read d = .ok a

/-- Too few bytes are found at the look at the length, before anything is taken from them. -/
theorem FullViewingKey.ofBytes_few (few : data.length < 64) :
    (ofBytes data : Except (Error ε) FullViewingKey) = .error .publicKey := by
  rw [ofBytes, if_pos few]
  rfl

/-- Behind the look at the length both slices lie inside the data. -/
theorem FullViewingKey.ofBytes_enough (enough : 64 ≤ data.length) :
    (ofBytes data : Except (Error ε) FullViewingKey) =
      .ok ⟨⟨data.take 32, List.length_take_of_le (by omega)⟩,
        ⟨(data.drop 32).take 32, List.length_take_of_le (by rw [List.length_drop]; omega)⟩⟩ := by
  have hak := fill_slice (ε := ε) data (rfl : 0 + 32 = 32) (by omega)
  have hnk := fill_slice (ε := ε) data (rfl : 32 + 32 = 64) enough
  rw [ofBytes, if_neg (Nat.not_lt.mpr enough)]
  simp only [← bind_assoc, hak, hnk]
  rfl

theorem FullViewingKey.guarded : Guarded (ofBytes (ε := ε)) 64 .publicKey :=
  ⟨fun _ few => ofBytes_few few, fun _ enough => ⟨_, ofBytes_enough enough⟩⟩

theorem Address.ofBytes_few (few : data.length < 80) :
    (ofBytes data : Except (Error ε) Address) = .error .publicKey := by
  rw [ofBytes, if_pos few]
  rfl

theorem Address.ofBytes_enough (enough : 80 ≤ data.length) :
    (ofBytes data : Except (Error ε) Address) = .ok ⟨⟨data.take 80, List.length_take_of_le enough⟩⟩ := by
  have hraw := fill_slice (ε := ε) data (rfl : 0 + 80 = 80) enough
  rw [ofBytes, if_neg (Nat.not_lt.mpr enough)]
  simp only [← bind_assoc, hraw]
  rfl

theorem Address.guarded : Guarded (ofBytes (ε := ε)) 80 .publicKey :=
  ⟨fun _ few => ofBytes_few few, fun _ enough => ⟨_, ofBytes_enough enough⟩⟩

theorem Signature.ofBytes_few (few : data.length < 64) :
    (ofBytes data : Except (Error ε) Signature) = .error .signature := by
  rw [ofBytes, if_pos few]
  rfl

theorem Signature.ofBytes_enough (enough : 64 ≤ data.length) :
    (ofBytes data : Except (Error ε) Signature) = .ok ⟨data.take 64, List.length_take_of_le enough⟩ := by
  rw [ofBytes, if_neg (Nat.not_lt.mpr enough)]
  exact fill_slice data (rfl : 0 + 64 = 64) enough

theorem Signature.guarded : Guarded (ofBytes (ε := ε)) 64 .signature :=
  ⟨fun _ few => ofBytes_few few, fun _ enough => ⟨_, ofBytes_enough enough⟩⟩

/-- What stands behind a signature does not count. -/
theorem Signature.ofBytes_ok {s : Signature} (h : (ofBytes data : Except (Error ε) Signature) = .ok s) :
    s.val = data.take 64 := by
  rcases Nat.lt_or_ge data.length 64 with few | enough
  · cases (ofBytes_few few).symm.trans h
  · cases (ofBytes_enough enough).symm.trans h
    rfl

theorem Approval.ofBytes_few (few : data.length < 68) :
    (ofBytes data : Except (Error ε) Approval) = .error .noSignature := by
  rw [ofBytes, if_pos few]
  rfl

/-- The third count is looked for only where there is room for it, so no slice leaves the data. -/
theorem Approval.ofBytes_enough (enough : 68 ≤ data.length) :
    (ofBytes data : Except (Error ε) Approval) =
      .ok ⟨⟨data.take 64, List.length_take_of_le (by omega)⟩, data.wordAt 64, data.wordAt 66,
        if data.length < 70 then 0 else data.wordAt 68⟩ := by
  have hlength : (data.drop 64).length = data.length - 64 := List.length_drop
  have hhash := fill_slice (ε := ε) data (rfl : 0 + 64 = 64) (by omega)
  have hcounts : (slice 64 data.length data : Except (Error ε) Bytes) = .ok (data.drop 64) := by
    rw [slice_ok (by omega) (Nat.le_refl _), ← hlength, List.take_length]
  have hspend := word_slice (ε := ε) (data.drop 64) (rfl : 0 + 2 = 2) (by omega)
  have hvote := word_slice (ε := ε) (data.drop 64) (rfl : 2 + 2 = 4) (by omega)
  rw [Bytes.wordAt_drop] at hspend hvote
  rw [ofBytes, if_neg (Nat.not_lt.mpr enough)]
  simp only [← bind_assoc, hhash, hcounts, ok_bind, hspend, hvote]
  by_cases short : data.length < 70
  · rw [if_neg (by omega), if_pos short]
    rfl
  · have hlqt := word_slice (ε := ε) (data.drop 64) (rfl : 4 + 2 = 6) (by omega)
    rw [if_pos (by omega), if_neg short, hlqt, Bytes.wordAt_drop]
    rfl

theorem Approval.guarded : Guarded (ofBytes (ε := ε)) 68 .noSignature :=
  ⟨fun _ few => ofBytes_few few, fun _ enough => ⟨_, ofBytes_enough enough⟩⟩

/-- Where the numbers of an approval stand. -/
theorem Approval.ofBytes_ok {a : Approval} (h : (ofBytes data : Except (Error ε) Approval) = .ok a) :
    68 ≤ data.length ∧ a.effectHash.val = data.take 64 ∧ a.spendAuth.toNat = data.countAt 64 ∧
      a.delegatorVote.toNat = data.countAt 66 ∧
      a.lqtVote.toNat = if data.length < 70 then 0 else data.countAt 68 := by
  rcases Nat.lt_or_ge data.length 68 with few | enough
  · cases (ofBytes_few few).symm.trans h
  · cases (ofBytes_enough enough).symm.trans h
    refine ⟨enough, rfl, Bytes.toNat_wordAt _ _, Bytes.toNat_wordAt _ _, ?_⟩
    split
    · rfl
    · exact Bytes.toNat_wordAt _ _

end App

end SignerBench
