import RecordStore.Store

/-!
# Insertion and deletion shift whole blocks

`insert_record_at` moves blocks `n - 1, n - 2, …, p - 1` one slot up, highest first, so every
block is read before anything overwrites it; `delete_record` moves blocks `p, p + 1, …, n - 1`
one slot down, lowest first, then cuts the last block off. On a file of whole blocks each step is
a block-list update (`shiftUp_flat`, `shiftDown_flat`); the loop invariants (`foldl_shiftUp`,
`foldl_shiftDown`) say what the file holds after any number of steps. `insertRecordAt_file` and
`deleteRecord_file` are the resulting byte-level specifications.
-/

namespace RecordStore

/-! ### Python ranges -/

theorem pyRange_of_lt {a b : Int} (h : a < b) : pyRange a b = a :: pyRange (a + 1) b := by
  have hn : (b - a).toNat = (b - (a + 1)).toNat + 1 := by omega
  rw [pyRange, hn, List.range_succ_eq_map, List.map_cons, List.map_map, pyRange]
  congr 2
  · omega
  · funext i; simp only [Function.comp_apply, Nat.succ_eq_add_one]; omega

theorem pyRange_of_le {a b : Int} (h : b ≤ a) : pyRange a b = [] := by
  rw [pyRange, show (b - a).toNat = 0 by omega]; rfl

theorem pyRangeDown_of_lt {a b : Int} (h : b < a) :
    pyRangeDown a b = a :: pyRangeDown (a - 1) b := by
  have hn : (a - b).toNat = (a - 1 - b).toNat + 1 := by omega
  rw [pyRangeDown, hn, List.range_succ_eq_map, List.map_cons, List.map_map, pyRangeDown]
  congr 2
  · omega
  · funext i; simp only [Function.comp_apply, Nat.succ_eq_add_one]; omega

theorem pyRangeDown_of_le {a b : Int} (h : a ≤ b) : pyRangeDown a b = [] := by
  rw [pyRangeDown, show (a - b).toNat = 0 by omega]; rfl

/-! ### One step of each loop on a file of whole blocks -/

section Steps
variable (bs : List Block)

/-- The insertion loop at `j - 1`, after it has moved blocks `n - 1 … j` up: block `j - 1` is
copied over the old copy of block `j`. -/
theorem shiftUp_flat (j : Nat) (hj : 1 ≤ j) (hjn : j ≤ bs.length) :
    shiftUp (flat (bs.take (j + 1) ++ bs.drop j)) ((j : Int) - 1) =
      flat (bs.take j ++ bs.drop (j - 1)) := by
  have hj₁ : j - 1 < bs.length := by omega
  have hlen : j ≤ (bs.take (j + 1) ++ bs.drop j).length := by
    simp only [List.length_append, List.length_take, List.length_drop]; omega
  have hread : readAt (flat (bs.take (j + 1) ++ bs.drop j)) (recordSize * (j - 1)) recordSize =
      bs[j - 1].bytes := by
    rw [readAt_flat _ (j - 1) (by omega),
      List.getElem_append_left (by rw [List.length_take]; omega),
      List.getElem_take]
  have hup : (((j : Int) - 1 + 1) * recordSize).toNat = recordSize * j := by
    simp only [recordSize]; omega
  have hat : (((j : Int) - 1) * recordSize).toNat = recordSize * (j - 1) := by
    simp only [recordSize]; omega
  have htake : (bs.take (j + 1) ++ bs.drop j).take j = bs.take j := by
    rw [List.take_append_of_le_length (by rw [List.length_take]; omega), List.take_take,
      Nat.min_eq_left (by omega)]
  have hdrop : (bs.take (j + 1) ++ bs.drop j).drop (j + 1) = bs.drop j := by
    rw [List.drop_append_eq_append_drop, List.drop_eq_nil_of_le (by rw [List.length_take]; omega),
      List.nil_append, List.length_take]
    rcases Nat.lt_or_eq_of_le hjn with hlt | rfl
    · rw [Nat.min_eq_left (by omega), Nat.sub_self, List.drop_zero]
    · simp
  rw [shiftUp, hup, hat, hread, writeAt_flat _ j hlen, htake, hdrop,
    List.drop_eq_getElem_cons hj₁, Nat.sub_add_cancel hj]

/-- The insertion loop run from `n - 1` down to `k`: block `k` ends up in both slots `k` and
`k + 1`, every block above it one slot up. -/
theorem foldl_shiftUp (k : Nat) (hk : k < bs.length) :
    (pyRangeDown ((bs.length : Int) - 1) ((k : Int) - 1)).foldl shiftUp (flat bs) =
      flat (bs.take (k + 1) ++ bs.drop k) := by
  have loop : ∀ j, k ≤ j → j ≤ bs.length →
      (pyRangeDown ((j : Int) - 1) ((k : Int) - 1)).foldl shiftUp
        (flat (bs.take (j + 1) ++ bs.drop j)) = flat (bs.take (k + 1) ++ bs.drop k) := by
    intro j hkj
    induction j, hkj using Nat.le_induction with
    | base => intro _; rw [pyRangeDown_of_le (Int.le_refl _)]; rfl
    | succ j hkj ih =>
      intro hj
      rw [pyRangeDown_of_lt (by omega), List.foldl_cons, shiftUp_flat bs (j + 1) (by omega) hj,
        Nat.add_sub_cancel, show ((j + 1 : Nat) : Int) - 1 - 1 = (j : Int) - 1 by omega]
      exact ih (by omega)
  have h := loop bs.length hk.le le_rfl
  rwa [List.take_of_length_le (by omega), List.drop_eq_nil_of_le le_rfl, List.append_nil] at h

/-- The deletion loop at `i + 1`, after it has moved blocks `k + 1 … i` down: block `i + 1` is
copied over slot `i`. `G` is the block list without block `k`. -/
theorem shiftDown_flat (k i : Nat) (hki : k ≤ i) (hin : i + 1 < bs.length) :
    shiftDown (flat ((bs.take k ++ bs.drop (k + 1)).take i ++ bs.drop i)) ((i : Int) + 1) =
      flat ((bs.take k ++ bs.drop (k + 1)).take (i + 1) ++ bs.drop (i + 1)) := by
  have hGi : ((bs.take k ++ bs.drop (k + 1)).take i).length = i := by
    simp only [List.length_append, List.length_take, List.length_drop]; omega
  have hrest : ((bs.take k ++ bs.drop (k + 1)).take i ++ bs.drop i).drop (i + 1) =
      bs.drop (i + 1) := by
    rw [List.drop_append_eq_append_drop, hGi,
      List.drop_eq_nil_of_le
        (show ((bs.take k ++ bs.drop (k + 1)).take i).length ≤ i + 1 by omega),
      List.nil_append, show i + 1 - i = 1 by omega, List.drop_drop]
  have hread : readAt (flat ((bs.take k ++ bs.drop (k + 1)).take i ++ bs.drop i))
      (recordSize * (i + 1)) recordSize = bs[i + 1].bytes := by
    rw [readAt, drop_flat, hrest, List.drop_eq_getElem_cons hin, flat_cons,
      List.take_left' bs[i + 1].length_eq]
  have hG : (bs.take k ++ bs.drop (k + 1))[i]? = some bs[i + 1] := by
    rw [List.getElem?_append_right (by rw [List.length_take]; omega), List.getElem?_drop,
      List.length_take, Nat.min_eq_left (by omega), show k + 1 + (i - k) = i + 1 by omega,
      List.getElem?_eq_getElem hin]
  have hdown : (((i : Int) + 1 - 1) * recordSize).toNat = recordSize * i := by
    simp only [recordSize]; omega
  have hfrom : (((i : Int) + 1) * recordSize).toNat = recordSize * (i + 1) := by
    simp only [recordSize]; omega
  rw [shiftDown, hdown, hfrom, hread, writeAt_flat _ i
    (by rw [List.length_append, hGi, List.length_drop]; omega), List.take_left' hGi, hrest,
    List.take_succ, hG]
  simp

/-- The deletion loop run from `k + 1` up to `n - 1`: the blocks after `k` one slot down, the
last block still in place behind them. -/
theorem foldl_shiftDown (k : Nat) (hk : k < bs.length) :
    (pyRange ((k : Int) + 1) bs.length).foldl shiftDown (flat bs) =
      flat (bs.take k ++ bs.drop (k + 1) ++ bs.drop (bs.length - 1)) := by
  have loop : ∀ d i, k ≤ i → i + 1 + d = bs.length →
      (pyRange ((i : Int) + 1) bs.length).foldl shiftDown
        (flat ((bs.take k ++ bs.drop (k + 1)).take i ++ bs.drop i)) =
      flat ((bs.take k ++ bs.drop (k + 1)).take (bs.length - 1) ++ bs.drop (bs.length - 1)) := by
    intro d
    induction d with
    | zero =>
      intro i _ hi
      rw [pyRange_of_le (by omega), show i = bs.length - 1 by omega]; rfl
    | succ d ih =>
      intro i hki hi
      rw [pyRange_of_lt (by omega), List.foldl_cons, shiftDown_flat bs k i hki (by omega),
        show (i : Int) + 1 + 1 = ((i + 1 : Nat) : Int) + 1 by omega]
      exact ih (i + 1) (by omega) (by omega)
  have h := loop (bs.length - 1 - k) k le_rfl (by omega)
  rwa [List.take_append_of_le_length (by rw [List.length_take]; omega), List.take_take,
    Nat.min_self, List.take_append_drop,
    List.take_of_length_le
      (by rw [List.length_append, List.length_take, List.length_drop]; omega)] at h

end Steps

/-- A file of whole blocks is the blocks it is cut into. -/
theorem flat_blocksOf_of_mod {f : Bytes} (h : f.length % recordSize = 0) :
    flat (blocksOf f) = f := by
  have := flat_blocksOf f
  rwa [List.drop_eq_nil_of_le (by simp only [recordSize] at h ⊢; omega), List.append_nil] at this

/-- A file of `n` whole records is the flat image of `n` blocks. -/
theorem exists_flat_of_length {F : Bytes} {n : Nat} (hF : F.length = recordSize * n) :
    ∃ bs : List Block, F = flat bs ∧ bs.length = n := by
  refine ⟨blocksOf F, (flat_blocksOf_of_mod (by rw [hF, Nat.mul_mod_right])).symm, ?_⟩
  rw [length_blocksOf, hF, Nat.mul_div_cancel_left _ recordSize_pos]

/-! ### `insert_record_at` -/

/-- Insertion at position `k + 1` of a file of whole blocks `bs`, `k ≤ bs.length`, puts the
packed record between the first `k` blocks and the others. -/
theorem insertRecordAt_flat (bs : List Block) (k : Nat) (hk : k ≤ bs.length) {r : Record}
    {b : Block} (hb : packRecord r = .ok b) :
    (insertRecordAt (some (flat bs)) (k + 1) r).file = some (flat (bs.take k ++ b :: bs.drop k)) ∧
      (insertRecordAt (some (flat bs)) (k + 1) r).raised = none := by
  simp only [insertRecordAt, hb, length_flat_div, length_flat_mod,
    if_neg (show ¬ (k : Int) + 1 < 1 by omega),
    if_neg (show ¬ (bs.length : Int) + 1 < k + 1 by omega), ne_eq, not_true_eq_false, ↓reduceIte,
    gt_iff_lt]
  refine ⟨?_, by split_ifs <;> rfl⟩
  split_ifs with hlast
  · obtain rfl : k = bs.length := by omega
    rw [writeAt_length, List.take_length, List.drop_length, flat_append, flat_cons, flat_nil,
      List.append_nil]
  · have htake : (bs.take (k + 1) ++ bs.drop k).take k = bs.take k := by
      rw [List.take_append_of_le_length (by rw [List.length_take]; omega), List.take_take,
        Nat.min_eq_left (by omega)]
    have hdrop : (bs.take (k + 1) ++ bs.drop k).drop (k + 1) = bs.drop k :=
      List.drop_left' (by rw [List.length_take]; omega)
    rw [show (k : Int) + 1 - 2 = (k : Int) - 1 by omega, foldl_shiftUp _ k (by omega),
      show (((k : Int) + 1 - 1) * recordSize).toNat = recordSize * k by
        simp only [recordSize]; omega,
      writeAt_flat _ k (by rw [List.length_append, List.length_take]; omega), htake, hdrop]

/-- Insertion at a position outside `1 … n + 1`, or into a file that is not whole records, leaves
the file as it was and raises nothing, whatever the record. -/
theorem insertRecordAt_reject (F : Bytes) (p : Int) (r : Record)
    (h : p < 1 ∨ ((F.length / recordSize : Nat) : Int) + 1 < p ∨ F.length % recordSize ≠ 0) :
    (insertRecordAt (some F) p r).file = some F ∧ (insertRecordAt (some F) p r).raised = none := by
  by_cases hp : p < 1
  · simp [insertRecordAt, hp]
  by_cases hmod : F.length % recordSize = 0
  · have hp' : ((F.length / recordSize : Nat) : Int) + 1 < p := by omega
    simp only [insertRecordAt, if_neg hp, hmod, ne_eq, not_true_eq_false, ↓reduceIte,
      gt_iff_lt, if_pos hp', and_self]
  · simp [insertRecordAt, hmod, hp]

/-- `insert_record_at` on a file of `n` whole records at a position `1 ≤ p ≤ n + 1` puts the
packed record at byte `43 * (p - 1)` and everything from there one record further; at any other
position, or on a file that is not whole records, it leaves the file as it was. -/
theorem insertRecordAt_file (F : Bytes) (p : Int) (r : Record) (b : Block)
    (hb : packRecord r = .ok b) :
    (∀ n, F.length = recordSize * n → 1 ≤ p → p ≤ n + 1 →
      (insertRecordAt (some F) p r).file = some (F.take (recordSize * (p - 1).toNat) ++ b.bytes ++
        F.drop (recordSize * (p - 1).toNat)) ∧ (insertRecordAt (some F) p r).raised = none) ∧
    (p < 1 ∨ ((F.length / recordSize : Nat) : Int) + 1 < p ∨ F.length % recordSize ≠ 0 →
      (insertRecordAt (some F) p r).file = some F ∧ (insertRecordAt (some F) p r).raised = none) := by
  refine ⟨fun n hF hp₁ hpn => ?_, insertRecordAt_reject F p r⟩
  obtain ⟨bs, rfl, rfl⟩ := exists_flat_of_length hF
  obtain ⟨k, rfl⟩ : ∃ k : Nat, p = k + 1 := ⟨(p - 1).toNat, by omega⟩
  obtain ⟨hfile, hraised⟩ := insertRecordAt_flat bs k (by omega) hb
  refine ⟨?_, hraised⟩
  rw [hfile, show ((k : Int) + 1 - 1).toNat = k by omega, take_flat, drop_flat]
  simp [flat_append]

/-- A record inserted at position 2 of a file of three blocks: the last two move up. -/
theorem insertRecordAt_file_sample :
    ∃ b, packRecord ⟨"x", 7, ⟨0⟩, "y"⟩ = .ok b ∧
      (∀ n, (flat sampleBlocks).length = recordSize * n → (1 : Int) ≤ 2 → (2 : Int) ≤ n + 1 →
        (insertRecordAt (some (flat sampleBlocks)) 2 ⟨"x", 7, ⟨0⟩, "y"⟩).file =
          some ((flat sampleBlocks).take (recordSize * ((2 : Int) - 1).toNat) ++ b.bytes ++
            (flat sampleBlocks).drop (recordSize * ((2 : Int) - 1).toNat)) ∧
          (insertRecordAt (some (flat sampleBlocks)) 2 ⟨"x", 7, ⟨0⟩, "y"⟩).raised = none) ∧
      ((2 : Int) < 1 ∨ (((flat sampleBlocks).length / recordSize : Nat) : Int) + 1 < 2 ∨
          (flat sampleBlocks).length % recordSize ≠ 0 →
        (insertRecordAt (some (flat sampleBlocks)) 2 ⟨"x", 7, ⟨0⟩, "y"⟩).file =
            some (flat sampleBlocks) ∧
          (insertRecordAt (some (flat sampleBlocks)) 2 ⟨"x", 7, ⟨0⟩, "y"⟩).raised = none) :=
  ⟨_, packRecord_ok (by decide), insertRecordAt_file _ 2 _ _ (packRecord_ok (by decide))⟩

/-! ### `delete_record` -/

/-- Deletion at position `k + 1` of a file of whole blocks `bs`, `k < bs.length`, removes block
`k`. -/
theorem deleteRecord_flat (bs : List Block) (k : Nat) (hk : k < bs.length) :
    (deleteRecord (some (flat bs)) (k + 1)).file = some (flat (bs.take k ++ bs.drop (k + 1))) := by
  simp only [deleteRecord, length_flat_div, length_flat_mod,
    if_neg (show ¬ (k : Int) + 1 < 1 by omega), if_neg (show ¬ bs.length = 0 by omega),
    if_neg (show ¬ (bs.length : Int) < k + 1 by omega), ne_eq, not_true_eq_false, ↓reduceIte,
    gt_iff_lt]
  have hG : (bs.take k ++ bs.drop (k + 1)).length = bs.length - 1 := by
    simp only [List.length_append, List.length_take, List.length_drop]; omega
  rw [foldl_shiftDown _ k hk, Nat.mul_comm,
    truncate_flat _ _ (by rw [List.length_append, hG]; omega),
    List.take_left' hG]

/-- Deletion at a position outside `1 … n`, from an empty file or from a file that is not whole
records leaves the file as it was. -/
theorem deleteRecord_reject (F : Bytes) (p : Int)
    (h : p < 1 ∨ ((F.length / recordSize : Nat) : Int) < p ∨ F.length / recordSize = 0 ∨
      F.length % recordSize ≠ 0) :
    (deleteRecord (some F) p).file = some F := by
  by_cases hp : p < 1
  · simp [deleteRecord, hp]
  by_cases hmod : F.length % recordSize = 0
  · by_cases hz : F.length / recordSize = 0
    · simp only [deleteRecord, if_neg hp, hmod, hz, ne_eq, not_true_eq_false, ↓reduceIte]
    · have hp' : ((F.length / recordSize : Nat) : Int) < p := by omega
      simp only [deleteRecord, if_neg hp, hmod, hz, ne_eq, not_true_eq_false, ↓reduceIte,
        gt_iff_lt, if_pos hp']
  · simp [deleteRecord, hmod, hp]

/-- `delete_record` on a file of `n ≥ 1` whole records at a position `1 ≤ p ≤ n` removes the
record at byte `43 * (p - 1)`; at any other position, on an empty file, or on a file that is not
whole records, it leaves the file as it was. -/
theorem deleteRecord_file (F : Bytes) (p : Int) :
    (∀ n, F.length = recordSize * n → 1 ≤ n → 1 ≤ p → p ≤ n →
      (deleteRecord (some F) p).file =
        some (F.take (recordSize * (p - 1).toNat) ++ F.drop (recordSize * p.toNat))) ∧
    (p < 1 ∨ ((F.length / recordSize : Nat) : Int) < p ∨ F.length / recordSize = 0 ∨
        F.length % recordSize ≠ 0 →
      (deleteRecord (some F) p).file = some F) := by
  refine ⟨fun n hF hn hp₁ hpn => ?_, deleteRecord_reject F p⟩
  obtain ⟨bs, rfl, rfl⟩ := exists_flat_of_length hF
  obtain ⟨k, rfl⟩ : ∃ k : Nat, p = k + 1 := ⟨(p - 1).toNat, by omega⟩
  rw [deleteRecord_flat bs k (by omega), show ((k : Int) + 1 - 1).toNat = k by omega,
    show ((k : Int) + 1).toNat = k + 1 by omega, take_flat, drop_flat, flat_append]

/-! ### Deleting what was inserted -/

/-- Deleting at the position a record was just inserted at gives the file back, byte for byte. -/
theorem deleteRecord_insertRecordAt (F : Bytes) (n : Nat) (hF : F.length = recordSize * n)
    (p : Int) (hp : 1 ≤ p ∧ p ≤ n + 1) (r : Record) (b : Block) (hb : packRecord r = .ok b) :
    (deleteRecord (insertRecordAt (some F) p r).file p).file = some F := by
  obtain ⟨bs, rfl, rfl⟩ := exists_flat_of_length hF
  obtain ⟨k, rfl⟩ : ∃ k : Nat, p = k + 1 := ⟨(p - 1).toNat, by omega⟩
  have hA : (bs.take k).length = k := by rw [List.length_take]; omega
  have hdrop : (bs.take k ++ b :: bs.drop k).drop (k + 1) = bs.drop k := by
    rw [List.drop_append_eq_append_drop, hA, List.drop_eq_nil_of_le (by omega),
      Nat.add_sub_cancel_left]
    rfl
  rw [(insertRecordAt_flat bs k (by omega) hb).1,
    deleteRecord_flat _ k (by rw [List.length_append, hA, List.length_cons]; omega),
    List.take_left' hA, hdrop, List.take_append_drop]

/-- A record inserted at position 2 of a file of three blocks and deleted again. -/
theorem deleteRecord_insertRecordAt_sample :
    (deleteRecord (insertRecordAt (some (flat sampleBlocks)) 2 ⟨"x", 7, ⟨0⟩, "y"⟩).file 2).file =
      some (flat sampleBlocks) :=
  deleteRecord_insertRecordAt (flat sampleBlocks) 3 length_flat 2 (by decide) _ _
    (packRecord_ok (by decide))

end RecordStore
