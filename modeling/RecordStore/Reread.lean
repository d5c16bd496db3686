import RecordStore.Refinement
import RecordStore.Widen

/-!
# A record read from the file can be written back

`unpack_record` returns only records that `pack_record` accepts, and what `pack_record` then
writes reads back as the same record (`packRecord_unpackRecord`): the count fits an `int`, the
price word comes back from the trip through a Python float as a word that widens to the same float
(`PyFloat.toF32_ofF32`), and the text fields
fit their widths (`Utf8.stripNul_fit_decode`). The bytes need not be the same: a character cut at
the end of a field, or a signalling NaN, is not written again.

So a deletion is undone by inserting, at the same position, the record the file held there
(`insertRecordAt_deleteRecord`), as an insertion is undone by a deletion (`deleteRecord_insertRecordAt`).
-/

namespace RecordStore

theorem unpackI32_range (u : UInt32) : -2 ^ 31 ≤ unpackI32 u ∧ unpackI32 u < 2 ^ 31 := by
  have := u.toNat_lt_size
  simp only [UInt32.size] at this
  unfold unpackI32
  split <;> omega

theorem PyFloat.throughF32_ofF32 (u : UInt32) : (PyFloat.ofF32 u).throughF32 = PyFloat.ofF32 u :=
  PyFloat.toF32_ofF32 u

/-- What the store keeps of a record it read is the record itself. -/
theorem stored_unpackRecord (b : Block) : (unpackRecord b).stored = unpackRecord b := by
  have h20 : (b.bytes.take 20).length ≤ 20 := List.length_take_le _ _
  have h15 : ((b.bytes.drop 28).take 15).length ≤ 15 := List.length_take_le _ _
  simp only [Record.stored, unpackRecord, Utf8.stripNul_fit_decode h20, Utf8.stripNul_fit_decode h15,
    PyFloat.throughF32_ofF32]

/-- `pack_record` accepts every record `unpack_record` returns. -/
theorem packRecord_ok_unpackRecord (b : Block) : ∃ b', packRecord (unpackRecord b) = .ok b' :=
  ⟨_, @packRecord_ok (unpackRecord b) (unpackI32_range _)⟩

/-- Every record `unpack_record` returns is one `pack_record` accepts, and what `pack_record`
writes for it reads back as the same record. -/
theorem packRecord_unpackRecord (b : Block) :
    ∃ b', packRecord (unpackRecord b) = .ok b' ∧ unpackRecord b' = unpackRecord b := by
  obtain ⟨b', hb⟩ := packRecord_ok_unpackRecord b
  exact ⟨b', hb, (unpackRecord_of_packRecord hb).trans (stored_unpackRecord b)⟩

/-- Inserting at `k` the element erased at `k` gives the list back. -/
theorem insertIdx_eraseIdx_getElem {α : Type} (l : List α) (k : Nat) (hk : k < l.length) :
    (l.eraseIdx k).insertIdx k l[k] = l := by
  have htake : (l.take k).length = k := by simp only [List.length_take]; omega
  rw [List.eraseIdx_eq_take_drop_succ, insertIdx_eq_take_drop _ k _
      (by simp only [List.length_append, List.length_take, List.length_drop]; omega),
    List.take_append_of_le_length htake.ge, List.take_take, Nat.min_self,
    List.drop_append_of_le_length htake.ge, List.drop_of_length_le htake.le,
    List.nil_append, List.getElem_cons_drop, List.take_append_drop]

/-- Deleting position `k + 1` of a file of whole records and inserting there the record the file
held leaves a file of whole records that decode to the records it had. -/
theorem insertRecordAt_deleteRecord (bs : List Block) (k : Nat) (hk : k < bs.length) :
    Abstracts (insertRecordAt (deleteRecord (some (flat bs)) (k + 1)).file (k + 1)
      (unpackRecord bs[k])).file (bs.map unpackRecord) := by
  obtain ⟨b', hb'⟩ := packRecord_ok_unpackRecord bs[k]
  have hk' : k < (bs.map unpackRecord).length := by simpa using hk
  have hdel := Abstracts.delete (⟨bs, rfl, rfl⟩ : Abstracts (some (flat bs)) (bs.map unpackRecord))
    (k + 1)
  rw [if_pos (by omega), show ((k : Int) + 1 - 1).toNat = k by omega] at hdel
  have h := hdel.insert (k + 1) hb'
  rw [List.length_eraseIdx, if_pos hk', if_pos (by omega), show ((k : Int) + 1 - 1).toNat = k by omega,
    stored_unpackRecord] at h
  have hback := insertIdx_eraseIdx_getElem (bs.map unpackRecord) k hk'
  rw [List.getElem_map] at hback
  rwa [hback] at h

/-- The second of three blocks, deleted and inserted again. -/
theorem insertRecordAt_deleteRecord_sample :
    1 < sampleBlocks.length ∧
      Abstracts (insertRecordAt (deleteRecord (some (flat sampleBlocks)) ((1 : Nat) + 1)).file
        ((1 : Nat) + 1) (unpackRecord sampleBlocks[1])).file (sampleBlocks.map unpackRecord) :=
  ⟨by decide, insertRecordAt_deleteRecord sampleBlocks 1 (by decide)⟩

end RecordStore
