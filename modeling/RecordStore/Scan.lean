import RecordStore.Store

/-!
# The read loop

`scanLoop_flat` runs the loop that `print_db_from_file` and the searches share over a file that is
whole blocks followed by a shorter tail: one row per block whose record `keep` accepts, numbered
in file order, then a damaged-record line exactly when the tail is not empty; `found` says whether
a row was printed. The loop's index and its byte offset stay in step because every full read
moves the offset by one block. `printDbFromFile_eq` is the case `keep = true` for a whole file.
-/

namespace RecordStore

/-- The rows printed for the blocks `bs` numbered from `idx`: those whose record `keep` accepts,
in order. -/
def keptRows (keep : Record → Bool) (idx : Nat) (bs : List Block) : List Line :=
  (((bs.map unpackRecord).enumFrom idx).filter fun p => keep p.2).map fun p => .row p.1 p.2

/-- The damaged-record line for a tail read as record `idx`, when there is a tail. -/
def tailLines (idx : Nat) (tail : Bytes) : List Line :=
  if tail = [] then [] else [.corrupt idx tail.length]

@[simp] theorem keptRows_nil (keep : Record → Bool) (idx : Nat) : keptRows keep idx [] = [] := rfl

theorem keptRows_cons (keep : Record → Bool) (idx : Nat) (b : Block) (bs : List Block) :
    keptRows keep idx (b :: bs) =
      (if keep (unpackRecord b) then [.row idx (unpackRecord b)] else []) ++
        keptRows keep (idx + 1) bs := by
  by_cases h : keep (unpackRecord b) <;> simp [keptRows, List.enumFrom_cons, List.filter_cons, h]

/-- A read at the end of the file, or of a short tail. -/
theorem scanLoop_tail (keep : Record → Bool) {f tail : Bytes} {off : Nat} (idx : Nat)
    (h : f.drop off = tail) (htail : tail.length < recordSize) :
    scanLoop keep f idx off = (tailLines idx tail, false) := by
  have hread : readAt f off recordSize = tail := by
    rw [readAt, h, List.take_of_length_le htail.le]
  rw [scanLoop]
  by_cases ht : tail = []
  · rw [dif_pos (hread.trans ht), tailLines, if_pos ht]
  · rw [dif_neg (hread ▸ ht), dif_neg (by rw [hread]; omega), tailLines, if_neg ht, hread]

/-- A read of a whole block `b`: it is decoded, printed if `keep` accepts it, and the loop goes on
one block further. -/
theorem scanLoop_block (keep : Record → Bool) {f : Bytes} {off : Nat} (idx : Nat) {b : Block}
    (h : readAt f off recordSize = b.bytes) :
    scanLoop keep f idx off =
      let rest := scanLoop keep f (idx + 1) (off + recordSize)
      if keep (unpackRecord b) then (.row idx (unpackRecord b) :: rest.1, true) else rest := by
  have hne : readAt f off recordSize ≠ [] := by
    rw [h]; exact List.ne_nil_of_length_pos (b.length_eq ▸ recordSize_pos)
  have hlen : (readAt f off recordSize).length = recordSize := h ▸ b.length_eq
  rw [scanLoop, dif_neg hne, dif_pos hlen]
  have hb : (⟨readAt f off recordSize, hlen⟩ : Block) = b := Block.ext h
  rw [hb]

/-- The loop over whole blocks `bs` and a shorter tail, from record `idx` at byte `off`. -/
theorem scanLoop_flat (keep : Record → Bool) (f : Bytes) (bs : List Block) {tail : Bytes}
    (htail : tail.length < recordSize) (idx off : Nat) (h : f.drop off = flat bs ++ tail) :
    scanLoop keep f idx off =
      (keptRows keep idx bs ++ tailLines (idx + bs.length) tail,
        bs.any fun b => keep (unpackRecord b)) := by
  induction bs generalizing idx off with
  | nil => simpa using scanLoop_tail keep idx h htail
  | cons b bs ih =>
    have hread : readAt f off recordSize = b.bytes := by
      rw [readAt, h, flat_cons, List.append_assoc, List.take_left' b.length_eq]
    have hnext : f.drop (off + recordSize) = flat bs ++ tail := by
      rw [← List.drop_drop, h, flat_cons, List.append_assoc, List.drop_left' b.length_eq]
    rw [scanLoop_block keep idx hread, ih (idx + 1) _ hnext, keptRows_cons]
    by_cases hk : keep (unpackRecord b) <;>
      simp [hk, Nat.add_assoc, Nat.add_comm 1]

/-- The loop over a whole file, from its start. -/
theorem scanLoop_blocksOf (keep : Record → Bool) (f : Bytes) :
    scanLoop keep f 1 0 =
      (keptRows keep 1 (blocksOf f) ++
        tailLines (f.length / recordSize + 1) (f.drop (recordSize * (f.length / recordSize))),
        (blocksOf f).any fun b => keep (unpackRecord b)) := by
  have htail : (f.drop (recordSize * (f.length / recordSize))).length < recordSize := by
    simp only [List.length_drop, recordSize]; omega
  rw [scanLoop_flat keep f (blocksOf f) htail 1 0 (by rw [List.drop_zero, flat_blocksOf]),
    length_blocksOf, Nat.add_comm 1]

/-- `print_db_from_file` on a file of whole blocks lists every decoded record, numbered from 1. -/
theorem printDbFromFile_flat (filename : String) (bs : List Block) :
    printDbFromFile filename (some (flat bs)) =
      .text ("\nСодержимое БД \x27" ++ filename ++ "\x27:") ::
        ((bs.map unpackRecord).enumFrom 1).map (fun p => .row p.1 p.2) := by
  have hloop := scanLoop_flat (fun _ => true) (flat bs) bs
    (show ([] : Bytes).length < recordSize from recordSize_pos) 1 0
    (by rw [List.drop_zero, List.append_nil])
  simp [printDbFromFile, hloop, length_flat_mod, keptRows, tailLines]

/-- `print_db_from_file` on a file of `43 * k + m` bytes, `m < 43`: the heading, a size warning
iff `m > 0`, then the read loop's lines: rows `1 … k`, row `i` the record decoded from
`F[43 * (i - 1) : 43 * i]`, and after them one damaged-record line carrying `m` iff `m > 0`.
It returns no file: it writes nothing. -/
theorem printDbFromFile_eq (filename : String) (F : Bytes) :
    printDbFromFile filename (some F) =
      .text ("\nСодержимое БД \x27" ++ filename ++ "\x27:") ::
        ((if F.length % recordSize ≠ 0 then
            [.text ("Предупреждение: размер файла " ++ toString F.length ++
              " байт не кратен размеру записи " ++ toString recordSize ++ " байт")]
          else []) ++
          (((blocksOf F).map unpackRecord).enumFrom 1).map (fun p => .row p.1 p.2) ++
          (if F.length % recordSize = 0 then []
            else [.corrupt (F.length / recordSize + 1) (F.length % recordSize)])) ∧
      (blocksOf F).length = F.length / recordSize ∧
      ∀ i (hi : i < (blocksOf F).length),
        (blocksOf F)[i].bytes = readAt F (recordSize * i) recordSize := by
  refine ⟨?_, length_blocksOf F, bytes_getElem_blocksOf F⟩
  have hrows : keptRows (fun _ => true) 1 (blocksOf F) =
      (((blocksOf F).map unpackRecord).enumFrom 1).map fun p => .row p.1 p.2 := by
    simp [keptRows]
  have htail :
      tailLines (F.length / recordSize + 1) (F.drop (recordSize * (F.length / recordSize))) =
      if F.length % recordSize = 0 then []
      else [.corrupt (F.length / recordSize + 1) (F.length % recordSize)] := by
    have hlen : (F.drop (recordSize * (F.length / recordSize))).length = F.length % recordSize := by
      simp only [List.length_drop, recordSize]; omega
    simp only [tailLines, ← List.length_eq_zero, hlen]
  rw [printDbFromFile, scanLoop_blocksOf, hrows, htail, List.append_assoc]

end RecordStore
