import Mathlib.Data.List.Basic

/-!
# Files, blocks and block-aligned access

A file is its list of bytes. `readAt`, `writeAt` and `truncate` are what `f.seek(off)` followed
by `f.read(k)`, `f.write(d)` and `f.truncate(k)` do to it. A `Block` is the `RECORD_SIZE` bytes of
one record, and `flat bs` is the file holding the blocks `bs` back to back. Every access the
store makes is at a multiple of `RECORD_SIZE`; the lemmas at the end say what such an access does
to `flat bs` in terms of the block list: a read returns a block, a write replaces or appends one,
a truncation keeps a prefix.
-/

namespace RecordStore

/-- The contents of a binary file. -/
abbrev Bytes := List UInt8

/-- `RECORD_SIZE = struct.calcsize("20s i f 15s")`: 20 + 4 + 4 + 15 bytes. Native alignment puts
`i` at offset 20 and `f` at 24, both already 4-aligned, and adds no trailing padding. -/
def recordSize : Nat := 43

theorem recordSize_pos : 0 < recordSize := by decide

/-- `f.seek(off); f.read(k)`: at most `k` bytes from `off`, fewer at the end of the file. -/
def readAt (f : Bytes) (off k : Nat) : Bytes := (f.drop off).take k

/-- `f.seek(off); f.write(d)`: overwrite from `off`, growing the file as needed; a gap left
past the old end reads as zero bytes. -/
def writeAt (f : Bytes) (off : Nat) (d : Bytes) : Bytes :=
  f.take off ++ List.replicate (off - f.length) 0 ++ d ++ f.drop (off + d.length)

/-- `f.truncate(k)`: keep the first `k` bytes; a larger size is zero-filled. -/
def truncate (f : Bytes) (k : Nat) : Bytes := f.take k ++ List.replicate (k - f.length) 0

/-- `f.seek(0, 2); f.write(d)` appends. -/
theorem writeAt_length (f d : Bytes) : writeAt f f.length d = f ++ d := by
  simp [writeAt]

/-- The bytes of one record: exactly `RECORD_SIZE` of them. -/
structure Block where
  bytes : Bytes
  length_eq : bytes.length = recordSize

@[ext] theorem Block.ext {a b : Block} (h : a.bytes = b.bytes) : a = b := by
  cases a; cases b; cases h; rfl

/-- The file holding the blocks `bs` back to back. -/
def flat : List Block → Bytes
  | [] => []
  | b :: bs => b.bytes ++ flat bs

section Flat
variable {b : Block} {bs cs : List Block}

@[simp] theorem flat_nil : flat [] = [] := rfl

@[simp] theorem flat_cons : flat (b :: bs) = b.bytes ++ flat bs := rfl

@[simp] theorem flat_append : flat (bs ++ cs) = flat bs ++ flat cs := by
  induction bs with
  | nil => rfl
  | cons b bs ih => simp [ih]

@[simp] theorem length_flat : (flat bs).length = recordSize * bs.length := by
  induction bs with
  | nil => rfl
  | cons b bs ih => simp [ih, b.length_eq, Nat.mul_succ, Nat.add_comm]

theorem length_flat_mod : (flat bs).length % recordSize = 0 := by
  rw [length_flat, Nat.mul_mod_right]

theorem length_flat_div : (flat bs).length / recordSize = bs.length := by
  rw [length_flat, Nat.mul_div_cancel_left _ recordSize_pos]

/-- The first `k` blocks' bytes are the first `k` blocks. -/
theorem take_flat (bs : List Block) (k : Nat) :
    (flat bs).take (recordSize * k) = flat (bs.take k) := by
  induction bs generalizing k with
  | nil => simp
  | cons b bs ih =>
    cases k with
    | zero => simp
    | succ k =>
      simp [List.take_append_eq_append_take, b.length_eq, Nat.mul_succ, ← ih,
        List.take_of_length_le]

theorem drop_flat (bs : List Block) (k : Nat) :
    (flat bs).drop (recordSize * k) = flat (bs.drop k) := by
  induction bs generalizing k with
  | nil => simp
  | cons b bs ih =>
    cases k with
    | zero => simp
    | succ k =>
      simp [List.drop_append_eq_append_drop, b.length_eq, Nat.mul_succ, ← ih]

/-- Reading one record's worth at block `i` returns block `i`, whatever follows the blocks. -/
theorem readAt_flat_append (bs : List Block) (tail : Bytes) (i : Nat) (hi : i < bs.length) :
    readAt (flat bs ++ tail) (recordSize * i) recordSize = bs[i].bytes := by
  rw [readAt, List.drop_append_of_le_length (by simp; exact Nat.mul_le_mul_left _ hi.le),
    drop_flat, List.drop_eq_getElem_cons hi, flat_cons, List.append_assoc,
    List.take_left' bs[i].length_eq]

theorem readAt_flat (bs : List Block) (i : Nat) (hi : i < bs.length) :
    readAt (flat bs) (recordSize * i) recordSize = bs[i].bytes := by
  simpa using readAt_flat_append bs [] i hi

/-- Writing a block at block `i ≤ bs.length` replaces block `i`, or appends at the end. -/
theorem writeAt_flat (bs : List Block) (i : Nat) (hi : i ≤ bs.length) (b : Block) :
    writeAt (flat bs) (recordSize * i) b.bytes = flat (bs.take i ++ b :: bs.drop (i + 1)) := by
  have hrep : recordSize * i - (flat bs).length = 0 := by
    simp only [length_flat]; exact Nat.sub_eq_zero_of_le (Nat.mul_le_mul_left _ hi)
  rw [writeAt, hrep, take_flat, b.length_eq, ← Nat.mul_succ, drop_flat]
  simp

/-- Truncating to `k ≤ bs.length` blocks keeps the first `k`. -/
theorem truncate_flat (bs : List Block) (k : Nat) (hk : k ≤ bs.length) :
    truncate (flat bs) (recordSize * k) = flat (bs.take k) := by
  have hrep : recordSize * k - (flat bs).length = 0 := by
    simp only [length_flat]; exact Nat.sub_eq_zero_of_le (Nat.mul_le_mul_left _ hk)
  rw [truncate, hrep, take_flat]
  simp

end Flat

/-! ### Cutting a file into blocks -/

/-- The whole blocks of `f` in order, `f[0 : 43]`, `f[43 : 86]`, …; a shorter tail is left out. -/
def blocksOf (f : Bytes) : List Block :=
  if h : recordSize ≤ f.length then
    ⟨f.take recordSize, by rw [List.length_take]; omega⟩ :: blocksOf (f.drop recordSize)
  else []
termination_by f.length
decreasing_by rw [List.length_drop]; have := recordSize_pos; omega

/-- The blocks of `flat bs` followed by less than a block are `bs`. -/
theorem blocksOf_flat_append (bs : List Block) {tail : Bytes} (h : tail.length < recordSize) :
    blocksOf (flat bs ++ tail) = bs := by
  induction bs with
  | nil => rw [flat_nil, List.nil_append, blocksOf, dif_neg (by omega)]
  | cons b bs ih =>
    have hlen : recordSize ≤ (flat (b :: bs) ++ tail).length := by
      simp only [flat_cons, List.length_append, b.length_eq]; omega
    rw [blocksOf, dif_pos hlen]
    simp only [flat_cons, List.append_assoc, List.drop_left' b.length_eq, ih, List.cons.injEq,
      and_true]
    exact Block.ext (List.take_left' b.length_eq)

theorem blocksOf_flat (bs : List Block) : blocksOf (flat bs) = bs := by
  simpa using blocksOf_flat_append bs (show ([] : Bytes).length < recordSize from recordSize_pos)

/-- Every file is its whole blocks followed by a tail shorter than a block. -/
theorem flat_blocksOf (f : Bytes) :
    flat (blocksOf f) ++ f.drop (recordSize * (f.length / recordSize)) = f := by
  induction f using blocksOf.induct with
  | case1 f h ih =>
    have hdrop : (f.drop recordSize).drop (recordSize * ((f.drop recordSize).length / recordSize)) =
        f.drop (recordSize * (f.length / recordSize)) := by
      rw [List.drop_drop, List.length_drop]
      congr 1
      simp only [recordSize] at h ⊢
      omega
    rw [blocksOf, dif_pos h, flat_cons, List.append_assoc, ← hdrop, ih]
    exact List.take_append_drop _ _
  | case2 f h =>
    rw [blocksOf, dif_neg h, Nat.div_eq_of_lt (by omega)]
    rfl

theorem length_blocksOf (f : Bytes) : (blocksOf f).length = f.length / recordSize := by
  have h := congrArg List.length (flat_blocksOf f)
  simp only [List.length_append, length_flat, List.length_drop, recordSize] at h ⊢
  omega

/-- Block `i` of `f` is the slice `f[43 * i : 43 * (i + 1)]`. -/
theorem bytes_getElem_blocksOf (f : Bytes) (i : Nat) (hi : i < (blocksOf f).length) :
    (blocksOf f)[i].bytes = readAt f (recordSize * i) recordSize := by
  conv_rhs => rw [← flat_blocksOf f]
  rw [readAt_flat_append _ _ _ hi]

end RecordStore
