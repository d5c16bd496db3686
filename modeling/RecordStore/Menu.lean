import RecordStore.Shift
import RecordStore.PyStr

/-!
# Options 4 and 5 of `main`

Option 4 reads a position, a name, a count, a price and a category, parses the position and the
count with `int` and the price with `float`, and calls `insert_record_at`, all inside
`try … except ValueError`; option 5 reads a position and calls `delete_record` the same way. A
`ValueError` prints the input-error message and the menu goes on; any other exception leaves
`main` and ends the program.

`int` accepts counts that `pack_record` cannot store: a count outside a C `int` makes `struct.pack`
raise `struct.error`, which is not a `ValueError` (`packRecord_error`). Such an insertion ends the
program (`menuInsert_escapes`). A price never does: native `f` writes an infinity past the largest
`float` (`packRecord_fails_iff`). The insertion never half-applies: `insert_record_at` packs before
it opens the file, so whatever leaves the call, the file is as it was (`menuInsert_raised`).
-/

namespace RecordStore

def msgInputError : String := "Ошибка ввода данных"

/-- `except ValueError: print("Ошибка ввода данных")` around a call: a `ValueError` is printed
and dropped, any other exception goes on. -/
def catchValueError (o : Outcome) : Outcome :=
  match o.raised with
  | some e => if e.isValueError then ⟨o.file, o.out ++ [.text msgInputError], none⟩ else o
  | none => o

/-- Option 4 of `main` on the chosen file, from the five lines the operator types. `raised` is the
exception that leaves `main`, if any. -/
def menuInsert (file : Option Bytes) (posIn name countIn priceIn category : String) : Outcome :=
  match pyInt posIn, pyInt countIn, pyFloat priceIn with
  | some pos, some count, some price =>
    catchValueError (insertRecordAt file pos ⟨name, count, price, category⟩)
  | _, _, _ => ⟨file, [.text msgInputError], none⟩

/-- Option 5 of `main` on the chosen file. -/
def menuDelete (file : Option Bytes) (posIn : String) : Outcome :=
  match pyInt posIn with
  | some pos => catchValueError (deleteRecord file pos)
  | none => ⟨file, [.text msgInputError], none⟩

theorem catchValueError_file (o : Outcome) : (catchValueError o).file = o.file := by
  unfold catchValueError
  split
  · split <;> rfl
  · rfl

/-- What leaves a `try … except ValueError` is what the call raised, and not a `ValueError`. -/
theorem catchValueError_raised {o : Outcome} {e : PyExc} (h : (catchValueError o).raised = some e) :
    o.raised = some e ∧ e.isValueError = false := by
  rcases o with ⟨file, out, _ | e'⟩
  · cases h
  · cases hv : e'.isValueError <;> simp only [catchValueError, hv] at h
    · cases h
      exact ⟨rfl, hv⟩
    · cases h

/-! ### What `pack_record` raises -/

/-- A count inside a C `long` but outside `int`. -/
theorem packRecord_count_range {r : Record} (hl : -2 ^ 63 ≤ r.count ∧ r.count < 2 ^ 63)
    (hc : r.count < -2 ^ 31 ∨ 2 ^ 31 ≤ r.count) :
    packRecord r =
      .error (.structError "\x27i\x27 format requires -2147483648 <= number <= 2147483647") := by
  rw [packRecord, packI32, if_neg (by omega), if_pos hc]
  rfl

/-- `pack_record` raises only `struct.error`, never a `ValueError`. -/
theorem packRecord_error {r : Record} {e : PyExc} (he : packRecord r = .error e) :
    e.isValueError = false := by
  cases hc : packI32 r.count with
  | error e' =>
    rw [packRecord, hc] at he
    cases he
    simp only [packI32] at hc
    split_ifs at hc <;> cases hc <;> rfl
  | ok c => rw [packRecord, hc] at he; cases he

/-- When `insert_record_at` raises, it is `pack_record` that raised, and the file is as it was. -/
theorem insertRecordAt_raised {file : Option Bytes} {p : Int} {r : Record} {e : PyExc}
    (h : (insertRecordAt file p r).raised = some e) :
    (insertRecordAt file p r).file = file ∧ packRecord r = .error e := by
  cases file with
  | none => cases h
  | some f =>
    cases hp : packRecord r with
    | error e' =>
      simp only [insertRecordAt, hp] at h ⊢
      split_ifs at h ⊢
      cases h
      exact ⟨rfl, rfl⟩
    | ok b =>
      simp only [insertRecordAt, hp] at h
      split_ifs at h

theorem deleteRecord_raised (file : Option Bytes) (p : Int) :
    (deleteRecord file p).raised = none := by
  cases file with
  | none => rfl
  | some f => simp only [deleteRecord]; split_ifs <;> rfl

/-! ### Option 4 -/

/-- Whatever `menuInsert` raises, once its five lines are read, comes from `pack_record` on inputs
that parse, is not a `ValueError`, and leaves the file as it was. -/
theorem menuInsert_raised {file : Option Bytes} {posIn name countIn priceIn category : String}
    {e : PyExc} (h : (menuInsert file posIn name countIn priceIn category).raised = some e) :
    (menuInsert file posIn name countIn priceIn category).file = file ∧ e.isValueError = false ∧
      ∃ count price, pyInt countIn = some count ∧ pyFloat priceIn = some price ∧
        packRecord ⟨name, count, price, category⟩ = .error e := by
  cases hpos : pyInt posIn <;> cases hc : pyInt countIn <;> cases hp : pyFloat priceIn <;>
    simp only [menuInsert, hpos, hc, hp] at h ⊢ <;> try cases h
  rename_i pos count price
  obtain ⟨hr, hv⟩ := catchValueError_raised h
  obtain ⟨hfile, hpack⟩ := insertRecordAt_raised hr
  exact ⟨(catchValueError_file _).trans hfile, hv, count, price, rfl, rfl, hpack⟩

/-- Option 4 with inputs `int` and `float` accept, a position the file takes and a record
`pack_record` refuses: the exception leaves `main`, nothing is printed and the file is as it was. -/
theorem menuInsert_escapes (F : Bytes) {posIn name countIn priceIn category : String}
    {pos count : Int} {price : PyFloat} (hpos : pyInt posIn = some pos)
    (hc : pyInt countIn = some count) (hp : pyFloat priceIn = some price)
    (hF : F.length % recordSize = 0) (h1 : 1 ≤ pos)
    (hn : pos ≤ ((F.length / recordSize : Nat) : Int) + 1) {e : PyExc}
    (he : packRecord ⟨name, count, price, category⟩ = .error e) :
    menuInsert (some F) posIn name countIn priceIn category = ⟨some F, [], some e⟩ ∧
      e.isValueError = false := by
  have hv := packRecord_error he
  refine ⟨?_, hv⟩
  simp only [menuInsert, hpos, hc, hp, insertRecordAt, catchValueError,
    if_neg (show ¬ pos < 1 by omega), hF, ne_eq, not_true_eq_false, ↓reduceIte, gt_iff_lt,
    if_neg (show ¬ ((F.length / recordSize : Nat) : Int) + 1 < pos by omega), he, hv,
    Bool.false_eq_true]

/-- The count `2147483648`: `int` and `float` accept the inputs, and on an empty file the
`struct.error` of `pack_record` leaves `main`. -/
theorem menuInsert_count_overflow :
    pyInt "1" = some 1 ∧ pyInt "2147483648" = some 2147483648 ∧ pyFloat "0" = some ⟨0⟩ ∧
      menuInsert (some []) "1" "a" "2147483648" "0" "b" =
        ⟨some [], [],
          some (.structError "\x27i\x27 format requires -2147483648 <= number <= 2147483647")⟩ := by
  have hpos : pyInt "1" = some 1 := by decide
  have hc : pyInt "2147483648" = some 2147483648 := by decide
  have hp : pyFloat "0" = some ⟨0⟩ := by decide
  exact ⟨hpos, hc, hp, (menuInsert_escapes [] hpos hc hp rfl (by decide) (by decide)
    (packRecord_count_range (by decide) (by decide))).1⟩

/-! ### Option 5 -/

/-- Once its line is read, option 5 raises nothing. -/
theorem menuDelete_raised (file : Option Bytes) (posIn : String) :
    (menuDelete file posIn).raised = none := by
  simp only [menuDelete]
  split
  · simp [catchValueError, deleteRecord_raised]
  · rfl

end RecordStore
