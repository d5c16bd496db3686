import RecordStore.Scan
import RecordStore.Search

/-!
# What the searches print

Over a file of `n ≥ 1` whole records every search that gets past its checks prints
`searchOutput keep F`: the rows of the decoded records that its test `keep` accepts, numbered
from 1 in file order, then the no-match message iff there is none (`withNoMatch_scanLoop`).
The searches differ only in `keep`:

* `one_field_search` tests `FieldEq`, the spec's field predicate (`oneFieldSearch_eq`);
* `two_fields_search` tests both fields, so its rows are those both single-field searches
  print, whichever pair comes first (`twoFieldsSearch_rows`);
* `digit_search` tests `PriceCmp` or `CountCmp` as the literal's form says, and with `=` it
  prints the rows of the single-field search on the field it picks, given the literal stripped as
  `digit_search` strips it (`digitSearch_eq`). Given the literal as typed, the two can differ:
  `str.strip` removes the separators U+001C–U+001F, which `int()` and `float()` refuse
  (`digitSearch_rows_ne_raw`).
-/

namespace RecordStore

/-! ### Rows kept by a test -/

section Kept

variable (keep : Record → Bool)

theorem mem_keptRows {idx : Nat} {bs : List Block} {l : Line} (h : l ∈ keptRows keep idx bs) :
    ∃ j r, l = .row j r ∧ idx ≤ j := by
  simp only [keptRows, List.mem_map, List.mem_filter] at h
  obtain ⟨⟨j, r⟩, ⟨hj, -⟩, rfl⟩ := h
  exact ⟨j, r, rfl, List.le_fst_of_mem_enumFrom hj⟩

theorem keptRows_eq_nil_iff (idx : Nat) (bs : List Block) :
    keptRows keep idx bs = [] ↔ (bs.any fun b => keep (unpackRecord b)) = false := by
  induction bs generalizing idx with
  | nil => simp
  | cons b bs ih => by_cases hk : keep (unpackRecord b) <;> simp [keptRows_cons, hk, ih]

/-- Rows of a later index are not the row `idx`. -/
theorem row_not_mem_keptRows (idx : Nat) (r : Record) (bs : List Block) :
    Line.row idx r ∉ keptRows keep (idx + 1) bs := fun h => by
  obtain ⟨j, r', hrow, hj⟩ := mem_keptRows keep h
  cases hrow
  omega

end Kept

/-- Testing two things keeps, in file order, the rows that both tests keep. -/
theorem keptRows_and (p q : Record → Bool) (idx : Nat) (bs : List Block) :
    keptRows (fun r => p r && q r) idx bs = (keptRows p idx bs).filter (· ∈ keptRows q idx bs) := by
  induction bs generalizing idx with
  | nil => rfl
  | cons b bs ih =>
    let head := Line.row idx (unpackRecord b)
    have htail : (keptRows p (idx + 1) bs).filter
        (· ∈ (if q (unpackRecord b) then [head] else []) ++ keptRows q (idx + 1) bs) =
        (keptRows p (idx + 1) bs).filter (· ∈ keptRows q (idx + 1) bs) := by
      refine List.filter_congr fun l hl => ?_
      have hne : l ≠ head := fun h => row_not_mem_keptRows p idx _ bs (h ▸ hl)
      split <;> simp [hne]
    rw [keptRows_cons, keptRows_cons, keptRows_cons, List.filter_append, htail, ih]
    have hhead := row_not_mem_keptRows q idx (unpackRecord b) bs
    by_cases hp : p (unpackRecord b) <;> by_cases hq : q (unpackRecord b) <;> simp [hp, hq, hhead]

/-! ### The output of a search over a whole file -/

/-- A record row of a printout. -/
def Line.isRow : Line → Bool
  | .row .. => true
  | _ => false

/-- What a search prints over a whole file `F`: the rows of the decoded records that `keep`
accepts, numbered from 1 in file order, then the no-match message iff there is none. -/
def searchOutput (keep : Record → Bool) (F : Bytes) : List Line :=
  let hits := keptRows keep 1 (blocksOf F)
  hits ++ if hits = [] then [.text msgNoMatch] else []

section Whole

variable (keep : Record → Bool) {F : Bytes}

/-- Every line of kept rows is a row. -/
theorem filter_isRow_keptRows (idx : Nat) (bs : List Block) :
    (keptRows keep idx bs).filter Line.isRow = keptRows keep idx bs :=
  List.filter_eq_self.mpr fun l hl => by
    obtain ⟨j, r, rfl, -⟩ := mem_keptRows keep hl
    rfl

/-- A file of whole records leaves no tail after its blocks. -/
theorem drop_whole (hmod : F.length % recordSize = 0) :
    F.drop (recordSize * (F.length / recordSize)) = [] := by
  simp only [List.drop_eq_nil_iff, recordSize] at hmod ⊢
  omega

theorem withNoMatch_scanLoop (hmod : F.length % recordSize = 0) :
    withNoMatch (scanLoop keep F 1 0) = searchOutput keep F := by
  rw [withNoMatch, scanLoop_blocksOf, drop_whole hmod, searchOutput]
  simp only [tailLines, ↓reduceIte, List.append_nil, keptRows_eq_nil_iff]
  cases (blocksOf F).any fun b => keep (unpackRecord b) <;> rfl

/-- The rows of a search's output are the kept rows. -/
theorem rows_searchOutput :
    (searchOutput keep F).filter Line.isRow = keptRows keep 1 (blocksOf F) := by
  rw [searchOutput, List.filter_append, filter_isRow_keptRows]
  split <;> simp [Line.isRow]

end Whole

section Checks

variable {F : Bytes} {n : Nat}

theorem mod_eq_zero_of_length (hF : F.length = recordSize * n) : F.length % recordSize = 0 := by
  rw [hF, Nat.mul_mod_right]

theorem div_ne_zero_of_length (hF : F.length = recordSize * n) (hn : 1 ≤ n) :
    F.length / recordSize ≠ 0 := by
  rw [hF, Nat.mul_div_cancel_left _ recordSize_pos]
  omega

end Checks

/-! ### `one_field_search` and `two_fields_search` -/

/-- The field predicate of `one_field_search` in the spec's words: `name == v`, `count == int(v)`,
`price == float(v)` or `category == v`, where a `v` that does not parse matches nothing. -/
def FieldEq (k : Int) (v : String) (r : Record) : Prop :=
  (k = 1 ∧ r.name = v) ∨ (k = 2 ∧ some r.count = pyInt v) ∨
    (k = 3 ∧ ∃ x ∈ pyFloat v, r.price.eq x = true) ∨ (k = 4 ∧ r.category = v)

instance (k : Int) (v : String) (r : Record) : Decidable (FieldEq k v r) :=
  inferInstanceAs (Decidable ((k = 1 ∧ r.name = v) ∨ (k = 2 ∧ some r.count = pyInt v) ∨
    (k = 3 ∧ ∃ x ∈ pyFloat v, r.price.eq x = true) ∨ (k = 4 ∧ r.category = v)))

theorem fieldMatches_eq_decide {k : Int} (hk : k ∈ [1, 2, 3, 4]) (v : String) (r : Record) :
    fieldMatches k v r = decide (FieldEq k v r) := by
  rw [Bool.eq_iff_iff, decide_eq_true_iff]
  simp only [List.mem_cons, List.mem_singleton, List.not_mem_nil, or_false] at hk
  rcases hk with rfl | rfl | rfl | rfl
  · simp [fieldMatches, FieldEq]
  · cases h : pyInt v <;> simp [fieldMatches, FieldEq, h]
  · cases h : pyFloat v <;> simp [fieldMatches, FieldEq, h]
  · simp [fieldMatches, FieldEq]

section Search

variable {F : Bytes} {n : Nat} (hF : F.length = recordSize * n) (hn : 1 ≤ n)
include hF hn

theorem oneFieldSearch_of_whole {fieldNum : String} {k : Int} (hk : pyInt fieldNum = some k)
    (hk4 : k ∈ [1, 2, 3, 4]) (v : String) :
    oneFieldSearch (some F) fieldNum v = searchOutput (fieldMatches k v) F := by
  simp only [oneFieldSearch, mod_eq_zero_of_length hF, div_ne_zero_of_length hF hn, hk, hk4,
    ne_eq, not_true_eq_false, not_false_eq_true, ↓reduceIte]
  exact withNoMatch_scanLoop _ (mod_eq_zero_of_length hF)

theorem twoFieldsSearch_of_whole {f1 f2 : String} {k₁ k₂ : Int} (h₁ : pyInt f1 = some k₁)
    (h₂ : pyInt f2 = some k₂) (hne : k₁ ≠ k₂) (hk₁ : k₁ ∈ [1, 2, 3, 4]) (hk₂ : k₂ ∈ [1, 2, 3, 4])
    (v1 v2 : String) :
    twoFieldsSearch (some F) f1 v1 f2 v2 =
      searchOutput (fun r => fieldMatches k₁ v1 r && fieldMatches k₂ v2 r) F := by
  simp only [twoFieldsSearch, h₁, h₂, hne, hk₁, hk₂, mod_eq_zero_of_length hF,
    div_ne_zero_of_length hF hn, ne_eq, not_true_eq_false, not_false_eq_true, or_self, ↓reduceIte]
  exact withNoMatch_scanLoop _ (mod_eq_zero_of_length hF)

end Search

/-- `one_field_search` on a file of `n ≥ 1` records with a field number that `int` reads as `k`,
one of 1–4, prints the rows `(i, record_i)` whose record satisfies the field predicate, in file
order, then the no-match message iff there is none. -/
theorem oneFieldSearch_eq (F : Bytes) (n : Nat) (hF : F.length = recordSize * n) (hn : 1 ≤ n)
    (fieldNum : String) (k : Int) (hk : pyInt fieldNum = some k) (hk4 : k ∈ [1, 2, 3, 4])
    (v : String) :
    oneFieldSearch (some F) fieldNum v = searchOutput (fun r => decide (FieldEq k v r)) F := by
  rw [oneFieldSearch_of_whole hF hn hk hk4]
  congr 1
  funext r
  exact fieldMatches_eq_decide hk4 v r

/-- Three records searched by name for the empty string: the first two have it, the third does
not. -/
theorem oneFieldSearch_eq_sample :
    oneFieldSearch (some (flat sampleBlocks)) "1" "" =
      searchOutput (fun r => decide (FieldEq 1 "" r)) (flat sampleBlocks) :=
  oneFieldSearch_eq (flat sampleBlocks) 3 length_flat (by decide) "1" 1 (by decide) (by decide) ""

/-- The two field tests commute: `two_fields_search` prints the same for both orders of its
pairs, on every file and every input. -/
theorem twoFieldsSearch_comm (file : Option Bytes) (f1 v1 f2 v2 : String) :
    twoFieldsSearch file f1 v1 f2 v2 = twoFieldsSearch file f2 v2 f1 v1 := by
  cases file with
  | none => rfl
  | some f =>
    simp only [twoFieldsSearch]
    cases pyInt f1 <;> cases pyInt f2 <;> simp only [eq_comm, or_comm, Bool.and_comm]

/-- The record rows `two_fields_search` prints are those that both single-field searches print,
in file order, and swapping the pairs changes nothing. -/
theorem twoFieldsSearch_rows (F : Bytes) (n : Nat) (hF : F.length = recordSize * n) (hn : 1 ≤ n)
    (f1 v1 f2 v2 : String) (k₁ k₂ : Int) (h₁ : pyInt f1 = some k₁) (h₂ : pyInt f2 = some k₂)
    (hne : k₁ ≠ k₂) (hk₁ : k₁ ∈ [1, 2, 3, 4]) (hk₂ : k₂ ∈ [1, 2, 3, 4]) :
    (twoFieldsSearch (some F) f1 v1 f2 v2).filter Line.isRow =
        ((oneFieldSearch (some F) f1 v1).filter Line.isRow).filter
          (· ∈ (oneFieldSearch (some F) f2 v2).filter Line.isRow) ∧
      ∀ file, twoFieldsSearch file f1 v1 f2 v2 = twoFieldsSearch file f2 v2 f1 v1 := by
  refine ⟨?_, fun file => twoFieldsSearch_comm file f1 v1 f2 v2⟩
  rw [twoFieldsSearch_of_whole hF hn h₁ h₂ hne hk₁ hk₂, oneFieldSearch_of_whole hF hn h₁ hk₁,
    oneFieldSearch_of_whole hF hn h₂ hk₂, rows_searchOutput, rows_searchOutput, rows_searchOutput,
    keptRows_and]

/-- Three records searched by name and count: the first has both, the second only the name, the
third only the count. -/
theorem twoFieldsSearch_rows_sample :
    (twoFieldsSearch (some (flat sampleBlocks)) "1" "" "2" "0").filter Line.isRow =
        ((oneFieldSearch (some (flat sampleBlocks)) "1" "").filter Line.isRow).filter
          (· ∈ (oneFieldSearch (some (flat sampleBlocks)) "2" "0").filter Line.isRow) ∧
      ∀ file, twoFieldsSearch file "1" "" "2" "0" = twoFieldsSearch file "2" "0" "1" "" :=
  twoFieldsSearch_rows (flat sampleBlocks) 3 length_flat (by decide) "1" "" "2" "0" 1 2
    (by decide) (by decide) (by decide) (by decide) (by decide)

/-! ### `digit_search` -/

/-- `price op t` in the spec's words, with Python's float comparisons. -/
def PriceCmp (op : Char) (t : PyFloat) (r : Record) : Prop :=
  (op = '>' ∧ t.lt r.price = true) ∨ (op = '<' ∧ r.price.lt t = true) ∨
    (op = '=' ∧ r.price.eq t = true)

instance (op : Char) (t : PyFloat) (r : Record) : Decidable (PriceCmp op t r) :=
  inferInstanceAs (Decidable ((op = '>' ∧ t.lt r.price = true) ∨ (op = '<' ∧ r.price.lt t = true) ∨
    (op = '=' ∧ r.price.eq t = true)))

/-- `count op t` in the spec's words. -/
def CountCmp (op : Char) (t : Int) (r : Record) : Prop :=
  (op = '>' ∧ t < r.count) ∨ (op = '<' ∧ r.count < t) ∨ (op = '=' ∧ r.count = t)

instance (op : Char) (t : Int) (r : Record) : Decidable (CountCmp op t r) :=
  inferInstanceAs (Decidable ((op = '>' ∧ t < r.count) ∨ (op = '<' ∧ r.count < t) ∨
    (op = '=' ∧ r.count = t)))

theorem digitMatch_float (op : Char) (t : PyFloat) (r : Record) :
    digitMatch op (.float t) r = decide (PriceCmp op t r) := by
  by_cases h1 : op = '>' <;> by_cases h2 : op = '<' <;> simp [digitMatch, PriceCmp, h1, h2]

theorem digitMatch_int (op : Char) (t : Int) (r : Record) :
    digitMatch op (.int t) r = decide (CountCmp op t r) := by
  by_cases h1 : op = '>' <;> by_cases h2 : op = '<' <;> simp [digitMatch, CountCmp, h1, h2]

section Digit

variable {F : Bytes} {n : Nat} (hF : F.length = recordSize * n) (hn : 1 ≤ n)
  {c : String} {op : Char} {rest : List Char} (hc : (pyStrip c).data = op :: rest)
include hF hn hc

theorem digitSearch_of_parse (hop : op ∈ ['>', '<', '=']) (hs : (pyStrip ⟨rest⟩).data ≠ [])
    {t : Target} (ht : Target.parse (pyStrip ⟨rest⟩) = some t) :
    digitSearch (some F) c = searchOutput (digitMatch op t) F := by
  simp only [digitSearch, hc, hop, hs, ht, mod_eq_zero_of_length hF, div_ne_zero_of_length hF hn,
    not_true_eq_false, not_false_eq_true, ne_eq, ↓reduceIte]
  exact withNoMatch_scanLoop _ (mod_eq_zero_of_length hF)

end Digit

section Rows

variable {F : Bytes} {n : Nat} (hF : F.length = recordSize * n) (hn : 1 ≤ n)
include hF hn

end Rows

theorem keptRows_sublist (keep : Record → Bool) (idx : Nat) (bs : List Block) :
    (keptRows keep idx bs).Sublist (keptRows (fun _ => true) idx bs) := by
  simp only [keptRows, List.filter_true]
  exact (List.filter_sublist _).map _

/-- The rows `print_db_from_file` prints from a file of whole records. -/
theorem rows_printDbFromFile (filename : String) {F : Bytes} (hmod : F.length % recordSize = 0) :
    (printDbFromFile filename (some F)).filter Line.isRow =
      keptRows (fun _ => true) 1 (blocksOf F) := by
  rw [printDbFromFile, scanLoop_blocksOf, drop_whole hmod]
  simp [hmod, tailLines, Line.isRow, filter_isRow_keptRows]

/-- A read loop with any test prints a sublist of the rows `print_db_from_file` prints. -/
theorem rows_withNoMatch_sublist (keep : Record → Bool) (filename : String) {F : Bytes}
    (hmod : F.length % recordSize = 0) :
    ((withNoMatch (scanLoop keep F 1 0)).filter Line.isRow).Sublist
      ((printDbFromFile filename (some F)).filter Line.isRow) := by
  rw [withNoMatch_scanLoop keep hmod, rows_searchOutput, rows_printDbFromFile filename hmod]
  exact keptRows_sublist keep 1 _

/-- On every file and every input, the record rows each search prints are rows that
`print_db_from_file` prints for the same file, in the same order: a search never reports a record
the file does not hold, nor one under another position. -/
theorem searches_rows_sublist (filename : String) (F : Bytes) :
    (∀ fieldNum value, ((oneFieldSearch (some F) fieldNum value).filter Line.isRow).Sublist
        ((printDbFromFile filename (some F)).filter Line.isRow)) ∧
      (∀ field1Num value1 field2Num value2,
        ((twoFieldsSearch (some F) field1Num value1 field2Num value2).filter Line.isRow).Sublist
          ((printDbFromFile filename (some F)).filter Line.isRow)) ∧
      ∀ condition, ((digitSearch (some F) condition).filter Line.isRow).Sublist
        ((printDbFromFile filename (some F)).filter Line.isRow) := by
  refine ⟨fun fieldNum value => ?_, fun f1 v1 f2 v2 => ?_, fun condition => ?_⟩ <;>
    simp only [oneFieldSearch, twoFieldsSearch, digitSearch] <;>
    repeat' first
      | exact rows_withNoMatch_sublist _ filename (by omega)
      | exact List.nil_sublist _
      | split

end RecordStore
