import RecordStore.Codec

/-!
# The store's operations

`init_db_binary`, `print_db_from_file`, `insert_record_at` and `delete_record`, each a function
of the file it finds (`none`: there is no file) to the file it leaves, the lines it prints and the
exception it raises, if any. The read loop of `print_db_from_file` is shared, in
`scanLoop`, with the three searches of `Search.lean`: they differ only in which records they
print. Insertion and deletion shift records with the source's `for` loops over Python ranges,
one `RECORD_SIZE` read and one write per step.
-/

namespace RecordStore

/-- A line the program prints. -/
inductive Line where
  /-- `f"{idx}. {name}, {count}, {price}, {category}"`. -/
  | row (idx : Nat) (r : Record)
  /-- `f"[{idx}] Повреждённая/неполная запись ({len(data)} байт)"`. -/
  | corrupt (idx len : Nat)
  /-- Any other message, as printed. -/
  | text (s : String)
deriving DecidableEq, Repr

/-- What an operation leaves behind: the file (`none`: there is none), the lines it printed and
the exception it raised, if any. -/
structure Outcome where
  file : Option Bytes
  out : List Line
  raised : Option PyExc := none

def msgNotFound : String := "Файл не найден"

def msgBadPosition : String := "Некорректная позиция"

def msgEmpty : String := "База пуста"

/-- `range(start, stop)`. -/
def pyRange (start stop : Int) : List Int :=
  (List.range (stop - start).toNat).map fun i : Nat => start + i

/-- `range(start, stop, -1)`. -/
def pyRangeDown (start stop : Int) : List Int :=
  (List.range (start - stop).toNat).map fun i : Nat => start - i

/-! ### `init_db_binary` -/

/-- `generate_record(index)`. -/
def generateRecord : Nat → Option Record
  | 0 => some ⟨"яблоко", 10, PyFloat.ofDecimal 35 (-1), "фрукт"⟩
  | 1 => some ⟨"книга", 2, PyFloat.ofDecimal 799 0, "товар"⟩
  | 2 => some ⟨"ноутбук", 1, PyFloat.ofDecimal 8999999 (-2), "техника"⟩
  | _ => none

theorem lt_of_generateRecord {i : Nat} {r : Record} (h : generateRecord i = some r) : i < 3 := by
  match i, h with
  | 0, _ | 1, _ | 2, _ => decide

/-- The records the `while` loop of `init_db_binary` draws from `generate_record`, from index
`i` to the first `None`. -/
def generatedFrom (i : Nat) : List Record :=
  match h : generateRecord i with
  | none => []
  | some r => r :: generatedFrom (i + 1)
termination_by 3 - i
decreasing_by have := lt_of_generateRecord h; omega

/-- Append the records' packed bytes to `f`, stopping at the first `pack_record` that raises. -/
def writeRecords (f : Bytes) : List Record → Bytes × Option PyExc
  | [] => (f, none)
  | r :: rs =>
    match packRecord r with
    | .ok b => writeRecords (f ++ b.bytes) rs
    | .error e => (f, some e)

/-- `init_db_binary(filename)`: truncate the file and write the generated records. -/
def initDbBinary (filename : String) (_file : Option Bytes) : Outcome :=
  let recs := generatedFrom 0
  match writeRecords [] recs with
  | (f, some e) => ⟨some f, [], some e⟩
  | (f, none) =>
    ⟨some f, [.text ("Файл \x27" ++ filename ++ "\x27 инициализирован бинарной БД (" ++
      toString recs.length ++ " записей, размер записи " ++ toString recordSize ++ " байт)")],
      none⟩

/-! ### The read loop and `print_db_from_file` -/

theorem lt_length_of_readAt_ne_nil {f : Bytes} {off k : Nat} (h : readAt f off k ≠ []) :
    off < f.length := by
  by_contra hle
  exact h (by simp [readAt, List.drop_eq_nil_of_le (Nat.le_of_not_lt hle)])

/-- The read loop of `print_db_from_file` and of the searches, from record `idx` at byte `off`:
read `RECORD_SIZE` bytes; stop at the end of the file; report a short read as a damaged record
and stop; otherwise decode the record, print it if `keep` accepts it, and go on. Returns the
lines and whether it printed a record (the searches' `found`). -/
def scanLoop (keep : Record → Bool) (f : Bytes) (idx off : Nat) : List Line × Bool :=
  if hd : readAt f off recordSize = [] then ([], false)
  else if h : (readAt f off recordSize).length = recordSize then
    let r := unpackRecord ⟨readAt f off recordSize, h⟩
    let rest := scanLoop keep f (idx + 1) (off + recordSize)
    if keep r then (.row idx r :: rest.1, true) else rest
  else ([.corrupt idx (readAt f off recordSize).length], false)
termination_by f.length - off
decreasing_by have := lt_length_of_readAt_ne_nil hd; have := recordSize_pos; omega

def msgSize (op : String) : String :=
  "Файл имеет некорректный размер (не кратен размеру записи). " ++ op

/-- `print_db_from_file(filename)`. -/
def printDbFromFile (filename : String) : Option Bytes → List Line
  | none => [.text ("\nСодержимое БД \x27" ++ filename ++ "\x27:"), .text msgNotFound]
  | some f =>
    .text ("\nСодержимое БД \x27" ++ filename ++ "\x27:") ::
      ((if f.length % recordSize ≠ 0 then
          [.text ("Предупреждение: размер файла " ++ toString f.length ++
            " байт не кратен размеру записи " ++ toString recordSize ++ " байт")]
        else []) ++
        (scanLoop (fun _ => true) f 1 0).1)

/-! ### `insert_record_at` -/

/-- One step of the insertion loop: `f.seek(i * RECORD_SIZE)`, read a record, `f.seek((i + 1) *
RECORD_SIZE)`, write it. -/
def shiftUp (f : Bytes) (i : Int) : Bytes :=
  writeAt f ((i + 1) * recordSize).toNat (readAt f (i * recordSize).toNat recordSize)

/-- `insert_record_at(filename, pos, name, count, price, category)`. `int(pos)` is the identity on
the `int` every caller passes. -/
def insertRecordAt (file : Option Bytes) (pos : Int) (r : Record) : Outcome :=
  match file with
  | none => ⟨none, [.text msgNotFound], none⟩
  | some f =>
    if pos < 1 then ⟨some f, [.text msgBadPosition], none⟩ else
    let n := f.length / recordSize
    if f.length % recordSize ≠ 0 then ⟨some f, [.text (msgSize "Вставка отменена.")], none⟩ else
    if pos > n + 1 then
      ⟨some f, [.text (msgBadPosition ++ ". Допустимо 1.." ++ toString (n + 1))], none⟩ else
    match packRecord r with
    | .error e => ⟨some f, [], some e⟩
    | .ok b =>
      if pos = n + 1 then ⟨some (writeAt f f.length b.bytes), [.text "Запись добавлена в конец"], none⟩
      else
        let f := (pyRangeDown (n - 1) (pos - 2)).foldl shiftUp f
        ⟨some (writeAt f ((pos - 1) * recordSize).toNat b.bytes),
          [.text ("Запись вставлена на позицию " ++ toString pos)], none⟩

/-! ### `delete_record` -/

/-- One step of the deletion loop: `f.seek(i * RECORD_SIZE)`, read a record, `f.seek((i - 1) *
RECORD_SIZE)`, write it. -/
def shiftDown (f : Bytes) (i : Int) : Bytes :=
  writeAt f ((i - 1) * recordSize).toNat (readAt f (i * recordSize).toNat recordSize)

/-- `delete_record(filename, pos)`. `int(pos)` cannot raise on the `int` every caller passes. -/
def deleteRecord (file : Option Bytes) (pos : Int) : Outcome :=
  match file with
  | none => ⟨none, [.text msgNotFound], none⟩
  | some f =>
    if pos < 1 then ⟨some f, [.text msgBadPosition], none⟩ else
    if f.length % recordSize ≠ 0 then ⟨some f, [.text (msgSize "Удаление отменено.")], none⟩ else
    let n := f.length / recordSize
    if n = 0 then ⟨some f, [.text msgEmpty], none⟩ else
    if pos > n then ⟨some f, [.text (msgBadPosition ++ ". Допустимо 1.." ++ toString n)], none⟩
    else
      let f := (pyRange pos n).foldl shiftDown f
      ⟨some (truncate f ((n - 1) * recordSize)),
        [.text ("Запись удалена с позиции " ++ toString pos)], none⟩

/-! ### A file for the instances -/

/-- Three distinct blocks, which the instances of the later modules use: a zero record, one whose
count is 1 and one whose name is `a`. -/
def sampleBlocks : List Block :=
  [⟨List.replicate 43 0, rfl⟩, ⟨List.replicate 20 0 ++ 1 :: List.replicate 22 0, by decide⟩,
    ⟨97 :: List.replicate 42 0, by decide⟩]

end RecordStore
