import RecordStore.Store
import RecordStore.PyStr

/-!
# The three searches

`one_field_search`, `two_fields_search` and `digit_search`. Each checks its arguments and the
file, then runs the shared read loop `scanLoop` with its own test and prints the no-match message
if no record was printed. The per-field test that `one_field_search` makes once and
`two_fields_search` makes twice, in two copies of the same code, is `fieldMatches`.
-/

namespace RecordStore

def msgNoMatch : String := "Совпадений не найдено"

def msgBadField : String := "Некорректный номер поля. Допустимо 1-4"

/-- The lines a search prints from its loop: the loop's lines, then the no-match message when
the loop printed no record. -/
def withNoMatch (res : List Line × Bool) : List Line :=
  res.1 ++ if res.2 then [] else [.text msgNoMatch]

/-- The test on field number `fieldNum` (already checked to be 1–4): the name against `value`, the
count against `int(value)`, the price against `float(value)`, and otherwise the category. A value
`int` or `float` refuses matches nothing: the `ValueError` is caught as `ok = False`. -/
def fieldMatches (fieldNum : Int) (value : String) (r : Record) : Bool :=
  if fieldNum = 1 then r.name == value
  else if fieldNum = 2 then
    match pyInt value with
    | some v => r.count == v
    | none => false
  else if fieldNum = 3 then
    match pyFloat value with
    | some v => r.price.eq v
    | none => false
  else r.category == value

/-- `one_field_search(filename, field_num, value)`. -/
def oneFieldSearch (file : Option Bytes) (fieldNum value : String) : List Line :=
  match file with
  | none => [.text msgNotFound]
  | some f =>
    if f.length % recordSize ≠ 0 then [.text (msgSize "Поиск отменён.")] else
    if f.length / recordSize = 0 then [.text msgEmpty] else
    match pyInt fieldNum with
    | none => [.text "Номер поля должен быть числом 1-4"]
    | some k =>
      if k ∉ [1, 2, 3, 4] then [.text msgBadField] else
      withNoMatch (scanLoop (fieldMatches k value) f 1 0)

/-- `two_fields_search(filename, field1_num, value1, field2_num, value2)`. -/
def twoFieldsSearch (file : Option Bytes) (field1Num value1 field2Num value2 : String) :
    List Line :=
  match file with
  | none => [.text msgNotFound]
  | some f =>
    match pyInt field1Num, pyInt field2Num with
    | some k₁, some k₂ =>
      if k₁ = k₂ then [.text "Номера полей должны быть разными"] else
      if k₁ ∉ [1, 2, 3, 4] ∨ k₂ ∉ [1, 2, 3, 4] then [.text msgBadField] else
      if f.length % recordSize ≠ 0 then [.text (msgSize "Поиск отменён.")] else
      if f.length / recordSize = 0 then [.text msgEmpty] else
      withNoMatch (scanLoop (fun r => fieldMatches k₁ value1 r && fieldMatches k₂ value2 r) f 1 0)
    | _, _ => [.text "Номера полей должны быть числами 1-4"]

/-- The number `digit_search` compares with: a `float` for the price or an `int` for the count. -/
inductive Target where
  | float (x : PyFloat)
  | int (k : Int)
deriving DecidableEq

/-- The literal's form picks the field: with a `.` it is `float(num_str)` against the price,
without one `int(num_str)` against the count. -/
def Target.parse (numStr : String) : Option Target :=
  if '.' ∈ numStr.data then (pyFloat numStr).map .float else (pyInt numStr).map .int

/-- The `match` that `digit_search` computes for each record. -/
def digitMatch (op : Char) : Target → Record → Bool
  | .float t, r =>
    if op = '>' ∧ t.lt r.price then true
    else if op = '<' ∧ r.price.lt t then true
    else if op = '=' ∧ r.price.eq t then true
    else false
  | .int t, r =>
    if op = '>' ∧ t < r.count then true
    else if op = '<' ∧ r.count < t then true
    else if op = '=' ∧ r.count = t then true
    else false

/-- `digit_search(filename, condition)`. -/
def digitSearch (file : Option Bytes) (condition : String) : List Line :=
  match file with
  | none => [.text msgNotFound]
  | some f =>
    match (pyStrip condition).data with
    | [] => [.text "Значение переменной для поиска не может быть равно нулю"]
    | op :: rest =>
      if op ∉ ['>', '<', '='] then [.text "Некорректный оператор. Ожидается один из: >, <, ="] else
      let numStr := pyStrip ⟨rest⟩
      if numStr.data = [] then [.text "Число для сравнения не указано"] else
      match Target.parse numStr with
      | none => [.text "Некорректное число для сравнения"]
      | some t =>
        if f.length % recordSize ≠ 0 then [.text (msgSize "Поиск отменён.")] else
        if f.length / recordSize = 0 then [.text msgEmpty] else
        withNoMatch (scanLoop (digitMatch op t) f 1 0)

end RecordStore
