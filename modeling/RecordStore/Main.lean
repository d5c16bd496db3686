import RecordStore.Search
import RecordStore.Menu

/-!
# `main`: the menu loop over standard input

`main` reads its lines from standard input, one `input()` at a time, and acts on the chosen file
through the store's functions. A program here is an `EStateM` over a `World`: the lines still to
read, the lines printed, `db_file`, and the contents of the files the program names. An exception
carries the world as it was when it was raised, as Python leaves the file system: `EOFError`
when the input runs out, the `ValueError` of `int()` or `float()` on a line they refuse, and the
exceptions of the store's functions and of `open`.

`choose_file` and `choose_any_file` ask the operating system what is in the folder and on the
disk. Those answers are an `Os`, the file system as a call of `choose_file` finds it; the `k`-th
call finds `os k`, since the program's own writes change what later calls find. A chosen file
is written only by the program (`init_db_binary`, `insert_record_at`, `delete_record`), so the
model keeps its contents in the `World`.

Prompts that `input(prompt)` writes are not modelled: `World.out` holds what `print` prints.
-/

namespace RecordStore

/-- The built-in a `ValueError` comes from, which its message names: "invalid literal for int()
with base 10: …" or "could not convert string to float: …". -/
inductive NumBuiltin where
  | int
  | float
deriving DecidableEq, Repr

/-- An exception that ends a pass of `main`'s loop. -/
inductive MainExc where
  /-- The `ValueError` of `int()` or `float()` on the line it refused. -/
  | valueError (fn : NumBuiltin) (line : String)
  /-- `EOFError`: `input()` at the end of the input. -/
  | eofError
  /-- What a store function raised: `pack_record`'s `struct.error`. -/
  | store (e : PyExc)
  /-- The `OSError` of `open(path, "wb")`. -/
  | osError (path : String)
deriving DecidableEq, Repr

/-- Whether `except ValueError` catches it. -/
def MainExc.isValueError : MainExc → Bool
  | .valueError .. => true
  | .store e => e.isValueError
  | _ => false

/-- What `main` keeps and acts on. -/
structure World where
  /-- `db_file`. -/
  dbFile : Option String
  /-- The contents of the file at each path, as the program names it (`none`: no such file). -/
  files : String → Option Bytes
  /-- The lines of standard input still to be read. -/
  input : List String
  /-- The lines printed so far. -/
  out : List Line
  /-- How many times `choose_file` has run. -/
  calls : Nat

/-- A statement of `main`'s code. -/
abbrev Prog := EStateM MainExc World

end RecordStore

/-- The world an `EStateM` result leaves, returned or raised. -/
def EStateM.Result.world {ε σ α : Type} : EStateM.Result ε σ α → σ
  | .ok _ w => w
  | .error _ w => w

namespace RecordStore

/-! ### Statements -/

/-- `input()`: the next line of standard input; `EOFError` at its end. -/
def pyInput : Prog String := fun w =>
  match w.input with
  | [] => .error .eofError w
  | l :: ls => .ok l { w with input := ls }

/-- `print(s)`, for each of `ss`. -/
def pyPrintAll (ss : List String) : Prog Unit := fun w =>
  .ok () { w with out := w.out ++ ss.map .text }

/-- `print(s)`. -/
def pyPrint (s : String) : Prog Unit := pyPrintAll [s]

/-- `int(s)`, raising `ValueError` on a line it refuses. -/
def parseInt (s : String) : Prog Int :=
  match pyInt s with
  | some n => pure n
  | none => EStateM.throw (.valueError .int s)

/-- `float(s)`, raising `ValueError` on a line it refuses. -/
def parseFloat (s : String) : Prog PyFloat :=
  match pyFloat s with
  | some x => pure x
  | none => EStateM.throw (.valueError .float s)

/-- `try: body` `except ValueError: handler`. -/
def tryValueError (body handler : Prog Unit) : Prog Unit := fun w =>
  match body w with
  | .error e w' => if e.isValueError then handler w' else .error e w'
  | r => r

/-- A store function on the file at `path`: the file it leaves is written back, its lines are
printed and its exception raised. -/
def runStore (path : String) (op : Option Bytes → Outcome) : Prog Unit := fun w =>
  let o := op (w.files path)
  let w' := { w with files := Function.update w.files path o.file, out := w.out ++ o.out }
  match o.raised with
  | none => .ok () w'
  | some e => .error (.store e) w'

/-- Returning or raising, `runStore` leaves the file `op` wrote and its lines. -/
theorem runStore_world (path : String) (op : Option Bytes → Outcome) (w : World) :
    (runStore path op w).world =
      { w with files := Function.update w.files path (op (w.files path)).file,
               out := w.out ++ (op (w.files path)).out } := by
  unfold runStore
  dsimp only
  split <;> rfl

/-- A function that only reads the file at `path`: its lines are printed. -/
def runRead (path : String) (op : Option Bytes → List Line) : Prog Unit := fun w =>
  .ok () { w with out := w.out ++ op (w.files path) }

/-- `while True:` around `pass`, which returns `some a` to leave the loop with `a` and `none` to
go round again, for at most `fuel` passes. -/
def whileTrue {α : Type} (pass : Prog (Option α)) : Nat → Prog (Option α)
  | 0 => pure none
  | fuel + 1 => fun w =>
    match pass w with
    | .ok (some a) w' => .ok (some a) w'
    | .ok none w' => whileTrue pass fuel w'
    | .error e w' => .error e w'

/-- `while True:` around a pass that reads a line each time: one more pass than there are lines
left is enough (`whileTrue_fuel`). -/
def loop {α : Type} (pass : Prog (Option α)) : Prog (Option α) := fun w =>
  whileTrue pass (w.input.length + 1) w

/-! ### Choosing the file -/

/-- What `choose_file` asks the operating system. -/
structure Os where
  /-- `os.listdir(folder)`. -/
  listdir : List String
  /-- `os.path.isfile`. -/
  isFile : String → Bool
  /-- `os.path.isdir`. -/
  isDir : String → Bool
  /-- `os.path.exists`. -/
  pathExists : String → Bool
  /-- `os.path.abspath(os.path.expanduser(path))`. -/
  absPath : String → String
  /-- Whether `open(path, "wb")` succeeds. -/
  canOpen : String → Bool

def folder : String := "."

/-- `os.path.join(folder, name)`: a name starting with `/` replaces the folder. -/
def joinFolder (name : String) : String :=
  if name.startsWith "/" then name else folder ++ "/" ++ name

/-- `list_files()`. -/
def listFiles (os : Os) : List String := os.listdir.filter fun f => os.isFile (joinFolder f)

/-- `init_db_binary(path)` on a path `choose_file` picked, where `open` may fail. -/
def initDbAt (os : Os) (path : String) : Prog Unit :=
  if os.canOpen path then runStore path (initDbBinary path) else EStateM.throw (.osError path)

/-- A pass of the `while True` loop of `choose_any_file` once it has read `path`: `some r` returns
`r`. -/
def choosePath (os : Os) (path : String) : Prog (Option (Option String)) := do
  if path = "" then
    pyPrint "Выбор файла отменён."
    return some none
  let path := os.absPath path
  if os.isDir path then
    pyPrint "Указан каталог, а не файл. Введите путь именно к файлу (с именем файла)."
    return none
  if os.pathExists path then
    pyPrint ("Выбран существующий файл: " ++ path)
    initDbAt os path
    return some (some path)
  -- `.lower() == "y"`: only `y` and `Y` lower to `y`, so an ASCII lowering decides it
  let ans := (pyStrip (← pyInput)).toLower
  if ans = "y" then
    initDbAt os path
    return some (some path)
  pyPrint "Попробуйте ввести путь ещё раз."
  return none

/-- One pass of the `while True` loop of `choose_any_file`: `path = input(...).strip()`. -/
def chooseAnyFilePass (os : Os) : Prog (Option (Option String)) := do
  choosePath os (pyStrip (← pyInput))

/-- `choose_any_file()`. -/
def chooseAnyFile (os : Os) : Prog (Option String) := do
  let r ← loop (chooseAnyFilePass os)
  return r.getD none

/-- `choose_file()`. The item number of the listing is read outside any `try`: a line `int()`
refuses there raises out of `choose_file` and out of `main`. -/
def chooseFile (os : Os) : Prog (Option String) := do
  pyPrintAll ["Выбор файла базы данных:", "1. Выбрать файл из текущего каталога",
    "2. Ввести полный путь к файлу"]
  match pyInt (← pyInput) with
  | none =>
    pyPrint "Ошибка: введите 1 или 2."
    return none
  | some mode =>
    if mode = 1 then
      let files := listFiles os
      pyPrintAll ("\nСписок файлов:" :: (files.enumFrom 1).map (fun p => toString p.1 ++ ". " ++ p.2) ++
        [toString (files.length + 1) ++ ". Создать новый файл"])
      let choice ← parseInt (← pyInput)
      if 1 ≤ choice ∧ choice ≤ files.length then
        let selected := files.getD (choice - 1).toNat ""
        pyPrint ("Вы выбрали существующий файл: " ++ selected)
        initDbAt os selected
        return some selected
      else if choice = files.length + 1 then
        let fullPath := joinFolder (← pyInput)
        if os.pathExists fullPath then pyPrint "Файл существует. Он будет перезаписан."
        initDbAt os fullPath
        return some fullPath
      else
        pyPrint "Некорректный выбор."
        return none
    else if mode = 2 then chooseAnyFile os
    else
      pyPrint "Некорректный выбор."
      return none

/-! ### The menu and its options -/

/-- `menu()`: the menu, then the choice, `-1` for a line `int()` refuses. -/
def menu : Prog Int := do
  pyPrintAll ["\nМеню:", "1. Выбрать файл для работы", "2. Инициализировать базу данных",
    "3. Вывести содержимое базы данных", "4. Добавить запись в произвольное место",
    "5. Удалить запись", "6. Поиск по одному полю", "7. Поиск по двум полям", "8. Поиск по числу",
    "9. Выход"]
  return (pyInt (← pyInput)).getD (-1)

/-- `if not db_file: print(msg) else: body(db_file)`. -/
def withDb (msg : String) (body : String → Prog Unit) : Prog Unit := fun w =>
  match w.dbFile with
  | some p => if p = "" then pyPrint msg w else body p w
  | none => pyPrint msg w

def fieldNames : List String := ["1 - name", "2 - count", "3 - price", "4 - category"]

/-- Option 4: the five lines are read one at a time, so the first line `int()` or `float()`
refuses ends the reading. -/
def optionInsert (path : String) : Prog Unit :=
  tryValueError (do
    let pos ← parseInt (← pyInput)
    let name ← pyInput
    let count ← parseInt (← pyInput)
    let price ← parseFloat (← pyInput)
    let category ← pyInput
    runStore path (insertRecordAt · pos ⟨name, count, price, category⟩))
    (pyPrint msgInputError)

/-- Option 5. -/
def optionDelete (path : String) : Prog Unit :=
  tryValueError (do
    let pos ← parseInt (← pyInput)
    runStore path (deleteRecord · pos))
    (pyPrint msgInputError)

/-- Option 6. -/
def optionOneField (path : String) : Prog Unit := do
  pyPrintAll ("Поиск по одному полю:" :: fieldNames)
  let fieldNum := pyStrip (← pyInput)
  let value ← pyInput
  runRead path (oneFieldSearch · fieldNum value)

/-- Option 7. -/
def optionTwoFields (path : String) : Prog Unit := do
  pyPrintAll ("Поиск по двум полям:" :: fieldNames)
  let field1 := pyStrip (← pyInput)
  let value1 ← pyInput
  let field2 := pyStrip (← pyInput)
  let value2 ← pyInput
  runRead path (twoFieldsSearch · field1 value1 field2 value2)

/-- Option 8. -/
def optionDigit (path : String) : Prog Unit := do
  pyPrint "Поиск по числу:"
  let range := pyStrip (← pyInput)
  runRead path (digitSearch · range)

/-- Option 1: `db_file = choose_file()`, the call finding the file system `os k` for the `k`-th
call. -/
def optionChoose (os : Nat → Os) : Prog Unit := fun w =>
  match chooseFile (os w.calls) { w with calls := w.calls + 1 } with
  | .ok r w' => .ok () { w' with dbFile := r }
  | .error e w' => .error e w'

def msgNoDb : String := "Сначала выберите файл БД"

/-- What a pass of `main`'s loop does with the menu choice: `some ()` is the `break` of option 9. -/
def mainChoice (os : Nat → Os) (choice : Int) : Prog (Option Unit) := do
  if choice = 1 then optionChoose os
  else if choice = 2 then withDb msgNoDb fun p => runStore p (initDbBinary p)
  else if choice = 3 then withDb msgNoDb fun p => runRead p (printDbFromFile p)
  else if choice = 4 then withDb msgNoDb optionInsert
  else if choice = 5 then withDb msgNoDb optionDelete
  else if choice = 6 then withDb msgNoDb optionOneField
  else if choice = 7 then withDb msgNoDb optionTwoFields
  else if choice = 8 then withDb "Сначала выберите файл с БД." optionDigit
  else if choice = 9 then
    pyPrint "Выход из программы"
    return some ()
  else pyPrint "Некорректный пункт меню"
  return none

/-- One pass of the `while True` loop of `main`: `choice = menu()`. -/
def mainPass (os : Nat → Os) : Prog (Option Unit) := do
  mainChoice os (← menu)

/-- `main()` on the given input, with no file chosen yet. -/
def main (os : Nat → Os) (files : String → Option Bytes) (input : List String) :
    EStateM.Result MainExc World (Option Unit) :=
  loop (mainPass os) ⟨none, files, input, [], 0⟩

end RecordStore
