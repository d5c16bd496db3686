import RecordStore.MainSpec
import RecordStore.Refinement

/-!
# What every run of `main` keeps

`Good files₀ w`, for a run started on the files `files₀`: the file `db_file` names holds whole
records, every file holds what it held at the start or whole records, and no line printed so far
is the damaged-record line of the read loop. `main` starts with no file chosen and nothing
printed, and every statement keeps `Good` (`options_good`), so every world of a run has it, the
one an exception leaves included (`main_good`).

The reasons are three. `choose_file` returns only a path that `init_db_binary` has just written
(`triple_chooseFile`, with `C q w` the file at `q` being whole). `insert_record_at` and
`delete_record` keep a file of whole records whole (`Abstracts.insert`, `Abstracts.delete`), the
record `pack_record` refuses included, since it is packed before the file is opened. And on such a
file the read loop of the listing and of the searches never meets a short read (`scanLoop_flat`).
The file system is one that only the program writes.

Between two choices of file, `main` touches the files only through the store: every pass but
option 1 keeps `RunsOn p`, "`db_file` is still `p` and the files are those of a `run` of store
operations on `p`" (`mainChoice_runsOn`), so the records of `p` change as `absRun` says
(`mainChoice_abstracts`, through `RunsOn.abstracts` and `Abstracts.run`).
-/

namespace RecordStore

/-- The file holds whole records. -/
def Whole (file : Option Bytes) : Prop := ∃ L, Abstracts file L

/-- The read loop's damaged-record line. -/
def Line.isCorrupt : Line → Bool
  | .corrupt .. => true
  | _ => false

/-- No line is a damaged-record line. -/
def NoCorrupt (out : List Line) : Prop := ∀ l ∈ out, l.isCorrupt = false

/-! ### Lines -/

section Lines

@[simp] theorem noCorrupt_nil : NoCorrupt [] := nofun

@[simp] theorem noCorrupt_cons {l : Line} {out : List Line} :
    NoCorrupt (l :: out) ↔ l.isCorrupt = false ∧ NoCorrupt out := List.forall_mem_cons

@[simp] theorem noCorrupt_append {a b : List Line} :
    NoCorrupt (a ++ b) ↔ NoCorrupt a ∧ NoCorrupt b := List.forall_mem_append

@[simp] theorem isCorrupt_text (s : String) : (Line.text s).isCorrupt = false := rfl

@[simp] theorem isCorrupt_row (i : Nat) (r : Record) : (Line.row i r).isCorrupt = false := rfl

@[simp] theorem noCorrupt_map_text (ss : List String) : NoCorrupt (ss.map .text) := by
  simp [NoCorrupt]

theorem noCorrupt_keptRows (keep : Record → Bool) (idx : Nat) (bs : List Block) :
    NoCorrupt (keptRows keep idx bs) := fun _ hl => by
  obtain ⟨j, r, rfl, -⟩ := mem_keptRows keep hl
  rfl

/-- On a file of whole records a search's loop prints rows and perhaps the no-match message. -/
theorem noCorrupt_withNoMatch (keep : Record → Bool) (bs : List Block) :
    NoCorrupt (withNoMatch (scanLoop keep (flat bs) 1 0)) := by
  rw [scanLoop_flat keep (flat bs) bs (show ([] : Bytes).length < recordSize from recordSize_pos) 1 0
    (by rw [List.drop_zero, List.append_nil])]
  simp only [withNoMatch, tailLines, if_true, List.append_nil, noCorrupt_append,
    noCorrupt_keptRows, true_and]
  split <;> simp

end Lines

/-! ### The store's functions on a file of whole records -/

section Store

variable {file : Option Bytes}

theorem whole_initDbBinary (filename : String) (file : Option Bytes) :
    Whole (initDbBinary filename file).file :=
  ⟨_, Abstracts.initDb filename file⟩

theorem noCorrupt_initDbBinary (filename : String) (file : Option Bytes) :
    NoCorrupt (initDbBinary filename file).out := by
  unfold initDbBinary
  dsimp only
  split <;> simp

/-- A record `pack_record` refuses leaves the file as it was. -/
theorem insertRecordAt_file_of_error {pos : Int} {r : Record} {e : PyExc}
    (hb : packRecord r = .error e) : (insertRecordAt file pos r).file = file := by
  unfold insertRecordAt
  split
  · rfl
  · simp only [hb]
    split_ifs <;> rfl

theorem whole_insertRecordAt (h : Whole file) (pos : Int) (r : Record) :
    Whole (insertRecordAt file pos r).file := by
  obtain ⟨L, hL⟩ := h
  cases hb : packRecord r with
  | ok b => exact ⟨_, hL.insert pos hb⟩
  | error e => exact insertRecordAt_file_of_error hb ▸ ⟨L, hL⟩

theorem noCorrupt_insertRecordAt (file : Option Bytes) (pos : Int) (r : Record) :
    NoCorrupt (insertRecordAt file pos r).out := by
  unfold insertRecordAt
  split
  · simp
  · dsimp only
    split_ifs <;> (try split) <;> simp

theorem whole_deleteRecord (h : Whole file) (pos : Int) : Whole (deleteRecord file pos).file :=
  let ⟨_, hL⟩ := h
  ⟨_, hL.delete pos⟩

theorem noCorrupt_deleteRecord (file : Option Bytes) (pos : Int) :
    NoCorrupt (deleteRecord file pos).out := by
  unfold deleteRecord
  split
  · simp
  · dsimp only
    split_ifs <;> simp

theorem noCorrupt_printDbFromFile (h : Whole file) (filename : String) :
    NoCorrupt (printDbFromFile filename file) := by
  obtain ⟨_, bs, rfl, -⟩ := h
  rw [printDbFromFile_flat, noCorrupt_cons]
  exact ⟨rfl, fun _ hl => by obtain ⟨_, -, rfl⟩ := List.mem_map.mp hl; rfl⟩

theorem noCorrupt_oneFieldSearch (h : Whole file) (fieldNum value : String) :
    NoCorrupt (oneFieldSearch file fieldNum value) := by
  obtain ⟨_, bs, rfl, -⟩ := h
  dsimp only [oneFieldSearch]
  repeat' split
  all_goals simp [noCorrupt_withNoMatch]

theorem noCorrupt_twoFieldsSearch (h : Whole file) (field1Num value1 field2Num value2 : String) :
    NoCorrupt (twoFieldsSearch file field1Num value1 field2Num value2) := by
  obtain ⟨_, bs, rfl, -⟩ := h
  dsimp only [twoFieldsSearch]
  repeat' split
  all_goals simp [noCorrupt_withNoMatch]

theorem noCorrupt_digitSearch (h : Whole file) (condition : String) :
    NoCorrupt (digitSearch file condition) := by
  obtain ⟨_, bs, rfl, -⟩ := h
  dsimp only [digitSearch]
  repeat' split
  all_goals simp [noCorrupt_withNoMatch]

end Store

/-! ### The invariant -/

/-- What every world of a run of `main` started on the files `files₀` satisfies. -/
structure Good (files₀ : String → Option Bytes) (w : World) : Prop where
  /-- The file `db_file` names holds whole records. -/
  chosen : ∀ p, w.dbFile = some p → Whole (w.files p)
  /-- Every file holds what it held at the start, or whole records. -/
  written : ∀ p, w.files p = files₀ p ∨ Whole (w.files p)
  /-- No damaged-record line was printed. -/
  noCorrupt : NoCorrupt w.out

/-- `Good`, with `db_file` naming `p`: what an option runs under. -/
def GoodAt (files₀ : String → Option Bytes) (p : String) (w : World) : Prop :=
  Good files₀ w ∧ w.dbFile = some p

namespace Good

variable {files₀ : String → Option Bytes} {w : World}

theorem initial (files₀ : String → Option Bytes) (input : List String) :
    Good files₀ ⟨none, files₀, input, [], 0⟩ :=
  ⟨nofun, fun _ => .inl rfl, noCorrupt_nil⟩

/-- Writing whole records to a file, and printing no damaged-record line, keeps `Good`. -/
theorem write (hw : Good files₀ w) {path : String} {file : Option Bytes} {out : List Line}
    (hf : Whole file) (ho : NoCorrupt out) :
    Good files₀ { w with files := Function.update w.files path file, out := w.out ++ out } where
  chosen p hp := by
    show Whole (Function.update w.files path file p)
    rw [Function.update_apply]
    split_ifs
    · exact hf
    · exact hw.chosen p hp
  written p := by
    show Function.update w.files path file p = _ ∨ Whole (Function.update w.files path file p)
    rw [Function.update_apply]
    split_ifs
    · exact .inr hf
    · exact hw.written p
  noCorrupt := noCorrupt_append.mpr ⟨hw.noCorrupt, ho⟩

theorem print (hw : Good files₀ w) {out : List Line} (ho : NoCorrupt out) :
    Good files₀ { w with out := w.out ++ out } :=
  ⟨hw.chosen, hw.written, noCorrupt_append.mpr ⟨hw.noCorrupt, ho⟩⟩

end Good

variable {files₀ : String → Option Bytes}

theorem basic_goodAt (files₀ : String → Option Bytes) (p : String) : Basic (Holds (GoodAt files₀ p)) where
  input w hw := by
    unfold pyInput
    split
    · exact hw
    · exact ⟨⟨hw.1.chosen, hw.1.written, hw.1.noCorrupt⟩, hw.2⟩
  print ss _ hw := ⟨hw.1.print (noCorrupt_map_text ss), hw.2⟩

theorem basic_good (files₀ : String → Option Bytes) : Basic (Holds (Good files₀)) where
  input w hw := by
    unfold pyInput
    split
    · exact hw
    · exact ⟨hw.chosen, hw.written, hw.noCorrupt⟩
  print ss _ hw := hw.print (noCorrupt_map_text ss)

/-- A store function that keeps a file of whole records whole, and prints no damaged-record line
on it, keeps `GoodAt` when it runs on the chosen file. -/
theorem goodAt_runStore {op : Option Bytes → Outcome}
    (hop : ∀ file, Whole file → Whole (op file).file ∧ NoCorrupt (op file).out) (p : String) :
    Keeps (Holds (GoodAt files₀ p)) (runStore p op) := by
  rintro w ⟨hw, hp⟩
  have h := hop _ (hw.chosen p hp)
  rw [runStore_world]
  exact ⟨hw.write h.1 h.2, hp⟩

theorem goodAt_runRead {op : Option Bytes → List Line} (hop : ∀ file, Whole file → NoCorrupt (op file))
    (p : String) : Keeps (Holds (GoodAt files₀ p)) (runRead p op) := by
  rintro w ⟨hw, hp⟩
  exact ⟨hw.print (hop _ (hw.chosen p hp)), hp⟩

theorem atDb_of_goodAt {body : String → Prog Unit} (h : ∀ p, Keeps (Holds (GoodAt files₀ p)) (body p)) :
    AtDb (Holds (Good files₀)) body :=
  fun p w hp hw => (h p w ⟨hw, hp⟩).1

/-- `init_db_binary` on a path `choose_file` picked leaves that file whole. -/
theorem initDbAt_good (os : Os) (q : String) :
    Triple (Good files₀) (initDbAt os q) (fun _ w => Good files₀ w ∧ Whole (w.files q)) (Good files₀) := by
  unfold initDbAt
  refine .ite (fun _ => .of_keeps_and (fun w hw => ?_) fun w _ => ?_) fun _ => .throw' fun _ => id
  · rw [runStore_world]
    exact hw.write (whole_initDbBinary _ _) (noCorrupt_initDbBinary _ _)
  · rw [runStore_world]
    show Whole (Function.update w.files q _ q)
    rw [Function.update_same]
    exact whole_initDbBinary _ _

/-- Option 1 sets `db_file` to a file `init_db_binary` has just written. -/
theorem keeps_optionChoose_good (os : Nat → Os) : Keeps (Holds (Good files₀)) (optionChoose os) :=
  keeps_optionChoose (basic_good files₀)
    (fun k => initDbAt_good (os k)) (fun _ hw => ⟨hw.chosen, hw.written, hw.noCorrupt⟩)
    fun _ _ h => ⟨h.2, h.1.written, h.1.noCorrupt⟩

theorem options_good (files₀ : String → Option Bytes) : Options (Holds (Good files₀)) where
  initDb := atDb_of_goodAt fun p =>
    goodAt_runStore (fun _ _ => ⟨whole_initDbBinary _ _, noCorrupt_initDbBinary _ _⟩) p
  print := atDb_of_goodAt fun p => goodAt_runRead (fun _ h => noCorrupt_printDbFromFile h _) p
  insert := atDb_of_goodAt fun p => (basic_goodAt files₀ p).optionInsert p fun pos r =>
    goodAt_runStore (fun _ h => ⟨whole_insertRecordAt h pos r, noCorrupt_insertRecordAt _ _ _⟩) p
  delete := atDb_of_goodAt fun p => (basic_goodAt files₀ p).optionDelete p fun pos =>
    goodAt_runStore (fun _ h => ⟨whole_deleteRecord h pos, noCorrupt_deleteRecord _ _⟩) p
  oneField := atDb_of_goodAt fun p => (basic_goodAt files₀ p).optionOneField p fun _ _ =>
    goodAt_runRead (fun _ h => noCorrupt_oneFieldSearch h _ _) p
  twoFields := atDb_of_goodAt fun p => (basic_goodAt files₀ p).optionTwoFields p fun _ _ _ _ =>
    goodAt_runRead (fun _ h => noCorrupt_twoFieldsSearch h _ _ _ _) p
  digit := atDb_of_goodAt fun p => (basic_goodAt files₀ p).optionDigit p fun _ =>
    goodAt_runRead (fun _ h => noCorrupt_digitSearch h _) p

/-- Every run of `main`, on any files and any input, returning or raising, ends in a world where
the chosen database file holds whole records, every file holds what it held or whole records,
and no damaged-record line has been printed. -/
theorem main_good (os : Nat → Os) (files : String → Option Bytes) (input : List String) :
    Good files (main os files input).world :=
  Keeps.loop ((basic_good files).mainPass os (options_good files) (keeps_optionChoose_good os)) _
    (Good.initial files input)

/-! ### Between two choices of file, `main` runs the store on `db_file` -/

theorem run_append (ops₁ ops₂ : List Op) (file : Option Bytes) :
    run (ops₁ ++ ops₂) file = run ops₂ (run ops₁ file) :=
  List.foldl_append _ _ _ _

/-- From a world whose `db_file` is `p`: `db_file` is still `p`, and the files are those of a run,
on `p`, of store operations whose records `pack_record` accepts. -/
def RunsOn (p : String) (w w' : World) : Prop :=
  w.dbFile = some p → w'.dbFile = some p ∧
    ∃ ops : List Op, (∀ op ∈ ops, op.packs = true) ∧
      w'.files = Function.update w.files p (run ops (w.files p))

section RunsOn

variable (p : String)

/-- No file written. -/
theorem runsOn_of_files {w w' : World} (hd : w'.dbFile = w.dbFile) (hf : w'.files = w.files) :
    RunsOn p w w' := fun hp =>
  ⟨hd.trans hp, [], nofun, hf.trans (Function.update_eq_self p w.files).symm⟩

instance : IsPreorder World (RunsOn p) where
  refl _ := runsOn_of_files p rfl rfl
  trans _ _ _ h₁₂ h₂₃ hp := by
    obtain ⟨hp₂, ops₁, hops₁, hf₁⟩ := h₁₂ hp
    obtain ⟨hp₃, ops₂, hops₂, hf₂⟩ := h₂₃ hp₂
    refine ⟨hp₃, ops₁ ++ ops₂, fun op hop => ?_, ?_⟩
    · rcases List.mem_append.mp hop with h | h
      · exact hops₁ op h
      · exact hops₂ op h
    · rw [hf₂, hf₁, Function.update_same, Function.update_idem, run_append]

theorem basic_runsOn : Basic (RunsOn p) where
  input w := by
    unfold pyInput
    split
    · exact refl_of (RunsOn p) w
    · exact runsOn_of_files p rfl rfl
  print _ _ := runsOn_of_files p rfl rfl

/-- A store function that writes what the operation `o` writes. -/
theorem runsOn_runStore {op : Option Bytes → Outcome} (o : Op) (ho : o.packs = true)
    (hop : ∀ file, (op file).file = o.apply file) : Keeps (RunsOn p) (runStore p op) := by
  intro w hp
  rw [runStore_world]
  exact ⟨hp, [o], by simpa using ho, by rw [hop]; rfl⟩

theorem runsOn_insert (pos : Int) (r : Record) :
    Keeps (RunsOn p) (runStore p (insertRecordAt · pos r)) := by
  cases hb : packRecord r with
  | ok b => exact runsOn_runStore p (.insert pos r) (by rw [Op.packs, hb]; rfl) fun _ => rfl
  | error e =>
    intro w
    rw [runStore_world, insertRecordAt_file_of_error hb]
    exact runsOn_of_files p rfl (Function.update_eq_self p w.files)

theorem runsOn_runRead {q : String} {op : Option Bytes → List Line} : Keeps (RunsOn p) (runRead q op) :=
  fun _ => runsOn_of_files p rfl rfl

theorem atDb_runsOn {body : String → Prog Unit} (h : Keeps (RunsOn p) (body p)) :
    AtDb (RunsOn p) body := by
  intro q w hq hp
  rw [hp] at hq
  cases hq
  exact h w hp

theorem options_runsOn : Options (RunsOn p) where
  initDb := atDb_runsOn p (runsOn_runStore p (.initDb p) rfl fun _ => rfl)
  print := atDb_runsOn p (runsOn_runRead p)
  insert := atDb_runsOn p ((basic_runsOn p).optionInsert p (runsOn_insert p))
  delete := atDb_runsOn p ((basic_runsOn p).optionDelete p fun pos =>
    runsOn_runStore p (.delete pos) rfl fun _ => rfl)
  oneField := atDb_runsOn p ((basic_runsOn p).optionOneField p fun _ _ => runsOn_runRead p)
  twoFields := atDb_runsOn p ((basic_runsOn p).optionTwoFields p fun _ _ _ _ => runsOn_runRead p)
  digit := atDb_runsOn p ((basic_runsOn p).optionDigit p fun _ => runsOn_runRead p)

end RunsOn

/-- Every pass of `main` but option 1 acts on the files only through the store: from a world whose
`db_file` is `p`, it leaves `db_file` at `p`, writes no other file, and leaves `p` as a run of the
store's operations whose records `pack_record` accepts, the runs on which the store refines the
list of records (`mainChoice_abstracts`). `RunsOn p` is a preorder, so the same holds of any number
of such passes. -/
theorem mainChoice_runsOn (os : Nat → Os) (p : String) {c : Int} (hc : c ≠ 1) :
    Keeps (RunsOn p) (mainChoice os c) :=
  (basic_runsOn p).mainChoice os (options_runsOn p) c fun h => absurd h hc

/-- Insertion, option 4. -/
theorem mainChoice_runsOn_four :
    (4 : Int) ≠ 1 ∧ Keeps (RunsOn "db")
      (mainChoice (fun _ => ⟨[], fun _ => false, fun _ => false, fun _ => false, id, fun _ => true⟩) 4) :=
  ⟨by decide, mainChoice_runsOn _ "db" (by decide)⟩

end RecordStore
