import RecordStore.Shift
import RecordStore.Scan
import RecordStore.SearchSpec
import Mathlib.Data.List.InsertIdx

/-!
# The file store refines a list of records

What the store is for: a list of records, that `init_db_binary` resets to the generated records,
an insertion at position `p ∈ 1 … |L| + 1` extends at index `p - 1`, a deletion at `p ∈ 1 … |L|`
shrinks at index `p - 1`, and that every other call leaves alone. The store keeps of a record
what `Record.stored` says: its text cut to whole characters that fit, its price as a `float`.

`Abstracts file L`: the file is whole blocks that decode to `L`. Each store operation keeps it
(`Abstracts.apply`, one lemma per operation), so every run does (`Abstracts.run`), and on such a
file `print_db_from_file` lists `L` and no damaged record (`run_refines`). The reads refine too:
on such a file each search prints what the same filter over `L` prints (`searches_refine`).
-/

namespace RecordStore

/-- `insertIdx` below the length is a split. -/
theorem insertIdx_eq_take_drop {α : Type} (a : α) :
    ∀ (k : Nat) (l : List α), k ≤ l.length → l.insertIdx k a = l.take k ++ a :: l.drop k
  | 0, l, _ => by rw [List.insertIdx_zero]; rfl
  | k + 1, [], h => absurd h (by simp)
  | k + 1, x :: l, h => by
    rw [List.insertIdx_succ_cons, insertIdx_eq_take_drop a k l (by simpa using h)]
    rfl

/-! ### Operations -/

/-- A call of one of the store's functions, with its arguments. -/
inductive Op where
  | initDb (filename : String)
  | insert (pos : Int) (r : Record)
  | delete (pos : Int)
  | oneField (fieldNum value : String)
  | twoFields (field1Num value1 field2Num value2 : String)
  | digit (condition : String)
  | print (filename : String)

/-- The file an operation leaves. The searches and `print_db_from_file` only read the file. -/
def Op.apply : Op → Option Bytes → Option Bytes
  | .initDb filename, file => (initDbBinary filename file).file
  | .insert pos r, file => (insertRecordAt file pos r).file
  | .delete pos, file => (deleteRecord file pos).file
  | .oneField .., file | .twoFields .., file | .digit _, file | .print _, file => file

/-- Whether `pack_record` accepts the record an operation writes. -/
def Op.packs : Op → Bool
  | .insert _ r => (packRecord r).toBool
  | _ => true

/-- The operation on the list of records. -/
def Op.absApply : Op → List Record → List Record
  | .initDb _, _ => (generatedFrom 0).map Record.stored
  | .insert pos r, L =>
    if 1 ≤ pos ∧ pos ≤ L.length + 1 then L.insertIdx (pos - 1).toNat r.stored else L
  | .delete pos, L => if 1 ≤ pos ∧ pos ≤ L.length then L.eraseIdx (pos - 1).toNat else L
  | .oneField .., L | .twoFields .., L | .digit _, L | .print _, L => L

/-- The file after a run of operations. -/
def run (ops : List Op) (file : Option Bytes) : Option Bytes :=
  ops.foldl (fun f op => op.apply f) file

/-- The list of records after a run of operations. -/
def absRun (ops : List Op) (L : List Record) : List Record :=
  ops.foldl (fun L op => op.absApply L) L

/-! ### The generated records -/

theorem generatedFrom_zero :
    generatedFrom 0 = [⟨"яблоко", 10, PyFloat.ofDecimal 35 (-1), "фрукт"⟩,
      ⟨"книга", 2, PyFloat.ofDecimal 799 0, "товар"⟩,
      ⟨"ноутбук", 1, PyFloat.ofDecimal 8999999 (-2), "техника"⟩] := by
  simp [generatedFrom, generateRecord]

theorem packs_generatedFrom : ∀ r ∈ generatedFrom 0, (packRecord r).toBool = true := by
  rw [generatedFrom_zero]
  decide

theorem exists_of_toBool {r : Record} (h : (packRecord r).toBool = true) :
    ∃ b, packRecord r = .ok b := by
  cases hb : packRecord r with
  | error e => rw [hb] at h; cases h
  | ok b => exact ⟨b, rfl⟩

/-- Writing records that all pack appends one block per record, each decoding to what the store
keeps of it. -/
theorem writeRecords_flat (bs : List Block) :
    ∀ rs : List Record, (∀ r ∈ rs, (packRecord r).toBool = true) →
      ∃ cs : List Block, writeRecords (flat bs) rs = (flat (bs ++ cs), none) ∧
        cs.map unpackRecord = rs.map Record.stored
  | [], _ => ⟨[], by simp [writeRecords]⟩
  | r :: rs, h => by
    obtain ⟨b, hb⟩ := exists_of_toBool (h r (List.mem_cons_self r rs))
    obtain ⟨cs, hw, hcs⟩ :=
      writeRecords_flat (bs ++ [b]) rs fun r' hr' => h r' (List.mem_cons_of_mem r hr')
    refine ⟨b :: cs, ?_, by simp [hcs, unpackRecord_of_packRecord hb]⟩
    rw [writeRecords, hb]
    simpa [flat_append] using hw

/-! ### The abstraction and its step lemmas -/

/-- The file is whole blocks that decode to `L`. -/
def Abstracts (file : Option Bytes) (L : List Record) : Prop :=
  ∃ bs : List Block, file = some (flat bs) ∧ bs.map unpackRecord = L

namespace Abstracts

variable {file : Option Bytes} {L : List Record}

theorem initDb (filename : String) (file : Option Bytes) :
    Abstracts (initDbBinary filename file).file ((generatedFrom 0).map Record.stored) := by
  obtain ⟨cs, hw, hcs⟩ := writeRecords_flat [] (generatedFrom 0) packs_generatedFrom
  rw [flat_nil, List.nil_append] at hw
  exact ⟨cs, by simp only [initDbBinary, hw], hcs⟩

theorem insert (h : Abstracts file L) (pos : Int) {r : Record} {b : Block}
    (hb : packRecord r = .ok b) :
    Abstracts (insertRecordAt file pos r).file
      (if 1 ≤ pos ∧ pos ≤ L.length + 1 then L.insertIdx (pos - 1).toNat r.stored else L) := by
  obtain ⟨bs, rfl, rfl⟩ := h
  rw [List.length_map]
  split_ifs with hp
  · obtain ⟨k, rfl⟩ : ∃ k : Nat, pos = k + 1 := ⟨(pos - 1).toNat, by omega⟩
    refine ⟨_, (insertRecordAt_flat bs k (by omega) hb).1, ?_⟩
    rw [show ((k : Int) + 1 - 1).toNat = k by omega,
      insertIdx_eq_take_drop _ k _ (by rw [List.length_map]; omega)]
    simp [unpackRecord_of_packRecord hb]
  · exact ⟨bs, (insertRecordAt_reject _ pos r (by rw [length_flat_div]; omega)).1, rfl⟩

theorem delete (h : Abstracts file L) (pos : Int) :
    Abstracts (deleteRecord file pos).file
      (if 1 ≤ pos ∧ pos ≤ L.length then L.eraseIdx (pos - 1).toNat else L) := by
  obtain ⟨bs, rfl, rfl⟩ := h
  rw [List.length_map]
  split_ifs with hp
  · obtain ⟨k, rfl⟩ : ∃ k : Nat, pos = k + 1 := ⟨(pos - 1).toNat, by omega⟩
    refine ⟨_, deleteRecord_flat bs k (by omega), ?_⟩
    rw [show ((k : Int) + 1 - 1).toNat = k by omega, List.eraseIdx_eq_take_drop_succ]
    simp
  · exact ⟨bs, deleteRecord_reject _ pos (by rw [length_flat_div]; omega), rfl⟩

/-- One operation whose record packs keeps the abstraction. -/
theorem apply (h : Abstracts file L) (op : Op) (hop : op.packs = true) :
    Abstracts (op.apply file) (op.absApply L) := by
  cases op with
  | initDb filename => exact initDb filename file
  | insert pos r =>
    obtain ⟨b, hb⟩ := exists_of_toBool hop
    exact h.insert pos hb
  | delete pos => exact h.delete pos
  | oneField | twoFields | digit | print => exact h

/-- A run whose inserted records all pack keeps the abstraction. -/
theorem run (h : Abstracts file L) (ops : List Op) (hops : ∀ op ∈ ops, op.packs = true) :
    Abstracts (RecordStore.run ops file) (absRun ops L) := by
  induction ops generalizing file L with
  | nil => exact h
  | cons op ops ih =>
    exact ih (h.apply op (hops op (List.mem_cons_self op ops)))
      fun op' hop' => hops op' (List.mem_cons_of_mem op hop')

/-- What the program shows of an abstracted file: its length and its listing. -/
theorem print (h : Abstracts file L) (filename : String) :
    ∃ f, file = some f ∧ f.length = recordSize * L.length ∧
      printDbFromFile filename file = .text ("\nСодержимое БД \x27" ++ filename ++ "\x27:") ::
        (L.enumFrom 1).map (fun p => .row p.1 p.2) := by
  obtain ⟨bs, rfl, rfl⟩ := h
  exact ⟨flat bs, rfl, by simp, printDbFromFile_flat filename bs⟩

end Abstracts

/-- A file of `n` whole records abstracts to the records its blocks decode to. -/
theorem abstracts_of_length {F : Bytes} {n : Nat} (hF : F.length = recordSize * n) :
    Abstracts (some F) ((blocksOf F).map unpackRecord) :=
  ⟨blocksOf F, by rw [flat_blocksOf_of_mod (by rw [hF, Nat.mul_mod_right])], rfl⟩

/-- From a file of `n` whole records, after every prefix of a run whose inserted records all
pack, the file holds `43 * |L|` bytes for the list `L` the abstract operations make of the decoded
records, and `print_db_from_file` lists `L` from 1 with no damaged record. -/
theorem run_refines (F : Bytes) (n : Nat) (hF : F.length = recordSize * n) (ops : List Op)
    (hops : ∀ op ∈ ops, op.packs = true) (filename : String) (k : Nat) :
    ∃ f, run (ops.take k) (some F) = some f ∧
      f.length = recordSize * (absRun (ops.take k) ((blocksOf F).map unpackRecord)).length ∧
      printDbFromFile filename (run (ops.take k) (some F)) =
        .text ("\nСодержимое БД \x27" ++ filename ++ "\x27:") ::
          ((absRun (ops.take k) ((blocksOf F).map unpackRecord)).enumFrom 1).map
            (fun p => .row p.1 p.2) :=
  ((abstracts_of_length hF).run (ops.take k)
    fun op hop => hops op (List.mem_of_mem_take hop)).print filename

/-- An empty file: initialise, insert a record at position 2, delete position 1. -/
theorem run_refines_init_insert_delete :
    ∃ f, run ([Op.initDb "db", .insert 2 ⟨"a", 1, ⟨0⟩, "b"⟩, .delete 1].take 3) (some []) = some f ∧
      f.length = recordSize * (absRun ([Op.initDb "db", .insert 2 ⟨"a", 1, ⟨0⟩, "b"⟩, .delete 1].take 3)
        ((blocksOf []).map unpackRecord)).length ∧
      printDbFromFile "db" (run ([Op.initDb "db", .insert 2 ⟨"a", 1, ⟨0⟩, "b"⟩, .delete 1].take 3)
        (some [])) =
        .text ("\nСодержимое БД \x27" ++ "db" ++ "\x27:") ::
          ((absRun ([Op.initDb "db", .insert 2 ⟨"a", 1, ⟨0⟩, "b"⟩, .delete 1].take 3)
            ((blocksOf []).map unpackRecord)).enumFrom 1).map (fun p => .row p.1 p.2) :=
  run_refines [] 0 rfl [Op.initDb "db", .insert 2 ⟨"a", 1, ⟨0⟩, "b"⟩, .delete 1] (by decide) "db" 3

/-! ### A damaged file stays as it is -/

/-- Whether an operation is `init_db_binary`, the one call that writes whatever the file holds. -/
def Op.isInit : Op → Bool
  | .initDb _ => true
  | _ => false

/-- On a file that is not whole records every operation but `init_db_binary` leaves the file as
it was: insertion and deletion refuse it, the others only read. -/
theorem Op.apply_of_mod (op : Op) (hop : op.isInit = false) {F : Bytes}
    (hF : F.length % recordSize ≠ 0) : op.apply (some F) = some F := by
  cases op with
  | initDb => cases hop
  | insert pos r => exact (insertRecordAt_reject F pos r (.inr (.inr hF))).1
  | delete pos => exact deleteRecord_reject F pos (.inr (.inr (.inr hF)))
  | oneField | twoFields | digit | print => rfl

/-- A file that is not whole records is never changed by a run without `init_db_binary`: the
store neither repairs nor damages it further. -/
theorem run_of_mod (F : Bytes) (hF : F.length % recordSize ≠ 0) (ops : List Op)
    (hops : ∀ op ∈ ops, op.isInit = false) : run ops (some F) = some F := by
  induction ops with
  | nil => rfl
  | cons op ops ih =>
    rw [run, List.foldl_cons, Op.apply_of_mod op (hops op (List.mem_cons_self op ops)) hF]
    exact ih fun op' hop' => hops op' (List.mem_cons_of_mem op hop')

/-- A one-byte file, through an insertion and a deletion. -/
theorem run_of_mod_one_byte :
    run [.insert 1 ⟨"", 0, ⟨0⟩, ""⟩, .delete 1] (some [0]) = some [0] :=
  run_of_mod [0] (by decide) [.insert 1 ⟨"", 0, ⟨0⟩, ""⟩, .delete 1] (by decide)

/-! ### Reads -/

/-- A search over the list of records: the rows of the records `keep` accepts, numbered from 1,
then the no-match message iff there is none. -/
def absSearch (keep : Record → Bool) (L : List Record) : List Line :=
  let hits := ((L.enumFrom 1).filter fun p => keep p.2).map fun p => .row p.1 p.2
  hits ++ if hits = [] then [.text msgNoMatch] else []

/-- `digit_search`'s comparison in the spec's words: the price against a float, the count
against an int. -/
def TargetCmp (op : Char) : Target → Record → Prop
  | .float x, r => PriceCmp op x r
  | .int k, r => CountCmp op k r

instance (op : Char) (t : Target) (r : Record) : Decidable (TargetCmp op t r) :=
  match t with
  | .float x => inferInstanceAs (Decidable (PriceCmp op x r))
  | .int k => inferInstanceAs (Decidable (CountCmp op k r))

theorem digitMatch_eq_decide (op : Char) (t : Target) (r : Record) :
    digitMatch op t r = decide (TargetCmp op t r) := by
  cases t with
  | float x => exact digitMatch_float op x r
  | int k => exact digitMatch_int op k r

namespace Abstracts

variable {F : Bytes} {L : List Record}

/-- A search over the file is the search over the records it abstracts to. -/
theorem searchOutput_eq (h : Abstracts (some F) L) (keep : Record → Bool) :
    searchOutput keep F = absSearch keep L := by
  obtain ⟨bs, hF, rfl⟩ := h
  cases hF
  simp only [searchOutput, absSearch, keptRows, blocksOf_flat]

theorem length_pos (h : Abstracts (some F) L) (hL : L ≠ []) :
    F.length = recordSize * L.length ∧ 1 ≤ L.length := by
  obtain ⟨bs, hF, rfl⟩ := h
  cases hF
  exact ⟨by simp, List.length_pos.mpr hL⟩

end Abstracts

/-- On a file that abstracts to a non-empty list `L`, each search with arguments it accepts prints
what the same filter over `L` prints: `one_field_search` the field predicate, `two_fields_search`
both field predicates, `digit_search` the comparison its literal picks. -/
theorem searches_refine {F : Bytes} {L : List Record} (h : Abstracts (some F) L) (hL : L ≠ []) :
    (∀ fieldNum k v, pyInt fieldNum = some k → k ∈ [1, 2, 3, 4] →
      oneFieldSearch (some F) fieldNum v = absSearch (fun r => decide (FieldEq k v r)) L) ∧
    (∀ f1 v1 f2 v2 k₁ k₂, pyInt f1 = some k₁ → pyInt f2 = some k₂ → k₁ ≠ k₂ →
      k₁ ∈ [1, 2, 3, 4] → k₂ ∈ [1, 2, 3, 4] →
      twoFieldsSearch (some F) f1 v1 f2 v2 =
        absSearch (fun r => decide (FieldEq k₁ v1 r ∧ FieldEq k₂ v2 r)) L) ∧
    (∀ c op rest t, (pyStrip c).data = op :: rest → op ∈ ['>', '<', '='] →
      (pyStrip ⟨rest⟩).data ≠ [] → Target.parse (pyStrip ⟨rest⟩) = some t →
      digitSearch (some F) c = absSearch (fun r => decide (TargetCmp op t r)) L) := by
  obtain ⟨hF, hn⟩ := h.length_pos hL
  refine ⟨fun fieldNum k v hk hk4 => ?_, fun f1 v1 f2 v2 k₁ k₂ h₁ h₂ hne hk₁ hk₂ => ?_,
    fun c op rest t hc hop hs ht => ?_⟩
  · rw [oneFieldSearch_of_whole hF hn hk hk4, h.searchOutput_eq,
      show fieldMatches k v = _ from funext (fieldMatches_eq_decide hk4 v)]
  · rw [twoFieldsSearch_of_whole hF hn h₁ h₂ hne hk₁ hk₂, h.searchOutput_eq]
    simp only [fieldMatches_eq_decide hk₁, fieldMatches_eq_decide hk₂, Bool.decide_and]
  · rw [digitSearch_of_parse hF hn hc hop hs ht, h.searchOutput_eq,
      show digitMatch op t = _ from funext (digitMatch_eq_decide op t)]

/-- Three blocks, abstracting to the records they decode to. -/
theorem searches_refine_sample :
    (∀ fieldNum k v, pyInt fieldNum = some k → k ∈ [1, 2, 3, 4] →
      oneFieldSearch (some (flat sampleBlocks)) fieldNum v =
        absSearch (fun r => decide (FieldEq k v r)) (sampleBlocks.map unpackRecord)) ∧
    (∀ f1 v1 f2 v2 k₁ k₂, pyInt f1 = some k₁ → pyInt f2 = some k₂ → k₁ ≠ k₂ →
      k₁ ∈ [1, 2, 3, 4] → k₂ ∈ [1, 2, 3, 4] →
      twoFieldsSearch (some (flat sampleBlocks)) f1 v1 f2 v2 =
        absSearch (fun r => decide (FieldEq k₁ v1 r ∧ FieldEq k₂ v2 r)) (sampleBlocks.map unpackRecord)) ∧
    (∀ c op rest t, (pyStrip c).data = op :: rest → op ∈ ['>', '<', '='] →
      (pyStrip ⟨rest⟩).data ≠ [] → Target.parse (pyStrip ⟨rest⟩) = some t →
      digitSearch (some (flat sampleBlocks)) c =
        absSearch (fun r => decide (TargetCmp op t r)) (sampleBlocks.map unpackRecord)) :=
  searches_refine ⟨sampleBlocks, rfl, rfl⟩ (List.cons_ne_nil _ _)

end RecordStore
