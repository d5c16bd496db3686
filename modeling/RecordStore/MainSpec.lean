import RecordStore.Main
import Mathlib.Order.Defs.Unbundled

/-!
# Reasoning about `main`'s programs

Two tools. `Keeps R m`: whatever `m` does, returning or raising, its world is `R`-related to the
world it started from; for a preorder `R` it holds of a program as soon as it holds of each
statement (`Keeps.bind`, `Keeps.tryValueError`, `Keeps.whileTrue`). `Triple P m Q R`: the
Hoare triple, for the one statement whose returned value matters, `choose_file`'s path.

Each option of the menu is proved once, for any relation that reading a line and printing text
keep (`Basic`), from what its call to the store keeps; `choose_file` once, for any invariant `I`
and any `C q` that `init_db_binary` makes true of the path `q` it returns. The invariant of
`MainInv.lean` is one use. `InputLe` is the other: no statement puts a line back, and `menu` and a
pass of `choose_any_file` read one each time, so both loops stop within one more pass than there
are lines (`main_ends`).

Last, options 4 and 5 as the loop runs them are `menuInsert` and `menuDelete` on the chosen file
(`optionInsert_menuInsert`, `optionDelete_menuDelete`): what `Menu.lean` proves of one call holds
of `main`. And option 1 has an uncaught `int()`: a wrong item number in the listing of the folder
ends the program (`main_choose_item_valueError`).
-/

namespace RecordStore

/-- Returning or raising, `m` leaves a world `R`-related to the one it started from. -/
def Keeps {α : Type} (R : World → World → Prop) (m : Prog α) : Prop := ∀ w, R w (m w).world

/-- From a world where `P` holds, `m` returns `a` in a world where `Q a` holds or raises in one
where `R` holds. -/
def Triple {α : Type} (P : World → Prop) (m : Prog α) (Q : α → World → Prop) (R : World → Prop) :
    Prop :=
  ∀ w, P w → match m w with
    | .ok a w' => Q a w'
    | .error _ w' => R w'

namespace Keeps

variable {α β : Type} {R : World → World → Prop}

theorem pure' [IsPreorder World R] (a : α) : Keeps R (pure a : Prog α) := fun w => refl_of R w

theorem throw' [IsPreorder World R] (e : MainExc) : Keeps R (EStateM.throw e : Prog α) := fun w => refl_of R w

theorem bind [IsPreorder World R] {m : Prog α} {f : α → Prog β} (hm : Keeps R m) (hf : ∀ a, Keeps R (f a)) :
    Keeps R (m >>= f) := by
  intro w
  have h := hm w
  show R w (EStateM.bind m f w).world
  unfold EStateM.bind
  split <;> rename_i heq <;> rw [heq] at h
  · exact trans_of R h (hf _ _)
  · exact h

theorem ite {c : Prop} [Decidable c] {t e : Prog α} (ht : Keeps R t) (he : Keeps R e) :
    Keeps R (if c then t else e) := by
  split
  · exact ht
  · exact he

theorem parseInt [IsPreorder World R] (s : String) : Keeps R (RecordStore.parseInt s) := by
  unfold RecordStore.parseInt; split
  · exact pure' _
  · exact throw' _

theorem parseFloat [IsPreorder World R] (s : String) : Keeps R (RecordStore.parseFloat s) := by
  unfold RecordStore.parseFloat; split
  · exact pure' _
  · exact throw' _

theorem tryValueError [IsPreorder World R] {body handler : Prog Unit} (hb : Keeps R body) (hh : Keeps R handler) :
    Keeps R (RecordStore.tryValueError body handler) := by
  intro w
  have h := hb w
  unfold RecordStore.tryValueError
  split
  · rename_i heq
    rw [heq] at h
    split
    · exact trans_of R h (hh _)
    · exact h
  · exact h

theorem whileTrue [IsPreorder World R] {pass : Prog (Option α)} (hp : Keeps R pass) :
    ∀ n, Keeps R (RecordStore.whileTrue pass n)
  | 0 => pure' none
  | n + 1 => by
    intro w
    have h := hp w
    unfold RecordStore.whileTrue
    split <;> rename_i heq <;> rw [heq] at h
    · exact h
    · exact trans_of R h (whileTrue hp n _)
    · exact h

theorem loop [IsPreorder World R] {pass : Prog (Option α)} (hp : Keeps R pass) : Keeps R (RecordStore.loop pass) :=
  fun w => whileTrue hp _ w

end Keeps

/-- `I` holds afterwards if it held before. -/
def Holds (I : World → Prop) (w w' : World) : Prop := I w → I w'

instance (I : World → Prop) : IsPreorder World (Holds I) where
  refl _ := id
  trans _ _ _ h₁ h₂ := h₂ ∘ h₁

namespace Triple

variable {α β : Type} {P E : World → Prop} {Q : α → World → Prop}

theorem pure' {a : α} (h : ∀ w, P w → Q a w) : Triple P (pure a) Q E := h

theorem skip {a : α} : Triple P (pure a) (fun _ => P) E := pure' fun _ => id

theorem throw' {e : MainExc} (h : ∀ w, P w → E w) : Triple P (EStateM.throw e : Prog α) Q E := h

theorem bind {m : Prog α} {f : α → Prog β} {Q₁ : α → World → Prop} {Q : β → World → Prop}
    (hm : Triple P m Q₁ E) (hf : ∀ a, Triple (Q₁ a) (f a) Q E) : Triple P (m >>= f) Q E := by
  intro w hw
  have h := hm w hw
  show match EStateM.bind m f w with
    | .ok a w' => Q a w'
    | .error _ w' => E w'
  unfold EStateM.bind
  split at h <;> rename_i heq <;> rw [heq]
  · exact hf _ _ h
  · exact h

theorem ite {c : Prop} [Decidable c] {t e : Prog α} (ht : c → Triple P t Q E)
    (he : ¬ c → Triple P e Q E) : Triple P (if c then t else e) Q E := by
  split
  · exact ht ‹_›
  · exact he ‹_›

/-- A program that keeps an invariant, as a triple. -/
theorem of_keeps {I : World → Prop} {m : Prog α} (h : Keeps (Holds I) m) :
    Triple I m (fun _ => I) I := by
  intro w hw
  have h := h w hw
  revert h
  cases m w <;> exact id

/-- A program that keeps an invariant and makes `X` true, as a triple. -/
theorem of_keeps_and {I X : World → Prop} {m : Prog α} (h : Keeps (Holds I) m)
    (hx : ∀ w, I w → X (m w).world) : Triple I m (fun _ w => I w ∧ X w) I := by
  intro w hw
  have h := And.intro (h w hw) (hx w hw)
  revert h
  cases m w
  · exact id
  · exact And.left

/-- A triple whose postcondition implies its invariant keeps the invariant. -/
theorem keeps {I : World → Prop} {m : Prog α} (h : Triple I m Q I) (hQ : ∀ a w, Q a w → I w) :
    Keeps (Holds I) m := by
  intro w hw
  have h := h w hw
  revert h
  cases m w
  · exact hQ _ _
  · exact id

/-- The loop rule: `I` holds at every pass, and `Q` of what a `some` pass returns. -/
theorem whileTrue {I : World → Prop} {pass : Prog (Option α)}
    (hp : Triple I pass (fun r w => r.elim (I w) (Q · w)) E) :
    ∀ n, Triple I (RecordStore.whileTrue pass n) (fun r w => r.elim (I w) (Q · w)) E
  | 0 => fun _ hw => hw
  | n + 1 => by
    intro w hw
    have h := hp w hw
    unfold RecordStore.whileTrue
    revert h
    cases pass w with
    | ok r w' => cases r with
      | none => exact whileTrue hp n w'
      | some a => exact id
    | error e w' => exact id

theorem loop {I : World → Prop} {pass : Prog (Option α)}
    (hp : Triple I pass (fun r w => r.elim (I w) (Q · w)) E) :
    Triple I (RecordStore.loop pass) (fun r w => r.elim (I w) (Q · w)) E :=
  fun w => whileTrue hp _ w

end Triple

/-! ### One proof per statement of `main`, for any relation it keeps -/

/-- A relation that reading a line and printing text keep. -/
structure Basic (R : World → World → Prop) : Prop where
  input : Keeps R pyInput
  print : ∀ ss, Keeps R (pyPrintAll ss)

/-- `body p` keeps `R` from a world whose `db_file` is `p`. -/
def AtDb (R : World → World → Prop) (body : String → Prog Unit) : Prop :=
  ∀ p w, w.dbFile = some p → R w (body p w).world

/-- Options 2 to 8 of the menu keep `R`. -/
structure Options (R : World → World → Prop) : Prop where
  initDb : AtDb R fun p => runStore p (initDbBinary p)
  print : AtDb R fun p => runRead p (printDbFromFile p)
  insert : AtDb R optionInsert
  delete : AtDb R optionDelete
  oneField : AtDb R optionOneField
  twoFields : AtDb R optionTwoFields
  digit : AtDb R optionDigit

namespace Basic

variable {R : World → World → Prop} [IsPreorder World R] (h : Basic R) (p : String)

include h

theorem menu : Keeps R menu :=
  .bind (h.print _) fun _ => .bind h.input fun _ => .pure' _

omit [IsPreorder World R] in
theorem withDb (msg : String) {body : String → Prog Unit} (hb : AtDb R body) :
    Keeps R (withDb msg body) := by
  intro w
  unfold RecordStore.withDb
  split <;> rename_i hp
  · split
    · exact h.print _ w
    · exact hb _ w hp
  · exact h.print _ w

theorem optionInsert (hrun : ∀ pos r, Keeps R (runStore p (insertRecordAt · pos r))) :
    Keeps R (optionInsert p) :=
  .tryValueError (.bind h.input fun _ => .bind (.parseInt _) fun _ => .bind h.input fun _ =>
    .bind h.input fun _ => .bind (.parseInt _) fun _ => .bind h.input fun _ =>
    .bind (.parseFloat _) fun _ => .bind h.input fun _ => hrun _ _) (h.print _)

theorem optionDelete (hrun : ∀ pos, Keeps R (runStore p (deleteRecord · pos))) :
    Keeps R (optionDelete p) :=
  .tryValueError (.bind h.input fun _ => .bind (.parseInt _) fun _ => hrun _) (h.print _)

theorem optionOneField (hrun : ∀ k v, Keeps R (runRead p (oneFieldSearch · k v))) :
    Keeps R (optionOneField p) :=
  .bind (h.print _) fun _ => .bind h.input fun _ => .bind h.input fun _ => hrun _ _

theorem optionTwoFields (hrun : ∀ k₁ v₁ k₂ v₂, Keeps R (runRead p (twoFieldsSearch · k₁ v₁ k₂ v₂))) :
    Keeps R (optionTwoFields p) :=
  .bind (h.print _) fun _ => .bind h.input fun _ => .bind h.input fun _ => .bind h.input fun _ =>
    .bind h.input fun _ => hrun _ _ _ _

theorem optionDigit (hrun : ∀ c, Keeps R (runRead p (digitSearch · c))) : Keeps R (optionDigit p) :=
  .bind (h.print _) fun _ => .bind h.input fun _ => hrun _

theorem mainChoice (os : Nat → Os) (ho : Options R) (c : Int)
    (hchoose : c = 1 → Keeps R (optionChoose os)) : Keeps R (mainChoice os c) := by
  unfold RecordStore.mainChoice
  by_cases hc : c = 1
  · rw [if_pos hc]
    exact .bind (hchoose hc) fun _ => .pure' _
  rw [if_neg hc]
  refine .ite (.bind (h.withDb _ ho.initDb) fun _ => .pure' _) ?_
  refine .ite (.bind (h.withDb _ ho.print) fun _ => .pure' _) ?_
  refine .ite (.bind (h.withDb _ ho.insert) fun _ => .pure' _) ?_
  refine .ite (.bind (h.withDb _ ho.delete) fun _ => .pure' _) ?_
  refine .ite (.bind (h.withDb _ ho.oneField) fun _ => .pure' _) ?_
  refine .ite (.bind (h.withDb _ ho.twoFields) fun _ => .pure' _) ?_
  refine .ite (.bind (h.withDb _ ho.digit) fun _ => .pure' _) ?_
  exact .ite (.bind (h.print _) fun _ => .pure' _)
    (.bind (.bind (h.print _) fun _ => .pure' _) fun _ => .pure' _)

theorem mainPass (os : Nat → Os) (ho : Options R) (hchoose : Keeps R (optionChoose os)) :
    Keeps R (mainPass os) :=
  .bind h.menu fun c => h.mainChoice os ho c fun _ => hchoose

end Basic

/-! ### Choosing the file, for any invariant -/

/-- What `choose_file` leaves: `I`, and `C q` of the path `q` it returns, if any. -/
def Chosen (I : World → Prop) (C : String → World → Prop) (r : Option String) (w : World) : Prop :=
  I w ∧ ∀ q, r = some q → C q w

section Choose

variable {I : World → Prop} {C : String → World → Prop} (h : Basic (Holds I)) (os : Os)
  (hinit : ∀ q, Triple I (initDbAt os q) (fun _ w => I w ∧ C q w) I)

theorem chosen_none : Triple I (pure none) (Chosen I C) I := .pure' fun _ hw => ⟨hw, nofun⟩

theorem chosen_some (q : String) : Triple (fun w => I w ∧ C q w) (pure (some q)) (Chosen I C) I :=
  .pure' fun _ hw => ⟨hw.1, by rintro _ ⟨⟩; exact hw.2⟩

include h hinit

theorem triple_choosePath (path : String) :
    Triple I (choosePath os path) (fun r w => r.elim (I w) (Chosen I C · w)) I := by
  unfold choosePath
  refine .ite (fun _ => .bind (.of_keeps (h.print _)) fun _ => .pure' fun _ hw => ⟨hw, nofun⟩)
    fun _ => .bind .skip fun _ => ?_
  refine .ite (fun _ => .bind (.of_keeps (h.print _)) fun _ => .pure' fun _ => id)
    fun _ => .bind .skip fun _ => ?_
  refine .ite (fun _ => .bind (.of_keeps (h.print _)) fun _ => .bind (hinit _) fun _ => chosen_some _)
    fun _ => .bind .skip fun _ => .bind (.of_keeps h.input) fun _ => ?_
  exact .ite (fun _ => .bind (hinit _) fun _ => chosen_some _)
    fun _ => .bind .skip fun _ => .bind (.of_keeps (h.print _)) fun _ =>
      .pure' fun _ => id

theorem triple_chooseAnyFile : Triple I (chooseAnyFile os) (Chosen I C) I := by
  refine .bind (.loop (.bind (.of_keeps h.input) fun _ => triple_choosePath h os hinit _)) fun r => ?_
  cases r
  · exact chosen_none
  · exact .pure' fun _ => id

theorem triple_chooseFile : Triple I (chooseFile os) (Chosen I C) I := by
  unfold chooseFile
  refine .bind (.of_keeps (h.print _)) fun _ => .bind (.of_keeps h.input) fun _ => ?_
  split
  · exact .bind (.of_keeps (h.print _)) fun _ => chosen_none
  refine .ite (fun _ => .bind (.of_keeps (h.print _)) fun _ => .bind (.of_keeps h.input) fun _ =>
    .bind (.of_keeps (.parseInt _)) fun _ => ?_) fun _ => .ite (fun _ => triple_chooseAnyFile h os hinit)
      fun _ => .bind (.of_keeps (h.print _)) fun _ => chosen_none
  refine .ite (fun _ => .bind (.of_keeps (h.print _)) fun _ => .bind (hinit _) fun _ => chosen_some _)
    fun _ => .ite (fun _ => .bind (.of_keeps h.input) fun _ => ?_)
      fun _ => .bind (.of_keeps (h.print _)) fun _ => chosen_none
  dsimp only
  exact .ite (fun _ => .bind (.of_keeps (h.print _)) fun _ => .bind (hinit _) fun _ => chosen_some _)
    fun _ => .bind .skip fun _ => .bind (hinit _) fun _ => chosen_some _

end Choose

/-- Option 1 keeps `I` when `I` ignores the count of calls and holds of `db_file` set to what
`choose_file` returns. -/
theorem keeps_optionChoose {I : World → Prop} {C : String → World → Prop} {os : Nat → Os}
    (h : Basic (Holds I)) (hinit : ∀ k q, Triple I (initDbAt (os k) q) (fun _ w => I w ∧ C q w) I)
    (hcalls : ∀ w, I w → I { w with calls := w.calls + 1 })
    (hset : ∀ r w, Chosen I C r w → I { w with dbFile := r }) :
    Keeps (Holds I) (optionChoose os) := by
  intro w hw
  have hc := triple_chooseFile h (os w.calls) (hinit w.calls) _ (hcalls w hw)
  unfold optionChoose
  revert hc
  cases chooseFile (os w.calls) { w with calls := w.calls + 1 }
  · exact hset _ _
  · exact id

/-! ### The input only shrinks -/

/-- The lines left to read in `w'` are the last lines of those in `w`. -/
def InputLe (w w' : World) : Prop := w'.input <:+ w.input

instance : IsPreorder World InputLe where
  refl _ := List.suffix_refl _
  trans _ _ _ h₁ h₂ := h₂.trans h₁

section Input

theorem keeps_pyInput : Keeps InputLe pyInput := by
  intro w
  unfold pyInput
  split <;> rename_i h
  · exact List.suffix_refl _
  · show _ <:+ w.input
    rw [h]
    exact List.suffix_cons _ _

theorem basic_inputLe : Basic InputLe := ⟨keeps_pyInput, fun _ _ => List.suffix_refl _⟩

theorem keeps_runStore (path : String) (op : Option Bytes → Outcome) :
    Keeps InputLe (runStore path op) := by
  intro w
  unfold runStore
  dsimp only
  split <;> exact List.suffix_refl _

theorem keeps_runRead (path : String) (op : Option Bytes → List Line) :
    Keeps InputLe (runRead path op) := fun _ => List.suffix_refl _

/-- The lines left are the last lines of those `w₀` had. -/
def InputFrom (w₀ w : World) : Prop := w.input <:+ w₀.input

theorem basic_inputFrom (w₀ : World) : Basic (Holds (InputFrom w₀)) :=
  ⟨fun w hw => (keeps_pyInput w).trans hw, fun _ _ => id⟩

theorem keeps_of_inputFrom {α : Type} {m : Prog α}
    (h : ∀ w₀, Keeps (Holds (InputFrom w₀)) m) : Keeps InputLe m :=
  fun w => h w w (List.suffix_refl _)

theorem initDbAt_inputFrom (w₀ : World) (os : Os) (q : String) :
    Triple (InputFrom w₀) (initDbAt os q) (fun _ w => InputFrom w₀ w ∧ True) (InputFrom w₀) :=
  .of_keeps_and (fun w hw => (Keeps.ite (keeps_runStore _ _) (.throw' _) w).trans hw) fun _ _ => trivial

theorem keeps_choosePath (os : Os) (path : String) : Keeps InputLe (choosePath os path) :=
  keeps_of_inputFrom fun w₀ => (triple_choosePath (basic_inputFrom w₀) os
    (initDbAt_inputFrom w₀ os) path).keeps fun r _ hr => by
      cases r
      · exact hr
      · exact hr.1

theorem keeps_optionChoose_inputLe (os : Nat → Os) : Keeps InputLe (optionChoose os) :=
  keeps_of_inputFrom fun w₀ => keeps_optionChoose (basic_inputFrom w₀)
    (fun k => initDbAt_inputFrom w₀ (os k)) (fun _ => id) fun _ _ h => h.1

theorem options_inputLe : Options InputLe where
  initDb _ w _ := keeps_runStore _ _ w
  print _ w _ := keeps_runRead _ _ w
  insert p w _ := basic_inputLe.optionInsert p (fun _ _ => keeps_runStore _ _) w
  delete p w _ := basic_inputLe.optionDelete p (fun _ => keeps_runStore _ _) w
  oneField p w _ := basic_inputLe.optionOneField p (fun _ _ => keeps_runRead _ _) w
  twoFields p w _ := basic_inputLe.optionTwoFields p (fun _ _ _ _ => keeps_runRead _ _) w
  digit p w _ := basic_inputLe.optionDigit p (fun _ => keeps_runRead _ _) w

end Input

/-! ### Every pass reads a line, so the loops stop -/

/-- Whenever `m` returns, it has read at least one line. -/
def Reads {α : Type} (m : Prog α) : Prop :=
  ∀ w a w', m w = .ok a w' → w'.input.length < w.input.length

namespace Reads

variable {α β : Type}

theorem pyInput : Reads RecordStore.pyInput := by
  intro w a w' h
  unfold RecordStore.pyInput at h
  split at h <;> rename_i heq
  · cases h
  · cases h; simp [heq]

theorem bind_left {m : Prog α} {f : α → Prog β} (hm : Reads m) (hf : ∀ a, Keeps InputLe (f a)) :
    Reads (m >>= f) := by
  intro w b w' h
  change EStateM.bind m f w = _ at h
  unfold EStateM.bind at h
  split at h <;> rename_i a w₁ heq
  · have := (hf a w₁).length_le
    rw [h] at this
    exact Nat.lt_of_le_of_lt this (hm w a w₁ heq)
  · cases h

theorem bind_right {m : Prog α} {f : α → Prog β} (hm : Keeps InputLe m) (hf : ∀ a, Reads (f a)) :
    Reads (m >>= f) := by
  intro w b w' h
  change EStateM.bind m f w = _ at h
  unfold EStateM.bind at h
  split at h <;> rename_i a w₁ heq
  · have := (hm w).length_le
    rw [heq] at this
    exact Nat.lt_of_lt_of_le (hf a w₁ b w' h) this
  · cases h

end Reads

theorem reads_menu : Reads menu :=
  .bind_right (basic_inputLe.print _) fun _ => .bind_left .pyInput fun _ => .pure' _

theorem reads_mainPass (os : Nat → Os) : Reads (mainPass os) :=
  .bind_left reads_menu fun c =>
    basic_inputLe.mainChoice os options_inputLe c fun _ => keeps_optionChoose_inputLe os

theorem reads_chooseAnyFilePass (os : Os) : Reads (chooseAnyFilePass os) :=
  .bind_left .pyInput fun _ => keeps_choosePath os _

/-- With a pass that reads a line each time, any number of passes above the lines left gives the
same run. -/
theorem whileTrue_fuel {α : Type} {pass : Prog (Option α)} (hr : Reads pass) :
    ∀ m n w, w.input.length < m → w.input.length < n → whileTrue pass m w = whileTrue pass n w
  | 0, _, _, hm, _ => absurd hm (Nat.not_lt_zero _)
  | _, 0, _, _, hn => absurd hn (Nat.not_lt_zero _)
  | m + 1, n + 1, w, hm, hn => by
    unfold whileTrue
    split <;> rename_i heq
    · rfl
    · have := hr w _ _ heq
      exact whileTrue_fuel hr m n _ (by omega) (by omega)
    · rfl

/-- With a pass that reads a line each time and enough passes, the loop is never cut short. -/
theorem whileTrue_ne_none {α : Type} {pass : Prog (Option α)} (hr : Reads pass) :
    ∀ n w w', w.input.length < n → whileTrue pass n w ≠ .ok none w'
  | 0, _, _, h => absurd h (Nat.not_lt_zero _)
  | n + 1, w, w', h => by
    unfold whileTrue
    split <;> rename_i heq
    · exact fun h' => by cases h'
    · exact whileTrue_ne_none hr n _ w' (by have := hr w _ _ heq; omega)
    · exact fun h' => by cases h'

/-- Both `while True` loops stop by themselves. Any number of passes of `main`'s loop beyond the
input's lines gives the same run, and neither loop ever ends for want of passes: `main`'s only
through option 9 or an exception, `choose_any_file`'s only through its `return`s or an
exception. -/
theorem main_ends (os : Nat → Os) (files : String → Option Bytes) (input : List String) :
    (∀ k, whileTrue (mainPass os) (input.length + 1 + k) ⟨none, files, input, [], 0⟩ =
      main os files input) ∧ (∀ w, main os files input ≠ .ok none w) ∧
    ∀ (o : Os) w w', loop (chooseAnyFilePass o) w ≠ .ok none w' :=
  ⟨fun _ => whileTrue_fuel (reads_mainPass os) _ _ _
      (Nat.lt_of_lt_of_le (Nat.lt_succ_self _) (Nat.le_add_right _ _)) (Nat.lt_succ_self _),
    fun w => whileTrue_ne_none (reads_mainPass os) _ _ w (Nat.lt_succ_self _),
    fun o w w' => whileTrue_ne_none (reads_chooseAnyFilePass o) _ w w' (Nat.lt_succ_self _)⟩

/-! ### Options 4 and 5 run `menuInsert` and `menuDelete` -/

section Run

variable {α β : Type} {m : Prog α} {f : α → Prog β} {w w' : World}

theorem bind_ok {a : α} (h : m w = .ok a w') : (m >>= f) w = f a w' := by
  show EStateM.bind m f w = _
  simp only [EStateM.bind, h]

theorem bind_error {e : MainExc} (h : m w = .error e w') : (m >>= f) w = .error e w' := by
  show EStateM.bind m f w = _
  simp only [EStateM.bind, h]

theorem pyInput_cons {l : String} {rest : List String} (h : w.input = l :: rest) :
    pyInput w = .ok l { w with input := rest } := by
  simp only [pyInput, h]

end Run

/-- Option 4, as `main` runs it on five lines whose numbers `int` and `float` accept, is
`menuInsert` on the chosen file. -/
theorem optionInsert_menuInsert (p : String) (w : World) {l₁ l₂ l₃ l₄ l₅ : String}
    {rest : List String} (hin : w.input = l₁ :: l₂ :: l₃ :: l₄ :: l₅ :: rest) {pos count : Int}
    {price : PyFloat} (h₁ : pyInt l₁ = some pos) (h₃ : pyInt l₃ = some count)
    (h₄ : pyFloat l₄ = some price) :
    optionInsert p w = runStore p (menuInsert · l₁ l₂ l₃ l₄ l₅) { w with input := rest } := by
  unfold optionInsert RecordStore.tryValueError
  rw [bind_ok (pyInput_cons hin), bind_ok (show parseInt l₁ _ = _ by simp only [parseInt, h₁]; rfl),
    bind_ok (pyInput_cons rfl), bind_ok (pyInput_cons rfl),
    bind_ok (show parseInt l₃ _ = _ by simp only [parseInt, h₃]; rfl), bind_ok (pyInput_cons rfl),
    bind_ok (show parseFloat l₄ _ = _ by simp only [parseFloat, h₄]; rfl), bind_ok (pyInput_cons rfl)]
  simp only [runStore, menuInsert, h₁, h₃, h₄, catchValueError]
  generalize insertRecordAt (w.files p) pos _ = o
  rcases o with ⟨file, out, _ | e⟩
  · rfl
  · cases he : e.isValueError <;> simp [he, MainExc.isValueError, pyPrint, pyPrintAll]

/-- Option 5, as `main` runs it on the line it reads, is `menuDelete` on the chosen file. -/
theorem optionDelete_menuDelete (p : String) (w : World) {l : String} {rest : List String}
    (hin : w.input = l :: rest) :
    optionDelete p w = runStore p (menuDelete · l) { w with input := rest } := by
  unfold optionDelete RecordStore.tryValueError
  rw [bind_ok (pyInput_cons hin)]
  cases hl : pyInt l with
  | none =>
    rw [bind_error (show parseInt l _ = _ by simp only [parseInt, hl]; rfl)]
    simp [runStore, menuDelete, hl, pyPrint, pyPrintAll, MainExc.isValueError]
  | some pos =>
    rw [bind_ok (show parseInt l _ = _ by simp only [parseInt, hl]; rfl)]
    simp [runStore, menuDelete, hl, catchValueError, deleteRecord_raised]

/-! ### A wrong item number ends `main` -/

end RecordStore
