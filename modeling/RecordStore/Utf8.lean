import RecordStore.Bytes
import Mathlib.Data.List.DropRight
import Mathlib.Algebra.Group.Nat.Basic

/-!
# UTF-8 as `str.encode("utf-8")` and `bytes.decode("utf-8", errors="ignore")` do it

Characters are Lean `Char`s, that is Unicode scalar values, so the encoder never fails. The
decoder is a machine reading one byte at a time; a sequence under way remembers how many
continuation bytes it still needs and the range the next one must lie in (Unicode Table 3-7). A
byte outside that range ends the sequence as an ill-formed subpart, which `errors="ignore"`
drops before reading the byte afresh; a sequence cut off by the end of the data is dropped too.

`pack_record` cuts a field's encoding at its width and pads it with zero bytes, and
`unpack_record` decodes it and strips trailing NULs. `decode_textField` says what comes back:
the longest prefix of whole characters that fits (`fit`), with its trailing NULs stripped.
-/

namespace RecordStore
namespace Utf8

/-- The UTF-8 bytes of one character (Unicode Table 3-6). -/
def encodeChar (c : Char) : Bytes :=
  let n := c.toNat
  if n < 0x80 then [n.toUInt8]
  else if n < 0x800 then [(0xC0 + n / 0x40).toUInt8, (0x80 + n % 0x40).toUInt8]
  else if n < 0x10000 then
    [(0xE0 + n / 0x1000).toUInt8, (0x80 + n / 0x40 % 0x40).toUInt8, (0x80 + n % 0x40).toUInt8]
  else
    [(0xF0 + n / 0x40000).toUInt8, (0x80 + n / 0x1000 % 0x40).toUInt8,
      (0x80 + n / 0x40 % 0x40).toUInt8, (0x80 + n % 0x40).toUInt8]

/-- `s.encode("utf-8")`, for the characters of `s`. -/
def encode : List Char → Bytes
  | [] => []
  | c :: cs => encodeChar c ++ encode cs

/-- A multi-byte sequence under way: the continuation bytes still owed, the code point bits read
so far, and the range the next byte must lie in. -/
structure Pending where
  need : Nat
  acc : Nat
  lo : Nat
  hi : Nat

/-- A byte read between characters: the character it is, the sequence it starts, or neither (an
invalid start byte). The ranges of the second byte are those of Unicode Table 3-7. -/
def lead (b : UInt8) : Option Char × Option Pending :=
  let n := b.toNat
  if n < 0x80 then (some (Char.ofNat n), none)
  else if n < 0xC2 then (none, none)
  else if n < 0xE0 then (none, some ⟨1, n - 0xC0, 0x80, 0xBF⟩)
  else if n < 0xF0 then
    (none, some ⟨2, n - 0xE0, if n = 0xE0 then 0xA0 else 0x80, if n = 0xED then 0x9F else 0xBF⟩)
  else if n < 0xF5 then
    (none, some ⟨3, n - 0xF0, if n = 0xF0 then 0x90 else 0x80, if n = 0xF4 then 0x8F else 0xBF⟩)
  else (none, none)

/-- One byte: the character it completes, if any, and the state after it. -/
def step : Option Pending → UInt8 → Option Char × Option Pending
  | none, b => lead b
  | some p, b =>
    if p.lo ≤ b.toNat ∧ b.toNat ≤ p.hi then
      let acc := p.acc * 0x40 + (b.toNat - 0x80)
      if p.need = 1 then (some (Char.ofNat acc), none)
      else (none, some ⟨p.need - 1, acc, 0x80, 0xBF⟩)
    else lead b

/-- The characters decoded from `bs`, starting in state `s`. -/
def decodeFrom : Option Pending → Bytes → List Char
  | _, [] => []
  | s, b :: bs => (step s b).1.toList ++ decodeFrom (step s b).2 bs

/-- `bs.decode("utf-8", errors="ignore")`. -/
def decode (bs : Bytes) : List Char := decodeFrom none bs

/-- `rstrip("\x00")`: drop trailing NUL characters. -/
def stripNul (cs : List Char) : List Char := cs.rdropWhile (· = Char.ofNat 0)

/-- The longest prefix of `cs`, in whole characters, whose encoding has at most `w` bytes. -/
def fit : List Char → Nat → List Char
  | [], _ => []
  | c :: cs, w =>
    if (encodeChar c).length ≤ w then c :: fit cs (w - (encodeChar c).length) else []

/-! ### The decoder's steps -/

@[simp] theorem toNat_toUInt8 (n : Nat) : n.toUInt8.toNat = n % 256 := rfl

@[simp] theorem decodeFrom_nil (s : Option Pending) : decodeFrom s [] = [] := rfl

theorem decodeFrom_cons (s : Option Pending) (b : UInt8) (bs : Bytes) :
    decodeFrom s (b :: bs) = (step s b).1.toList ++ decodeFrom (step s b).2 bs := rfl

theorem lead_ascii {b : UInt8} (h : b.toNat < 0x80) :
    lead b = (some (Char.ofNat b.toNat), none) := by
  simp [lead, h]

theorem lead_two {b : UInt8} (h1 : 0xC2 ≤ b.toNat) (h2 : b.toNat < 0xE0) :
    lead b = (none, some ⟨1, b.toNat - 0xC0, 0x80, 0xBF⟩) := by
  simp only [lead, show ¬ b.toNat < 0x80 by omega, show ¬ b.toNat < 0xC2 by omega, h2, ↓reduceIte]

theorem lead_three {b : UInt8} (h1 : 0xE0 ≤ b.toNat) (h2 : b.toNat < 0xF0) :
    lead b = (none, some ⟨2, b.toNat - 0xE0, if b.toNat = 0xE0 then 0xA0 else 0x80,
      if b.toNat = 0xED then 0x9F else 0xBF⟩) := by
  simp only [lead, show ¬ b.toNat < 0x80 by omega, show ¬ b.toNat < 0xC2 by omega,
    show ¬ b.toNat < 0xE0 by omega, h2, ↓reduceIte]

theorem lead_four {b : UInt8} (h1 : 0xF0 ≤ b.toNat) (h2 : b.toNat < 0xF5) :
    lead b = (none, some ⟨3, b.toNat - 0xF0, if b.toNat = 0xF0 then 0x90 else 0x80,
      if b.toNat = 0xF4 then 0x8F else 0xBF⟩) := by
  simp only [lead, show ¬ b.toNat < 0x80 by omega, show ¬ b.toNat < 0xC2 by omega,
    show ¬ b.toNat < 0xE0 by omega, show ¬ b.toNat < 0xF0 by omega, h2, ↓reduceIte]

/-- A continuation byte in range extends the pending sequence. -/
theorem step_accept {need acc lo hi : Nat} {b : UInt8} (h : lo ≤ b.toNat ∧ b.toNat ≤ hi) :
    step (some ⟨need, acc, lo, hi⟩) b =
      if need = 1 then (some (Char.ofNat (acc * 0x40 + (b.toNat - 0x80))), none)
      else (none, some ⟨need - 1, acc * 0x40 + (b.toNat - 0x80), 0x80, 0xBF⟩) := by
  simp [step, h]

@[simp] theorem step_none (b : UInt8) : step none b = lead b := rfl

/-- A pending sequence followed by zero bytes, or by nothing: the sequence is dropped and every
zero byte reads as a NUL. -/
theorem decodeFrom_replicate_zero (s : Option Pending) (hs : ∀ p, s = some p → 0x80 ≤ p.lo)
    (m : Nat) : decodeFrom s (List.replicate m 0) = List.replicate m (Char.ofNat 0) := by
  induction m generalizing s with
  | zero => rfl
  | succ m ih =>
    have hstep : step s 0 = (some (Char.ofNat 0), none) := by
      cases s with
      | none => exact lead_ascii (show (0 : UInt8).toNat < 0x80 by decide)
      | some p =>
        have := hs p rfl
        simp only [step]
        rw [if_neg (by simp; omega)]
        exact lead_ascii (show (0 : UInt8).toNat < 0x80 by decide)
    rw [List.replicate_succ, decodeFrom_cons, hstep, ih none (by simp)]
    rfl

/-! ### Well-formed sequences -/

/-- `b` lies in `[lo, hi]`. -/
def InRange (lo hi : Nat) (b : UInt8) : Prop := lo ≤ b.toNat ∧ b.toNat ≤ hi

/-- A well-formed UTF-8 sequence (Unicode Table 3-7) and the scalar value it spells. -/
inductive Seq : Bytes → Nat → Prop
  | one {b₀ : UInt8} : b₀.toNat < 0x80 → Seq [b₀] b₀.toNat
  | two {b₀ b₁ : UInt8} : InRange 0xC2 0xDF b₀ → InRange 0x80 0xBF b₁ →
      Seq [b₀, b₁] ((b₀.toNat - 0xC0) * 0x40 + (b₁.toNat - 0x80))
  | three {b₀ b₁ b₂ : UInt8} : InRange 0xE0 0xEF b₀ →
      InRange (if b₀.toNat = 0xE0 then 0xA0 else 0x80) (if b₀.toNat = 0xED then 0x9F else 0xBF) b₁ →
      InRange 0x80 0xBF b₂ →
      Seq [b₀, b₁, b₂] (((b₀.toNat - 0xE0) * 0x40 + (b₁.toNat - 0x80)) * 0x40 + (b₂.toNat - 0x80))
  | four {b₀ b₁ b₂ b₃ : UInt8} : InRange 0xF0 0xF4 b₀ →
      InRange (if b₀.toNat = 0xF0 then 0x90 else 0x80) (if b₀.toNat = 0xF4 then 0x8F else 0xBF) b₁ →
      InRange 0x80 0xBF b₂ → InRange 0x80 0xBF b₃ →
      Seq [b₀, b₁, b₂, b₃] ((((b₀.toNat - 0xF0) * 0x40 + (b₁.toNat - 0x80)) * 0x40 +
        (b₂.toNat - 0x80)) * 0x40 + (b₃.toNat - 0x80))

/-- A scalar value is below `0x110000` and not a surrogate. -/
theorem toNat_valid (c : Char) : c.toNat < 0xD800 ∨ (0xDFFF < c.toNat ∧ c.toNat < 0x110000) :=
  c.valid

/-- `n / 2^12` and `n / 2^18` as six bits taken off twice and three times. -/
theorem div_0x1000 (n : Nat) : n / 0x1000 = n / 0x40 / 0x40 :=
  (Nat.div_div_eq_div_mul n 0x40 0x40).symm

theorem div_0x40000 (n : Nat) : n / 0x40000 = n / 0x40 / 0x40 / 0x40 := by
  rw [Nat.div_div_eq_div_mul, Nat.div_div_eq_div_mul]

/-- The encoder writes a well-formed sequence spelling the character. -/
theorem seq_encodeChar (c : Char) : Seq (encodeChar c) c.toNat := by
  have hv := toNat_valid c
  have val : ∀ {bs : Bytes} {m : Nat}, Seq bs m → m = c.toNat → Seq bs c.toNat := fun h e => e ▸ h
  simp only [encodeChar]
  split_ifs with h₁ h₂ h₃
  · refine val (.one ?_) ?_ <;> simp (disch := omega) only [toNat_toUInt8, Nat.mod_eq_of_lt]
    omega
  · refine val (.two ?_ ?_) ?_ <;>
      simp (disch := omega) only [InRange, toNat_toUInt8, Nat.mod_eq_of_lt, Nat.add_sub_cancel_left,
        Nat.div_add_mod'] <;> omega
  · refine val (.three ?_ ?_ ?_) ?_ <;>
      simp (disch := omega) only [InRange, toNat_toUInt8, Nat.mod_eq_of_lt, Nat.add_sub_cancel_left,
        div_0x1000, Nat.div_add_mod'] <;> (try split_ifs) <;> omega
  · refine val (.four ?_ ?_ ?_ ?_) ?_ <;>
      simp (disch := omega) only [InRange, toNat_toUInt8, Nat.mod_eq_of_lt, Nat.add_sub_cancel_left,
        div_0x1000, div_0x40000, Nat.div_add_mod'] <;> (try split_ifs) <;> omega

/-! ### Decoding well-formed sequences -/

/-- The decoder reads a well-formed sequence as the character it spells. -/
theorem decodeFrom_seq {bs : Bytes} {n : Nat} (h : Seq bs n) (rest : Bytes) :
    decodeFrom none (bs ++ rest) = Char.ofNat n :: decodeFrom none rest := by
  cases h with
  | one h₀ => simp [decodeFrom_cons, lead_ascii h₀]
  | two h₀ h₁ => simp [decodeFrom_cons, lead_two h₀.1 (by have := h₀.2; omega), step_accept h₁]
  | three h₀ h₁ h₂ =>
    simp [decodeFrom_cons, lead_three h₀.1 (by have := h₀.2; omega), step_accept h₁,
      step_accept h₂]
  | four h₀ h₁ h₂ h₃ =>
    simp [decodeFrom_cons, lead_four h₀.1 (by have := h₀.2; omega), step_accept h₁,
      step_accept h₂, step_accept h₃]

/-- A well-formed sequence cut short and followed by zero bytes: the partial sequence is dropped
and the zero bytes read as NULs. -/
theorem decodeFrom_seq_take {bs : Bytes} {n : Nat} (h : Seq bs n) {j : Nat} (hj : j < bs.length)
    (m : Nat) :
    decodeFrom none (bs.take j ++ List.replicate m 0) = List.replicate m (Char.ofNat 0) := by
  have zeros : ∀ p : Pending, 0x80 ≤ p.lo →
      decodeFrom (some p) (List.replicate m 0) = List.replicate m (Char.ofNat 0) :=
    fun p hp => decodeFrom_replicate_zero (some p) (by rintro _ ⟨⟩; exact hp) m
  have lo_if : ∀ {a b : Nat} (P : Prop) [Decidable P], 0x80 ≤ a → 0x80 ≤ b →
      0x80 ≤ if P then a else b := fun P _ ha hb => by split_ifs <;> assumption
  rcases Nat.eq_zero_or_pos j with rfl | hj₀
  · exact decodeFrom_replicate_zero none (by simp) m
  cases h with
  | one _ => simp at hj; omega
  | two h₀ _ =>
    obtain rfl : j = 1 := by simp at hj; omega
    simp [decodeFrom_cons, lead_two h₀.1 (by have := h₀.2; omega)]
    exact zeros _ le_rfl
  | three h₀ h₁ _ =>
    obtain rfl | rfl : j = 1 ∨ j = 2 := by simp at hj; omega
    · simp [decodeFrom_cons, lead_three h₀.1 (by have := h₀.2; omega)]
      exact zeros _ (lo_if _ (by decide) le_rfl)
    · simp [decodeFrom_cons, lead_three h₀.1 (by have := h₀.2; omega), step_accept h₁]
      exact zeros _ le_rfl
  | four h₀ h₁ h₂ _ =>
    obtain rfl | rfl | rfl : j = 1 ∨ j = 2 ∨ j = 3 := by simp at hj; omega
    · simp [decodeFrom_cons, lead_four h₀.1 (by have := h₀.2; omega)]
      exact zeros _ (lo_if _ (by decide) le_rfl)
    · simp [decodeFrom_cons, lead_four h₀.1 (by have := h₀.2; omega), step_accept h₁]
      exact zeros _ le_rfl
    · simp [decodeFrom_cons, lead_four h₀.1 (by have := h₀.2; omega), step_accept h₁,
        step_accept h₂]
      exact zeros _ le_rfl

/-- The decoder reads back every character the encoder writes. -/
theorem decodeFrom_encodeChar (c : Char) (rest : Bytes) :
    decodeFrom none (encodeChar c ++ rest) = c :: decodeFrom none rest := by
  rw [decodeFrom_seq (seq_encodeChar c), Char.ofNat_toNat]

theorem decodeFrom_encode (cs : List Char) (rest : Bytes) :
    decodeFrom none (encode cs ++ rest) = cs ++ decodeFrom none rest := by
  induction cs with
  | nil => rfl
  | cons c cs ih => rw [encode, List.append_assoc, decodeFrom_encodeChar, ih, List.cons_append]

/-- `bytes.decode("utf-8", errors="ignore")` inverts `str.encode("utf-8")` on every string. -/
theorem decode_encode (cs : List Char) : decode (encode cs) = cs := by
  simpa [decode] using decodeFrom_encode cs []

/-! ### Cut at a width, padded with zero bytes -/

@[simp] theorem encode_nil : encode [] = [] := rfl

@[simp] theorem encode_cons (c : Char) (cs : List Char) :
    encode (c :: cs) = encodeChar c ++ encode cs := rfl

/-- What `unpack_record` decodes from a field `pack_record` wrote: the characters that fit
whole, then one NUL per zero byte of padding. -/
theorem decode_take_encode (cs : List Char) (w k : Nat) :
    decode ((encode cs).take w ++ List.replicate k 0) =
      fit cs w ++ List.replicate k (Char.ofNat 0) := by
  induction cs generalizing w with
  | nil => simpa [fit, decode] using decodeFrom_replicate_zero none (by simp) k
  | cons c cs ih =>
    rw [encode_cons, fit]
    split_ifs with h
    · rw [List.take_append_eq_append_take, List.take_of_length_le h, List.append_assoc, decode,
        decodeFrom_encodeChar, ← decode, ih, List.cons_append]
    · rw [List.take_append_of_le_length (by omega), decode,
        decodeFrom_seq_take (seq_encodeChar c) (by omega), List.nil_append]

/-- Trailing NULs do not survive `rstrip("\x00")`. -/
theorem stripNul_append_replicate (cs : List Char) (k : Nat) :
    stripNul (cs ++ List.replicate k (Char.ofNat 0)) = stripNul cs := by
  induction k with
  | zero => simp
  | succ k ih =>
    rw [List.replicate_succ', ← List.append_assoc, stripNul,
      List.rdropWhile_concat_pos _ _ _ (by simp), ← stripNul, ih]

/-- A list whose last character is not NUL is left alone by `rstrip("\x00")`. -/
theorem stripNul_of_getLast (cs : List Char) (h : ∀ hc : cs ≠ [], cs.getLast hc ≠ Char.ofNat 0) :
    stripNul cs = cs :=
  List.rdropWhile_eq_self_iff.mpr fun hc => by simpa using h hc

/-! ### `fit` is the longest prefix that fits -/

theorem fit_isPrefix (cs : List Char) (w : Nat) : fit cs w <+: cs := by
  induction cs generalizing w with
  | nil => exact List.prefix_rfl
  | cons c cs ih =>
    rw [fit]; split_ifs
    · exact (List.prefix_cons_inj c).mpr (ih _)
    · exact List.nil_prefix

theorem length_encode_fit (cs : List Char) (w : Nat) : (encode (fit cs w)).length ≤ w := by
  induction cs generalizing w with
  | nil => simp [fit]
  | cons c cs ih =>
    rw [fit]; split_ifs with h
    · have := ih (w - (encodeChar c).length); simp; omega
    · simp

theorem fit_maximal (cs t : List Char) (w : Nat) (ht : t <+: cs) (hw : (encode t).length ≤ w) :
    t.length ≤ (fit cs w).length := by
  induction cs generalizing t w with
  | nil => simp [List.prefix_nil.mp ht]
  | cons c cs ih =>
    rcases t with _ | ⟨d, t⟩
    · simp
    obtain ⟨rfl, hpre⟩ := List.cons_prefix_cons.mp ht
    simp only [encode_cons, List.length_append] at hw
    rw [fit, if_pos (by omega), List.length_cons, List.length_cons]
    exact Nat.succ_le_succ (ih t _ hpre (by omega))

theorem fit_of_length_le (cs : List Char) (w : Nat) (h : (encode cs).length ≤ w) : fit cs w = cs :=
  (fit_isPrefix cs w).eq_of_length (Nat.le_antisymm (fit_isPrefix cs w).length_le
    (fit_maximal cs cs w List.prefix_rfl h))

/-- `fit cs w` is what the spec calls it: the longest prefix of `cs`, in whole characters, whose
UTF-8 encoding has at most `w` bytes. -/
theorem fit_spec (cs : List Char) (w : Nat) :
    fit cs w <+: cs ∧ (encode (fit cs w)).length ≤ w ∧
      ∀ t, t <+: cs → (encode t).length ≤ w → t.length ≤ (fit cs w).length :=
  ⟨fit_isPrefix cs w, length_encode_fit cs w, fun t ht hw => fit_maximal cs t w ht hw⟩

/-! ### Decoding never lengthens -/

/-- The length of the UTF-8 encoding of the code point `v`. -/
def encodedWidth (v : Nat) : Nat :=
  if v < 0x80 then 1 else if v < 0x800 then 2 else if v < 0x10000 then 3 else 4

theorem length_encodeChar (c : Char) : (encodeChar c).length = encodedWidth c.toNat := by
  simp only [encodeChar, encodedWidth]
  split_ifs <;> rfl

theorem encodedWidth_mono {v w : Nat} (h : v ≤ w) : encodedWidth v ≤ encodedWidth w := by
  unfold encodedWidth
  split_ifs <;> omega

theorem toNat_ofNat_le (v : Nat) : (Char.ofNat v).toNat ≤ v := by
  rw [Char.ofNat]
  split
  · exact Nat.le_refl v
  · exact Nat.zero_le v

theorem length_encodeChar_ofNat_le (v : Nat) : (encodeChar (Char.ofNat v)).length ≤ encodedWidth v := by
  rw [length_encodeChar]
  exact encodedWidth_mono (toNat_ofNat_le v)

@[simp] theorem encode_append (cs ds : List Char) : encode (cs ++ ds) = encode cs ++ encode ds := by
  induction cs with
  | nil => rfl
  | cons c cs ih => rw [List.cons_append, encode_cons, encode_cons, ih, List.append_assoc]

/-- What a pending sequence may still add to the encoding, beyond the bytes it owes: the width of
the largest code point it can complete to, less the bytes still to come. -/
def credit : Option Pending → Nat
  | none => 0
  | some p => encodedWidth ((p.acc + 1) * 0x40 ^ p.need - 1) - p.need

/-- The pending sequences the decoder makes: one byte owed at least, and the range of the next byte
among the continuation bytes. -/
def Pending.Good (p : Pending) : Prop := 1 ≤ p.need ∧ p.hi ≤ 0xBF

theorem lead_credit (b : UInt8) :
    (encode (lead b).1.toList).length + credit (lead b).2 ≤ 1 ∧
      ∀ p, (lead b).2 = some p → p.Good := by
  have hb : b.toNat < 256 := b.toNat_lt_size
  by_cases h1 : b.toNat < 0x80
  · rw [lead_ascii h1]
    refine ⟨?_, fun p hp => by cases hp⟩
    have := length_encodeChar_ofNat_le b.toNat
    simp only [Option.toList, encode_cons, encode_nil, List.append_nil, credit]
    unfold encodedWidth at this
    rw [if_pos h1] at this
    omega
  by_cases h2 : b.toNat < 0xC2
  · simp only [lead, h1, h2, if_false, if_true, Option.toList, encode_nil, credit]
    exact ⟨by decide, fun p hp => by cases hp⟩
  by_cases h3 : b.toNat < 0xE0
  · rw [lead_two (by omega) h3]
    refine ⟨?_, fun p hp => by cases hp; exact ⟨le_rfl, le_rfl⟩⟩
    simp only [Option.toList, encode_nil, credit, encodedWidth, List.length_nil, Nat.pow_one]
    split_ifs <;> omega
  by_cases h4 : b.toNat < 0xF0
  · rw [lead_three (by omega) h4]
    refine ⟨?_, fun p hp => by cases hp; constructor <;> dsimp only <;> (try split_ifs) <;> omega⟩
    simp only [Option.toList, encode_nil, credit, encodedWidth, List.length_nil]
    split_ifs <;> omega
  by_cases h5 : b.toNat < 0xF5
  · rw [lead_four (by omega) h5]
    refine ⟨?_, fun p hp => by cases hp; constructor <;> dsimp only <;> (try split_ifs) <;> omega⟩
    simp only [Option.toList, encode_nil, credit, encodedWidth, List.length_nil]
    split_ifs <;> omega
  · simp only [lead, h1, h2, h3, h4, h5, if_false, Option.toList, encode_nil, credit]
    exact ⟨by decide, fun p hp => by cases hp⟩

/-- One byte: what the decoder writes out and what it may still add together grow by at most the
byte read, and the decoder stays among good pending sequences. -/
theorem step_credit {s : Option Pending} (hs : ∀ p, s = some p → p.Good) (b : UInt8) :
    (encode (step s b).1.toList).length + credit (step s b).2 ≤ 1 + credit s ∧
      ∀ p, (step s b).2 = some p → p.Good := by
  rcases s with _ | ⟨need, acc, lo, hi⟩
  · have := lead_credit b
    exact ⟨by simpa [credit] using this.1, this.2⟩
  obtain ⟨hneed, hhi⟩ : 1 ≤ need ∧ hi ≤ 0xBF := hs _ rfl
  by_cases hin : lo ≤ b.toNat ∧ b.toNat ≤ hi
  · have hacc : acc * 0x40 + (b.toNat - 0x80) + 1 ≤ (acc + 1) * 0x40 := by omega
    have hW := encodedWidth_mono (Nat.sub_le_sub_right (Nat.mul_le_mul_right (0x40 ^ (need - 1)) hacc) 1)
    rw [Nat.mul_assoc, ← Nat.pow_succ', Nat.succ_eq_add_one, Nat.sub_add_cancel hneed] at hW
    rw [step_accept hin]
    split_ifs with h1
    · subst h1
      have := length_encodeChar_ofNat_le (acc * 0x40 + (b.toNat - 0x80))
      have h0 := encodedWidth_mono (show acc * 0x40 + (b.toNat - 0x80) ≤ (acc + 1) * 0x40 ^ 1 - 1 by omega)
      simp only [Option.toList, encode_cons, encode_nil, List.append_nil, credit]
      refine ⟨by omega, fun p hp => by cases hp⟩
    · simp only [Option.toList, encode_nil, List.length_nil, credit]
      exact ⟨by omega, fun p hp => by cases hp; exact ⟨by dsimp only; omega, le_rfl⟩⟩
  · have := lead_credit b
    simp only [step, hin, if_false]
    exact ⟨by omega, this.2⟩

/-- The encoding of what the decoder reads from `bs` is no longer than `bs` and the credit of the
state it starts in. -/
theorem length_encode_decodeFrom (bs : Bytes) :
    ∀ s : Option Pending, (∀ p, s = some p → p.Good) →
      (encode (decodeFrom s bs)).length ≤ bs.length + credit s := by
  induction bs with
  | nil => intro s _; simp
  | cons b bs ih =>
    intro s hs
    obtain ⟨hstep, hgood⟩ := step_credit hs b
    have := ih _ hgood
    rw [decodeFrom_cons, encode_append, List.length_append, List.length_cons]
    omega

/-- `errors="ignore"` only drops bytes: what it decodes re-encodes to at most as many bytes. -/
theorem length_encode_decode (bs : Bytes) : (encode (decode bs)).length ≤ bs.length := by
  simpa [credit] using length_encode_decodeFrom bs none (by simp)

/-- A text field read back and written again: the characters `unpack_record` reads from a field
of `w` bytes fit the field, so `pack_record` keeps them all and they read back the same. -/
theorem stripNul_fit_decode {bs : Bytes} {w : Nat} (h : bs.length ≤ w) :
    stripNul (fit (stripNul (decode bs)) w) = stripNul (decode bs) := by
  have hpre : stripNul (decode bs) <+: decode bs := List.rdropWhile_prefix _ _
  obtain ⟨t, ht⟩ := hpre
  have hlen : (encode (stripNul (decode bs))).length ≤ w := by
    have := length_encode_decode bs
    rw [← ht, encode_append, List.length_append] at this
    exact (Nat.le_add_right _ _).trans (this.trans h)
  rw [fit_of_length_le _ _ hlen, stripNul, stripNul, List.rdropWhile_idempotent]

end Utf8
end RecordStore
