import RecordStore.Utf8
import RecordStore.PyFloat

/-!
# The record codec: `pack_record` and `unpack_record`

`FORMAT = "20s i f 15s"` in native mode: the name in 20 bytes, a 4-byte `int` at offset 20, a
4-byte `float` at 24 and the category in 15 bytes at 28, 43 bytes in all. Numbers are stored
little-endian, the native order of the machines the program runs on. In native mode `f` is the C
conversion `(float)x`, which rounds and goes to an infinity past the largest `float` without
raising. `packRecord` returns a `Block`, so its length is part of its type; it fails only where
`struct.pack` raises, on a count outside `int`.

`unpackRecord_packRecord` is the codec law: a text field comes back as the longest prefix of
whole characters that fits its width, without trailing NULs, the count comes back unchanged and
the price as its `float` conversion.
-/

namespace RecordStore

/-- A Python exception a store function can raise: `struct.error`, or a `ValueError`, the one that
`main` catches. -/
inductive PyExc where
  | valueError (msg : String)
  | structError (msg : String)
deriving DecidableEq, Repr

/-- Whether `except ValueError` catches it: `struct.error` derives from `Exception`, not from
`ValueError`. -/
def PyExc.isValueError : PyExc → Bool
  | .valueError _ => true
  | _ => false

/-- A record as `pack_record` takes it and `unpack_record` returns it. -/
structure Record where
  name : String
  count : Int
  price : PyFloat
  category : String
deriving DecidableEq, Repr

/-- `s.encode("utf-8")[:w].ljust(w, b"\x00")`. -/
def textField (w : Nat) (s : String) : Bytes := ((Utf8.encode s.data).take w).rightpad w 0

/-- The four little-endian bytes of a 32-bit word. -/
def le32 (u : UInt32) : Bytes :=
  [u.toNat.toUInt8, (u.toNat / 0x100).toUInt8, (u.toNat / 0x10000).toUInt8,
    (u.toNat / 0x1000000).toUInt8]

/-- The word whose little-endian bytes are `bs`. -/
def ofLe32 (bs : Bytes) : UInt32 := UInt32.ofNat (bs.foldr (fun b v => b.toNat + 0x100 * v) 0)

/-- The word `struct.pack("i", n)` writes: `n` in two's complement. A Python int beyond a C
`long` (64 bits here) is "argument out of range"; one inside it but beyond `int`, the range
message. -/
def packI32 (n : Int) : Except PyExc UInt32 :=
  if n < -2 ^ 63 ∨ 2 ^ 63 ≤ n then .error (.structError "argument out of range")
  else if n < -2 ^ 31 ∨ 2 ^ 31 ≤ n then
    .error (.structError "\x27i\x27 format requires -2147483648 <= number <= 2147483647")
  else .ok (UInt32.ofNat (n % 2 ^ 32).toNat)

/-- The `int` that `struct.unpack("i", ·)` reads from a word. -/
def unpackI32 (u : UInt32) : Int := if u.toNat < 2 ^ 31 then u.toNat else (u.toNat : Int) - 2 ^ 32

/-- What a price reads back as after a trip through the `f` field. -/
def PyFloat.throughF32 (x : PyFloat) : PyFloat := PyFloat.ofF32 x.toF32

@[simp] theorem length_textField (w : Nat) (s : String) : (textField w s).length = w := by
  simp only [textField, List.rightpad, List.length_append, List.length_take, List.length_replicate]
  omega

@[simp] theorem length_le32 (u : UInt32) : (le32 u).length = 4 := rfl

/-- `pack_record(name, count, price, category)`. `int(count)` and `float(price)` are the identity
on an `int` and a `float`, the only arguments the program passes; native `f` never raises. -/
def packRecord (r : Record) : Except PyExc Block := do
  let c ← packI32 r.count
  return ⟨textField 20 r.name ++ le32 c ++ le32 r.price.toF32 ++ textField 15 r.category,
    by simp; rfl⟩

/-- `unpack_record(data)`: the fields at their offsets, text decoded with `errors="ignore"` and
stripped of trailing NULs. -/
def unpackRecord (b : Block) : Record where
  name := ⟨Utf8.stripNul (Utf8.decode (b.bytes.take 20))⟩
  count := unpackI32 (ofLe32 ((b.bytes.drop 20).take 4))
  price := PyFloat.ofF32 (ofLe32 ((b.bytes.drop 24).take 4))
  category := ⟨Utf8.stripNul (Utf8.decode ((b.bytes.drop 28).take 15))⟩

/-! ### Field lemmas -/

theorem ofLe32_le32 (u : UInt32) : ofLe32 (le32 u) = u := by
  have : u.toNat < 2 ^ 32 := u.toNat_lt_size
  refine UInt32.toNat.inj ?_
  rw [ofLe32, UInt32.toNat_ofNat_of_lt] <;> simp [le32, UInt32.size] <;> omega

theorem unpackI32_of_packI32 {n : Int} {u : UInt32} (h : packI32 n = .ok u) : unpackI32 u = n := by
  simp only [packI32] at h
  split_ifs at h with h₁ h₂
  cases h
  have hlt : ((n % 2 ^ 32).toNat) < UInt32.size := by simp [UInt32.size]; omega
  simp only [unpackI32, UInt32.toNat_ofNat_of_lt hlt]
  split_ifs <;> omega

/-- The text a field written by `textField` reads back as. -/
theorem decode_textField (w : Nat) (s : String) :
    Utf8.stripNul (Utf8.decode (textField w s)) = Utf8.stripNul (Utf8.fit s.data w) := by
  rw [textField, List.rightpad, Utf8.decode_take_encode, Utf8.stripNul_append_replicate]

/-- The four fields of a record's bytes, at offsets 0, 20, 24 and 28. -/
theorem slices_fields {a b c d : Bytes} (ha : a.length = 20) (hb : b.length = 4)
    (hc : c.length = 4) (hd : d.length = 15) :
    (a ++ b ++ c ++ d).take 20 = a ∧ ((a ++ b ++ c ++ d).drop 20).take 4 = b ∧
      ((a ++ b ++ c ++ d).drop 24).take 4 = c ∧ ((a ++ b ++ c ++ d).drop 28).take 15 = d := by
  simp only [List.append_assoc]
  refine ⟨List.take_left' ha, ?_, ?_, ?_⟩ <;>
    simp [List.drop_append_eq_append_drop, List.take_append_eq_append_take, ha, hb, hc, hd,
      List.drop_eq_nil_of_le, List.take_of_length_le]

/-! ### The codec law -/

/-- What the store keeps of a record: each text field cut to the longest prefix of whole
characters that fits its width, without trailing NULs, the count, and the price as its nearest
binary32, an infinity past the largest one. -/
def Record.stored (r : Record) : Record :=
  ⟨⟨Utf8.stripNul (Utf8.fit r.name.data 20)⟩, r.count, r.price.throughF32,
    ⟨Utf8.stripNul (Utf8.fit r.category.data 15)⟩⟩

/-- `pack_record` succeeds on every count inside `int`, whatever the price. -/
theorem packRecord_ok {r : Record} (hc : -2 ^ 31 ≤ r.count ∧ r.count < 2 ^ 31) :
    packRecord r = .ok ⟨textField 20 r.name ++ le32 (UInt32.ofNat (r.count % 2 ^ 32).toNat) ++
      le32 r.price.toF32 ++ textField 15 r.category, by simp; rfl⟩ := by
  rw [packRecord, packI32, if_neg (by omega), if_neg (by omega)]
  rfl

/-- The bytes of a packed record: the two text fields around the words `struct.pack` wrote. -/
theorem bytes_of_packRecord {r : Record} {b : Block} (hb : packRecord r = .ok b) :
    ∃ c, packI32 r.count = .ok c ∧
      b.bytes = textField 20 r.name ++ le32 c ++ le32 r.price.toF32 ++ textField 15 r.category := by
  cases hc : packI32 r.count with
  | error e => rw [packRecord, hc] at hb; cases hb
  | ok c =>
    rw [packRecord, hc] at hb
    cases hb
    exact ⟨c, rfl, rfl⟩

/-- Unpacking what `pack_record` wrote gives what the store keeps of the record. -/
theorem unpackRecord_of_packRecord {r : Record} {b : Block} (hb : packRecord r = .ok b) :
    unpackRecord b = r.stored := by
  obtain ⟨c, hc, hbytes⟩ := bytes_of_packRecord hb
  obtain ⟨h₁, h₂, h₃, h₄⟩ := slices_fields (length_textField 20 r.name) (length_le32 c)
    (length_le32 r.price.toF32) (length_textField 15 r.category)
  simp only [unpackRecord, hbytes, h₁, h₂, h₃, h₄, decode_textField, ofLe32_le32,
    unpackI32_of_packI32 hc, Record.stored, PyFloat.throughF32]

/-- The price of the third generated record, `89999.99`, comes back as the nearest binary32,
`89999.9921875`. -/
example : (PyFloat.ofDecimal 8999999 (-2)).throughF32 = PyFloat.ofDecimal 899999921875 (-7) := by
  decide

/-- `pack_record` followed by `unpack_record`, for every record `pack_record` accepts: every count
inside `int` and every price. A text field that fits and does not end in a NUL comes back exactly. -/
theorem unpackRecord_packRecord (r : Record) (hc : -2 ^ 31 ≤ r.count ∧ r.count < 2 ^ 31) :
    ∃ b, packRecord r = .ok b ∧ b.bytes.length = 43 ∧
      unpackRecord b = ⟨⟨Utf8.stripNul (Utf8.fit r.name.data 20)⟩, r.count, r.price.throughF32,
        ⟨Utf8.stripNul (Utf8.fit r.category.data 15)⟩⟩ ∧
      ((Utf8.encode r.name.data).length ≤ 20 → (∀ h, r.name.data.getLast h ≠ Char.ofNat 0) →
        (unpackRecord b).name = r.name) ∧
      ((Utf8.encode r.category.data).length ≤ 15 →
        (∀ h, r.category.data.getLast h ≠ Char.ofNat 0) → (unpackRecord b).category = r.category) := by
  have hb := packRecord_ok hc
  have hun := unpackRecord_of_packRecord hb
  refine ⟨_, hb, Block.length_eq _, hun, fun hw hn => ?_, fun hw hn => ?_⟩
  · rw [hun, Record.stored, Utf8.fit_of_length_le _ _ hw, Utf8.stripNul_of_getLast _ hn]
  · rw [hun, Record.stored, Utf8.fit_of_length_le _ _ hw, Utf8.stripNul_of_getLast _ hn]

/-- The first generated record, `("яблоко", 10, 3.5, "фрукт")`, goes through the codec. -/
theorem unpackRecord_packRecord_apple :
    ∃ b, packRecord ⟨"яблоко", 10, PyFloat.ofDecimal 35 (-1), "фрукт"⟩ = .ok b ∧
      b.bytes.length = 43 ∧
      unpackRecord b = ⟨⟨Utf8.stripNul (Utf8.fit "яблоко".data 20)⟩, 10,
        (PyFloat.ofDecimal 35 (-1)).throughF32, ⟨Utf8.stripNul (Utf8.fit "фрукт".data 15)⟩⟩ ∧
      ((Utf8.encode "яблоко".data).length ≤ 20 → (∀ h, "яблоко".data.getLast h ≠ Char.ofNat 0) →
        (unpackRecord b).name = "яблоко") ∧
      ((Utf8.encode "фрукт".data).length ≤ 15 → (∀ h, "фрукт".data.getLast h ≠ Char.ofNat 0) →
        (unpackRecord b).category = "фрукт") :=
  unpackRecord_packRecord ⟨"яблоко", 10, PyFloat.ofDecimal 35 (-1), "фрукт"⟩ (by decide)

end RecordStore
