import RecordStore.PyFloat
import Mathlib.Data.List.DropRight

/-!
# `str.strip`, `int(s)` and `float(s)`

The three Python built-ins the store applies to operator input. `str.strip` removes the
characters of `Py_UNICODE_ISSPACE`. `int` and `float` do not use that set. They first pass a `str`
through `_PyUnicode_TransformDecimalAndSpaceToASCII`: in a string that is not all ASCII, every
other whitespace character becomes a space, every Unicode decimal digit its ASCII digit, and any
other character a `?` that ends the text. They then strip `Py_ISSPACE`, the six ASCII whitespace
characters, from both ends (`numberText`), so the separators U+001C–U+001F, which `str.strip`
removes, make both fail. What is left is read by the literal grammar of the language reference:
an optional sign, then digits with single underscores between them (`digitpart`), for `float`
with an optional fraction and exponent, or `inf`, `infinity`, `nan` in any case.

Python's character database changes with its version; the tables here are Unicode 15.0, that of
CPython 3.12 and 3.13.
-/

namespace RecordStore

/-- `Py_UNICODE_ISSPACE`. -/
def pyIsSpace (c : Char) : Bool :=
  let n := c.toNat
  (0x09 ≤ n && n ≤ 0x0D) || (0x1C ≤ n && n ≤ 0x20) || n == 0x85 || n == 0xA0 || n == 0x1680 ||
    (0x2000 ≤ n && n ≤ 0x200A) || n == 0x2028 || n == 0x2029 || n == 0x202F || n == 0x205F ||
    n == 0x3000

/-- `s.strip()`. -/
def pyStrip (s : String) : String := ⟨(s.data.dropWhile pyIsSpace).rdropWhile pyIsSpace⟩

/-- `Py_ISSPACE`: the ASCII whitespace of C's `isspace`. -/
def pyIsAsciiSpace (c : Char) : Bool := c = ' ' || ('\t' ≤ c && c ≤ '\r')

/-- The first code point of each run of ten decimal digits, 0 to 9 (Unicode category `Nd`). -/
def decimalZeros : List Nat :=
  [0x30, 0x660, 0x6F0, 0x7C0, 0x966, 0x9E6, 0xA66, 0xAE6, 0xB66, 0xBE6, 0xC66, 0xCE6, 0xD66,
    0xDE6, 0xE50, 0xED0, 0xF20, 0x1040, 0x1090, 0x17E0, 0x1810, 0x1946, 0x19D0, 0x1A80, 0x1A90,
    0x1B50, 0x1BB0, 0x1C40, 0x1C50, 0xA620, 0xA8D0, 0xA900, 0xA9D0, 0xA9F0, 0xAA50, 0xABF0,
    0xFF10, 0x104A0, 0x10D30, 0x11066, 0x110F0, 0x11136, 0x111D0, 0x112F0, 0x11450, 0x114D0,
    0x11650, 0x116C0, 0x11730, 0x118E0, 0x11950, 0x11C50, 0x11D50, 0x11DA0, 0x11F50, 0x16A60,
    0x16AC0, 0x16B50, 0x1D7CE, 0x1D7D8, 0x1D7E2, 0x1D7EC, 0x1D7F6, 0x1E140, 0x1E2F0, 0x1E4F0,
    0x1E950, 0x1FBF0]

/-- `Py_UNICODE_TODECIMAL`: the value of a decimal digit, none for any other character. -/
def toDecimal (c : Char) : Option Nat :=
  (decimalZeros.find? fun z => z ≤ c.toNat && c.toNat < z + 10).map (c.toNat - ·)

/-- The loop of `_PyUnicode_TransformDecimalAndSpaceToASCII`: a character below 127 stays,
whitespace becomes a space and a decimal digit its ASCII digit; any other character becomes `?`
and ends the text. -/
def transformAux : List Char → List Char
  | [] => []
  | c :: cs =>
    if c.toNat < 127 then c :: transformAux cs
    else if pyIsSpace c then ' ' :: transformAux cs
    else match toDecimal c with
      | some d => Char.ofNat (0x30 + d) :: transformAux cs
      | none => ['?']

/-- `_PyUnicode_TransformDecimalAndSpaceToASCII`: an ASCII string is returned as it is. -/
def transformDecimalAndSpace (cs : List Char) : List Char :=
  if cs.all (·.toNat < 128) then cs else transformAux cs

/-- The text `int(s)` and `float(s)` read: `s` transformed, then stripped of `Py_ISSPACE` at both
ends. -/
def numberText (s : String) : List Char :=
  ((transformDecimalAndSpace s.data).dropWhile pyIsAsciiSpace).rdropWhile pyIsAsciiSpace

def isDigit (c : Char) : Bool := '0' ≤ c && c ≤ '9'

def digitVal (c : Char) : Nat := c.toNat - '0'.toNat

/-- After the first digit of a `digitpart`: digits, each possibly after one underscore. -/
def digitTail : List Char → Option (List Nat)
  | [] => some []
  | '_' :: c :: cs => if isDigit c then (digitTail cs).map (digitVal c :: ·) else none
  | c :: cs => if isDigit c then (digitTail cs).map (digitVal c :: ·) else none

/-- A `digitpart`: a digit, then `digitTail`. The digits' values, or none. -/
def digitPart : List Char → Option (List Nat)
  | [] => none
  | c :: cs => if isDigit c then (digitTail cs).map (digitVal c :: ·) else none

/-- The number the decimal digits `ds` spell. -/
def digitsValue (ds : List Nat) : Nat := ds.foldl (fun a d => 10 * a + d) 0

/-- An optional leading sign: whether it is `-`, and the rest. -/
def splitSign : List Char → Bool × List Char
  | '-' :: cs => (true, cs)
  | '+' :: cs => (false, cs)
  | cs => (false, cs)

/-- `int(s)` on a `str`; `none` is its `ValueError`. CPython also refuses more than 4300
digits (`sys.int_info.default_max_str_digits`). -/
def pyInt (s : String) : Option Int :=
  let (neg, body) := splitSign (numberText s)
  match digitPart body with
  | some ds =>
    if ds.length ≤ 4300 then some (if neg then -(digitsValue ds : Int) else digitsValue ds)
    else none
  | none => none

/-- A decimal float literal without its sign: `m` and `e` with value `m * 10 ^ e`. -/
def decimalLiteral (cs : List Char) : Option (Nat × Int) :=
  let (mant, ex) := cs.span fun c => c ≠ 'e' ∧ c ≠ 'E'
  let exp : Option Int := match ex with
    | [] => some 0
    | _ :: es =>
      let (neg, body) := splitSign es
      (digitPart body).map fun ds => if neg then -(digitsValue ds : Int) else digitsValue ds
  let (ip, fp) := mant.span (· ≠ '.')
  let whole : Option (List Nat) := if ip = [] then some [] else digitPart ip
  let frac : Option (List Nat) := match fp with
    | [] => some []
    | _ :: f => if f = [] then some [] else digitPart f
  match whole, frac, exp with
  | some a, some b, some e =>
    if a = [] ∧ b = [] then none else some (digitsValue (a ++ b), e - b.length)
  | _, _, _ => none

/-- `float(s)` on a `str` without its sign. -/
def floatBody (cs : List Char) : Option PyFloat :=
  let lower := cs.map Char.toLower
  if lower = "inf".data ∨ lower = "infinity".data then some PyFloat.inf
  else if lower = "nan".data then some PyFloat.nan
  else (decimalLiteral cs).map fun (m, e) => PyFloat.ofDecimal m e

/-- `float(s)` on a `str`; `none` is its `ValueError`. -/
def pyFloat (s : String) : Option PyFloat :=
  let (neg, body) := splitSign (numberText s)
  (floatBody body).map fun x => if neg then x.negate else x

end RecordStore
