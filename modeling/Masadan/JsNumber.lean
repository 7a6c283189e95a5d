import Mathlib.Data.Rat.Floor
import Masadan.Schema

/-!
# JavaScript's numbers, as far as they are read from text

A number is a double: what is finite is kept exactly, as a rational. `Number(text)` goes by
the grammar of a numeric string, which takes an exact value from the text, and rounds that
to the nearest double.
-/

namespace Masadan

/-- **A JavaScript number.** The two zeros are one here. -/
inductive JsNumber where
  | nan
  | infinity (negative : Bool)
  | finite (q : ℚ)
  deriving DecidableEq

namespace JsNumber

/-! ## Doubles -/

/-- Two to an integral power. -/
def pow2 : ℤ → ℚ
  | .ofNat n => mkRat (2 ^ n) 1
  | .negSucc n => mkRat 1 (2 ^ (n + 1))

/-- The exponent of the greatest power of two up to a positive rational. -/
def log2 (q : ℚ) : ℤ :=
  let e : ℤ := q.num.natAbs.log2 - q.den.log2
  if pow2 e ≤ q then e else e - 1

/-- The nearest integer, and of two that are as near the even one. -/
def roundEven (q : ℚ) : ℤ :=
  let k := q.floor
  let rest := q - k
  if rest < mkRat 1 2 ∨ (rest = mkRat 1 2 ∧ k % 2 = 0) then k else k + 1

/-- The nearest number of 53 binary places, none of them below the smallest there is. -/
def nearest (q : ℚ) : ℚ :=
  if q = 0 then 0
  else
    let size := if q < 0 then -q else q
    let ulp := pow2 (max (log2 size - 52) (-1074))
    let rounded := roundEven (size / ulp) * ulp
    if q < 0 then -rounded else rounded

/-- **The nearest double**: beyond the greatest exponent lies infinity. -/
def ofRat (q : ℚ) : JsNumber :=
  let r := nearest q
  if pow2 1024 ≤ r ∨ r ≤ -pow2 1024 then .infinity (decide (q < 0)) else .finite r

/-! ## The grammar of a numeric string -/

def isDigit (u : UInt16) : Bool := 0x30 ≤ u && u ≤ 0x39

/-- The value of a digit, up to base sixteen. -/
def digit (u : UInt16) : ℕ :=
  if isDigit u then u.toNat - 0x30
  else if 0x61 ≤ u then u.toNat - 0x61 + 10
  else u.toNat - 0x41 + 10

/-- The value of a sequence of digits. -/
def digits (base : ℕ) (s : Text) : ℕ := s.foldl (fun value u => value * base + digit u) 0

/-- The power of ten in front of which a number stands: none, or `e` and an integer. -/
def exponentPart : Text → Option ℤ
  | [] => some 0
  | e :: rest =>
    if e = 0x65 ∨ e = 0x45 then
      let (negative, ds) := match rest with
        | 0x2b :: ds => (false, ds)
        | 0x2d :: ds => (true, ds)
        | ds => (false, ds)
      if ds ≠ [] ∧ List.all ds isDigit then
        some (if negative then -(digits 10 ds : ℤ) else digits 10 ds)
      else none
    else none

/-- Digits, a point among them or not, and an exponent. -/
def unsignedDecimal (s : Text) : Option ℚ :=
  let (whole, rest) := s.span isDigit
  let (fraction, rest) := match rest with
    | 0x2e :: rest => rest.span isDigit
    | rest => ([], rest)
  if whole = [] ∧ fraction = [] then none
  else
    (exponentPart rest).map (fun exponent =>
      let power : ℤ := exponent - fraction.length
      let value := digits 10 (whole ++ fraction)
      if power < 0 then mkRat value (10 ^ power.natAbs) else mkRat (value * 10 ^ power.natAbs) 1)

/-- A decimal number, or infinity. -/
def unsigned (negative : Bool) (s : Text) : JsNumber :=
  if s = text "Infinity" then .infinity negative
  else
    match unsignedDecimal s with
    | none => .nan
    | some q => ofRat (if negative then -q else q)

/-- Digits of a base that is not ten. -/
def inBase (base : ℕ) (allowed : UInt16 → Bool) (s : Text) : JsNumber :=
  if s ≠ [] ∧ List.all s allowed then ofRat (digits base s) else .nan

def isHexDigit (u : UInt16) : Bool :=
  isDigit u || (0x61 ≤ u && u ≤ 0x66) || (0x41 ≤ u && u ≤ 0x46)

/-- **`Number(s)`.** White space around the number is nothing, and nothing is zero. -/
def ofText (s : Text) : JsNumber :=
  match s.trim with
  | [] => .finite 0
  | 0x30 :: 0x78 :: ds | 0x30 :: 0x58 :: ds => inBase 16 isHexDigit ds
  | 0x30 :: 0x6f :: ds | 0x30 :: 0x4f :: ds => inBase 8 (fun u => 0x30 ≤ u && u ≤ 0x37) ds
  | 0x30 :: 0x62 :: ds | 0x30 :: 0x42 :: ds => inBase 2 (fun u => 0x30 ≤ u && u ≤ 0x31) ds
  | 0x2b :: rest => unsigned false rest
  | 0x2d :: rest => unsigned true rest
  | rest => unsigned false rest

/-- `Number(raw)` of a query parameter: one that is absent is `null`, which is zero. -/
def ofParam : Option Text → JsNumber
  | none => .finite 0
  | some s => ofText s

end JsNumber

end Masadan
