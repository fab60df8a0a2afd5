import CollectorService.Models
import Mathlib.Data.List.DropRight
import Mathlib.Data.Nat.Digits.Defs
import Mathlib.Data.Rat.Floor
import Mathlib.Data.Int.Log
import Mathlib.Tactic.IntervalCases

/-!
# Numbers in texts

`std::stod`, which reads a `double`, and what `std::to_string` and a stream write for the numbers of
the service. A `double` is rounded to the nearest one when it is read.
-/

namespace CollectorService

/-! ## 1. Reading -/

/-- The nearest integer, and the even one of two nearest. -/
def roundHalfEven (q : ℚ) : ℤ :=
  if q - ⌊q⌋ < 1 / 2 ∨ q - ⌊q⌋ = 1 / 2 ∧ ⌊q⌋ % 2 = 0 then ⌊q⌋ else ⌊q⌋ + 1

/-- The nearest `double`. There is none beyond the range, and below the normal numbers only exact
values count (`ERANGE`). -/
def roundDouble (q : ℚ) : Option ℚ :=
  if q = 0 then some 0
  else
    let exponent := Int.log 2 |q|
    let unit : ℚ := 2 ^ max (exponent - 52) (-1074)
    let rounded := roundHalfEven (q / unit) * unit
    if 2 ^ 1024 ≤ |rounded| ∨ exponent < -1022 ∧ rounded ≠ q then none else some rounded

/-- The exponent that `strtod` reads, which is none without a digit. -/
def decimalExponent (text : Str) : ℤ :=
  match text with
  | e :: rest =>
    if e = byte 'e' ∨ e = byte 'E' then
      match rest with
      | ch :: digits =>
        if ch = byte '-' then -(digitsValue (digits.takeWhile isDigit) : ℤ)
        else if ch = byte '+' then digitsValue (digits.takeWhile isDigit)
        else digitsValue (rest.takeWhile isDigit)
      | [] => 0
    else 0
  | [] => 0

/-- `std::stod` for a text of the characters of decimal numbers; `none` where it throws. -/
def stod (text : Str) : Option Double :=
  let (negative, body) := match text with
    | ch :: rest => if ch = byte '-' then (true, rest) else if ch = byte '+' then (false, rest)
        else (false, text)
    | [] => (false, text)
  let whole := body.takeWhile isDigit
  let rest := body.dropWhile isDigit
  let (fraction, rest) := match rest with
    | ch :: digits => if ch = byte '.' then (digits.takeWhile isDigit, digits.dropWhile isDigit)
        else ([], rest)
    | [] => ([], rest)
  if whole = [] ∧ fraction = [] then none
  else
    let scale : ℚ := 10 ^ (decimalExponent rest - fraction.length)
    let value := digitsValue (whole ++ fraction) * scale
    (roundDouble (if negative then -value else value)).map Double.ofRat

/-! ## 2. Writing -/

/-- The digits of a number in base ten. -/
def decimalNat (n : ℕ) : Str :=
  if n = 0 then [byte '0'] else (Nat.digits 10 n).reverse.map fun d => byte '0' + UInt8.ofNat d

/-- `std::to_string` of an integer. -/
def decimal (n : ℤ) : Str :=
  if n < 0 then byte '-' :: decimalNat n.natAbs else decimalNat n.natAbs

/-- The digits of a number, filled up with zeros on the left. -/
def paddedNat (width n : ℕ) : Str :=
  List.replicate (width - (decimalNat n).length) (byte '0') ++ decimalNat n

/-- `std::to_string` of a `double`: six digits behind the point, rounded half to even. -/
def fixed : Double → Str
  | .nan => lit "nan"
  | .number none => lit "-inf"
  | .number (some none) => lit "inf"
  | .number (some (some q)) =>
    let millionths := (roundHalfEven (|q| * 10 ^ 6)).toNat
    (if q < 0 then [byte '-'] else []) ++ decimalNat (millionths / 10 ^ 6) ++ lit "." ++
      paddedNat 6 (millionths % 10 ^ 6)

theorem isDigit_decimalNat {n : ℕ} : ∀ ch ∈ decimalNat n, isDigit ch = true := by
  unfold decimalNat
  split
  · simp [isDigit]
    decide
  · intro ch hch
    obtain ⟨d, hd, rfl⟩ := List.mem_map.mp hch
    have hlt : d < 10 := Nat.digits_lt_base (by decide) (List.mem_reverse.mp hd)
    interval_cases d <;> decide

/-- The characters that `fixed` writes. -/
def isFixedChar (ch : UInt8) : Bool := isDigit ch || (lit "-.naif").contains ch

theorem isFixedChar_fixed (x : Double) : ∀ ch ∈ fixed x, isFixedChar ch = true := by
  have hdigits {n : ℕ} : ∀ ch ∈ decimalNat n, isFixedChar ch = true := fun ch hch => by
    rw [isFixedChar, isDigit_decimalNat ch hch, Bool.true_or]
  unfold fixed
  split
  · decide
  · decide
  · decide
  · intro ch hch
    simp only [paddedNat, List.mem_append] at hch
    rcases hch with ((hch | hch) | hch) | hch | hch
    · split at hch
      · cases List.mem_singleton.mp hch
        decide
      · cases hch
    · exact hdigits ch hch
    · cases List.mem_singleton.mp hch
      decide
    · rw [List.eq_of_mem_replicate hch]
      decide
    · exact hdigits ch hch

example : decimal (-9001) = lit "-9001" := by decide

/-! ## 3. Streams -/

/-- The six significant digits of a positive number, as an integer, and the exponent of the first. -/
def significant (q : ℚ) : ℕ × ℤ :=
  let exponent := Int.log 10 q
  let rounded := (roundHalfEven (q / 10 ^ (exponent - 5))).toNat
  if rounded = 10 ^ 6 then (10 ^ 5, exponent + 1) else (rounded, exponent)

def dropZeros (digits : Str) : Str := digits.rdropWhile (· = byte '0')

/-- The digits behind the point, and the point, unless all of them are zeros. -/
def fractionText (digits : Str) : Str :=
  if dropZeros digits = [] then [] else byte '.' :: dropZeros digits

/-- How a number with these six digits and this exponent is written. -/
def generalText (digits : Str) (exponent : ℤ) : Str :=
  if exponent < -4 ∨ 6 ≤ exponent then
    digits.take 1 ++ fractionText (digits.drop 1) ++
      (if exponent < 0 then lit "e-" else lit "e+") ++ paddedNat 2 exponent.natAbs
  else if exponent < 0 then
    lit "0" ++ fractionText (List.replicate (exponent.natAbs - 1) (byte '0') ++ digits)
  else digits.take (exponent.toNat + 1) ++ fractionText (digits.drop (exponent.toNat + 1))

/-- What a default stream writes for a `double`: `%g`, with six significant digits. -/
def general : Double → Str
  | .nan => lit "nan"
  | .number none => lit "-inf"
  | .number (some none) => lit "inf"
  | .number (some (some q)) =>
    if q = 0 then lit "0"
    else
      let (digits, exponent) := significant |q|
      (if q < 0 then [byte '-'] else []) ++ generalText (decimalNat digits) exponent

example : general (.ofRat 1700000123) = lit "1.7e+09" := by decide +kernel
example : general (.ofRat (-25 / 1000)) = lit "-0.025" := by decide +kernel

end CollectorService
