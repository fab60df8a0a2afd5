import CollectorService.Search
import Mathlib.Algebra.Group.Int.Defs

/-!
# Strings of the service

A `std::string` is the list of its bytes. This module holds what several parts of the service read
and write in such a string: literals, the text searches that both hand-written JSON readers share,
and `std::stoi`.
-/

namespace CollectorService

/-- A `std::string`: its bytes. -/
abbrev Str := List UInt8

/-- The byte of an ASCII character. -/
def byte (c : Char) : UInt8 := UInt8.ofNat c.toNat

/-- The bytes of a string literal of the source. -/
def lit (s : String) : Str := s.toByteArray.data.toList

/-- `"\"" + value + "\""`. -/
def quoted (value : Str) : Str := byte '"' :: (value ++ [byte '"'])

/-- `std::isspace` in the C locale. -/
def isspace (ch : UInt8) : Bool :=
  ch = byte ' ' || ch = byte '\t' || ch = byte '\n' || ch = 11 || ch = 12 || ch = byte '\r'

/-- A decimal digit. -/
def isDigit (ch : UInt8) : Bool := byte '0' ≤ ch && ch ≤ byte '9'

/-- The number that a list of digits writes in base ten. -/
def digitsValue (digits : Str) : ℕ :=
  digits.foldl (fun n ch => 10 * n + (ch - byte '0').toNat) 0

/-- `std::stoi`: leading white space, an optional sign and the longest run of digits. It throws
without a digit and on a value outside `int`. -/
def stoi (text : Str) : Except Str Int :=
  let body := text.dropWhile isspace
  let (negative, rest) := match body with
    | ch :: rest => if ch = byte '-' then (true, rest) else if ch = byte '+' then (false, rest)
        else (false, body)
    | [] => (false, body)
  let digits := rest.takeWhile isDigit
  let value : Int := if negative then -(digitsValue digits : Int) else digitsValue digits
  if digits.isEmpty then .error (lit "stoi")
  else if -2 ^ 31 ≤ value ∧ value < 2 ^ 31 then .ok value
  else .error (lit "stoi")

/-- The value of a string whose opening quote has been read: a backslash takes the next byte as it
is, and without a closing quote there is no value. -/
def scanString : (escaped : Bool) → Str → Option Str
  | _, [] => none
  | true, ch :: rest => (scanString false rest).map (ch :: ·)
  | false, ch :: rest =>
    if ch = byte '\\' then scanString true rest
    else if ch = byte '"' then some []
    else (scanString false rest).map (ch :: ·)

/-- `extractStringField`: the string after the first quote after the first colon after the first
occurrence of the quoted field name, or the empty string. -/
def extractStringField (text fieldName : Str) : Str :=
  match Search.afterFirst (quoted fieldName) text with
  | none => []
  | some rest => match Search.fromFirst (· = byte ':') rest with
    | none => []
    | some rest => match Search.fromFirst (· = byte '"') rest with
      | none => []
      | some rest => (scanString false rest.tail).getD []

/-- `hasField`: the quoted field name occurs anywhere in the text. -/
def hasField (text fieldName : Str) : Bool :=
  (Search.afterFirst (quoted fieldName) text).isSome

/-- The characters of an integer, as `find_first_of("-0123456789")` knows them. -/
def isIntChar (ch : UInt8) : Bool := ch = byte '-' || isDigit ch

/-- `extractIntField`: the integer at the first digit or minus sign after the first colon after the
first occurrence of the quoted field name. -/
def extractIntField (text fieldName : Str) (fallback : Int) : Except Str Int :=
  match Search.afterFirst (quoted fieldName) text with
  | none => .ok fallback
  | some rest => match Search.fromFirst (· = byte ':') rest with
    | none => .ok fallback
    | some rest => match Search.fromFirst isIntChar rest.tail with
      | none => .ok fallback
      | some rest => stoi (rest.takeWhile isIntChar)

example : extractStringField (lit "\x7b\"mid\" : \"a\\\"b\"\x7d") (lit "mid") = lit "a\"b" := by decide
example : extractIntField (lit "\x7b\"Port\":9001\x7d") (lit "Port") 0 = .ok 9001 := by decide

end CollectorService
