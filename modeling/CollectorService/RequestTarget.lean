import CollectorService.Json
import CollectorService.Text

/-!
# Request targets

The path and the query of a request target, as `HttpRouter` takes them apart, and the percent
encoding that a client writes them with.

* `urlDecode_percentEncode`: every byte string survives the encoding.
* `queryParam_single`: and the way through a query of one parameter.
-/

namespace CollectorService.HttpRouter

/-! ## 1. Reading -/

def isHexDigit (ch : UInt8) : Bool := (Json.hexDigit ch).isSome

/-- The number that a list of hexadecimal digits writes. -/
def hexValue (digits : Str) : ℕ :=
  digits.foldl (fun n ch => 16 * n + (Json.hexDigit ch).getD 0) 0

/-- `std::stoi(text, nullptr, 16)`; `none` where it throws. White space, a sign and `0x` may lead. -/
def stoi16 (text : Str) : Option ℤ :=
  let body := text.dropWhile isspace
  let (negative, rest) := match body with
    | ch :: rest => if ch = byte '-' then (true, rest) else if ch = byte '+' then (false, rest)
        else (false, body)
    | [] => (false, body)
  let rest := match rest with
    | zero :: x :: digit :: _ =>
      if zero = byte '0' ∧ (x = byte 'x' ∨ x = byte 'X') ∧ isHexDigit digit then rest.drop 2
      else rest
    | _ => rest
  let digits := rest.takeWhile isHexDigit
  let value : ℤ := if negative then -(hexValue digits : ℤ) else hexValue digits
  if digits.isEmpty then none
  else if -2 ^ 31 ≤ value ∧ value < 2 ^ 31 then some value
  else none

/-- A plus sign stands for a space. -/
def plusToSpace (ch : UInt8) : UInt8 := if ch = byte '+' then byte ' ' else ch

def urlDecode : Str → Str
  | ch :: a :: b :: rest =>
    if ch = byte '%' then
      match stoi16 [a, b] with
      | some n => UInt8.ofInt n :: urlDecode rest
      | none => ch :: urlDecode (a :: b :: rest)
    else plusToSpace ch :: urlDecode (a :: b :: rest)
  -- no two bytes follow a percent sign
  | rest => rest.map plusToSpace

def pathOnly (target : Str) : Str := target.takeWhile (· ≠ byte '?')

/-- `queryParam`: the value of the first part of the query that starts with the name and an equals
sign. A query that ends with `&` has an empty last part here, which starts with no key. -/
def queryParam (target name : Str) : Str :=
  match Search.fromFirst (· = byte '?') target with
  | none => []
  | some rest =>
    let key := name ++ lit "="
    match (rest.tail.splitOn (byte '&')).find? (key.isPrefixOf ·) with
    | some part => urlDecode (part.drop key.length)
    | none => []

/-- `betweenPath`: what stands between the start and the end of a path. -/
def betweenPath (path start ending : Str) : Str :=
  if ¬ start <+: path ∨ path.length < start.length + ending.length then []
  else if ¬ ending <:+ path then []
  else urlDecode ((path.drop start.length).take (path.length - start.length - ending.length))

/-! ## 2. Percent encoding -/

/-- Letters, digits and `-._~`. -/
def isUnreserved (ch : UInt8) : Bool :=
  isDigit ch || (byte 'a' ≤ ch && ch ≤ byte 'z') || (byte 'A' ≤ ch && ch ≤ byte 'Z') ||
    (lit "-._~").contains ch

/-- A hexadecimal digit. -/
def hexChar (n : ℕ) : UInt8 :=
  if n < 10 then byte '0' + UInt8.ofNat n else byte 'A' + UInt8.ofNat (n - 10)

def percentByte (ch : UInt8) : Str :=
  if isUnreserved ch then [ch] else [byte '%', hexChar (ch.toNat / 16), hexChar (ch.toNat % 16)]

def percentEncode (value : Str) : Str := value.flatMap percentByte

section Encode
variable {ch : UInt8} {value rest path name : Str}

/-- Two digits write a byte. -/
theorem stoi16_hexChar (ch : UInt8) :
    (stoi16 [hexChar (ch.toNat / 16), hexChar (ch.toNat % 16)]).map UInt8.ofInt = some ch :=
  Json.forall_byte (P := fun ch =>
    (stoi16 [hexChar (ch.toNat / 16), hexChar (ch.toNat % 16)]).map UInt8.ofInt = some ch)
    (by decide +kernel) ch

theorem urlDecode_cons_of_ne (h : ch ≠ byte '%') (rest : Str) :
    urlDecode (ch :: rest) = plusToSpace ch :: urlDecode rest := by
  match rest with
  | [] | [_] => rfl
  | a :: b :: rest => rw [urlDecode, if_neg h]

theorem isUnreserved_ne {c : UInt8} (hc : isUnreserved c = false) (h : isUnreserved ch = true) :
    ch ≠ c := fun heq => by
  rw [heq, hc] at h
  cases h

/-- Every byte string survives the encoding. -/
theorem urlDecode_percentEncode (value : Str) : urlDecode (percentEncode value) = value := by
  induction value with
  | nil => rfl
  | cons ch value ih =>
    rw [percentEncode, List.flatMap_cons, ← percentEncode]
    unfold percentByte
    split
    · next h =>
      have hplus : plusToSpace ch = ch := if_neg (isUnreserved_ne (by decide) h)
      rw [List.singleton_append, urlDecode_cons_of_ne (isUnreserved_ne (by decide) h), hplus, ih]
    · obtain ⟨n, hn, hch⟩ := Option.map_eq_some_iff.mp (stoi16_hexChar ch)
      rw [List.cons_append, List.cons_append, List.singleton_append, urlDecode, if_pos rfl, hn, ih]
      simp only [hch]

/-- The encoding writes no separator. -/
theorem notMem_percentEncode {c : UInt8} (hc : isUnreserved c = false) (hpercent : c ≠ byte '%')
    (value : Str) : c ∉ percentEncode value := by
  have hhex : ∀ n : Fin 16, isUnreserved (hexChar n.val) = true := by decide
  have hne {n : ℕ} (hn : n < 16) : hexChar n ≠ c := isUnreserved_ne hc (hhex ⟨n, hn⟩)
  intro hmem
  obtain ⟨ch, -, hin⟩ := List.mem_flatMap.mp hmem
  unfold percentByte at hin
  split at hin
  · next h => exact isUnreserved_ne hc h (List.mem_singleton.mp hin).symm
  · have hlt := ch.toNat_lt
    simp only [List.mem_cons, List.not_mem_nil, or_false] at hin
    rcases hin with h | h | h
    · exact hpercent h
    · exact hne (by omega) h.symm
    · exact hne (by omega) h.symm

theorem pathOnly_append (hpath : byte '?' ∉ path) (rest : Str) :
    pathOnly (path ++ byte '?' :: rest) = path := Search.takeWhile_ne hpath

/-- The parameter of a query that has one. -/
theorem queryParam_single (hpath : byte '?' ∉ path) (hname : byte '&' ∉ name) (value : Str) :
    queryParam (path ++ byte '?' :: (name ++ lit "=" ++ percentEncode value)) name = value := by
  have hpart : byte '&' ∉ name ++ lit "=" ++ percentEncode value := by
    simp only [List.mem_append, not_or]
    exact ⟨⟨hname, by decide⟩, notMem_percentEncode (by decide) (by decide) value⟩
  have hkey : (name ++ lit "=").isPrefixOf (name ++ lit "=" ++ percentEncode value) = true :=
    List.isPrefixOf_iff_prefix.mpr (List.prefix_append _ _)
  unfold queryParam
  rw [Search.fromFirst_eq hpath]
  simp only [List.tail_cons, List.splitOn_eq_singleton hpart, List.find?_cons, hkey, List.drop_left,
    urlDecode_percentEncode]

end Encode

example : queryParam (lit "/status?a=1&device=A%2Fb+c%0") (lit "device") = lit "A/b c%0" := by
  decide +kernel

end CollectorService.HttpRouter
