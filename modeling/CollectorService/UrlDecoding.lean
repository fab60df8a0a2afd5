import CollectorService.RequestTarget
import Mathlib.Data.List.Find
import Mathlib.Data.List.TakeWhile
import Mathlib.Tactic.IntervalCases

/-!
# Percent encoding, decoded

What `urlDecode` makes of escapes that are none. It leaves them to `std::stoi`, which takes any text
that starts like a number: one digit is enough, and a sign or white space may lead.

* `stoi16_pair`: what `stoi` reads from two bytes.
* `urlDecode_eq_percentDecode_iff`: the strings that are decoded by the grammar.
* `queryParam_pairs`: a query of any length gives every parameter back.
-/

namespace CollectorService.HttpRouter

/-! ## 1. The grammar -/

def hexDigitValue (ch : UInt8) : ℕ := (Json.hexDigit ch).getD 0

/-- Percent decoding by its grammar: an escape is a percent sign with two hexadecimal digits. -/
def percentDecode : Str → Str
  | ch :: a :: b :: rest =>
    if ch = byte '%' ∧ isHexDigit a = true ∧ isHexDigit b = true then
      UInt8.ofNat (16 * hexDigitValue a + hexDigitValue b) :: percentDecode rest
    else plusToSpace ch :: percentDecode (a :: b :: rest)
  | rest => rest.map plusToSpace

/-- Two bytes that are not two hexadecimal digits, and that `stoi` reads a number from: a digit and
something else, or white space or a sign and a digit. -/
def Misread (a b : UInt8) : Prop :=
  isHexDigit a = true ∧ isHexDigit b = false ∨
    (isspace a = true ∨ a = byte '+' ∨ a = byte '-') ∧ isHexDigit b = true

/-! ## 2. What `stoi` reads from two bytes -/

section Pair
variable {a b : UInt8}

theorem not_leads_of_hexDigit : ∀ ch : UInt8, isHexDigit ch = true →
    isspace ch = false ∧ ch ≠ byte '+' ∧ ch ≠ byte '-' :=
  Json.forall_byte (by decide +kernel)

theorem hexDigitValue_lt : ∀ ch : UInt8, hexDigitValue ch < 16 :=
  Json.forall_byte (by decide +kernel)

/-- A digit is a number, and two digits are one. -/
theorem stoi16_digit (ha : isHexDigit a = true) : stoi16 [a, b] =
    some ((if isHexDigit b = true then 16 * hexDigitValue a + hexDigitValue b
      else hexDigitValue a : ℕ) : ℤ) := by
  obtain ⟨hspace, hplus, hminus⟩ := not_leads_of_hexDigit a ha
  have hlt := hexDigitValue_lt a
  have hlt' := hexDigitValue_lt b
  simp only [hexDigitValue] at hlt hlt' ⊢
  cases hb : isHexDigit b
  all_goals
    simp [stoi16, hspace, hplus, hminus, List.takeWhile, ha, hb, hexValue]
    omega

/-- White space or a sign may stand before a digit. -/
theorem stoi16_leads (ha : isspace a = true ∨ a = byte '+' ∨ a = byte '-') : stoi16 [a, b] =
    if isHexDigit b = true then
      some (if a = byte '-' then -(hexDigitValue b : ℤ) else hexDigitValue b)
    else none := by
  have hlt := hexDigitValue_lt b
  have hplusSpace : isspace (byte '+') = false := by decide
  have hminusSpace : isspace (byte '-') = false := by decide
  have hne : byte '+' ≠ byte '-' := by decide
  simp only [hexDigitValue] at hlt ⊢
  rcases ha with ha | rfl | rfl
  · have hminus : a ≠ byte '-' := by
      rintro rfl
      rw [hminusSpace] at ha
      cases ha
    cases hb : isHexDigit b with
    | true =>
      obtain ⟨hspace, hplus', hminus'⟩ := not_leads_of_hexDigit b hb
      simp [stoi16, ha, hspace, hplus', hminus', hminus, List.takeWhile, hb, hexValue]
      omega
    | false =>
      -- what follows the white space starts with no digit
      cases hspace : isspace b with
      | true => simp [stoi16, ha, hspace]
      | false =>
        by_cases hsign : b = byte '-'
        · simp [stoi16, ha, hsign, hminusSpace]
        · by_cases hsign' : b = byte '+'
          · simp [stoi16, ha, hsign', hplusSpace, hne]
          · simp [stoi16, ha, hspace, hsign, hsign', hb]
  · cases hb : isHexDigit b
    all_goals simp [stoi16, hplusSpace, List.takeWhile, hb, hexValue, hne]
    omega
  · cases hb : isHexDigit b
    all_goals simp [stoi16, hminusSpace, List.takeWhile, hb, hexValue]
    omega

theorem stoi16_other (ha : isHexDigit a = false)
    (hleads : ¬ (isspace a = true ∨ a = byte '+' ∨ a = byte '-')) : stoi16 [a, b] = none := by
  simp only [not_or, Bool.not_eq_true] at hleads
  simp [stoi16, hleads, ha]

theorem Misread.not_escape (h : Misread a b) : ¬ (isHexDigit a = true ∧ isHexDigit b = true) := by
  rintro ⟨ha, hb⟩
  rcases h with ⟨-, hb'⟩ | ⟨hleads, -⟩
  · rw [hb] at hb'
    cases hb'
  · obtain ⟨hspace, hplus, hminus⟩ := not_leads_of_hexDigit a ha
    simp [hspace, hplus, hminus] at hleads

/-- Two bytes are an escape, are taken for one, or are left alone. -/
theorem stoi16_pair (a b : UInt8) :
    isHexDigit a = true ∧ isHexDigit b = true ∧
        stoi16 [a, b] = some ((16 * hexDigitValue a + hexDigitValue b : ℕ) : ℤ) ∨
    Misread a b ∧ (∃ n : ℤ, -16 < n ∧ n < 16 ∧ stoi16 [a, b] = some n) ∨
    ¬ (isHexDigit a = true ∧ isHexDigit b = true) ∧ ¬ Misread a b ∧ stoi16 [a, b] = none := by
  have hlt := hexDigitValue_lt a
  have hlt' := hexDigitValue_lt b
  cases ha : isHexDigit a with
  | true =>
    have hstoi := stoi16_digit (b := b) ha
    cases hb : isHexDigit b with
    | true => exact .inl ⟨rfl, rfl, by rw [hstoi, hb, if_pos rfl]⟩
    | false =>
      refine .inr (.inl ⟨.inl ⟨ha, hb⟩, hexDigitValue a, by omega, by omega, ?_⟩)
      rw [hstoi, hb, if_neg (by decide)]
  | false =>
    by_cases hleads : isspace a = true ∨ a = byte '+' ∨ a = byte '-'
    · have hstoi := stoi16_leads (b := b) hleads
      cases hb : isHexDigit b with
      | true =>
        rw [hb, if_pos rfl] at hstoi
        refine .inr (.inl ⟨.inr ⟨hleads, hb⟩, _, ?_, ?_, hstoi⟩)
        · split <;> omega
        · split <;> omega
      | false =>
        rw [hb, if_neg (by decide)] at hstoi
        exact .inr (.inr ⟨by simp, by simp [Misread, ha, hb], hstoi⟩)
    · exact .inr (.inr ⟨by simp, by simp [Misread, ha, hleads], stoi16_other ha hleads⟩)

end Pair

/-! ## 3. The strings that are decoded by the grammar -/

/-- A percent sign stands before two bytes that are misread. -/
def HasMisread (s : Str) : Prop :=
  ∃ before a b after, s = before ++ byte '%' :: a :: b :: after ∧ Misread a b

section Decode
variable {ch a b : UInt8} {s rest : Str}

theorem hasMisread_cons : HasMisread (ch :: s) ↔
    (ch = byte '%' ∧ ∃ a b after, s = a :: b :: after ∧ Misread a b) ∨ HasMisread s := by
  constructor
  · rintro ⟨before, a, b, after, heq, hmisread⟩
    rcases before with _ | ⟨ch', before⟩
    · obtain ⟨rfl, rfl⟩ := List.cons.inj heq
      exact .inl ⟨rfl, a, b, after, rfl, hmisread⟩
    · obtain ⟨rfl, rfl⟩ := List.cons.inj heq
      exact .inr ⟨before, a, b, after, rfl, hmisread⟩
  · rintro (⟨rfl, a, b, after, rfl, hmisread⟩ | ⟨before, a, b, after, rfl, hmisread⟩)
    · exact ⟨[], a, b, after, rfl, hmisread⟩
    · exact ⟨ch :: before, a, b, after, rfl, hmisread⟩

theorem hasMisread_percent : HasMisread (byte '%' :: a :: b :: rest) ↔
    Misread a b ∨ HasMisread (a :: b :: rest) := by
  rw [hasMisread_cons]
  refine or_congr_left ⟨?_, fun h => ⟨rfl, a, b, rest, rfl, h⟩⟩
  rintro ⟨-, a', b', after, heq, hmisread⟩
  simp only [List.cons.injEq] at heq
  obtain ⟨rfl, rfl, -⟩ := heq
  exact hmisread

theorem hasMisread_of_ne (h : ch ≠ byte '%') : HasMisread (ch :: s) ↔ HasMisread s := by
  rw [hasMisread_cons]
  exact or_iff_right fun hpercent => h hpercent.1

/-- A string that is too short for an escape. -/
theorem not_hasMisread_of_length (h : s.length < 3) : ¬ HasMisread s := by
  rintro ⟨before, a, b, after, rfl, -⟩
  simp only [List.length_append, List.length_cons] at h
  omega

theorem percentDecode_escape (ha : isHexDigit a = true) (hb : isHexDigit b = true) (rest : Str) :
    percentDecode (byte '%' :: a :: b :: rest) =
      UInt8.ofNat (16 * hexDigitValue a + hexDigitValue b) :: percentDecode rest := by
  rw [percentDecode, if_pos ⟨rfl, ha, hb⟩]

theorem percentDecode_plain (h : ¬ (ch = byte '%' ∧ isHexDigit a = true ∧ isHexDigit b = true))
    (rest : Str) : percentDecode (ch :: a :: b :: rest) =
      plusToSpace ch :: percentDecode (a :: b :: rest) := by
  rw [percentDecode, if_neg h]

theorem ofInt_natCast (n : ℕ) : UInt8.ofInt n = UInt8.ofNat n := by
  have hmod : ((n : ℤ) % 2 ^ 8).toNat = n % 2 ^ 8 := by omega
  rw [UInt8.ofInt, hmod, ← UInt8.toNat_inj]
  simp

/-- No number below sixteen is the byte of a percent sign. -/
theorem ofInt_ne_percent {n : ℤ} (hlow : -16 < n) (hhigh : n < 16) :
    UInt8.ofInt n ≠ plusToSpace (byte '%') := by
  interval_cases n <;> decide

/-- The decoder follows the grammar exactly on the strings in which no percent sign stands before two
bytes that are misread. -/
theorem urlDecode_eq_percentDecode_iff (s : Str) : urlDecode s = percentDecode s ↔
    ∀ before a b after, s = before ++ byte '%' :: a :: b :: after → ¬ Misread a b := by
  suffices h : urlDecode s = percentDecode s ↔ ¬ HasMisread s by
    rw [h]
    exact ⟨fun hnot before a b after heq hmisread => hnot ⟨before, a, b, after, heq, hmisread⟩,
      fun hall ⟨before, a, b, after, heq, hmisread⟩ => hall before a b after heq hmisread⟩
  induction s using urlDecode.induct with
  | case1 a b rest n hn ih =>
    rw [urlDecode, if_pos rfl, hn, hasMisread_percent]
    rcases stoi16_pair a b with ⟨ha, hb, hstoi⟩ | ⟨hmisread, n', hlow, hhigh, hstoi⟩ |
      ⟨-, -, hstoi⟩
    · -- an escape: neither of its digits is a percent sign
      have hne : ∀ ch : UInt8, isHexDigit ch = true → ch ≠ byte '%' :=
        Json.forall_byte (by decide +kernel)
      have hnot : ¬ Misread a b := fun h => h.not_escape ⟨ha, hb⟩
      rw [hstoi, Option.some.injEq] at hn
      subst hn
      rw [percentDecode_escape ha hb, hasMisread_of_ne (hne a ha), hasMisread_of_ne (hne b hb)]
      show UInt8.ofInt _ :: _ = _ ↔ _
      rw [ofInt_natCast]
      simp [hnot, ih]
    · -- a number that the grammar does not know: the first byte is wrong
      rw [hstoi, Option.some.injEq] at hn
      subst hn
      refine iff_of_false (fun heq => ?_) (fun hnone => hnone (.inl hmisread))
      rw [percentDecode_plain fun h => hmisread.not_escape h.2] at heq
      exact ofInt_ne_percent hlow hhigh (List.cons.inj heq).1
    · rw [hn] at hstoi
      cases hstoi
  | case2 a b rest hn ih =>
    obtain ⟨hplain, hnot⟩ : ¬ (isHexDigit a = true ∧ isHexDigit b = true) ∧ ¬ Misread a b := by
      rcases stoi16_pair a b with ⟨-, -, hstoi⟩ | ⟨-, n, -, -, hstoi⟩ | ⟨hplain, hnot, -⟩
      · rw [hn] at hstoi
        cases hstoi
      · rw [hn] at hstoi
        cases hstoi
      · exact ⟨hplain, hnot⟩
    -- `stoi` throws, so the percent sign is copied
    rw [urlDecode, if_pos rfl, hn, hasMisread_percent, percentDecode_plain fun h => hplain h.2]
    show byte '%' :: _ = byte '%' :: _ ↔ _
    simp [hnot, ih]
  | case3 ch a b rest hne ih =>
    rw [urlDecode, if_neg hne, hasMisread_of_ne hne, percentDecode_plain fun h => hne h.1]
    simp [ih]
  | case4 s hshort =>
    rcases s with _ | ⟨ch, _ | ⟨a, _ | ⟨b, rest⟩⟩⟩
    · exact iff_of_true rfl (not_hasMisread_of_length (by decide))
    · exact iff_of_true rfl (not_hasMisread_of_length (by simp))
    · exact iff_of_true rfl (not_hasMisread_of_length (by simp))
    · exact absurd rfl (hshort ch a b rest)

/-- `%1g` is no escape, and is decoded as one. -/
theorem urlDecode_misread : urlDecode (lit "%1g") = [1] ∧ percentDecode (lit "%1g") = lit "%1g" ∧
    urlDecode (lit "%1g") ≠ percentDecode (lit "%1g") := by
  decide +kernel

end Decode

/-! ## 4. The loop over a query -/

section Loop
variable {key : Str}

/-- The loop of `queryParam`, on what is left of the target at `pos`. -/
def queryLoop (key : Str) (rest : Str) : Str :=
  if rest = [] then []
  else
    let part := rest.takeWhile (· ≠ byte '&')
    if key.isPrefixOf part then urlDecode (part.drop key.length)
    else match _hnext : rest.dropWhile (· ≠ byte '&') with
      | [] => []
      | _ :: next => queryLoop key next
termination_by rest.length
decreasing_by
  have hlength := congrArg List.length
    (List.takeWhile_append_dropWhile (p := (· ≠ byte '&')) (l := rest))
  rw [List.length_append, _hnext, List.length_cons] at hlength
  omega

/-- The first part of a query, and the rest of it. -/
theorem splitOn_amp (rest : Str) : rest.splitOn (byte '&') =
    rest.takeWhile (· ≠ byte '&') :: match rest.dropWhile (· ≠ byte '&') with
      | [] => []
      | _ :: next => next.splitOn (byte '&') := by
  have hpart : byte '&' ∉ rest.takeWhile (· ≠ byte '&') := fun hmem => by
    simpa using List.mem_takeWhile_imp hmem
  have hsplit := List.takeWhile_append_dropWhile (p := (· ≠ byte '&')) (l := rest)
  cases hnext : rest.dropWhile (· ≠ byte '&') with
  | nil =>
    rw [hnext, List.append_nil] at hsplit
    rw [hsplit] at hpart ⊢
    exact List.splitOn_eq_singleton hpart
  | cons ch next =>
    have hch : ch = byte '&' := by
      have hhead := List.head?_dropWhile_not (· ≠ byte '&') rest
      rw [hnext] at hhead
      simpa using hhead
    subst hch
    rw [hnext] at hsplit
    conv_lhs => rw [← hsplit]
    exact List.splitOn_append_cons_self_of_not_mem hpart next

/-- The loop finds the first part that starts with the key. -/
theorem queryLoop_eq (hkey : key ≠ []) (rest : Str) : queryLoop key rest =
    (((rest.splitOn (byte '&')).find? (key.isPrefixOf ·)).map
      fun part => urlDecode (part.drop key.length)).getD [] := by
  induction rest using queryLoop.induct key with
  | case1 =>
    have hnot : key.isPrefixOf [] = false := by
      obtain ⟨ch, key, rfl⟩ := List.exists_cons_of_ne_nil hkey
      rfl
    rw [queryLoop, if_pos rfl]
    simp [hnot]
  | case2 rest hrest part hprefix =>
    rw [queryLoop, if_neg hrest, splitOn_amp, List.find?_cons]
    dsimp only
    rw [if_pos hprefix, hprefix]
    rfl
  | case3 rest hrest part hprefix hnext =>
    rw [queryLoop, if_neg hrest, splitOn_amp, List.find?_cons]
    dsimp only
    rw [if_neg hprefix, Bool.eq_false_iff.mpr hprefix, hnext]
    split
    · rfl
    · next h => cases h
  | case4 rest hrest part hprefix ch next hnext ih =>
    rw [queryLoop, if_neg hrest, splitOn_amp, List.find?_cons]
    dsimp only
    rw [if_neg hprefix, Bool.eq_false_iff.mpr hprefix, hnext]
    split
    · next h => cases h
    · next h =>
      cases h
      exact ih

/-- `queryParam` is its loop. -/
theorem queryParam_eq_loop (target name : Str) : queryParam target name =
    match Search.fromFirst (· = byte '?') target with
    | none => []
    | some rest => queryLoop (name ++ lit "=") rest.tail := by
  have hkey : name ++ lit "=" ≠ [] := List.append_ne_nil_of_right_ne_nil _ (by decide)
  unfold queryParam
  cases Search.fromFirst (· = byte '?') target with
  | none => rfl
  | some rest =>
    simp only [queryLoop_eq hkey]
    cases (rest.tail.splitOn (byte '&')).find? ((name ++ lit "=").isPrefixOf ·) <;> rfl

end Loop

/-! ## 5. Queries of any length -/

section Query
variable {path key : Str} {pairs : List (Str × Str)}

/-- One parameter. -/
def queryPart (pair : Str × Str) : Str := pair.1 ++ lit "=" ++ percentEncode pair.2

/-- A query: its parameters, joined by ampersands. -/
def queryText (pairs : List (Str × Str)) : Str := [byte '&'].intercalate (pairs.map queryPart)

theorem amp_notMem_queryPart {pair : Str × Str} (h : byte '&' ∉ pair.1) :
    byte '&' ∉ queryPart pair := by
  simp only [queryPart, List.mem_append, not_or]
  exact ⟨⟨h, by decide⟩, notMem_percentEncode (by decide) (by decide) pair.2⟩

/-- A parameter starts with a key and an equals sign exactly when the key is its own, also where one
key begins with the other. -/
theorem isPrefixOf_queryPart {pair : Str × Str} (hkey : byte '=' ∉ key) (hpair : byte '=' ∉ pair.1) :
    (key ++ lit "=").isPrefixOf (queryPart pair) = decide (pair.1 = key) := by
  rw [Bool.eq_iff_iff, List.isPrefixOf_iff_prefix, decide_eq_true_iff]
  constructor
  · rintro ⟨rest, heq⟩
    have hequals : lit "=" = [byte '='] := rfl
    rw [queryPart, hequals, List.append_assoc, List.append_assoc, List.singleton_append,
      List.singleton_append] at heq
    have htake := congrArg (List.takeWhile (· ≠ byte '=')) heq
    rw [Search.takeWhile_ne hkey, Search.takeWhile_ne hpair] at htake
    exact htake.symm
  · intro heq
    exact ⟨percentEncode pair.2, by rw [queryPart, heq]⟩

/-- The value of the first pair with a key comes back, whatever bytes it holds and however many pairs
stand before it. -/
theorem queryParam_pairs (hpath : byte '?' ∉ path)
    (hpairs : ∀ pair ∈ pairs, byte '=' ∉ pair.1 ∧ byte '&' ∉ pair.1)
    (hkey : byte '=' ∉ key ∧ byte '&' ∉ key) :
    queryParam (path ++ byte '?' :: queryText pairs) key =
      ((pairs.find? (·.1 = key)).map (·.2)).getD [] ∧
    pathOnly (path ++ byte '?' :: queryText pairs) = path := by
  refine ⟨?_, pathOnly_append hpath _⟩
  rw [queryParam_eq_loop, Search.fromFirst_eq hpath]
  show queryLoop (key ++ lit "=") (queryText pairs) = _
  have hne : key ++ lit "=" ≠ [] := List.append_ne_nil_of_right_ne_nil _ (by decide)
  rw [queryLoop_eq hne]
  rcases hparts : pairs.map queryPart with _ | ⟨part, parts⟩
  · rw [List.map_eq_nil_iff.mp hparts]
    have hnone : (key ++ lit "=").isPrefixOf [] = false := by
      obtain ⟨ch, rest, heq⟩ := List.exists_cons_of_ne_nil hne
      rw [heq]
      rfl
    show (Option.map _ (List.find? _ [[]])).getD [] = []
    rw [List.find?_cons, hnone]
    rfl
  · have hsplit : (queryText pairs).splitOn (byte '&') = pairs.map queryPart := by
      refine List.splitOn_intercalate _ (fun part hpart => ?_) (by simp [hparts])
      obtain ⟨pair, hpair, rfl⟩ := List.mem_map.mp hpart
      exact amp_notMem_queryPart (hpairs pair hpair).2
    have hfind : pairs.find? ((key ++ lit "=").isPrefixOf ∘ queryPart) = pairs.find? (·.1 = key) :=
      List.find?_congr fun pair hpair => isPrefixOf_queryPart hkey.1 (hpairs pair hpair).1
    rw [hsplit, List.find?_map, hfind, Option.map_map]
    cases hpair : pairs.find? (·.1 = key) with
    | none => rfl
    | some pair =>
      have hname : decide (pair.1 = key) = true :=
        List.find?_some (p := fun pair : Str × Str => decide (pair.1 = key)) hpair
      show urlDecode ((queryPart pair).drop (key ++ lit "=").length) = pair.2
      rw [queryPart, of_decide_eq_true hname, List.drop_left, urlDecode_percentEncode]

/-- One key begins with the other; both values hold bytes that are escaped. -/
theorem queryParam_pairs_prefix :
    let pairs := [(lit "name", lit "50% off"), (lit "na", lit "=&\x00"), (lit "na", [])]
    queryParam (lit "/api" ++ byte '?' :: queryText pairs) (lit "na") = lit "=&\x00" ∧
      pathOnly (lit "/api" ++ byte '?' :: queryText pairs) = lit "/api" :=
  @queryParam_pairs (lit "/api") (lit "na") _ (by decide) (by decide) (by decide)

end Query

end CollectorService.HttpRouter
