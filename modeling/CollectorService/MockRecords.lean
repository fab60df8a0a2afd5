import CollectorService.QueryRoundTrip
import CollectorService.Timestamps

/-!
# The records of the mock driver

The mock driver writes the time of its clock with six digits behind the point, and the parser reads
the number back as a `double`. With it every field of a record is known.

* `stod_fixed`: what is read from the text of a time.
* `roundDouble_mono`: a later time is not read as an earlier one.
* `recordOf_pathObject`: the record that is read from the object of a path.
* `processResponse_mockRecords`: the records that are read from an answer.
-/

namespace CollectorService

open QueryRoundTrip

/-! ## 1. Rounding keeps the order -/

section Rounding
variable {p q a b : ℚ}

theorem roundHalfEven_mono (h : p ≤ q) : roundHalfEven p ≤ roundHalfEven q := by
  have hfloor : ⌊p⌋ ≤ ⌊q⌋ := Int.floor_le_floor h
  unfold roundHalfEven
  rcases hfloor.eq_or_lt with heq | hlt
  · rw [heq]
    split
    · split <;> omega
    · next hup =>
      rw [if_neg]
      rintro (hdown | ⟨hdown, heven⟩)
      · exact hup (.inl (by linarith))
      · rcases (not_lt.mp fun hlt => hup (.inl hlt)).eq_or_lt with hhalf | hhalf
        · exact hup (.inr ⟨hhalf.symm, heven⟩)
        · linarith
  · split <;> split <;> omega

/-- The exponent of the last bit of a `double`. -/
def lastBit (q : ℚ) : ℤ := max (Int.log 2 |q| - 52) (-1074)

/-- A number that is rounded to a `double` is exact or rounded to a multiple of its last bit. -/
theorem roundDouble_eq_some (hq : 0 < q) (h : roundDouble q = some a) :
    a = roundHalfEven (q / 2 ^ lastBit q) * 2 ^ lastBit q ∧ (Int.log 2 q < -1022 → a = q) := by
  rw [roundDouble, if_neg hq.ne'] at h
  dsimp only at h
  split at h
  · cases h
  · next hrange =>
    cases h
    refine ⟨rfl, fun hsmall => ?_⟩
    by_contra hne
    rw [abs_of_pos hq] at hrange hne
    exact hrange (.inr ⟨hsmall, hne⟩)

theorem roundHalfEven_pow {e u : ℤ} (h : u ≤ e) :
    (roundHalfEven (2 ^ e / 2 ^ u) : ℚ) * 2 ^ u = 2 ^ e := by
  obtain ⟨k, rfl⟩ : ∃ k : ℕ, e = u + k := ⟨(e - u).toNat, by omega⟩
  have hpow : (2 : ℚ) ^ (u + k : ℤ) / 2 ^ u = ((2 ^ k : ℤ) : ℚ) := by
    rw [zpow_add₀ two_ne_zero, mul_div_cancel_left₀ _ (zpow_ne_zero _ two_ne_zero), zpow_natCast]
    push_cast
    rfl
  rw [hpow, roundHalfEven_intCast, ← hpow, div_mul_cancel₀ _ (zpow_ne_zero _ two_ne_zero)]

theorem rounded_mono (u : ℤ) (h : p ≤ q) :
    (roundHalfEven (p / 2 ^ u) : ℚ) * 2 ^ u ≤ roundHalfEven (q / 2 ^ u) * 2 ^ u := by
  have hunit : (0 : ℚ) < 2 ^ u := zpow_pos two_pos _
  have hmono := roundHalfEven_mono ((div_le_div_iff_of_pos_right hunit).mpr h)
  exact mul_le_mul_of_nonneg_right (by exact_mod_cast hmono) hunit.le

theorem lastBit_le (hq : 0 < q) (h : -1022 ≤ Int.log 2 q) : lastBit q ≤ Int.log 2 q := by
  rw [lastBit, abs_of_pos hq]
  omega

/-- A number is not rounded out of its binade. -/
theorem roundDouble_bounds (hq : 0 < q) (h : roundDouble q = some a) :
    2 ^ Int.log 2 q ≤ a ∧ a ≤ 2 ^ (Int.log 2 q + 1) := by
  obtain ⟨hround, hexact⟩ := roundDouble_eq_some hq h
  have hlow : (2 : ℚ) ^ Int.log 2 q ≤ q := Int.zpow_log_le_self (by decide) hq
  have hhigh : q < (2 : ℚ) ^ (Int.log 2 q + 1) := Int.lt_zpow_succ_log_self (by decide) q
  rcases lt_or_ge (Int.log 2 q) (-1022) with hsmall | hnormal
  · rw [hexact hsmall]
    exact ⟨hlow, hhigh.le⟩
  · have hbit := lastBit_le hq hnormal
    rw [hround]
    constructor
    · calc (2 : ℚ) ^ Int.log 2 q
          = roundHalfEven (2 ^ Int.log 2 q / 2 ^ lastBit q) * 2 ^ lastBit q :=
            (roundHalfEven_pow hbit).symm
        _ ≤ roundHalfEven (q / 2 ^ lastBit q) * 2 ^ lastBit q := rounded_mono _ hlow
    · calc (roundHalfEven (q / 2 ^ lastBit q) : ℚ) * 2 ^ lastBit q
          ≤ roundHalfEven (2 ^ (Int.log 2 q + 1) / 2 ^ lastBit q) * 2 ^ lastBit q :=
            rounded_mono _ hhigh.le
        _ = 2 ^ (Int.log 2 q + 1) := roundHalfEven_pow (by omega)

theorem roundDouble_nonneg (hq : 0 ≤ q) (h : roundDouble q = some a) : 0 ≤ a := by
  rcases hq.eq_or_lt with rfl | hpos
  · rw [roundDouble, if_pos rfl] at h
    cases h
    rfl
  · exact (zpow_nonneg zero_le_two _).trans (roundDouble_bounds hpos h).1

theorem roundDouble_mono (hp : 0 ≤ p) (hpq : p ≤ q) (ha : roundDouble p = some a)
    (hb : roundDouble q = some b) : a ≤ b := by
  rcases hp.eq_or_lt with rfl | hpos
  · rw [roundDouble, if_pos rfl] at ha
    cases ha
    exact roundDouble_nonneg hpq hb
  have hqpos := hpos.trans_le hpq
  rcases (Int.log_mono_right hpos hpq : Int.log 2 p ≤ Int.log 2 q).eq_or_lt with heq | hlt
  · have hbit : lastBit p = lastBit q := by rw [lastBit, lastBit, abs_of_pos hpos, abs_of_pos hqpos, heq]
    rw [(roundDouble_eq_some hpos ha).1, (roundDouble_eq_some hqpos hb).1, hbit]
    exact rounded_mono _ hpq
  · calc a ≤ 2 ^ (Int.log 2 p + 1) := (roundDouble_bounds hpos ha).2
      _ ≤ 2 ^ Int.log 2 q := zpow_le_zpow_right₀ one_le_two hlt
      _ ≤ b := (roundDouble_bounds hqpos hb).1

/-- A number in the range of the normal numbers has its `double`. -/
theorem exists_roundDouble (hlow : 2 ^ (-1022 : ℤ) ≤ q) (hhigh : q < 2 ^ (1023 : ℤ)) :
    ∃ a, roundDouble q = some a := by
  have hq : 0 < q := (zpow_pos two_pos _).trans_le hlow
  have hnormal : -1022 ≤ Int.log 2 q := (Int.zpow_le_iff_le_log (by decide) hq).mp hlow
  have hlog : Int.log 2 q < 1023 := (Int.lt_zpow_iff_log_lt (by decide) hq).mp hhigh
  have hsucc : q < (2 : ℚ) ^ (Int.log 2 q + 1) := Int.lt_zpow_succ_log_self (by decide) q
  refine ⟨roundHalfEven (q / 2 ^ lastBit q) * 2 ^ lastBit q, ?_⟩
  rw [roundDouble, if_neg hq.ne']
  refine if_neg ?_
  rintro (hover | ⟨hsmall, -⟩)
  · have hbound : |(roundHalfEven (q / 2 ^ lastBit q) : ℚ) * 2 ^ lastBit q| ≤ 2 ^ (1023 : ℤ) := by
      have hnonneg : (0 : ℚ) ≤ roundHalfEven (q / 2 ^ lastBit q) * 2 ^ lastBit q := by
        have hzero := rounded_mono (lastBit q) hq.le
        have hround : roundHalfEven 0 = 0 := roundHalfEven_intCast 0
        rwa [zero_div, hround, Int.cast_zero, zero_mul] at hzero
      rw [abs_of_nonneg hnonneg]
      calc (roundHalfEven (q / 2 ^ lastBit q) : ℚ) * 2 ^ lastBit q
          ≤ roundHalfEven (2 ^ (Int.log 2 q + 1) / 2 ^ lastBit q) * 2 ^ lastBit q :=
            rounded_mono _ hsucc.le
        _ = 2 ^ (Int.log 2 q + 1) := roundHalfEven_pow (by have := lastBit_le hq hnormal; omega)
        _ ≤ 2 ^ (1023 : ℤ) := zpow_le_zpow_right₀ one_le_two hlog
    have hlarge : (2 : ℚ) ^ (1024 : ℤ) ≤ 2 ^ (1023 : ℤ) := hover.trans hbound
    exact absurd hlarge (not_le.mpr (zpow_lt_zpow_right₀ one_lt_two (by decide)))
  · rw [abs_of_pos hq] at hsmall
    omega

end Rounding

/-! ## 2. Times -/

/-- The `double` that is read from the text of a time, which has its microseconds. -/
def sentTime (time : ℚ) : Option ℚ := roundDouble (roundHalfEven (time * 10 ^ 6) / 10 ^ 6)

/-- The time that a record has when the driver's clock shows `time`. -/
def readTime (time : ℚ) : ℚ := (sentTime time).getD 0

/-- The times that a clock may show. -/
def IsClockTime (time : ℚ) : Prop := 0 ≤ time ∧ time < 2 ^ 53

instance : DecidablePred IsClockTime := fun time =>
  inferInstanceAs (Decidable (0 ≤ time ∧ time < 2 ^ 53))

section Times
variable {time later : ℚ}

/-- The text of a number with a point is read as its digits say. -/
theorem stod_point {whole fraction : Str} (hne : whole ≠ [])
    (hdigits : ∀ ch ∈ whole ++ fraction, isDigit ch = true) :
    stod (whole ++ byte '.' :: fraction) =
      (roundDouble (digitsValue (whole ++ fraction) * 10 ^ (-(fraction.length : ℤ)))).map
        Double.ofRat := by
  have hwhole : ∀ ch ∈ whole, isDigit ch = true := fun ch hch =>
    hdigits ch (List.mem_append_left _ hch)
  have hfraction : ∀ ch ∈ fraction, isDigit ch = true := fun ch hch =>
    hdigits ch (List.mem_append_right _ hch)
  obtain ⟨ch, others, rfl⟩ := List.exists_cons_of_ne_nil hne
  have hsign : ch ≠ byte '-' ∧ ch ≠ byte '+' := by
    have hch := hwhole ch List.mem_cons_self
    constructor
    all_goals
      rintro rfl
      revert hch
      decide
  have hpoint : ∀ c ∈ (byte '.' :: fraction).head?, isDigit c = false := by
    rintro c ⟨⟩
    decide
  have hrun : (ch :: (others ++ byte '.' :: fraction)).takeWhile isDigit = ch :: others ∧
      (ch :: (others ++ byte '.' :: fraction)).dropWhile isDigit = byte '.' :: fraction :=
    ⟨Search.takeWhile_run hwhole hpoint, Search.dropWhile_run hwhole hpoint⟩
  have htake : fraction.takeWhile isDigit = fraction := List.takeWhile_eq_self_iff.mpr hfraction
  have hdrop : fraction.dropWhile isDigit = [] := List.dropWhile_eq_nil_iff.mpr hfraction
  rw [List.cons_append, stod]
  simp only [if_neg hsign.1, if_neg hsign.2, hrun, htake, hdrop, if_true]
  rw [if_neg fun h => List.cons_ne_nil _ _ h.1]
  simp [decimalExponent]

theorem isDigit_paddedNat {width n : ℕ} : ∀ ch ∈ paddedNat width n, isDigit ch = true := by
  intro ch hch
  rw [← isDigit_eq]
  exact (isDigits_paddedNat width n).2 ch hch

theorem digitsValue_paddedNat (width n : ℕ) : digitsValue (paddedNat width n) = n := by
  have hzeros := digitsValue_zeros [] (width - (decimalNat n).length)
  rw [List.nil_append] at hzeros
  rw [paddedNat, digitsValue_append, hzeros, digitsValue_decimalNat]
  simp [digitsValue]

theorem length_paddedNat {width n : ℕ} (hwidth : 0 < width) (h : n < 10 ^ width) :
    (paddedNat width n).length = width := by
  have hle : (decimalNat n).length ≤ width := by
    by_cases hzero : n = 0
    · subst hzero
      exact hwidth
    · rw [length_decimalNat hzero]
      exact Nat.log_lt_of_lt_pow hzero h
  rw [paddedNat, List.length_append, List.length_replicate]
  omega

/-- The text of a time is the text of its microseconds, with a point in it. -/
theorem fixed_ofRat (h : 0 ≤ time) : ∃ millionths : ℕ, (millionths : ℤ) = roundHalfEven (time * 10 ^ 6) ∧
    fixed (.ofRat time) = decimalNat (millionths / 10 ^ 6) ++ byte '.' ::
      paddedNat 6 (millionths % 10 ^ 6) := by
  have hnonneg : 0 ≤ roundHalfEven (time * 10 ^ 6) := by
    have hmono := roundHalfEven_mono (mul_le_mul_of_nonneg_right h
      (by norm_num : (0 : ℚ) ≤ 10 ^ 6))
    have hround : roundHalfEven 0 = 0 := roundHalfEven_intCast 0
    rwa [zero_mul, hround] at hmono
  refine ⟨(roundHalfEven (time * 10 ^ 6)).toNat, Int.toNat_of_nonneg hnonneg, ?_⟩
  have hfixed : fixed (.ofRat time) = (if time < 0 then [byte '-'] else []) ++
      decimalNat ((roundHalfEven (|time| * 10 ^ 6)).toNat / 10 ^ 6) ++ lit "." ++
        paddedNat 6 ((roundHalfEven (|time| * 10 ^ 6)).toNat % 10 ^ 6) := rfl
  rw [hfixed, if_neg (not_lt.mpr h), abs_of_nonneg h, List.nil_append, List.append_assoc]
  rfl

/-- What is read from the text of a time. -/
theorem stod_fixed (h : 0 ≤ time) :
    stod (fixed (.ofRat time)) = (sentTime time).map Double.ofRat := by
  obtain ⟨n, hn, htext⟩ := fixed_ofRat h
  have hlength : (paddedNat 6 (n % 10 ^ 6)).length = 6 :=
    length_paddedNat (by decide) (Nat.mod_lt _ (by decide))
  have hvalue : digitsValue (decimalNat (n / 10 ^ 6) ++ paddedNat 6 (n % 10 ^ 6)) = n := by
    rw [digitsValue_append, hlength, digitsValue_decimalNat, digitsValue_paddedNat,
      Nat.div_add_mod']
  rw [htext, stod_point (decimalNat_ne_nil _), hvalue, hlength, sentTime, ← hn]
  · congr 2
  · intro ch hch
    rcases List.mem_append.mp hch with hch | hch
    · exact isDigit_decimalNat ch hch
    · exact isDigit_paddedNat ch hch

theorem exists_sentTime (h : IsClockTime time) : ∃ q, sentTime time = some q := by
  obtain ⟨n, hn, -⟩ := fixed_ofRat h.1
  unfold sentTime
  rw [← hn]
  have hbound : ((n : ℤ) : ℚ) ≤ 2 ^ 53 * 10 ^ 6 := by
    obtain ⟨bound, hbound⟩ : ∃ bound : ℤ, (bound : ℚ) = 2 ^ 53 * 10 ^ 6 :=
      ⟨2 ^ 53 * 10 ^ 6, by norm_num⟩
    have hmono := roundHalfEven_mono (mul_le_mul_of_nonneg_right h.2.le
      (by norm_num : (0 : ℚ) ≤ 10 ^ 6))
    rw [← hbound, roundHalfEven_intCast, ← hn] at hmono
    rw [← hbound]
    exact Int.cast_le.mpr hmono
  rcases Nat.eq_zero_or_pos n with rfl | hpos
  · exact ⟨0, by simp [roundDouble]⟩
  · have hcast : (1 : ℚ) ≤ (n : ℤ) := by exact_mod_cast hpos
    refine exists_roundDouble ?_ ?_
    · calc (2 : ℚ) ^ (-1022 : ℤ) ≤ 2 ^ (-20 : ℤ) := zpow_le_zpow_right₀ one_le_two (by decide)
        _ ≤ 1 / 10 ^ 6 := by norm_num
        _ ≤ ((n : ℤ) : ℚ) / 10 ^ 6 := div_le_div_of_nonneg_right hcast (by norm_num)
    · calc ((n : ℤ) : ℚ) / 10 ^ 6 ≤ 2 ^ 53 := (div_le_iff₀ (by norm_num)).mpr hbound
        _ = 2 ^ (53 : ℤ) := (zpow_natCast 2 53).symm
        _ < 2 ^ (1023 : ℤ) := zpow_lt_zpow_right₀ one_lt_two (by decide)

theorem stod_fixed_clock (h : IsClockTime time) :
    stod (fixed (.ofRat time)) = some (.ofRat (readTime time)) := by
  obtain ⟨q, hq⟩ := exists_sentTime h
  rw [stod_fixed h.1, readTime, hq]
  rfl

/-- A later time is not read as an earlier one. -/
theorem readTime_mono (h : IsClockTime time) (hlater : IsClockTime later) (hle : time ≤ later) :
    readTime time ≤ readTime later := by
  obtain ⟨p, hp⟩ := exists_sentTime h
  obtain ⟨q, hq⟩ := exists_sentTime hlater
  have hunit : (0 : ℚ) ≤ 10 ^ 6 := by norm_num
  have hnonneg : (0 : ℚ) ≤ roundHalfEven (time * 10 ^ 6) / 10 ^ 6 := by
    obtain ⟨n, hn, -⟩ := fixed_ofRat h.1
    rw [← hn]
    positivity
  have hmono : (roundHalfEven (time * 10 ^ 6) : ℚ) / 10 ^ 6 ≤ roundHalfEven (later * 10 ^ 6) / 10 ^ 6 := by
    have hround := roundHalfEven_mono (mul_le_mul_of_nonneg_right hle hunit)
    exact div_le_div_of_nonneg_right (by exact_mod_cast hround) hunit
  rw [readTime, readTime, hp, hq]
  exact roundDouble_mono hnonneg hmono hp hq

end Times

/-! ## 3. The fields of an object -/

namespace QueryRoundTrip

open CollectionResponseParser
open MockDriverServer
open CollectionQueryBuilder (buildQuery)

section Fields
variable {timestamp : Double} {time : ℚ} {path word key : Str}

/-- The first member of an object, and the brace before it. -/
def valueMember (path : Str) : Str :=
  lit "\x7b" ++ quoted (lit "value") ++ (lit ":[" ++ fixed (valueForPath path) ++ lit "],")

/-- The member of a time. -/
def timeMember (key : Str) (timestamp : Double) : Str :=
  quoted key ++ (lit ":" ++ fixed timestamp ++ lit ",")

/-- The member of a text. -/
def textMember (key value : Str) : Str := quoted key ++ (lit ":" ++ quoted value)

/-- The members of the two times, with the first member before them. -/
def timesText (timestamp : Double) (path : Str) : Str :=
  valueMember path ++ timeMember (lit "dev_time") timestamp ++ timeMember (lit "svr_time") timestamp

/-- The members of an object behind the item path. -/
def namesText (path : Str) : Str :=
  lit "," ++ textMember (lit "item_description") (descriptionForPath path) ++ (lit "," ++
    textMember (lit "item_name") (itemNameFromPath path) ++ lit "\x7d")

theorem pathObject_members : pathObject timestamp path = timesText timestamp path ++
    textMember (lit "item_path") (lit "/DV:mock/CP:mock/DT:" ++ itemNameFromPath path) ++
      namesText path := by
  simp only [pathObject_eq, fieldsBefore, timesText, valueMember, timeMember, textMember, namesText,
    List.append_assoc]

theorem SearchWord.skips_valueMember (hword : SearchWord word) (hne : lit "value" ≠ word) :
    Quoted.Skips (byte '"') word (valueMember path) := by
  refine ((hword.skips_gap (by decide) (by decide)).append
    (hword.skips_quoted (by decide) hne)).append (hword.skips_gap ?_ ?_)
  · simp only [List.mem_append, not_or]
    exact ⟨⟨by decide, notMem_fixed (by decide)⟩, by decide⟩
  · intro ch hch
    cases hch
    decide

theorem SearchWord.skips_timeMember (hword : SearchWord word) (hkey : Clean key) (hne : key ≠ word) :
    Quoted.Skips (byte '"') word (timeMember key timestamp) := by
  refine (hword.skips_quoted hkey hne).append (hword.skips_gap ?_ ?_)
  · simp only [List.mem_append, not_or]
    exact ⟨⟨by decide, notMem_fixed (by decide)⟩, by decide⟩
  · intro ch hch
    cases hch
    decide

theorem isNumberChar_fixed (h : 0 ≤ time) : ∀ ch ∈ fixed (.ofRat time), isNumberChar ch = true := by
  obtain ⟨n, -, htext⟩ := fixed_ofRat h
  have hdigit (ch : UInt8) (h : isDigit ch = true) : isNumberChar ch = true := by
    simp [isNumberChar, isIntChar, h]
  rw [htext]
  intro ch hch
  rcases List.mem_append.mp hch with hch | hch
  · exact hdigit ch (isDigit_decimalNat ch hch)
  · rcases List.mem_cons.mp hch with rfl | hch
    · decide
    · exact hdigit ch (isDigit_paddedNat ch hch)

theorem fixed_eq_cons (h : 0 ≤ time) :
    ∃ ch others, fixed (.ofRat time) = ch :: others ∧ isIntChar ch = true := by
  obtain ⟨n, -, htext⟩ := fixed_ofRat h
  obtain ⟨ch, others, hcons⟩ := List.exists_cons_of_ne_nil (decimalNat_ne_nil (n / 10 ^ 6))
  refine ⟨ch, others ++ byte '.' :: paddedNat 6 (n % 10 ^ 6), ?_, ?_⟩
  · rw [htext, hcons, List.cons_append]
  · have hdigit := isDigit_decimalNat (n := n / 10 ^ 6) ch (hcons ▸ List.mem_cons_self)
    rw [isIntChar, hdigit, Bool.or_true]

/-- A time is read from its member. -/
theorem extractNumberField_timeMember (hword : SearchWord key) (htime : IsClockTime time)
    {object before : Str} (hbefore : Quoted.Skips (byte '"') key before) (rest : Str)
    (hobject : object = before ++ timeMember key (.ofRat time) ++ rest) (fallback : Double) :
    extractNumberField object key fallback = .ofRat (readTime time) := by
  obtain ⟨ch, others, hcons, hint⟩ := fixed_eq_cons htime.1
  have hstop := hword.afterFirst hbefore (lit ":" ++ fixed (.ofRat time) ++ lit "," ++ rest)
  have hafter : Search.afterFirst (quoted key) object =
      some (lit ":" ++ fixed (.ofRat time) ++ lit "," ++ rest) := by
    rw [hobject, timeMember]
    simpa only [List.append_assoc] using hstop
  have hcomma : ∀ c ∈ (lit "," ++ rest).head?, isNumberChar c = false := by
    rintro c ⟨⟩
    decide
  have hread : (fixed (.ofRat time) ++ (lit "," ++ rest)).takeWhile isNumberChar =
      fixed (.ofRat time) := Search.takeWhile_run (isNumberChar_fixed htime.1) hcomma
  have hcolon : lit ":" ++ fixed (.ofRat time) ++ lit "," ++ rest =
      byte ':' :: (fixed (.ofRat time) ++ (lit "," ++ rest)) := by
    simp only [List.append_assoc]
    rfl
  have hfirst : Search.fromFirst isIntChar (fixed (.ofRat time) ++ (lit "," ++ rest)) =
      some (fixed (.ofRat time) ++ (lit "," ++ rest)) := by
    rw [hcons, List.cons_append, Search.fromFirst, if_pos hint]
  rw [extractNumberField, hafter, hcolon]
  simp only [Search.fromFirst, decide_true, if_true, List.tail_cons, hfirst, hread,
    stod_fixed_clock htime, Option.getD_some]

theorem extractNumberField_devTime (htime : IsClockTime time) (fallback : Double) :
    extractNumberField (pathObject (.ofRat time) path) (lit "dev_time") fallback =
      .ofRat (readTime time) := by
  have hword : SearchWord (lit "dev_time") := ⟨by decide, by decide, by decide⟩
  have hbefore : Quoted.Skips (byte '"') (lit "dev_time") (valueMember path) :=
    hword.skips_valueMember (by decide)
  refine extractNumberField_timeMember hword htime hbefore (timeMember (lit "svr_time") (.ofRat time) ++
    (textMember (lit "item_path") (lit "/DV:mock/CP:mock/DT:" ++ itemNameFromPath path) ++
      namesText path)) ?_ fallback
  simp only [pathObject_members, timesText, List.append_assoc]

theorem extractNumberField_svrTime (htime : IsClockTime time) (fallback : Double) :
    extractNumberField (pathObject (.ofRat time) path) (lit "svr_time") fallback =
      .ofRat (readTime time) := by
  have hword : SearchWord (lit "svr_time") := ⟨by decide, by decide, by decide⟩
  have hbefore : Quoted.Skips (byte '"') (lit "svr_time")
      (valueMember path ++ timeMember (lit "dev_time") (.ofRat time)) :=
    (hword.skips_valueMember (by decide)).append (hword.skips_timeMember (by decide) (by decide))
  refine extractNumberField_timeMember hword htime hbefore
    (textMember (lit "item_path") (lit "/DV:mock/CP:mock/DT:" ++ itemNameFromPath path) ++
      namesText path) ?_ fallback
  simp only [pathObject_members, timesText, List.append_assoc]

theorem SearchWord.skips_timesText (hword : SearchWord word)
    (hkeys : ∀ key ∈ [lit "value", lit "dev_time", lit "svr_time"], key ≠ word) :
    Quoted.Skips (byte '"') word (timesText timestamp path) := by
  simp only [List.forall_mem_cons] at hkeys
  obtain ⟨hvalue, hdev, hsvr, -⟩ := hkeys
  exact ((hword.skips_valueMember hvalue).append (hword.skips_timeMember (by decide) hdev)).append
    (hword.skips_timeMember (by decide) hsvr)

theorem SearchWord.skips_textMember (hword : SearchWord word) {value : Str} (hkey : Clean key)
    (hne : key ≠ word) (hvalue : Clean value) (hne' : value ≠ word) :
    Quoted.Skips (byte '"') word (textMember key value) :=
  (hword.skips_quoted hkey hne).append ((hword.skips_gap (by decide) (by decide)).append
    (hword.skips_quoted hvalue hne'))

/-- A text is read from its member. -/
theorem extractStringField_textMember (hword : SearchWord key) {value : Str} (hvalue : Clean value)
    {object before : Str} (hbefore : Quoted.Skips (byte '"') key before) (rest : Str)
    (hobject : object = before ++ textMember key value ++ rest) :
    CollectorService.extractStringField object key = value := by
  have hstop := hword.afterFirst hbefore (lit ":" ++ quoted value ++ rest)
  have hafter : Search.afterFirst (quoted key) object =
      some ([] ++ byte ':' :: ([] ++ byte '"' :: (quotedBody value ++ byte '"' :: rest))) := by
    rw [hobject, textMember, hvalue.quotedBody]
    have hcolon : lit ":" = [byte ':'] := rfl
    simpa only [hcolon, quoted_eq, List.append_assoc, List.cons_append, List.nil_append] using hstop
  exact extractStringField_of_afterFirst [] [] value (by simp) (by simp) hafter

theorem extractStringField_itemPath (hname : Clean (itemNameFromPath path)) :
    CollectorService.extractStringField (pathObject timestamp path) (lit "item_path") =
      lit "/DV:mock/CP:mock/DT:" ++ itemNameFromPath path := by
  have hword : SearchWord (lit "item_path") := ⟨by decide, by decide, by decide⟩
  exact extractStringField_textMember hword (clean_itemPath hname)
    (hword.skips_timesText (by decide)) _ pathObject_members

theorem extractStringField_itemDescription (hname : Clean (itemNameFromPath path)) :
    CollectorService.extractStringField (pathObject timestamp path) (lit "item_description") =
      descriptionForPath path := by
  have hword : SearchWord (lit "item_description") := ⟨by decide, by decide, by decide⟩
  have hitem : lit "/DV:mock/CP:mock/DT:" ++ itemNameFromPath path ≠ lit "item_description" := by
    intro heq
    have hhead : some (byte '/') = some (byte 'i') := congrArg List.head? heq
    exact absurd hhead (by decide)
  have hbefore : Quoted.Skips (byte '"') (lit "item_description") (timesText timestamp path ++
      textMember (lit "item_path") (lit "/DV:mock/CP:mock/DT:" ++ itemNameFromPath path) ++ lit ",") :=
    ((hword.skips_timesText (by decide)).append (hword.skips_textMember (by decide) (by decide)
      (clean_itemPath hname) hitem)).append (hword.skips_gap (by decide) (by decide))
  refine extractStringField_textMember hword (clean_descriptionForPath hname) hbefore
    (lit "," ++ textMember (lit "item_name") (itemNameFromPath path) ++ lit "\x7d") ?_
  simp only [pathObject_members, namesText, List.append_assoc]

/-- The record of a data point for which the mock driver answers when its clock shows `time`. -/
def mockRecord (deviceName : Str) (time : ℚ) (point : DataPoint) : ResourceRecord where
  deviceName
  dataItemNamePath := point.namePath
  data := lit "[" ++ fixed (valueForPath point.namePath) ++ lit "]"
  devTime := .ofRat (readTime time)
  svrTime := .ofRat (readTime time)
  dataItemPath := lit "/DV:mock/CP:mock/DT:" ++ itemNameFromPath point.namePath
  dataItemName := itemNameFromPath point.namePath
  dataItemDescription := descriptionForPath point.namePath

end Fields

section Records
variable {time : ℚ} {component item : Str} {point : DataPoint} {points : List DataPoint}
  {cid query : Str} {fallbackTime : Double}

theorem fieldOr_eq {object key value pointText : Str} (hne : value ≠ [])
    (h : CollectorService.extractStringField object key = value) :
    fieldOr object key pointText = value := by
  simp only [fieldOr, h, if_neg hne]

/-- The record that is read from the object of a path. -/
theorem recordOf_pathObject (device : Device) (htime : IsClockTime time)
    (hpath : IsNamePath point.namePath component item) :
    recordOf device fallbackTime point (pathObject (.ofRat time) point.namePath) =
      mockRecord device.name time point := by
  have hname : itemNameFromPath point.namePath ≠ [] := by
    rw [hpath.itemNameFromPath]
    exact hpath.2.1.nonempty
  have hdescription : descriptionForPath point.namePath ≠ [] := by
    unfold descriptionForPath
    split
    · decide
    split
    · decide
    · exact hname
  have hitem : lit "/DV:mock/CP:mock/DT:" ++ itemNameFromPath point.namePath ≠ [] := by
    simp [hname]
  rw [recordOf, extractArrayFieldText_pathObject, extractNumberField_devTime htime,
    extractNumberField_svrTime htime, fieldOr_eq hitem (extractStringField_itemPath hpath.clean_item),
    fieldOr_eq hname (extractStringField_pathObject hpath.clean_item),
    fieldOr_eq hdescription (extractStringField_itemDescription hpath.clean_item)]
  rfl

/-- The records that are read from the driver's answer to the query. -/
theorem processResponse_mockRecords (device : Device) (hne : points ≠ []) (hpaths : HavePaths points)
    (hdistinct : (points.map (·.namePath)).Nodup) (hcid : NoControl cid)
    (hsuffix : ∀ point ∈ points, ¬ point.namePath <:+ cid) (htime : IsClockTime time)
    (hquery : buildQuery cid points = .ok query) :
    processResponse device points (handleQuery query (.ofRat time)) fallbackTime =
      .ok (points.map (mockRecord device.name time)) := by
  have hrecord : ∀ point ∈ points,
      recordFor device (handleQuery query (.ofRat time)) fallbackTime point =
        some (mockRecord device.name time point) := by
    intro point hpoint
    obtain ⟨component, item, hpath⟩ := hpaths point hpoint
    rw [recordFor_eq_some,
      extractObjectForPath_handleQuery hpaths hdistinct hcid hsuffix hquery hpoint,
      extractArrayFieldText_pathObject, recordOf_pathObject device htime hpath]
    exact ⟨List.cons_ne_nil _ _, rfl⟩
  refine processResponse_ok.mpr ⟨?_, by simpa using hne⟩
  rw [List.filterMap_congr hrecord]
  exact congrFun List.filterMap_eq_map' points

/-- The cid stands before the field in an answer, and ends otherwise. -/
theorem extractBoolField_handleQuery (hcid : NoControl cid) (hne : cid ≠ [])
    (hsuffix : ¬ lit "machineConnected" <:+ cid) (hquery : buildQuery cid points = .ok query)
    (timestamp : Double) :
    extractBoolField (handleQuery query timestamp) (lit "machineConnected") = true := by
  have hword : SearchWord (lit "machineConnected") := ⟨by decide, by decide, by decide⟩
  have hread : (if MockDriverServer.extractStringField query (lit "cid") = [] then lit "mock-cid"
      else MockDriverServer.extractStringField query (lit "cid")) = cid := by
    rw [extractStringField_buildQuery hcid hquery, if_neg hne]
  have hquoted : Quoted.Skips (byte '"') (lit "machineConnected")
      (byte '"' :: (quotedBody cid ++ [byte '"'])) := by
    refine .quoted (by decide) (by decide) (by decide) (by decide) ?_
    rw [Quoted.quote_suffix_cons]
    rintro (⟨-, heq⟩ | hends)
    · exact hsuffix (heq ▸ List.suffix_refl _)
    · exact hsuffix ((List.suffix_cons _ _).trans hends)
  have hbefore : Quoted.Skips (byte '"') (lit "machineConnected") (lit "\x7b" ++ quoted (lit "cid") ++
      lit ":" ++ byte '"' :: (quotedBody cid ++ [byte '"']) ++ lit ",") :=
    ((((hword.skips_gap (by decide) (by decide)).append
      (hword.skips_quoted (by decide) (by decide))).append
      (hword.skips_gap (by decide) (by decide))).append hquoted).append
      (hword.skips_gap (by decide) (by decide))
  have hstop := hword.afterFirst hbefore (lit ":true," ++ quoted (lit "data") ++ lit ":\x7b" ++
    pathMembers timestamp (extractQueryPaths query) ++ lit "\x7d\x7d")
  rw [handleQuery_eq hcid hread, extractBoolField]
  simp only [List.append_assoc] at hstop ⊢
  rw [hstop]
  rfl

end Records

end QueryRoundTrip

end CollectorService
