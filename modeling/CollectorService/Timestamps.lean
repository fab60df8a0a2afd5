import CollectorService.Replies
import Mathlib.Data.Nat.Digits.Lemmas

/-!
# Times in replies

A stream writes six significant digits of a time. Whoever reads the number gets the time rounded to
the unit of the sixth digit, which for the seconds of these years is 10000.

* `stod_general_nat`: what is read from the number that a stream writes for an integer.
* `served_seconds_iff`: the times that are served to the second, at every place of a reply.
-/

namespace CollectorService

/-! ## 1. Digits -/

section Digits

theorem digitsValue_append (digits digits' : Str) :
    digitsValue (digits ++ digits') =
      digitsValue digits * 10 ^ digits'.length + digitsValue digits' := by
  have hfold (n : ℕ) : digits'.foldl (fun n ch => 10 * n + (ch - byte '0').toNat) n =
      n * 10 ^ digits'.length + digitsValue digits' := by
    unfold digitsValue
    induction digits' using List.reverseRecOn with
    | nil => simp
    | append_singleton digits' ch ih =>
      rw [List.foldl_append, List.foldl_append, ih, List.length_append, List.length_singleton,
        pow_succ]
      simp only [List.foldl_cons, List.foldl_nil]
      ring
  unfold digitsValue at hfold ⊢
  rw [List.foldl_append, hfold]

theorem digitsValue_zeros (digits : Str) (k : ℕ) :
    digitsValue (digits ++ List.replicate k (byte '0')) = digitsValue digits * 10 ^ k := by
  have hzeros : digitsValue (List.replicate k (byte '0')) = 0 := by
    induction k with
    | zero => rfl
    | succ k ih => rw [List.replicate_succ', digitsValue_append, ih]; rfl
  rw [digitsValue_append, hzeros, List.length_replicate, Nat.add_zero]

theorem digitsValue_decimalNat (n : ℕ) : digitsValue (decimalNat n) = n := by
  unfold decimalNat
  split
  · next hzero => rw [hzero]; rfl
  have hvalue (l : List ℕ) (hl : ∀ d ∈ l, d < 10) :
      digitsValue (l.reverse.map fun d => byte '0' + UInt8.ofNat d) = Nat.ofDigits 10 l := by
    induction l with
    | nil => rfl
    | cons d l ih =>
      have hd : digitsValue [byte '0' + UInt8.ofNat d] = d := by
        have hlt := hl d List.mem_cons_self
        interval_cases d <;> decide
      rw [List.reverse_cons, List.map_append, List.map_singleton, digitsValue_append, hd,
        ih fun d hd => hl d (List.mem_cons_of_mem _ hd), Nat.ofDigits_cons, List.length_singleton]
      push_cast
      ring
  rw [hvalue _ fun d hd => Nat.digits_lt_base (by decide) hd, Nat.ofDigits_digits]

theorem decimalNat_ne_nil (n : ℕ) : decimalNat n ≠ [] := by
  unfold decimalNat
  split
  · exact List.cons_ne_nil _ _
  · next hzero =>
    rw [ne_eq, List.map_eq_nil_iff, List.reverse_eq_nil_iff]
    exact Nat.digits_ne_nil_iff_ne_zero.mpr hzero

theorem length_decimalNat {n : ℕ} (h : n ≠ 0) : (decimalNat n).length = Nat.log 10 n + 1 := by
  rw [decimalNat, if_neg h, List.length_map, List.length_reverse, Nat.length_digits _ _ (by decide) h]

/-- A list of digits is what is left without its last zeros, and the zeros. -/
theorem dropZeros_append (digits : Str) :
    ∃ k, digits = dropZeros digits ++ List.replicate k (byte '0') := by
  induction digits using List.reverseRecOn with
  | nil => exact ⟨0, rfl⟩
  | append_singleton digits ch ih =>
    unfold dropZeros at ih ⊢
    by_cases hzero : ch = byte '0'
    · obtain ⟨k, hk⟩ := ih
      refine ⟨k + 1, ?_⟩
      rw [List.rdropWhile_concat, if_pos (decide_eq_true hzero), List.replicate_succ',
        ← List.append_assoc, ← hk, hzero]
    · refine ⟨0, ?_⟩
      rw [List.rdropWhile_concat, if_neg (by simpa using hzero)]
      exact (List.append_nil _).symm

end Digits

/-! ## 2. Reading what a stream writes -/

section Reading
variable {whole rest tail : Str}

/-- The text of a number is read as its digits and its exponent say: the zeros that are left out at
the end of the fraction do not matter. -/
theorem stod_decimal (hne : whole ≠ []) (hdigits : ∀ ch ∈ whole ++ rest, isDigit ch = true)
    (htail : ∀ ch ∈ tail.head?, ch = byte 'e') :
    stod (whole ++ fractionText rest ++ tail) =
      (roundDouble (digitsValue (whole ++ rest) * 10 ^ (decimalExponent tail - rest.length))).map
        Double.ofRat := by
  obtain ⟨k, hk⟩ := dropZeros_append rest
  have hwhole : ∀ ch ∈ whole, isDigit ch = true := fun ch hch =>
    hdigits ch (List.mem_append_left _ hch)
  have hkept : ∀ ch ∈ dropZeros rest, isDigit ch = true := fun ch hch =>
    hdigits ch (List.mem_append_right _ (by rw [hk]; exact List.mem_append_left _ hch))
  have hstop : ∀ ch ∈ tail.head?, isDigit ch = false := fun ch hch => by
    rw [htail ch hch]
    decide
  have hvalue : (digitsValue (whole ++ rest) : ℚ) * 10 ^ (decimalExponent tail - rest.length) =
      digitsValue (whole ++ dropZeros rest) *
        10 ^ (decimalExponent tail - (dropZeros rest).length) := by
    have hlength : (rest.length : ℤ) = (dropZeros rest).length + k := by
      conv_lhs => rw [hk, List.length_append, List.length_replicate]
      rfl
    conv_lhs => rw [hk, ← List.append_assoc, digitsValue_zeros, ← hk]
    rw [hlength, sub_add_eq_sub_sub, zpow_sub₀ (by norm_num : (10 : ℚ) ≠ 0) _ (k : ℤ)]
    push_cast
    rw [zpow_natCast]
    field_simp
  obtain ⟨ch, others, rfl⟩ := List.exists_cons_of_ne_nil hne
  have hsign : ch ≠ byte '-' ∧ ch ≠ byte '+' := by
    have hch := hwhole ch List.mem_cons_self
    constructor
    all_goals
      rintro rfl
      revert hch
      decide
  rw [hvalue]
  have hrun {r : Str} (hr : ∀ c ∈ r.head?, isDigit c = false) :
      (ch :: (others ++ r)).takeWhile isDigit = ch :: others ∧
        (ch :: (others ++ r)).dropWhile isDigit = r :=
    ⟨Search.takeWhile_run hwhole hr, Search.dropWhile_run hwhole hr⟩
  rw [fractionText]
  split
  · next hnone =>
    -- no point: the exponent, if there is one, follows the digits
    rw [List.append_nil, List.cons_append, stod]
    simp only [if_neg hsign.1, if_neg hsign.2, hrun hstop, hnone]
    cases tail with
    | nil => rfl
    | cons c tail =>
      have hpoint : c ≠ byte '.' := by
        rw [htail c rfl]
        decide
      simp only [if_neg hpoint]
      rfl
  · next hsome =>
    have hpoint : ∀ c ∈ (byte '.' :: (dropZeros rest ++ tail)).head?, isDigit c = false := by
      rintro c ⟨⟩
      decide
    rw [List.cons_append, List.cons_append, List.append_assoc, List.cons_append, stod]
    simp only [if_neg hsign.1, if_neg hsign.2, hrun hpoint, Search.takeWhile_run hkept hstop,
      Search.dropWhile_run hkept hstop, if_true]
    rfl

theorem decimalExponent_padded (width n : ℕ) : decimalExponent (lit "e+" ++ paddedNat width n) = n := by
  have hdigits : ∀ ch ∈ paddedNat width n, isDigit ch = true := fun ch hch => by
    rw [← isDigit_eq]
    exact (isDigits_paddedNat width n).2 ch hch
  have hvalue : digitsValue (paddedNat width n) = n := by
    have hzeros := digitsValue_zeros [] (width - (decimalNat n).length)
    rw [List.nil_append] at hzeros
    rw [paddedNat, digitsValue_append, hzeros, digitsValue_decimalNat]
    simp [digitsValue]
  show (digitsValue ((paddedNat width n).takeWhile isDigit) : ℤ) = n
  rw [List.takeWhile_eq_self_iff.mpr hdigits, hvalue]

/-- A number of six digits with an exponent is read as it is meant. -/
theorem stod_generalText {digits : ℕ} (h : 10 ^ 5 ≤ digits) (h' : digits < 10 ^ 6) (exponent : ℕ) :
    stod (generalText (decimalNat digits) exponent) =
      (roundDouble (digits * 10 ^ ((exponent : ℤ) - 5))).map Double.ofRat := by
  have hlength : (decimalNat digits).length = 6 := by
    rw [length_decimalNat (by omega), (Nat.log_eq_iff (.inl (by decide))).mpr ⟨h, h'⟩]
  have hsplit (k : ℕ) : (decimalNat digits).take k ++ (decimalNat digits).drop k = decimalNat digits :=
    List.take_append_drop _ _
  have hread {k : ℕ} {tail : Str} (hk : 0 < k) (htail : ∀ ch ∈ tail.head?, ch = byte 'e') :
      stod ((decimalNat digits).take k ++ fractionText ((decimalNat digits).drop k) ++ tail) =
        (roundDouble (digits * 10 ^ (decimalExponent tail - ((6 - k : ℕ) : ℤ)))).map Double.ofRat := by
    have hne : (decimalNat digits).take k ≠ [] := List.ne_nil_of_length_pos (by
      rw [List.length_take, hlength]
      omega)
    rw [stod_decimal hne (by rw [hsplit]; exact isDigit_decimalNat) htail, hsplit,
      digitsValue_decimalNat, List.length_drop, hlength]
  unfold generalText
  split
  · have htail : ∀ ch ∈ (lit "e+" ++ paddedNat 2 exponent).head?, ch = byte 'e' := by
      rintro ch ⟨⟩
      rfl
    rw [if_neg (by omega), List.append_assoc (_ ++ fractionText _), Int.natAbs_natCast,
      hread Nat.one_pos htail, decimalExponent_padded]
    rfl
  · next hsmall =>
    have hexponent : exponent < 6 := by omega
    rw [if_neg (by omega), Int.toNat_natCast, ← List.append_nil (_ ++ fractionText _),
      hread (Nat.succ_pos _) (by rintro ch ⟨⟩)]
    congr 4
    show (0 : ℤ) - _ = _
    omega

end Reading

/-! ## 3. Rounding -/

section Rounding

theorem abs_roundHalfEven_sub (q : ℚ) : |(roundHalfEven q : ℚ) - q| ≤ 1 / 2 := by
  have hfloor := Int.floor_le q
  have hlt := Int.lt_floor_add_one q
  unfold roundHalfEven
  rw [abs_le]
  split
  · next hdown =>
    have hhalf : q - ⌊q⌋ ≤ 1 / 2 := hdown.elim le_of_lt fun h => h.1.le
    constructor <;> linarith
  · next hup =>
    have hhalf : 1 / 2 ≤ q - ⌊q⌋ := not_lt.mp fun h => hup (.inl h)
    push_cast
    constructor <;> linarith

theorem roundHalfEven_intCast (n : ℤ) : roundHalfEven n = n := by
  have hzero : (n : ℚ) - ⌊(n : ℚ)⌋ < 1 / 2 := by
    rw [Int.floor_intCast]
    norm_num
  rw [roundHalfEven, if_pos (.inl hzero), Int.floor_intCast]

/-- An integer that has its first and its last bit not more than 53 apart is a `double`. -/
theorem roundDouble_exact {a b : ℕ} (ha : 0 < a) (h : a < 2 ^ 53) (hb : b ≤ 64) :
    roundDouble (a * 2 ^ b) = some (a * 2 ^ b : ℚ) := by
  have hpos : (0 : ℚ) < a * 2 ^ b := by positivity
  have hbound : (a * 2 ^ b : ℚ) < 2 ^ (53 + b : ℤ) := by
    rw [zpow_add₀ two_ne_zero, zpow_natCast]
    exact mul_lt_mul_of_pos_right (by exact_mod_cast h) (by positivity)
  have hlog : Int.log 2 (a * 2 ^ b : ℚ) < 53 + b :=
    (Int.lt_zpow_iff_log_lt (by decide) hpos).mp (by exact_mod_cast hbound)
  -- the unit of the 53rd bit divides the number
  obtain ⟨unit, hunit⟩ : ∃ unit, unit = max (Int.log 2 (a * 2 ^ b : ℚ) - 52) (-1074) := ⟨_, rfl⟩
  obtain ⟨k, hk⟩ : ∃ k : ℕ, (b : ℤ) = unit + k := ⟨(b - unit).toNat, by omega⟩
  have hmultiple : (a * 2 ^ b : ℚ) = ((a * 2 ^ k : ℤ) : ℚ) * 2 ^ unit := by
    rw [← zpow_natCast (2 : ℚ) b, hk, zpow_add₀ two_ne_zero]
    push_cast
    rw [zpow_natCast]
    ring
  have hrounded : (roundHalfEven (a * 2 ^ b / 2 ^ unit) : ℚ) * 2 ^ unit = a * 2 ^ b := by
    rw [hmultiple, mul_div_cancel_right₀ _ (zpow_ne_zero _ two_ne_zero), roundHalfEven_intCast]
  have hrange : ¬ (2 ^ 1024 ≤ (a * 2 ^ b : ℚ)) := by
    refine not_le.mpr (hbound.trans_le ?_)
    exact_mod_cast pow_le_pow_right₀ one_le_two (by omega : 53 + b ≤ 1024)
  rw [roundDouble, if_neg hpos.ne', abs_of_pos hpos]
  dsimp only
  rw [← hunit, hrounded, abs_of_pos hpos, if_neg]
  exact not_or.mpr ⟨hrange, fun hsmall => absurd rfl hsmall.2⟩

/-- The six digits and the exponent of a number are the number, rounded to a multiple of the unit of
the sixth digit. -/
theorem significant_spec {q : ℚ} (h : 0 < q) :
    10 ^ 5 ≤ (significant q).1 ∧ (significant q).1 < 10 ^ 6 ∧
      ((significant q).2 = Int.log 10 q ∨ (significant q).2 = Int.log 10 q + 1) ∧
      ((significant q).1 : ℚ) * 10 ^ ((significant q).2 - 5) =
        roundHalfEven (q / 10 ^ (Int.log 10 q - 5)) * 10 ^ (Int.log 10 q - 5) := by
  obtain ⟨e, he⟩ : ∃ e, e = Int.log 10 q := ⟨_, rfl⟩
  have hunit : (0 : ℚ) < 10 ^ (e - 5) := zpow_pos (by norm_num) _
  have hscale (k : ℕ) : (10 : ℚ) ^ k * 10 ^ (e - 5) = 10 ^ (e + (k - 5)) := by
    rw [← zpow_natCast, ← zpow_add₀ (by norm_num : (10 : ℚ) ≠ 0)]
    congr 1
    ring
  have hlow : 10 ^ 5 ≤ q / 10 ^ (e - 5) := by
    rw [le_div_iff₀ hunit, hscale, he]
    simpa using Int.zpow_log_le_self (b := 10) (by decide) h
  have hhigh : q / 10 ^ (e - 5) < 10 ^ 6 := by
    rw [div_lt_iff₀ hunit, hscale, he]
    simpa using Int.lt_zpow_succ_log_self (b := 10) (by decide) q
  obtain ⟨hdown, hup⟩ := abs_le.mp (abs_roundHalfEven_sub (q / 10 ^ (e - 5)))
  obtain ⟨n, hn⟩ : ∃ n, n = roundHalfEven (q / 10 ^ (e - 5)) := ⟨_, rfl⟩
  rw [← hn] at hdown hup
  have hge : (10 : ℤ) ^ 5 ≤ n := by
    have hreal : (10 : ℚ) ^ 5 - 1 < n := by linarith
    have hint : (10 : ℤ) ^ 5 - 1 < n := by exact_mod_cast hreal
    omega
  have hle : n ≤ 10 ^ 6 := by
    have hreal : (n : ℚ) < 10 ^ 6 + 1 := by linarith
    have hint : n < 10 ^ 6 + 1 := by exact_mod_cast hreal
    omega
  have hcast : ((n.toNat : ℕ) : ℚ) = n := by
    rw [← Int.cast_natCast, Int.toNat_of_nonneg (by omega)]
  simp only [significant, ← he, ← hn]
  split
  · next hcarry =>
    -- one digit more: the next power of ten
    have hnext : (10 : ℚ) ^ (e + 1 - 5) = 10 * 10 ^ (e - 5) := by
      rw [← zpow_one_add₀ (by norm_num)]
      congr 1
      ring
    refine ⟨le_rfl, by norm_num, .inr rfl, ?_⟩
    rw [← hcast, hcarry, hnext]
    push_cast
    ring
  · next hplain =>
    exact ⟨by omega, by omega, .inl rfl, congrArg (· * _) hcast⟩

theorem general_pos {q : ℚ} (h : 0 < q) :
    general (.ofRat q) = generalText (decimalNat (significant q).1) (significant q).2 := by
  show (if q = 0 then lit "0" else (if q < 0 then [byte '-'] else []) ++
    generalText (decimalNat (significant |q|).1) (significant |q|).2) = _
  rw [if_neg h.ne', if_neg h.le.not_gt, abs_of_pos h, List.nil_append]

end Rounding

/-! ## 4. Seconds -/

/-- The unit of the sixth digit of an integer, which is 1 for the integers with fewer digits. -/
def sixthUnit (t : ℕ) : ℕ := 10 ^ (Nat.log 10 t - 5)

/-- A time is rounded to the unit of its sixth digit. -/
def servedSeconds (t : ℕ) : ℚ := roundHalfEven (t / sixthUnit t) * sixthUnit t

section Seconds
variable {t : ℕ}

theorem servedSeconds_short (h : Nat.log 10 t ≤ 5) : servedSeconds t = t := by
  have hwhole : (t : ℚ) / ((10 ^ 0 : ℕ) : ℚ) = ((t : ℤ) : ℚ) := by simp
  rw [servedSeconds, sixthUnit, Nat.sub_eq_zero_of_le h, hwhole, roundHalfEven_intCast]
  simp

/-- The digits and the exponent are those of `servedSeconds`. -/
theorem significant_natCast (h : 0 < t) :
    ((significant t).1 : ℚ) * 10 ^ ((significant t).2 - 5) = servedSeconds t := by
  have hlog : Int.log 10 (t : ℚ) = Nat.log 10 t := Int.log_natCast 10 t
  rw [(significant_spec (Nat.cast_pos.mpr h)).2.2.2, hlog]
  rcases le_total 5 (Nat.log 10 t) with hlong | hshort
  · obtain ⟨k, hk⟩ := Nat.exists_eq_add_of_le hlong
    have hunit : (10 : ℚ) ^ ((Nat.log 10 t : ℤ) - 5) = ((10 ^ (Nat.log 10 t - 5) : ℕ) : ℚ) := by
      rw [hk, Nat.add_sub_cancel_left]
      push_cast
      rw [add_sub_cancel_left, zpow_natCast]
    rw [hunit, servedSeconds, sixthUnit]
  · obtain ⟨k, hk⟩ := Nat.exists_eq_add_of_le hshort
    have hunit : (10 : ℚ) ^ ((Nat.log 10 t : ℤ) - 5) = ((10 : ℚ) ^ k)⁻¹ := by
      rw [← zpow_natCast, ← zpow_neg]
      congr 1
      omega
    have hinteger : (t : ℚ) / ((10 : ℚ) ^ k)⁻¹ = ((t * 10 ^ k : ℤ) : ℚ) := by
      rw [div_inv_eq_mul]
      push_cast
      rfl
    rw [hunit, hinteger, roundHalfEven_intCast, servedSeconds_short hshort]
    push_cast
    field_simp

/-- The number that a stream writes for an integer is read as the integer, rounded to the unit of
its sixth digit. -/
theorem stod_general_nat (h : t < 2 ^ 53) :
    stod (general (.ofRat t)) = some (.ofRat (servedSeconds t)) := by
  rcases Nat.eq_zero_or_pos t with rfl | hpos
  · decide +kernel
  have hq : (0 : ℚ) < t := Nat.cast_pos.mpr hpos
  obtain ⟨hlow, hhigh, hexponent, -⟩ := significant_spec hq
  have hvalue := significant_natCast hpos
  have hlog : Int.log 10 (t : ℚ) = Nat.log 10 t := Int.log_natCast 10 t
  have hlt : Nat.log 10 t < 16 := Nat.log_lt_of_lt_pow hpos.ne' (by omega)
  obtain ⟨exponent, hnat⟩ : ∃ exponent : ℕ, (significant (t : ℚ)).2 = exponent :=
    ⟨(significant (t : ℚ)).2.toNat, by omega⟩
  have hdouble : roundDouble (servedSeconds t) = some (servedSeconds t) := by
    rcases le_total 5 exponent with hlong | hshort
    · obtain ⟨k, rfl⟩ := Nat.exists_eq_add_of_le hlong
      have hpower : (10 : ℚ) ^ (((5 + k : ℕ) : ℤ) - 5) = 5 ^ k * 2 ^ k := by
        rw [← mul_pow]
        push_cast
        rw [add_sub_cancel_left, zpow_natCast]
        norm_num
      have hfives : 5 ^ k ≤ 5 ^ 11 := Nat.pow_le_pow_right (by decide) (by omega)
      have hdigits : servedSeconds t =
          (((significant (t : ℚ)).1 * 5 ^ k : ℕ) : ℚ) * 2 ^ k := by
        rw [← hvalue, hnat, hpower]
        push_cast
        ring
      rw [hdigits]
      exact roundDouble_exact (Nat.mul_pos (by omega) (by positivity)) (by nlinarith) (by omega)
    · have hexact := @roundDouble_exact t 0 hpos h (by decide)
      rw [pow_zero, mul_one] at hexact
      rw [servedSeconds_short (by omega), hexact]
  rw [general_pos hq, hnat, stod_generalText hlow hhigh, ← hnat, hvalue, hdouble]
  rfl

/-- The nearest multiple of the unit is within one exactly when there is a multiple within one. -/
theorem abs_round_sub_le_one {unit : ℕ} (h : 0 < unit) (t : ℕ) :
    |(roundHalfEven (t / unit) : ℚ) * unit - t| ≤ 1 ↔ t % unit ≤ 1 ∨ unit ≤ t % unit + 1 := by
  have hunit : (0 : ℚ) < unit := Nat.cast_pos.mpr h
  obtain ⟨n, hn⟩ : ∃ n, n = roundHalfEven (t / unit : ℚ) := ⟨_, rfl⟩
  obtain ⟨hdown, hup⟩ := abs_le.mp (abs_roundHalfEven_sub (t / unit : ℚ))
  rw [← hn] at hdown hup ⊢
  have hscaled : (t : ℚ) / unit * unit = t := div_mul_cancel₀ _ hunit.ne'
  have hnear : -(unit : ℤ) ≤ 2 * (n * unit - t) ∧ 2 * (n * unit - t) ≤ (unit : ℤ) := by
    have hdown' : -(unit : ℚ) ≤ 2 * (n * unit - t) := by nlinarith
    have hup' : 2 * (n * unit - t) ≤ (unit : ℚ) := by nlinarith
    exact ⟨by exact_mod_cast hdown', by exact_mod_cast hup'⟩
  have hmod : (unit : ℤ) * (t / unit : ℕ) + (t % unit : ℕ) = t := by
    exact_mod_cast Nat.div_add_mod t unit
  have hlt : ((t % unit : ℕ) : ℤ) < unit := by exact_mod_cast Nat.mod_lt t h
  obtain ⟨k, rfl⟩ : ∃ k, n = (t / unit : ℕ) + k := ⟨n - (t / unit : ℕ), by ring⟩
  have hdistance : (((t / unit : ℕ) + k : ℤ) : ℚ) * unit - t =
      ((k * unit - (t % unit : ℕ) : ℤ) : ℚ) := by
    rw [← Int.cast_natCast t, ← hmod]
    push_cast
    ring
  have hdistance' : ((t / unit : ℕ) + k : ℤ) * unit - t = k * unit - (t % unit : ℕ) := by
    exact_mod_cast hdistance
  rw [hdistance'] at hnear
  -- the nearest multiple is the one below or the next one
  have hk : k = 0 ∨ k = 1 := by
    have hlow : -1 < k := by nlinarith
    have hhigh : k < 2 := by nlinarith
    omega
  rw [hdistance, abs_le]
  norm_cast
  rcases hk with rfl | rfl <;> omega

end Seconds

/-- A time that is within one of a multiple of the unit of its sixth digit. All times below 1000000
are. -/
def KeepsSecond (t : ℕ) : Prop := t % sixthUnit t ≤ 1 ∨ sixthUnit t ≤ t % sixthUnit t + 1

/-- The number reads back as a value within one of `t`. -/
def ReadsBack (number : Str) (t : ℕ) : Prop :=
  ∃ value : ℚ, stod number = some (.ofRat value) ∧ |value - t| ≤ 1

theorem readsBack_iff {t : ℕ} (h : t < 2 ^ 53) : ReadsBack (general (.ofRat t)) t ↔ KeepsSecond t := by
  rw [KeepsSecond, ← abs_round_sub_le_one (by unfold sixthUnit; positivity), ReadsBack,
    stod_general_nat h]
  constructor
  · rintro ⟨_, ⟨⟩, hnear⟩
    exact hnear
  · intro hnear
    exact ⟨_, rfl, hnear⟩

/-! ## 5. Replies -/

/-- `text` writes `number` for its time, between a colon and a comma; what is around does not depend
on the time. -/
def WritesTime (text number : Double → Str) : Prop :=
  ∃ front back, ∀ x, text x = front ++ byte ':' :: number x ++ byte ',' :: back

/-- A place of a time in the body of a response or the answer to a command. -/
inductive TimePlace where
  | devTime (before : List ResourceRecord) (record : ResourceRecord) (after : List ResourceRecord)
  | svrTime (before : List ResourceRecord) (record : ResourceRecord) (after : List ResourceRecord)
  | oneStatus (status : DeviceStatus)
  | statuses (before : List DeviceStatus) (status : DeviceStatus) (after : List DeviceStatus)
  | answer (before : List DeviceStatus) (status : DeviceStatus) (after : List DeviceStatus) (mid : Str)

/-- The text with the time at this place. -/
def TimePlace.text : TimePlace → Double → Str
  | .devTime before record after, x =>
    (Reply.records (before ++ { record with devTime := x } :: after)).toJson
  | .svrTime before record after, x =>
    (Reply.records (before ++ { record with svrTime := x } :: after)).toJson
  | .oneStatus status, x => (Reply.status { status with lastSuccessTime := x }).toJson
  | .statuses before status after, x =>
    (Reply.statuses (before ++ { status with lastSuccessTime := x } :: after)).toJson
  | .answer before status after mid, x =>
    (Answer.statuses (before ++ { status with lastSuccessTime := x } :: after) mid).toJson

section Places
variable {α : Type} {text number : Double → Str}

theorem WritesTime.within (h : WritesTime text number) (before after : Str) :
    WritesTime (fun x => before ++ text x ++ after) number := by
  obtain ⟨front, back, hwrites⟩ := h
  refine ⟨before ++ front, back ++ after, fun x => ?_⟩
  simp only [hwrites, List.append_assoc, List.cons_append]

theorem WritesTime.success (h : WritesTime text number) :
    WritesTime (fun x => jsonSuccess (text x)) number :=
  h.within (lit "\x7b\"success\":true,\"data\":") (lit "\x7d")

theorem WritesTime.array {toJson : α → Str} {item : Double → α}
    (h : WritesTime (fun x => toJson (item x)) number) (before after : List α) :
    WritesTime (fun x => arrayToJson toJson (before ++ item x :: after)) number := by
  obtain ⟨front, back, hwrites⟩ := h.within
    (lit "[" ++ (before.map toJson).flatMap (· ++ [byte ',']))
    ((after.map toJson).flatMap (byte ',' :: ·) ++ lit "]")
  refine ⟨front, back, fun x => Eq.trans ?_ (hwrites x)⟩
  dsimp only
  rw [arrayToJson, List.map_append, List.map_cons, Json.commaSep_split]
  simp only [List.append_assoc]
  rfl

/-- An object writes the time of a member that is not its last one. -/
theorem WritesTime.member (before : List (String × Part)) (key : String) (next : String × Part)
    (after : List (String × Part)) :
    WritesTime (fun x => (Part.object (before ++ (key, .time x) :: next :: after)).text) general := by
  refine ⟨lit "\x7b" ++ (before.map Part.memberText).flatMap (· ++ [byte ',']) ++ Json.quote (lit key),
    Part.memberText next ++ (after.map Part.memberText).flatMap (byte ',' :: ·) ++ lit "\x7d",
    fun x => ?_⟩
  show lit "\x7b" ++ Json.commaSep (List.map _ (before ++ (key, .time x) :: next :: after)) ++
    lit "\x7d" = _
  rw [List.map_append, List.map_cons, Json.commaSep_split, List.map_cons, List.flatMap_cons]
  simp only [Part.memberText, Part.time, List.append_assoc, List.cons_append]
  rfl

theorem WritesTime.devTime (record : ResourceRecord) :
    WritesTime (fun x => ResourceRecord.toJson { record with devTime := x }) general := by
  simp only [ResourceRecord.toJson_eq fun _ => [], ResourceRecord.part]
  exact .member [_, _, _] "devTime" _ _

theorem WritesTime.svrTime (record : ResourceRecord) :
    WritesTime (fun x => ResourceRecord.toJson { record with svrTime := x }) general := by
  simp only [ResourceRecord.toJson_eq fun _ => [], ResourceRecord.part]
  exact .member [_, _, _, _] "svrTime" _ _

theorem WritesTime.lastSuccessTime (status : DeviceStatus) :
    WritesTime (fun x => DeviceStatus.toJson { status with lastSuccessTime := x }) general := by
  simp only [DeviceStatus.toJson_eq, DeviceStatus.part]
  exact .member [_, _, _, _] "lastSuccessTime" _ _

theorem TimePlace.writesTime (place : TimePlace) : WritesTime place.text general := by
  cases place with
  | devTime before record after => exact ((WritesTime.devTime record).array before after).success
  | svrTime before record after => exact ((WritesTime.svrTime record).array before after).success
  | oneStatus status => exact (WritesTime.lastSuccessTime status).success
  | statuses before status after =>
    exact ((WritesTime.lastSuccessTime status).array before after).success
  | answer before status after mid =>
    exact ((WritesTime.lastSuccessTime status).array before after).within
      (lit "\x7b\"code\":200,\"msg\":\"ok\",\"mid\":\"" ++ escapeJson mid ++ lit "\",\"data\":")
      (lit "\x7d")

/-- Wherever a time is served: the integers whose number reads back as a value within one second are
those that are within one of a multiple of the unit of their sixth digit, and two of them that are
three seconds apart are read as two numbers. -/
theorem served_seconds_iff (place : TimePlace) :
    WritesTime place.text general ∧
      (∀ t : ℕ, t < 2 ^ 53 → (ReadsBack (general (.ofRat t)) t ↔ KeepsSecond t)) ∧
      ∀ t t' : ℕ, t' < 2 ^ 53 → KeepsSecond t → KeepsSecond t' → t + 3 ≤ t' →
        stod (general (.ofRat t)) ≠ stod (general (.ofRat t')) := by
  refine ⟨place.writesTime, fun t h => readsBack_iff h, fun t t' h hkeeps hkeeps' hapart hsame => ?_⟩
  obtain ⟨value, hread, hnear⟩ := (readsBack_iff (by omega)).mpr hkeeps
  obtain ⟨value', hread', hnear'⟩ := (readsBack_iff h).mpr hkeeps'
  obtain rfl : value = value' := by
    rw [hread, hread'] at hsame
    cases hsame
    rfl
  have hfar : (t : ℚ) + 3 ≤ t' := by exact_mod_cast hapart
  linarith [(abs_le.mp hnear).2, (abs_le.mp hnear').1]

/-- Two seconds of these years that are three apart: the body is the same for both. -/
theorem served_seconds_same : (TimePlace.oneStatus {}).text (.ofRat 1700000003) =
      (TimePlace.oneStatus {}).text (.ofRat 1700000000) ∧
    ¬ ReadsBack (general (.ofRat 1700000003)) 1700000003 := by
  constructor
  · decide +kernel
  · rw [show general (.ofRat 1700000003) = general (.ofRat ((1700000003 : ℕ) : ℚ)) by norm_num,
      readsBack_iff (by norm_num)]
    unfold KeepsSecond
    decide +kernel

end Places

end CollectorService
