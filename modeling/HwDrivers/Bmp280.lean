import HwDrivers.Record
import HwDrivers.I2c2

/-! The BMP280 driver of `04_I2C`. Each `dev_read` reads the six data registers
(`read_raw_data`), compensates them with the datasheet's integer formulas
(`compensate_data`, section 3.11.3) and formats the line
`Temp: %d.%02d Â°C, Press: %d.%02d hPa`. The calibration words are those
`init_bmp280` read at probe time. -/

namespace HwDrivers

/-- A `u16`. -/
abbrev U16 := {n : ℕ // n < 2 ^ 16}

/-- An `s16`. -/
abbrev S16 := {z : ℤ // -2 ^ 15 ≤ z ∧ z < 2 ^ 15}

/-- A `uint32_t`. -/
abbrev U32 := {n : ℕ // n < 2 ^ 32}

/-- `calib_data_t`. -/
structure CalibData where
  dig_T1 : U16
  dig_T2 : S16
  dig_T3 : S16
  dig_P1 : U16
  dig_P2 : S16
  dig_P3 : S16
  dig_P4 : S16
  dig_P5 : S16
  dig_P6 : S16
  dig_P7 : S16
  dig_P8 : S16
  dig_P9 : S16
  deriving DecidableEq

/-- `raw_data_t`; the two `xlsb` fields hold the upper four bits of their register. -/
structure RawData where
  press_msb : UInt8
  press_lsb : UInt8
  press_xlsb : UInt8
  temp_msb : UInt8
  temp_lsb : UInt8
  temp_xlsb : UInt8
  deriving DecidableEq, Repr

/-- `bmp280_data_t`: the temperature in 0.01 °C, the pressure in Q24.8 Pa. -/
structure BmpData where
  temp : CInt
  press : U32
  deriving DecidableEq

def EIO : ℤ := 5

/-- `read_raw_data`: what `i2c_smbus_read_i2c_block_data(client, 0xF7, 6, buf)`
returned (an error, or the bytes it read) decoded, or the error it returns. -/
def readRawData : Except ℤ (List UInt8) → Except ℤ RawData
  | .error e => .error e
  | .ok [b0, b1, b2, b3, b4, b5] => .ok ⟨b0, b1, (b2 &&& 0xF0) >>> 4, b3, b4, (b5 &&& 0xF0) >>> 4⟩
  | .ok _ => .error (- EIO)

theorem wrapS32_shiftRight_mem (z : ℤ) :
    -2 ^ 31 ≤ wrapS32 z >>> (8 : ℕ) ∧ wrapS32 z >>> (8 : ℕ) < 2 ^ 31 := by
  rw [Int.shiftRight_eq_div_pow]
  unfold wrapS32
  omega

/-- The conversion to `uint32_t`. -/
def toU32 (z : ℤ) : U32 := ⟨(z % 2 ^ 32).toNat, by omega⟩

/-- `compensate_data`. `>>` of a negative value is the arithmetic shift GCC emits. -/
def compensateData (c : CalibData) (raw : RawData) : BmpData :=
  let adc_T : ℤ := ((raw.temp_msb.toNat <<< 12) ||| (raw.temp_lsb.toNat <<< 4) |||
    raw.temp_xlsb.toNat : ℕ)
  let adc_P : ℤ := ((raw.press_msb.toNat <<< 12) ||| (raw.press_lsb.toNat <<< 4) |||
    raw.press_xlsb.toNat : ℕ)
  let T1 : ℤ := c.dig_T1.1
  let var1 := wrapS32 (((adc_T >>> (3 : ℕ)) - T1 * 2) * c.dig_T2.1) >>> (11 : ℕ)
  let var2 := wrapS32 ((wrapS32 (((adc_T >>> (4 : ℕ)) - T1) * ((adc_T >>> (4 : ℕ)) - T1)) >>>
    (12 : ℕ)) * c.dig_T3.1) >>> (14 : ℕ)
  let t_fine := wrapS32 (var1 + var2)
  let temp := wrapS32 (t_fine * 5 + 128) >>> (8 : ℕ)
  let varp1 := t_fine - 128000
  let varp2 := wrapS64 (varp1 * varp1 * c.dig_P6.1)
  let varp2 := wrapS64 (varp2 + varp1 * c.dig_P5.1 * 2 ^ 17)
  let varp2 := wrapS64 (varp2 + c.dig_P4.1 * 2 ^ 35)
  let varp1 := wrapS64 ((wrapS64 (varp1 * varp1 * c.dig_P3.1) >>> (8 : ℕ)) +
    varp1 * c.dig_P2.1 * 2 ^ 12)
  let varp1 := wrapS64 ((2 ^ 47 + varp1) * c.dig_P1.1) >>> (33 : ℕ)
  let press : ℤ :=
    if varp1 = 0 then 0
    else
      let p := 1048576 - adc_P
      let p := wrapS64 ((wrapS64 ((p * 2 ^ 31 - varp2) * 3125)).tdiv varp1)
      let varp1 := wrapS64 (c.dig_P9.1 * (p >>> (13 : ℕ)) * (p >>> (13 : ℕ))) >>> (25 : ℕ)
      let varp2 := wrapS64 (c.dig_P8.1 * p) >>> (19 : ℕ)
      wrapS64 ((wrapS64 (p + varp1 + varp2) >>> (8 : ℕ)) + c.dig_P7.1 * 2 ^ 4)
  ⟨⟨temp, wrapS32_shiftRight_mem _⟩, toU32 press⟩

/-- The line `dev_read` formats: `"Temp: %d.%02d Â°C, Press: %d.%02d hPa\n"` with
`temp / 100`, `temp % 100`, `press / 25600` and `(press % 25600) * 100 / 25600`,
C's truncating `/` and `%`. The four bytes `Â°` are those of the source. -/
def bmpLine (d : BmpData) : List Char :=
  "Temp: ".toList ++ padded 0 (d.temp.1.tdiv 100) ++ '.' :: (padded 2 (d.temp.1.tmod 100) ++
    " \xC3\x82\xC2\xB0C, Press: ".toList ++ padded 0 (d.press.1 / 25600 : ℕ) ++ '.' ::
      (padded 2 ((d.press.1 % 25600) * 100 / 25600 : ℕ) ++ " hPa\n".toList))

/-- The line read back with its own format, as `sscanf(line, "Temp: %f Â°C,
Press: %f hPa")` reads it. -/
def bmpFormat : List ScanDirective :=
  lits "Temp:" ++ .space :: .float :: .space :: lits "\xC3\x82\xC2\xB0C," ++ .space ::
    lits "Press:" ++ .space :: .float :: .space :: lits "hPa"

/-! ### Reading the line back -/

theorem tdiv_tmod_of_nonneg {z : ℤ} (h : 0 ≤ z) :
    z.tdiv 100 = ((z.natAbs / 100 : ℕ) : ℤ) ∧ z.tmod 100 = ((z.natAbs % 100 : ℕ) : ℤ) := by
  obtain ⟨m, rfl⟩ := Int.eq_ofNat_of_zero_le h
  exact ⟨rfl, rfl⟩

theorem tdiv_tmod_of_neg {z : ℤ} (h : z < 0) :
    z.tdiv 100 = -((z.natAbs / 100 : ℕ) : ℤ) ∧ z.tmod 100 = -((z.natAbs % 100 : ℕ) : ℤ) := by
  cases z with
  | ofNat m => exact absurd h (Int.not_lt.2 (Int.ofNat_zero_le m))
  | negSucc m => exact ⟨rfl, rfl⟩

section Signed

variable (neg : Prop) [Decidable neg]

theorem skipSpace_signed {ds : List Char} (hd : ds ≠ []) (hdig : ∀ c ∈ ds, isDigit c = true)
    (t : List Char) :
    skipSpace ((if neg then ['-'] else []) ++ ds ++ t) =
      (if neg then ['-'] else []) ++ ds ++ t := by
  by_cases h : neg
  · simp only [h, if_true]; rfl
  · obtain ⟨c, s, rfl⟩ := List.exists_cons_of_ne_nil hd
    simp [h, skipSpace, isSpace_of_isDigit (hdig c (.head _))]

theorem scanFloat_decimal {ds frac : List Char} (hd : ds ≠ [])
    (hdig : ∀ c ∈ ds, isDigit c = true) (hfrac : ∀ c ∈ frac, isDigit c = true) {c : Char}
    (hc : isDigit c = false) (he : c ≠ 'e' ∧ c ≠ 'E') (t : List Char) :
    scanFloat ((if neg then ['-'] else []) ++ ds ++ '.' :: (frac ++ c :: t)) =
      some (if neg then -((digitsValue (ds ++ frac) : ℚ) / 10 ^ frac.length)
        else (digitsValue (ds ++ frac) : ℚ) / 10 ^ frac.length, c :: t) := by
  have hsign : scanSign ((if neg then ['-'] else []) ++ ds ++ '.' :: (frac ++ c :: t)) =
      (decide neg, ds ++ '.' :: (frac ++ c :: t)) := by
    by_cases h : neg
    · simp only [h, if_true, decide_True]; rfl
    · obtain ⟨c', s, rfl⟩ := List.exists_cons_of_ne_nil hd
      simpa [h] using scanSign_of_digit (hdig c' (.head _)) _
  have hwhole : spanDigits (ds ++ '.' :: (frac ++ c :: t)) = (ds, '.' :: (frac ++ c :: t)) :=
    spanDigits_append hdig (show isDigit '.' = false from rfl) _
  have hfr : spanDigits (frac ++ c :: t) = (frac, c :: t) := spanDigits_append hfrac hc _
  simp only [scanFloat, hsign, hwhole, hfr, hd, false_and, if_false, he, or_self,
    decide_eq_true_eq]

theorem scanf_space_float {ds frac : List Char} (hd : ds ≠ [])
    (hdig : ∀ c ∈ ds, isDigit c = true) (hfrac : ∀ c ∈ frac, isDigit c = true) {c : Char}
    (hc : isDigit c = false) (he : c ≠ 'e' ∧ c ≠ 'E') (fmt : List ScanDirective)
    (t : List Char) :
    scanf (.space :: .float :: fmt) (' ' :: ((if neg then ['-'] else []) ++ ds ++ '.' ::
        (frac ++ c :: t))) =
      (.float (if neg then -((digitsValue (ds ++ frac) : ℚ) / 10 ^ frac.length)
        else (digitsValue (ds ++ frac) : ℚ) / 10 ^ frac.length) :: (scanf fmt (c :: t)).1,
        (scanf fmt (c :: t)).2) := by
  have hskip : skipSpace (' ' :: ((if neg then ['-'] else []) ++ ds ++ '.' ::
      (frac ++ c :: t))) = (if neg then ['-'] else []) ++ ds ++ '.' :: (frac ++ c :: t) := by
    rw [skipSpace, List.dropWhile_cons_of_pos rfl, ← skipSpace, skipSpace_signed neg hd hdig]
  simp only [scanf, hskip, skipSpace_signed neg hd hdig, scanFloat_decimal neg hd hdig hfrac hc he]

end Signed

theorem scanf_lits_append (s : String) (fmt : List ScanDirective) (t : List Char) :
    scanf (lits s ++ fmt) (s.toList ++ t) = scanf fmt t := by
  unfold lits
  induction s.toList with
  | nil => rfl
  | cons c cs ih => simp [scanf, ih]

theorem bmpLine_eq (d : BmpData) :
    bmpLine d = "Temp:".toList ++ ' ' :: (padded 0 (d.temp.1.tdiv 100) ++ '.' ::
      (padded 2 (d.temp.1.tmod 100) ++ ' ' :: ("\xC3\x82\xC2\xB0C,".toList ++ ' ' ::
        ("Press:".toList ++ ' ' :: (padded 0 (d.press.1 / 25600 : ℕ) ++ '.' ::
          (padded 2 ((d.press.1 % 25600) * 100 / 25600 : ℕ) ++ ' ' :: ("hPa".toList ++ ['\n']))))))) := by
  simp only [bmpLine, List.append_assoc, List.cons_append]
  rfl

theorem bmpFormat_eq :
    bmpFormat = lits "Temp:" ++ .space :: .float :: .space :: (lits "\xC3\x82\xC2\xB0C," ++
      .space :: (lits "Press:" ++ .space :: .float :: .space :: lits "hPa")) := by
  simp only [bmpFormat, List.append_assoc, List.cons_append]

theorem scanf_space_lits {s : String} (hs : ∃ c cs, s.toList = c :: cs ∧ isSpace c = false)
    (fmt : List ScanDirective) (t : List Char) :
    scanf (.space :: (lits s ++ fmt)) (' ' :: (s.toList ++ t)) = scanf fmt t := by
  obtain ⟨c, cs, h, hc⟩ := hs
  have hskip : skipSpace (' ' :: (s.toList ++ t)) = s.toList ++ t := by
    rw [skipSpace, List.dropWhile_cons_of_pos rfl, h, List.cons_append,
      List.dropWhile_cons_of_neg (by simp [hc])]
  rw [scanf, hskip, scanf_lits_append]

theorem scanf_space_lits_stop {s : String} {c d : Char} {cs : List Char} (hs : s.toList = c :: cs)
    (hd : isSpace d = false) (hcd : d ≠ c) (fmt : List ScanDirective) (t : List Char) :
    scanf (.space :: (lits s ++ fmt)) (d :: t) = ([], d :: t) := by
  unfold lits
  rw [hs]
  simp [scanf, skipSpace, hd, hcd]

theorem scanf_bmpFormat (negT negP : Prop) [Decidable negT] [Decidable negP]
    {dT fT dP fP : List Char} (hdT : dT ≠ []) (hdigT : ∀ c ∈ dT, isDigit c = true)
    (hfT : ∀ c ∈ fT, isDigit c = true) (hdP : dP ≠ []) (hdigP : ∀ c ∈ dP, isDigit c = true)
    (hfP : ∀ c ∈ fP, isDigit c = true) :
    (scanf bmpFormat ("Temp:".toList ++ ' ' :: ((if negT then ['-'] else []) ++ dT ++ '.' ::
      (fT ++ ' ' :: ("\xC3\x82\xC2\xB0C,".toList ++ ' ' :: ("Press:".toList ++ ' ' ::
        ((if negP then ['-'] else []) ++ dP ++ '.' :: (fP ++ ' ' :: ("hPa".toList ++
          ['\n']))))))))).1 =
      [.float (if negT then -((digitsValue (dT ++ fT) : ℚ) / 10 ^ fT.length)
        else (digitsValue (dT ++ fT) : ℚ) / 10 ^ fT.length),
       .float (if negP then -((digitsValue (dP ++ fP) : ℚ) / 10 ^ fP.length)
        else (digitsValue (dP ++ fP) : ℚ) / 10 ^ fP.length)] := by
  have hsp : isDigit ' ' = false := rfl
  have hne : ' ' ≠ 'e' ∧ ' ' ≠ 'E' := by decide
  rw [bmpFormat_eq, scanf_lits_append, scanf_space_float negT hdT hdigT hfT hsp hne,
    @scanf_space_lits "\xC3\x82\xC2\xB0C," ⟨_, _, rfl, rfl⟩,
    @scanf_space_lits "Press:" ⟨_, _, rfl, rfl⟩,
    scanf_space_float negP hdP hdigP hfP hsp hne, ← List.append_nil (lits "hPa"),
    @scanf_space_lits "hPa" ⟨_, _, rfl, rfl⟩]
  rfl

theorem natAbs_signed_cast (z : ℤ) :
    (if z < 0 then -(z.natAbs : ℚ) else (z.natAbs : ℚ)) = z := by
  cases z with
  | ofNat m => simp
  | negSucc m => simp only [Int.negSucc_lt_zero, if_true, Int.natAbs_negSucc, Int.cast_negSucc]

theorem pressure_digits (P : ℕ) :
    padded 0 (P / 25600 : ℕ) = (if ((P / 25600 : ℕ) : ℤ) < 0 then ['-'] else []) ++
      Nat.toDigits 10 (P / 25600) ∧
    (padded 2 ((P % 25600) * 100 / 25600 : ℕ)).length = 2 ∧
    (∀ c ∈ padded 2 ((P % 25600) * 100 / 25600 : ℕ), isDigit c = true) ∧
    (if ((P / 25600 : ℕ) : ℤ) < 0 then
      -((digitsValue (Nat.toDigits 10 (P / 25600) ++ padded 2 ((P % 25600) * 100 / 25600 : ℕ)) : ℚ)
        / 10 ^ 2)
      else (digitsValue (Nat.toDigits 10 (P / 25600) ++ padded 2 ((P % 25600) * 100 / 25600 : ℕ)) : ℚ)
        / 10 ^ 2) = ((P / 256 : ℕ) : ℚ) / 100 := by
  have hp := padded_width (show (P % 25600) * 100 / 25600 < 10 ^ 2 by omega) (by decide)
  refine ⟨by rw [padded_zero, Int.natAbs_ofNat], hp.1, hp.2.1, ?_⟩
  rw [if_neg (by omega), digitsValue_append, digitsValue_toDigits, hp.2.2, hp.1,
    show P / 25600 * 10 ^ 2 + P % 25600 * 100 / 25600 = P / 256 by omega]
  norm_num

theorem temp_value {T : ℤ} (h : 0 ≤ T ∨ T.tmod 100 = 0) :
    (if T.tdiv 100 < 0 then -((((T.tdiv 100).natAbs * 10 ^ 2 + T.natAbs % 100 : ℕ) : ℚ) / 10 ^ 2)
      else (((T.tdiv 100).natAbs * 10 ^ 2 + T.natAbs % 100 : ℕ) : ℚ) / 10 ^ 2) = (T : ℚ) / 100 := by
  rcases le_or_lt 0 T with h0 | h0
  · obtain ⟨hq, -⟩ := tdiv_tmod_of_nonneg h0
    have hT : (T : ℚ) = ((T.natAbs : ℕ) : ℚ) := by rw [← Int.cast_natCast, Int.natAbs_of_nonneg h0]
    rw [hq, if_neg (by omega), Int.natAbs_ofNat, hT,
      show T.natAbs / 100 * 10 ^ 2 + T.natAbs % 100 = T.natAbs by omega]
    norm_num
  · obtain ⟨hq, hr⟩ := tdiv_tmod_of_neg h0
    have hT : (T : ℚ) = -((T.natAbs : ℕ) : ℚ) := by
      rw [← Int.cast_natCast, Int.ofNat_natAbs_of_nonpos h0.le, Int.cast_neg, neg_neg]
    rw [hq, if_pos (by omega), Int.natAbs_neg, Int.natAbs_ofNat, hT,
      show T.natAbs / 100 * 10 ^ 2 + T.natAbs % 100 = T.natAbs by omega]
    norm_num
    ring

theorem bmpLine_scanf_of_exact (d : BmpData) (h : 0 ≤ d.temp.1 ∨ d.temp.1.tmod 100 = 0) :
    (scanf bmpFormat (bmpLine d)).1 =
      [.float ((d.temp.1 : ℚ) / 100), .float (((d.press.1 / 256 : ℕ) : ℚ) / 100)] := by
  obtain ⟨hpz, hpl, hpd, hpv⟩ := pressure_digits d.press.1
  have hr : d.temp.1.tmod 100 = ((d.temp.1.natAbs % 100 : ℕ) : ℤ) := by
    rcases le_or_lt 0 d.temp.1 with h0 | h0
    · exact (tdiv_tmod_of_nonneg h0).2
    · have := (tdiv_tmod_of_neg h0).2; omega
  have hp := padded_width (show d.temp.1.natAbs % 100 < 10 ^ 2 from Nat.mod_lt _ (by decide))
    (by decide)
  rw [bmpLine_eq, padded_zero, hr, hpz, scanf_bmpFormat _ _ (toDigits_ne_nil _)
    (toDigits_digits _) hp.2.1 (toDigits_ne_nil _) (toDigits_digits _) hpd, hpl, hpv,
    digitsValue_append, digitsValue_toDigits, hp.2.2, hp.1, temp_value h]

theorem bmpLine_scanf_of_neg (d : BmpData) (h1 : d.temp.1 < 0) (h2 : d.temp.1.tmod 100 ≠ 0) :
    (scanf bmpFormat (bmpLine d)).1 = [.float ((d.temp.1.tdiv 100 : ℤ) : ℚ)] := by
  have hr : d.temp.1.tmod 100 < 0 := by have := (tdiv_tmod_of_neg h1).2; omega
  rw [bmpLine_eq, bmpFormat_eq, scanf_lits_append, padded_zero, padded_of_neg 2 hr,
    List.cons_append,
    show ∀ x : List Char, '.' :: '-' :: x = '.' :: ([] ++ '-' :: x) from fun _ => rfl,
    scanf_space_float _ (toDigits_ne_nil _) (toDigits_digits _) (fun _ h => by cases h)
      (show isDigit '-' = false from rfl) (by decide)]
  rw [@scanf_space_lits_stop "\xC3\x82\xC2\xB0C," '\xC3' '-' _ rfl rfl (by decide)]
  simp only [List.append_nil, List.length_nil, pow_zero, div_one, digitsValue_toDigits,
    natAbs_signed_cast]

/-- The line read back with its own format: both values, the pressure truncated
to hundredths of a hPa, exactly when the temperature is not negative or a whole
number of degrees; otherwise the whole part of the temperature alone. -/
theorem bmpLine_scanf (d : BmpData) :
    ((0 ≤ d.temp.1 ∨ d.temp.1.tmod 100 = 0) → (scanf bmpFormat (bmpLine d)).1 =
      [.float ((d.temp.1 : ℚ) / 100), .float (((d.press.1 / 256 : ℕ) : ℚ) / 100)]) ∧
    (d.temp.1 < 0 → d.temp.1.tmod 100 ≠ 0 →
      (scanf bmpFormat (bmpLine d)).1 = [.float ((d.temp.1.tdiv 100 : ℤ) : ℚ)]) :=
  ⟨bmpLine_scanf_of_exact d, bmpLine_scanf_of_neg d⟩

theorem bmpLine_length_le (d : BmpData) : (bmpLine d).length ≤ 48 := by
  have hT := d.temp.2
  have hP := d.press.2
  have h1 := @padded_length_le 0 8 (d.temp.1.tdiv 100)
    (by rw [Int.natAbs_tdiv]; show d.temp.1.natAbs / 100 < _; omega) (by decide)
  have h2 := @padded_length_le 2 2 (d.temp.1.tmod 100) (by
    rcases le_or_lt 0 d.temp.1 with h | h
    · rw [(tdiv_tmod_of_nonneg h).2, Int.natAbs_ofNat]; omega
    · rw [(tdiv_tmod_of_neg h).2, Int.natAbs_neg, Int.natAbs_ofNat]; omega) (by decide)
  have h3 := toDigits_length_le (show d.press.1 / 25600 < 10 ^ 6 by omega) (by decide)
  have h4 := (pressure_digits d.press.1).2.1
  simp only [bmpLine, List.length_append, List.length_cons, padded_zero_of_nonneg, h4]
  simp only [show "Temp: ".toList.length = 6 from rfl,
    show " \xC3\x82\xC2\xB0C, Press: ".toList.length = 15 from rfl,
    show " hPa\n".toList.length = 5 from rfl]
  omega

/-- `dev_read` of `/dev/i2c_bmp280` at file offset `pos`, asking for `count`
bytes: the bytes it copies and the new offset, or the error. `regs` is what the
read's own `i2c_smbus_read_i2c_block_data` returned. `snprintf` into `kbuf[64]`
stores at most 63 bytes and returns the length of the whole line. -/
def bmpDevRead (calib : CalibData) (regs : Except ℤ (List UInt8)) (pos count : ℕ) :
    Except ℤ (List Char × ℕ) :=
  match readRawData regs with
  | .error e => .error e
  | .ok raw =>
    let line := bmpLine (compensateData calib raw)
    let kbuf := line.take 63
    let len := line.length
    if len ≤ pos then .ok ([], pos)
    else
      let count := min count (len - pos)
      .ok ((kbuf.drop pos).take count, pos + count)

/-- The calibration of the datasheet's worked example. -/
def datasheetCalib : CalibData :=
  ⟨⟨27504, by decide⟩, ⟨26435, by decide⟩, ⟨-1000, by decide⟩, ⟨36477, by decide⟩,
    ⟨-10685, by decide⟩, ⟨3024, by decide⟩, ⟨2855, by decide⟩, ⟨140, by decide⟩,
    ⟨-7, by decide⟩, ⟨15500, by decide⟩, ⟨-14600, by decide⟩, ⟨6000, by decide⟩⟩

/-- The datasheet's example: `adc_T = 519888`, `adc_P = 415148` give 25.08 °C and
100653.27 Pa. -/
example : (compensateData datasheetCalib ⟨0x65, 0x5A, 0xC, 0x7E, 0xED, 0x0⟩).temp.1 = 2508 ∧
    (compensateData datasheetCalib ⟨0x65, 0x5A, 0xC, 0x7E, 0xED, 0x0⟩).press.1 = 25767233 := by
  decide

/-- The data registers `F7..FC` reading `65 5A C0 6A 46 00`: `adc_P = 415148`,
`adc_T = 435296`. -/
def subzeroRaw : RawData := ⟨0x65, 0x5A, 0xC, 0x6A, 0x46, 0x0⟩

/-- With the datasheet's calibration, the registers `65 5A C0 6A 46 00` are
-1.50 °C: `compensate_data` gives `-150`, and `dev_read` prints `-1.-50`. Read
with the line's own format, the temperature is `-1`, and the scan stops at the
`-` that follows. -/
theorem bmpLine_subzero :
    readRawData (.ok [0x65, 0x5A, 0xC0, 0x6A, 0x46, 0x00]) = .ok subzeroRaw ∧
      (compensateData datasheetCalib subzeroRaw).temp.1 = -150 ∧
      bmpLine (compensateData datasheetCalib subzeroRaw) =
        "Temp: -1.-50 \xC3\x82\xC2\xB0C, Press: 965.93 hPa\n".toList ∧
      (scanf bmpFormat (bmpLine (compensateData datasheetCalib subzeroRaw))).1 = [.float (-1)] := by
  have ht : (compensateData datasheetCalib subzeroRaw).temp.1 = -150 := by decide
  refine ⟨rfl, ht, by decide, ?_⟩
  rw [bmpLine_scanf_of_neg _ (by rw [ht]; decide) (by rw [ht]; decide), ht]
  rfl

theorem bmpLine_scanf_datasheet :
    let d := compensateData datasheetCalib ⟨0x65, 0x5A, 0xC, 0x7E, 0xED, 0x0⟩
    (0 ≤ d.temp.1 ∨ d.temp.1.tmod 100 = 0) ∧ (scanf bmpFormat (bmpLine d)).1 =
      [.float ((d.temp.1 : ℚ) / 100), .float (((d.press.1 / 256 : ℕ) : ℚ) / 100)] :=
  ⟨.inl (by decide), (bmpLine_scanf _).1 (.inl (by decide))⟩

/-! ### The calibration block read at probe time -/

/-- `le16_to_cpup` of two bytes, the low one first: a `u16`. -/
def le16 (lo hi : UInt8) : U16 :=
  ⟨lo.toNat + 256 * hi.toNat, by
    have := lo.toNat_lt_size
    have := hi.toNat_lt_size
    unfold UInt8.size at *
    omega⟩

/-- A `u16` stored in an `s16` field, as two's complement. -/
def toS16 (u : U16) : S16 :=
  ⟨if u.1 < 2 ^ 15 then u.1 else (u.1 : ℤ) - 2 ^ 16, by have := u.2; split <;> omega⟩

/-- Lines 87-98: `calib_data` from `buf[0..24)`, word `i` at bytes `2i` and `2i + 1`. -/
def parseCalib (buf : List UInt8) : CalibData :=
  let w (i : ℕ) : U16 := le16 (buf.getD (2 * i) 0) (buf.getD (2 * i + 1) 0)
  ⟨w 0, toS16 (w 1), toS16 (w 2), w 3, toS16 (w 4), toS16 (w 5), toS16 (w 6), toS16 (w 7),
    toS16 (w 8), toS16 (w 9), toS16 (w 10), toS16 (w 11)⟩

/-- `init_bmp280` with the results of its I2C calls: the chip-ID read, the writes
of `ctrl_meas` and `config`, and the calibration block read (an error, or the
bytes read). It returns the probe's result and the calibration it stores. -/
def initBmp280 (chipId wMeas wConfig : ℤ) (block : Except ℤ (List UInt8)) : ℤ × Option CalibData :=
  if chipId < 0 then (chipId, none)
  else if chipId ≠ 0x58 then (-ENODEV, none)
  else if wMeas < 0 then (wMeas, none)
  else if wConfig < 0 then (wConfig, none)
  else
    match block with
    | .error e => (e, none)
    | .ok buf => if buf.length ≠ 24 then (- EIO, none) else (0, some (parseCalib buf))

/-- The probe stores a calibration exactly when every call succeeds and the
block read has its 24 bytes, and it then stores the one they encode; a probe
that stores one returns `0`. -/
theorem initBmp280_some {chipId wMeas wConfig : ℤ} {block : Except ℤ (List UInt8)}
    {c : CalibData} :
    (initBmp280 chipId wMeas wConfig block).2 = some c ↔
      chipId = 0x58 ∧ 0 ≤ wMeas ∧ 0 ≤ wConfig ∧
        ∃ buf, block = .ok buf ∧ buf.length = 24 ∧ parseCalib buf = c := by
  unfold initBmp280
  split_ifs with h1 h2 h3 h4 <;> try (simp only [reduceCtorEq, false_iff]; omega)
  rcases block with e | buf
  · simp
  · simp only [Except.ok.injEq, exists_eq_left']
    split_ifs with h5 <;> simp_all

theorem initBmp280_some_ret {chipId wMeas wConfig : ℤ} {block : Except ℤ (List UInt8)}
    {c : CalibData} (h : (initBmp280 chipId wMeas wConfig block).2 = some c) :
    (initBmp280 chipId wMeas wConfig block).1 = 0 := by
  obtain ⟨rfl, h2, h3, buf, rfl, h4, -⟩ := initBmp280_some.1 h
  simp [initBmp280, h4, show ¬wMeas < 0 by omega, show ¬wConfig < 0 by omega]

/-- A word of the block, low byte first. -/
def le16Bytes (n : ℕ) : List UInt8 := [UInt8.ofNat (n % 256), UInt8.ofNat (n / 256)]

/-- The two's complement bits of an `s16`. -/
def S16.bits (s : S16) : ℕ := (s.1 % 2 ^ 16).toNat

/-- The block `0x88..0x9F` that holds a calibration: the twelve words in the
order of `calib_data_t`, each low byte first. -/
def CalibData.block (c : CalibData) : List UInt8 :=
  le16Bytes c.dig_T1.1 ++ le16Bytes c.dig_T2.bits ++ le16Bytes c.dig_T3.bits ++
    le16Bytes c.dig_P1.1 ++ le16Bytes c.dig_P2.bits ++ le16Bytes c.dig_P3.bits ++
    le16Bytes c.dig_P4.bits ++ le16Bytes c.dig_P5.bits ++ le16Bytes c.dig_P6.bits ++
    le16Bytes c.dig_P7.bits ++ le16Bytes c.dig_P8.bits ++ le16Bytes c.dig_P9.bits

theorem le16_bytes {n : ℕ} (h : n < 2 ^ 16) :
    le16 (UInt8.ofNat (n % 256)) (UInt8.ofNat (n / 256)) = ⟨n, h⟩ := by
  apply Subtype.ext
  simp only [le16, UInt8.toNat_ofNat_of_lt (show n % 256 < UInt8.size by unfold UInt8.size; omega),
    UInt8.toNat_ofNat_of_lt (show n / 256 < UInt8.size by unfold UInt8.size; omega)]
  omega

theorem le16Bytes_le16 (lo hi : UInt8) : le16Bytes (le16 lo hi).1 = [lo, hi] := by
  have h1 := lo.toNat_lt_size
  have h2 := hi.toNat_lt_size
  unfold UInt8.size at h1 h2
  simp only [le16Bytes, le16, List.cons.injEq, and_true]
  constructor <;> apply UInt8.toNat.inj <;>
    rw [UInt8.toNat_ofNat_of_lt (by unfold UInt8.size; omega)] <;> omega

theorem bits_lt (s : S16) : s.bits < 2 ^ 16 := by
  unfold S16.bits; omega

theorem toS16_bits (s : S16) : toS16 ⟨s.bits, bits_lt s⟩ = s := by
  have := s.2
  apply Subtype.ext
  simp only [toS16, S16.bits]
  split <;> omega

theorem bits_toS16 (u : U16) : (toS16 u).bits = u.1 := by
  have := u.2
  simp only [toS16, S16.bits]
  split <;> omega

/-- The calibration parser and the datasheet's layout are inverse: parsing the
block of any calibration gives it back, and every 24-byte block is the block of
the calibration parsed from it. No block is misread and none is lost. -/
theorem parseCalib_roundTrip :
    (∀ c : CalibData, parseCalib c.block = c) ∧
      ∀ b : Fin 24 → UInt8, (parseCalib (List.ofFn b)).block = List.ofFn b := by
  constructor
  · rintro ⟨t1, t2, t3, p1, p2, p3, p4, p5, p6, p7, p8, p9⟩
    simp only [parseCalib, CalibData.block, le16Bytes, List.cons_append, List.nil_append,
      List.getD_cons_succ, List.getD_cons_zero, Nat.reduceMul, Nat.reduceAdd]
    simp only [le16_bytes t1.2, le16_bytes p1.2, le16_bytes (bits_lt _), toS16_bits]
  · intro b
    simp only [List.ofFn_succ, List.ofFn_zero, parseCalib, CalibData.block, Fin.succ_zero_eq_one,
      List.getD_cons_succ, List.getD_cons_zero, Nat.reduceMul, Nat.reduceAdd, bits_toS16,
      le16Bytes_le16]
    rfl

end HwDrivers
