import HwDrivers.Device
import HwDrivers.Producer

/-! The record of `/dev/mpu6050` read back by the producer. For every IRQ
count and every fixed-point sample, the four `fgets` of `parseRecord` take the
four lines `dev_read` writes, and each `%f` reads the numeral of a value as its
milli-units over 1000, exactly. The record is at most 132 bytes, so nothing is
truncated by `kbuf[256]` or by the producer's `line[128]`. -/

namespace HwDrivers

/-! ### One value -/

/-- The digits of `n / 1000`, a point, and `n % 1000` in three digits. -/
def numeral (n : ℕ) : List Char :=
  Nat.toDigits 10 (n / 1000) ++ '.' :: padded 3 ((n % 1000 : ℕ) : ℤ)

theorem fixedPieces_render (nonneg : String) (v : ℤ) :
    render (fixedPieces nonneg v) = signText nonneg v ++ numeral v.natAbs := by
  have habs : ∀ z : ℤ, (if z < 0 then -z else z) = z.natAbs := by
    intro z
    rw [Int.natCast_natAbs]
    split
    · rename_i h; exact (abs_of_neg h).symm
    · rename_i h; exact (abs_of_nonneg (not_lt.1 h)).symm
  have hwh : (v.tdiv 1000).natAbs = v.natAbs / 1000 := by rw [Int.natAbs_tdiv]; rfl
  have hfr : (v.tmod 1000).natAbs = v.natAbs % 1000 := by
    cases v with
    | ofNat m => rfl
    | negSucc m => exact Int.natAbs_neg _
  simp only [fixedPieces, render_cons, render_nil, FmtPiece.render, habs, hwh, hfr,
    padded_zero_of_nonneg, numeral, List.append_nil]
  rfl

theorem numeral_digits (n : ℕ) : ∀ c ∈ numeral n, isDigit c = true ∨ c = '.' := by
  intro c hc
  rcases List.mem_append.1 hc with hc | hc
  · exact .inl (toDigits_digits _ c hc)
  · rcases List.mem_cons.1 hc with hc | hc
    · exact .inr hc
    · exact .inl ((padded_three (Nat.mod_lt n (by decide))).2.1 c hc)

theorem numeral_cons (n : ℕ) : ∃ c s, numeral n = c :: s ∧ isDigit c = true := by
  obtain ⟨c, s, hcs⟩ := List.exists_cons_of_ne_nil (toDigits_ne_nil (n / 1000))
  exact ⟨c, s ++ '.' :: padded 3 ((n % 1000 : ℕ) : ℤ), by simp [numeral, hcs],
    toDigits_digits (n / 1000) c (by simp [hcs])⟩

theorem numeral_length_le {n : ℕ} (h : n ≤ 2 ^ 31) : (numeral n).length ≤ 11 := by
  have hd := toDigits_length_le (show n / 1000 < 10 ^ 7 by omega) (by decide)
  have hp := (padded_three (Nat.mod_lt n (show 0 < 1000 by decide))).1
  simp only [numeral, List.length_append, List.length_cons, hp]
  omega

/-! ### Reading a value back -/

theorem spanDigits_append {ds : List Char} (hd : ∀ c ∈ ds, isDigit c = true) {c : Char}
    (hc : isDigit c = false) (t : List Char) : spanDigits (ds ++ c :: t) = (ds, c :: t) := by
  simp [spanDigits, List.takeWhile_append_of_pos hd, List.dropWhile_append_of_pos hd, hc]

theorem scanSign_of_digit {c : Char} (hc : isDigit c = true) (s : List Char) :
    scanSign (c :: s) = (false, c :: s) := by
  have h1 : c ≠ '-' := by rintro rfl; cases hc
  have h2 : c ≠ '+' := by rintro rfl; cases hc
  simp [scanSign, h1, h2]

theorem scanFloat_numeral (neg : Bool) (n : ℕ) (t : List Char) :
    scanFloat ((if neg then ['-'] else []) ++ numeral n ++ ',' :: t) =
      some (if neg then -((n : ℚ) / 1000) else (n : ℚ) / 1000, ',' :: t) := by
  have hsign : scanSign ((if neg then ['-'] else []) ++ numeral n ++ ',' :: t) =
      (neg, numeral n ++ ',' :: t) := by
    cases neg
    · obtain ⟨c, s, hcs, hc⟩ := numeral_cons n
      simp only [Bool.false_eq_true, if_false, List.nil_append, hcs, List.cons_append]
      exact scanSign_of_digit hc _
    · rfl
  have hp := padded_three (Nat.mod_lt n (show 0 < 1000 by decide))
  have hwhole : spanDigits (numeral n ++ ',' :: t) =
      (Nat.toDigits 10 (n / 1000), '.' :: (padded 3 ((n % 1000 : ℕ) : ℤ) ++ ',' :: t)) := by
    rw [numeral, List.append_assoc, List.cons_append]
    exact spanDigits_append (toDigits_digits _) (show isDigit '.' = false from rfl) _
  have hfrac : spanDigits (padded 3 ((n % 1000 : ℕ) : ℤ) ++ ',' :: t) =
      (padded 3 ((n % 1000 : ℕ) : ℤ), ',' :: t) :=
    spanDigits_append hp.2.1 (show isDigit ',' = false from rfl) _
  have hval : (digitsValue (Nat.toDigits 10 (n / 1000) ++ padded 3 ((n % 1000 : ℕ) : ℤ)) : ℚ) /
      10 ^ (padded 3 ((n % 1000 : ℕ) : ℤ)).length = (n : ℚ) / 1000 := by
    rw [digitsValue_append, digitsValue_toDigits, hp.2.2, hp.1,
      show n / 1000 * 10 ^ 3 + n % 1000 = n by omega]
    norm_num
  simp only [scanFloat, hsign, hwhole, hfrac, toDigits_ne_nil, false_and, if_false, hval]
  cases neg <;> rfl

theorem isSpace_of_isDigit {c : Char} (h : isDigit c = true) : isSpace c = false := by
  simp only [isDigit, Bool.and_eq_true, decide_eq_true_eq] at h
  simp only [isSpace, Bool.or_eq_false_iff, beq_eq_false_iff_ne, ne_eq]
  refine ⟨⟨⟨⟨⟨?_, ?_⟩, ?_⟩, ?_⟩, ?_⟩, ?_⟩ <;> (rintro rfl; exact absurd h (by decide))

theorem skipSpace_numeral (neg : Bool) (n : ℕ) (t : List Char) :
    skipSpace ((if neg then ['-'] else []) ++ numeral n ++ t) =
      (if neg then ['-'] else []) ++ numeral n ++ t := by
  cases neg
  · obtain ⟨c, s, hcs, hc⟩ := numeral_cons n
    simp [skipSpace, hcs, isSpace_of_isDigit hc]
  · rfl

theorem skipSpace_signText {nonneg : String} (hs : ∀ c ∈ nonneg.toList, isSpace c = true)
    (v : ℤ) (n : ℕ) (t : List Char) :
    skipSpace (signText nonneg v ++ numeral n ++ t) =
      (if decide (v < 0) then ['-'] else []) ++ numeral n ++ t := by
  unfold signText
  split
  · rename_i h
    simp only [h, decide_True, if_true]
    exact skipSpace_numeral true n t
  · rename_i h
    rw [List.append_assoc, skipSpace, List.dropWhile_append_of_pos hs, ← skipSpace]
    simpa [h] using skipSpace_numeral false n t

theorem signed_natAbs (v : ℤ) :
    (if v < 0 then -((v.natAbs : ℚ) / 1000) else (v.natAbs : ℚ) / 1000) = (v : ℚ) / 1000 := by
  cases v with
  | ofNat m => simp
  | negSucc m =>
    simp only [Int.negSucc_lt_zero, if_true, Int.natAbs_negSucc, Int.cast_negSucc]
    push_cast
    ring

theorem scanf_fixed {nonneg : String} (hs : ∀ c ∈ nonneg.toList, isSpace c = true) (v : ℤ)
    (fmt : List ScanDirective) (t : List Char) :
    scanf (.space :: .float :: fmt) (render (fixedPieces nonneg v) ++ ',' :: t) =
      (.float ((v : ℚ) / 1000) :: (scanf fmt (',' :: t)).1, (scanf fmt (',' :: t)).2) := by
  have hf := scanFloat_numeral (decide (v < 0)) v.natAbs t
  simp only [decide_eq_true_eq] at hf
  simp only [scanf, fixedPieces_render, skipSpace_signText hs, skipSpace_numeral]
  simp only [decide_eq_true_eq, hf, signed_natAbs]

theorem fixedPieces_line {nonneg : String} (hn : '\n' ∉ nonneg.toList)
    (h1 : nonneg.toList.length ≤ 1) (v : CInt) :
    '\n' ∉ render (fixedPieces nonneg v.1) ∧ (render (fixedPieces nonneg v.1)).length ≤ 12 := by
  have hv : v.1.natAbs ≤ 2 ^ 31 := by have := v.2; omega
  have hsign : '\n' ∉ signText nonneg v.1 ∧ (signText nonneg v.1).length ≤ 1 := by
    unfold signText; split
    · exact ⟨by decide, by decide⟩
    · exact ⟨hn, h1⟩
  rw [fixedPieces_render, List.mem_append, List.length_append]
  refine ⟨fun h => h.elim hsign.1 fun h => ?_, by have := numeral_length_le hv; omega⟩
  rcases numeral_digits _ _ h with h | h <;> cases h

/-! ### The record -/

/-- A line of a record: no newline in it, and at most 45 bytes. -/
structure RecordLine (l : List Char) : Prop where
  no_newline : '\n' ∉ l
  length_le : l.length ≤ 45

theorem takeLine_append {l : List Char} (hl : '\n' ∉ l) {n : ℕ} (hn : l.length < n)
    (rest : List Char) : takeLine n (l ++ '\n' :: rest) = (l ++ ['\n'], rest) := by
  obtain ⟨m, rfl⟩ : ∃ m, n = m + 1 := ⟨n - 1, by omega⟩
  induction l generalizing m with
  | nil => simp [takeLine]
  | cons c l ih =>
    have hc : c ≠ '\n' := fun h => hl (h ▸ List.mem_cons_self _ _)
    obtain ⟨k, rfl⟩ : ∃ k, m = k + 1 := ⟨m - 1, by simp at hn; omega⟩
    simp only [List.cons_append, takeLine, hc, if_false, List.append_eq]
    rw [ih (fun h => hl (List.mem_cons_of_mem _ h)) k (by simp at hn; omega)]

theorem fgets_line {l : List Char} (h : RecordLine l) (rest : List Char) :
    fgets 128 (l ++ '\n' :: rest) = some (l ++ ['\n'], rest) := by
  have := h.length_le
  cases l <;> exact congrArg some (takeLine_append h.no_newline (by omega) rest)

/-- Three printed values separated by commas, then `tail`. -/
def threeText (nonneg : String) (a b c : ℤ) (tail : List Char) : List Char :=
  render (fixedPieces nonneg a) ++ ',' :: (render (fixedPieces nonneg b) ++ ',' ::
    (render (fixedPieces nonneg c) ++ ',' :: tail))

theorem threeText_line (a b c : CInt) {tail : List Char} (ht : '\n' ∉ tail)
    (hl : tail.length ≤ 6) : RecordLine (threeText " " a.1 b.1 c.1 tail) := by
  have ha := @fixedPieces_line " " (by decide) (by decide) a
  have hb := @fixedPieces_line " " (by decide) (by decide) b
  have hc := @fixedPieces_line " " (by decide) (by decide) c
  simp only [threeText]
  refine ⟨?_, by simp only [List.length_append, List.length_cons]; omega⟩
  simp only [List.mem_append, List.mem_cons]
  rintro (h | h | h | h | h | h | h)
  · exact ha.1 h
  · cases h
  · exact hb.1 h
  · cases h
  · exact hc.1 h
  · cases h
  · exact ht h

theorem threeText_append (nonneg : String) (a b c : ℤ) (tail u : List Char) :
    threeText nonneg a b c tail ++ u = threeText nonneg a b c (tail ++ u) := by
  simp [threeText]

theorem scanf_threeText (a b c : ℤ) (tail : List Char) :
    (scanf threeFloats (threeText " " a b c tail)).1 =
      [.float ((a : ℚ) / 1000), .float ((b : ℚ) / 1000), .float ((c : ℚ) / 1000)] := by
  have hs : ∀ c ∈ (" " : String).toList, isSpace c = true := by decide
  have hcomma : ∀ fmt t, scanf (.space :: .lit ',' :: fmt) (',' :: t) = scanf fmt t :=
    fun _ _ => rfl
  simp only [threeFloats, threeText, scanf_fixed hs, hcomma]
  rfl

/-- The four lines of a record, without their newlines. -/
def irqLine (irq : UInt32) : List Char := "IRQ count: ".toList ++ Nat.toDigits 10 irq.toNat

def accelLine (fx : FixedSample) : List Char :=
  threeText " " fx.ax_mg.1 fx.ay_mg.1 fx.az_mg.1 " [g]".toList

def gyroLine (fx : FixedSample) : List Char :=
  threeText " " fx.gx_mdps.1 fx.gy_mdps.1 fx.gz_mdps.1 " [dps]".toList

def tempLine (fx : FixedSample) : List Char :=
  render (fixedPieces "" fx.temp_mdegC.1) ++ ',' :: " [\xC2\xB0C]".toList

theorem irqLine_line (irq : UInt32) : RecordLine (irqLine irq) := by
  have hirq := toDigits_length_le (show irq.toNat < 10 ^ 10 by
    have := irq.toNat_lt_size; unfold UInt32.size at this; omega) (by decide)
  refine ⟨?_, by simp only [irqLine, List.length_append]; simp; omega⟩
  rw [irqLine, List.mem_append]
  rintro (h | h)
  · exact absurd h (by decide)
  · cases toDigits_digits _ _ h

theorem accelLine_line (fx : FixedSample) : RecordLine (accelLine fx) :=
  threeText_line _ _ _ (by decide) (by decide)

theorem gyroLine_line (fx : FixedSample) : RecordLine (gyroLine fx) :=
  threeText_line _ _ _ (by decide) (by decide)

theorem tempLine_line (fx : FixedSample) : RecordLine (tempLine fx) := by
  have ht := @fixedPieces_line "" (by decide) (by decide) fx.temp_mdegC
  refine ⟨?_, by simp only [tempLine, List.length_append, List.length_cons]; simp; omega⟩
  rw [tempLine, List.mem_append]
  rintro (h | h)
  · exact ht.1 h
  · exact absurd h (by decide)

theorem devRead_lines (irq : UInt32) (r : RawSample) (fx : FixedSample) :
    devRead irq (some (r, fx)) =
      irqLine irq ++ '\n' ::
        (accelLine fx ++ '\n' :: (gyroLine fx ++ '\n' :: (tempLine fx ++ ['\n']))) := by
  have l0 := (irqLine_line irq).length_le
  have l1 := (accelLine_line fx).length_le
  have l2 := (gyroLine_line fx).length_le
  have l3 := (tempLine_line fx).length_le
  have hhead :
      scnprintf 256 [.text "IRQ count: ", .u irq.toNat, .text "\n"] = irqLine irq ++ ['\n'] := by
    rw [scnprintf_of_le] <;> simp only [render_cons, render_nil, FmtPiece.render]
    · simp [irqLine]
    · simp only [irqLine, List.length_append] at l0 ⊢; simp; omega
  have hpacked : render (packedPieces fx) =
      accelLine fx ++ '\n' :: (gyroLine fx ++ '\n' :: (tempLine fx ++ ['\n'])) := by
    have e1 : (",").toList = [','] := rfl
    have e2 : (", [g]\n").toList = ',' :: (" [g]".toList ++ ['\n']) := rfl
    have e3 : (", [dps]\n").toList = ',' :: (" [dps]".toList ++ ['\n']) := rfl
    have e4 : (", [\xC2\xB0C]\n").toList = ',' :: (" [\xC2\xB0C]".toList ++ ['\n']) := rfl
    simp only [packedPieces, render_append, render_cons, render_nil, FmtPiece.render, accelLine,
      gyroLine, tempLine, threeText, e1, e2, e3, e4, List.append_assoc, List.cons_append,
      List.singleton_append, List.nil_append, List.append_nil]
  have hmsg : mpu6050KddPrintMsg (256 - (irqLine irq ++ ['\n']).length) r fx false true =
      render (packedPieces fx) := by
    simp only [mpu6050KddPrintMsg, Bool.false_eq_true, if_false, if_true, List.nil_append,
      List.length_nil, Nat.sub_zero]
    apply scnprintf_of_le
    rw [hpacked]
    simp only [List.length_append, List.length_cons, List.length_nil]
    omega
  simp only [devRead, hhead]
  rw [hmsg, hpacked]
  simp only [List.append_assoc, List.singleton_append]

/-- Every record `dev_read` writes for a sample is accepted by the producer,
which reads each of the seven values as exactly its fixed-point milli-units
over 1000, whatever the IRQ count. -/
theorem parseRecord_devRead (irq : UInt32) (r : RawSample) (fx : FixedSample) :
    parseRecord (devRead irq (some (r, fx))) =
      some ⟨(fx.ax_mg.1 : ℚ) / 1000, (fx.ay_mg.1 : ℚ) / 1000, (fx.az_mg.1 : ℚ) / 1000,
        (fx.gx_mdps.1 : ℚ) / 1000, (fx.gy_mdps.1 : ℚ) / 1000, (fx.gz_mdps.1 : ℚ) / 1000,
        (fx.temp_mdegC.1 : ℚ) / 1000⟩ := by
  have hs : ∀ c ∈ ("" : String).toList, isSpace c = true := by decide
  rw [devRead_lines, parseRecord]
  simp only [fgets_line (irqLine_line irq), fgets_line (accelLine_line fx),
    fgets_line (gyroLine_line fx), fgets_line (tempLine_line fx), Option.bind_eq_bind,
    Option.some_bind]
  simp only [accelLine, gyroLine, tempLine, threeText_append, scanf_threeText, oneFloat,
    List.append_assoc, List.cons_append, scanf_fixed hs]
  rfl

theorem devRead_none (irq : UInt32) :
    devRead irq none = irqLine irq ++ '\n' :: ("(no sample yet)".toList ++ ['\n']) := by
  have l0 := (irqLine_line irq).length_le
  rw [devRead, scnprintf_of_le] <;> simp only [render_cons, render_nil, FmtPiece.render]
  · simp [irqLine]
  · simp only [irqLine, List.length_append] at l0 ⊢; simp; omega

theorem parseRecord_devRead_none (irq : UInt32) : parseRecord (devRead irq none) = none := by
  have hl : RecordLine "(no sample yet)".toList := ⟨by decide, by decide⟩
  rw [devRead_none, parseRecord]
  simp only [fgets_line (irqLine_line irq), fgets_line hl, Option.bind_eq_bind, Option.some_bind]
  rfl

/-! ### What the producer can store -/

/-- The largest magnitude of a value `dev_read` prints: an `int` over 1000. -/
def deviceBound : ℚ := 2 ^ 31 / 1000

/-- A stream that delivers one whole record of `dev_read`, as the producer's
first `fgets` gets it from one `read` of the device. -/
def DeviceRead.IsRecord : DeviceRead → Prop
  | .opened f => ∃ irq sample, f = devRead irq sample
  | _ => True

theorem abs_cint_div_le (n : CInt) : |(n.1 : ℚ) / 1000| ≤ deviceBound := by
  have h := n.2
  have hn : |(n.1 : ℚ)| ≤ 2 ^ 31 := by
    rw [abs_le]
    constructor <;> exact_mod_cast (by omega)
  rw [deviceBound, abs_div, abs_of_pos (by norm_num : (0 : ℚ) < 1000)]
  exact div_le_div_of_nonneg_right hn (by norm_num)

theorem cycleSample_within {r : DeviceRead} (hr : r.IsRecord) {s : Sample}
    (h : cycleSample r = some s) : s.Within deviceBound := by
  cases r with
  | opened f =>
    obtain ⟨irq, sample, rfl⟩ := hr
    rcases sample with _ | ⟨raw, fx⟩
    · rw [cycleSample, parseRecord_devRead_none] at h
      cases h
    · rw [cycleSample, parseRecord_devRead] at h
      cases h
      intro v hv
      simp only [Sample.values, List.mem_cons, List.mem_singleton, List.not_mem_nil,
        or_false] at hv
      rcases hv with rfl | rfl | rfl | rfl | rfl | rfl | rfl <;> exact abs_cint_div_le _
  | _ => cases h

/-- Over every run of the producer on whole records of `/dev/mpu6050`, every
sample of the ring buffer and the average are within what the device prints. -/
theorem producerRun_within (rs : List DeviceRead) (hrs : ∀ r ∈ rs, r.IsRecord) :
    (producerRun rs).Within deviceBound := by
  have hB : (0 : ℚ) ≤ deviceBound := by norm_num [deviceBound]
  rw [producerRun, foldl_producerCycle]
  refine (SharedData.within_zero hB).foldl_append hB fun s hs => ?_
  obtain ⟨r, hr, hs⟩ := List.mem_filterMap.1 hs
  exact cycleSample_within (hrs r hr) hs

end HwDrivers
