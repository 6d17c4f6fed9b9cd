import HwDrivers.Segment
import HwDrivers.Fifo

/-! `mpu6050_kdd_raw_to_sample_fixed` of the low-level primitives
(`src/unnamed/part_005`, lines 106-162): the registers of one reading turned
into milli-g, milli-degrees per second and milli-degrees Celsius with `s64`
products, C's truncating `/` and a conversion to `int`. -/

namespace HwDrivers

/-- The `switch` on `dev->accel_scale`: the full scale in g. The enumerators
`MPU6050_ACCEL_SCALE_2G` to `_16G` are `0 << 3` to `3 << 3`. -/
def accelFullScale (as : ℤ) : ℤ :=
  match as with
  | 0 => 2
  | 8 => 4
  | 16 => 8
  | 24 => 16
  | _ => 2

/-- The `switch` on `dev->gyro_scale`: the full scale in degrees per second. -/
def gyroFullScale (gs : ℤ) : ℤ :=
  match gs with
  | 0 => 250
  | 8 => 500
  | 16 => 1000
  | 24 => 2000
  | _ => 250

/-- `(int)v`: the `int` with the low 32 bits of `v`. -/
def toInt (z : ℤ) : CInt := ⟨wrapS32 z, by unfold wrapS32; omega⟩

/-- `((s64)raw * fs * 1000) / 32768`: two `s64` products and C's `/`. -/
def scaleMilli (fs raw : ℤ) : ℤ := (wrapS64 (wrapS64 (raw * fs) * 1000)).tdiv 32768

/-- `((s64)raw * 1000) / 340 + 36530`. -/
def tempMilli (raw : ℤ) : ℤ := wrapS64 ((wrapS64 (raw * 1000)).tdiv 340 + 36530)

/-- `mpu6050_kdd_raw_to_sample_fixed(dev, r, o)` with `dev->accel_scale` and
`dev->gyro_scale`. -/
def mpu6050KddRawToSampleFixed (accel_scale gyro_scale : ℤ) (r : RawSample) : FixedSample :=
  let a_fs_g := accelFullScale accel_scale
  let g_fs_dps := gyroFullScale gyro_scale
  ⟨toInt (scaleMilli a_fs_g r.ax), toInt (scaleMilli a_fs_g r.ay), toInt (scaleMilli a_fs_g r.az),
    toInt (scaleMilli g_fs_dps r.gx), toInt (scaleMilli g_fs_dps r.gy),
    toInt (scaleMilli g_fs_dps r.gz), toInt (tempMilli r.temp)⟩

/-! ### What the conversion computes -/

/-- Each register a `short`. -/
def RawSample.IsShort (r : RawSample) : Prop :=
  ∀ v ∈ [r.ax, r.ay, r.az, r.temp, r.gx, r.gy, r.gz], -2 ^ 15 ≤ v ∧ v < 2 ^ 15

instance (r : RawSample) : Decidable r.IsShort :=
  inferInstanceAs (Decidable (∀ v ∈ [r.ax, r.ay, r.az, r.temp, r.gx, r.gy, r.gz], -2 ^ 15 ≤ v ∧ v < 2 ^ 15))

/-- The reading the registers stand for, in milli-units: a full scale over
`32768` counts, and `340` counts per degree from `36.53` degrees Celsius. -/
def physicalMilli (accel_scale gyro_scale : ℤ) (r : RawSample) : Sample :=
  let a := accelFullScale accel_scale
  let g := gyroFullScale gyro_scale
  ⟨r.ax * a * 1000 / 32768, r.ay * a * 1000 / 32768, r.az * a * 1000 / 32768,
    r.gx * g * 1000 / 32768, r.gy * g * 1000 / 32768, r.gz * g * 1000 / 32768,
    r.temp * 1000 / 340 + 36530⟩

/-- A fixed-point sample as exact milli-units, in the order of `Sample`. -/
def FixedSample.toMilli (fx : FixedSample) : Sample :=
  ⟨fx.ax_mg.1, fx.ay_mg.1, fx.az_mg.1, fx.gx_mdps.1, fx.gy_mdps.1, fx.gz_mdps.1, fx.temp_mdegC.1⟩

theorem accelFullScale_mem (as : ℤ) : 0 ≤ accelFullScale as ∧ accelFullScale as ≤ 2000 := by
  unfold accelFullScale
  split <;> decide

theorem gyroFullScale_mem (gs : ℤ) : 0 ≤ gyroFullScale gs ∧ gyroFullScale gs ≤ 2000 := by
  unfold gyroFullScale
  split <;> decide

theorem wrapS64_of_mem {z : ℤ} (h : -2 ^ 63 ≤ z ∧ z < 2 ^ 63) : wrapS64 z = z := by
  unfold wrapS64; omega

theorem wrapS32_of_mem {z : ℤ} (h : -2 ^ 31 ≤ z ∧ z < 2 ^ 31) : wrapS32 z = z := by
  unfold wrapS32; omega

theorem mul_tdiv_sub_mem {a b : ℤ} (ha : 0 ≤ a) (hb : 0 < b) :
    -b < b * a.tdiv b - a ∧ b * a.tdiv b - a ≤ 0 := by
  have h := Int.tmod_add_tdiv a b
  have h0 := Int.tmod_nonneg b ha
  have h1 := Int.tmod_lt_of_pos a hb
  omega

theorem abs_mul_tdiv_sub_lt (a : ℤ) {b : ℤ} (hb : 0 < b) : |b * a.tdiv b - a| < b := by
  rw [abs_lt]
  rcases le_total 0 a with ha | ha
  · have := mul_tdiv_sub_mem ha hb
    omega
  · have := mul_tdiv_sub_mem (neg_nonneg.2 ha) hb
    rw [Int.neg_tdiv, mul_neg] at this
    omega

theorem abs_sub_div_lt_one {q a : ℤ} {b : ℕ} (hb : 0 < b) (h : |(b : ℤ) * q - a| < b) :
    |(q : ℚ) - a / b| < 1 := by
  have hb' : (0 : ℚ) < b := by exact_mod_cast hb
  have he : (q : ℚ) - a / b = (((b : ℤ) * q - a : ℤ) : ℚ) / b := by
    push_cast
    rw [sub_div, mul_div_cancel_left₀ _ hb'.ne']
  rw [he, abs_div, abs_of_pos hb', div_lt_one hb']
  exact_mod_cast h

theorem toInt_scaleMilli {fs raw : ℤ} (hfs : 0 ≤ fs ∧ fs ≤ 2000) (hr : -2 ^ 15 ≤ raw ∧ raw < 2 ^ 15) :
    |((toInt (scaleMilli fs raw)).1 : ℚ) - raw * fs * 1000 / 32768| < 1 := by
  have hp : -2 ^ 15 * 2000 ≤ raw * fs ∧ raw * fs ≤ 2 ^ 15 * 2000 := by
    constructor <;> nlinarith
  have hq := abs_mul_tdiv_sub_lt (raw * fs * 1000) (show (0 : ℤ) < 32768 by decide)
  have hq' := abs_lt.1 hq
  simp only [toInt, scaleMilli, wrapS64_of_mem (z := raw * fs) (by omega),
    wrapS64_of_mem (z := raw * fs * 1000) (by omega),
    wrapS32_of_mem (z := (raw * fs * 1000).tdiv 32768) (by omega)]
  have hcast : (raw : ℚ) * fs * 1000 = ((raw * fs * 1000 : ℤ) : ℚ) := by push_cast; ring
  rw [hcast, show ((32768 : ℚ)) = ((32768 : ℕ) : ℚ) by norm_num]
  exact abs_sub_div_lt_one (by decide) hq

theorem toInt_tempMilli {raw : ℤ} (hr : -2 ^ 15 ≤ raw ∧ raw < 2 ^ 15) :
    |((toInt (tempMilli raw)).1 : ℚ) - (raw * 1000 / 340 + 36530)| < 1 := by
  have hq := abs_mul_tdiv_sub_lt (raw * 1000) (show (0 : ℤ) < 340 by decide)
  have hq' := abs_lt.1 hq
  simp only [toInt, tempMilli, wrapS64_of_mem (z := raw * 1000) (by omega),
    wrapS64_of_mem (z := (raw * 1000).tdiv 340 + 36530) (by omega),
    wrapS32_of_mem (z := (raw * 1000).tdiv 340 + 36530) (by omega)]
  have hcast : (raw : ℚ) * 1000 / 340 + 36530 =
      ((raw * 1000 + 340 * 36530 : ℤ) : ℚ) / (340 : ℕ) := by
    push_cast; ring
  rw [hcast]
  apply abs_sub_div_lt_one (by decide)
  rw [show ((340 : ℕ) : ℤ) * ((raw * 1000).tdiv 340 + 36530) - (raw * 1000 + 340 * 36530) =
    340 * (raw * 1000).tdiv 340 - raw * 1000 by push_cast; ring]
  exact hq

theorem toMilli_within (accel_scale gyro_scale : ℤ) {r : RawSample} (hr : r.IsShort) :
    List.Forall₂ (fun x q : ℚ => |x - q| < 1)
      (mpu6050KddRawToSampleFixed accel_scale gyro_scale r).toMilli.values
      (physicalMilli accel_scale gyro_scale r).values := by
  simp only [RawSample.IsShort, List.mem_cons, List.mem_singleton, List.not_mem_nil, or_false,
    forall_eq_or_imp, forall_eq] at hr
  obtain ⟨hax, hay, haz, ht, hgx, hgy, hgz⟩ := hr
  have ha := accelFullScale_mem accel_scale
  have hg := gyroFullScale_mem gyro_scale
  simp only [Sample.values, FixedSample.toMilli, mpu6050KddRawToSampleFixed, physicalMilli,
    List.forall₂_cons, List.Forall₂.nil, and_true]
  exact ⟨toInt_scaleMilli ha hax, toInt_scaleMilli ha hay, toInt_scaleMilli ha haz,
    toInt_scaleMilli hg hgx, toInt_scaleMilli hg hgy, toInt_scaleMilli hg hgz, toInt_tempMilli ht⟩

/-- For every reading of the seven registers as `short`s and every value of the
two scale fields, no `s64` product and no `(int)` overflows: each value of the
fixed-point sample is within one milli-unit of the reading it stands for, the
axes truncated toward zero and the temperature's quotient too. -/
theorem mpu6050KddRawToSampleFixed_accuracy (accel_scale gyro_scale : ℤ) {r : RawSample}
    (hr : r.IsShort) :
    List.Forall₂ (fun x q : ℚ => |x - q| < 1)
      (mpu6050KddRawToSampleFixed accel_scale gyro_scale r).toMilli.values
      (physicalMilli accel_scale gyro_scale r).values :=
  toMilli_within accel_scale gyro_scale hr

theorem be16_mem (hi lo : UInt8) : -2 ^ 15 ≤ be16 hi lo ∧ be16 hi lo < 2 ^ 15 := by
  have h1 := hi.toNat_lt_size
  have h2 := lo.toNat_lt_size
  unfold UInt8.size at h1 h2
  simp only [be16]
  split <;> omega

theorem decodeFrame_isShort (bs : List UInt8) : (decodeFrame bs).IsShort := by
  simp only [RawSample.IsShort, decodeFrame, List.mem_cons, List.mem_singleton, List.not_mem_nil,
    or_false, forall_eq_or_imp, forall_eq]
  exact ⟨be16_mem _ _, be16_mem _ _, be16_mem _ _, be16_mem _ _, be16_mem _ _, be16_mem _ _,
    be16_mem _ _⟩

theorem mpu6050KddRawToSampleFixed_accuracy_fullScale :
    let r := decodeFrame (List.replicate 14 0x80)
    r.IsShort ∧ List.Forall₂ (fun x q : ℚ => |x - q| < 1)
      (mpu6050KddRawToSampleFixed 24 24 r).toMilli.values (physicalMilli 24 24 r).values :=
  ⟨decodeFrame_isShort _, mpu6050KddRawToSampleFixed_accuracy 24 24 (decodeFrame_isShort _)⟩

end HwDrivers
