import Mathlib.Algebra.BigOperators.Intervals
import Mathlib.Algebra.Order.Field.Rat
import Mathlib.Algebra.Order.Field.Basic

/-! The shared segment of the producer and the server: `shared_data_t` of
`producer.h` and the producer's critical section that appends one sample and
recomputes the average. Floats are read as exact rationals. -/

namespace HwDrivers

/-- `mpu6050_sample_float_t`: accelerometer, gyroscope and temperature. -/
@[ext]
structure Sample where
  ax : ℚ
  ay : ℚ
  az : ℚ
  gx : ℚ
  gy : ℚ
  gz : ℚ
  temp : ℚ
deriving DecidableEq, Repr

namespace Sample

/-- The seven fields as one tuple; used only to transport the additive structure. -/
def toTuple (s : Sample) : ℚ × ℚ × ℚ × ℚ × ℚ × ℚ × ℚ :=
  (s.ax, s.ay, s.az, s.gx, s.gy, s.gz, s.temp)

theorem toTuple_injective : Function.Injective toTuple := by
  intro a b h
  simp only [toTuple, Prod.mk.injEq] at h
  ext <;> simp [h]

/-- The zeroed sample, as `memset` and `= {0}` leave it. -/
instance : Zero Sample := ⟨⟨0, 0, 0, 0, 0, 0, 0⟩⟩

/-- Field-wise `+=`, as in the averaging loop. -/
instance : Add Sample :=
  ⟨fun a b => ⟨a.ax + b.ax, a.ay + b.ay, a.az + b.az, a.gx + b.gx, a.gy + b.gy,
    a.gz + b.gz, a.temp + b.temp⟩⟩

instance : SMul ℕ Sample :=
  ⟨fun n a => ⟨n • a.ax, n • a.ay, n • a.az, n • a.gx, n • a.gy, n • a.gz, n • a.temp⟩⟩

instance : AddCommMonoid Sample :=
  toTuple_injective.addCommMonoid _ rfl (fun _ _ => rfl) (fun _ _ => rfl)

@[simp] theorem zero_ax : (0 : Sample).ax = 0 := rfl
@[simp] theorem zero_ay : (0 : Sample).ay = 0 := rfl
@[simp] theorem zero_az : (0 : Sample).az = 0 := rfl
@[simp] theorem zero_gx : (0 : Sample).gx = 0 := rfl
@[simp] theorem zero_gy : (0 : Sample).gy = 0 := rfl
@[simp] theorem zero_gz : (0 : Sample).gz = 0 := rfl
@[simp] theorem zero_temp : (0 : Sample).temp = 0 := rfl

theorem sum_eq {ι : Type*} (s : Finset ι) (f : ι → Sample) :
    ∑ i ∈ s, f i = ⟨∑ i ∈ s, (f i).ax, ∑ i ∈ s, (f i).ay, ∑ i ∈ s, (f i).az,
      ∑ i ∈ s, (f i).gx, ∑ i ∈ s, (f i).gy, ∑ i ∈ s, (f i).gz, ∑ i ∈ s, (f i).temp⟩ := by
  classical
  induction s using Finset.induction_on with
  | empty => rfl
  | insert ha ih => simp only [Finset.sum_insert ha, ih]; rfl

/-- Field-wise `/= count`. -/
def divCount (s : Sample) (n : ℕ) : Sample :=
  ⟨s.ax / n, s.ay / n, s.az / n, s.gx / n, s.gy / n, s.gz / n, s.temp / n⟩

@[simp] theorem divCount_zero (s : Sample) : s.divCount 0 = 0 := by
  simp only [divCount, Nat.cast_zero, div_zero]; rfl

/-- The component-wise arithmetic mean of a list of samples; the zero sample
for the empty list. -/
def mean (w : List Sample) : Sample :=
  ⟨(w.map (·.ax)).sum / w.length, (w.map (·.ay)).sum / w.length,
    (w.map (·.az)).sum / w.length, (w.map (·.gx)).sum / w.length,
    (w.map (·.gy)).sum / w.length, (w.map (·.gz)).sum / w.length,
    (w.map (·.temp)).sum / w.length⟩

@[simp] theorem mean_nil : mean [] = 0 := by
  simp [mean]; rfl

@[simp] theorem mean_singleton (s : Sample) : mean [s] = s := by
  ext <;> simp [mean]

/-- The seven values of a sample, in the order of the JSON object. -/
def values (s : Sample) : List ℚ := [s.ax, s.ay, s.az, s.gx, s.gy, s.gz, s.temp]

/-- The seven fields, in the same order. -/
def fields : List (Sample → ℚ) := [ax, ay, az, gx, gy, gz, temp]

/-- What the averaging loop needs of a field: it is zero on the zeroed sample
and commutes with `+=` and `/= count`. -/
structure Linear (f : Sample → ℚ) : Prop where
  map_zero : f 0 = 0
  map_add : ∀ a b, f (a + b) = f a + f b
  map_divCount : ∀ (a : Sample) (n : ℕ), f (a.divCount n) = f a / n

theorem linear_of_mem_fields {f : Sample → ℚ} (hf : f ∈ fields) : Linear f := by
  simp only [fields, List.mem_cons, List.mem_singleton, List.not_mem_nil, or_false] at hf
  rcases hf with rfl | rfl | rfl | rfl | rfl | rfl | rfl <;>
    exact ⟨rfl, fun _ _ => rfl, fun _ _ => rfl⟩

/-- Every value of the sample is at most `B` in magnitude. -/
def Within (B : ℚ) (s : Sample) : Prop := ∀ v ∈ s.values, |v| ≤ B

theorem within_iff {B : ℚ} {s : Sample} : s.Within B ↔ ∀ f ∈ fields, |f s| ≤ B := by
  simp [Within, values, fields]

theorem within_zero {B : ℚ} (hB : 0 ≤ B) : (0 : Sample).Within B := by
  simp [Within, values, hB]

end Sample

def BUFFER_SIZE : ℕ := 16

theorem BUFFER_SIZE_pos : 0 < BUFFER_SIZE := by decide

/-- `shared_data_t` of `producer.h`. The bounds on `count` and `write_index`
are what every write of the producer keeps. -/
structure SharedData where
  buffer : Fin BUFFER_SIZE → Sample
  average : Sample
  count : ℕ
  write_index : Fin BUFFER_SIZE
  count_le : count ≤ BUFFER_SIZE

namespace SharedData

/-- The segment after `memset(shared_data, 0, sizeof(shared_data_t))`. -/
def zero : SharedData := ⟨fun _ => 0, 0, 0, ⟨0, BUFFER_SIZE_pos⟩, Nat.zero_le _⟩

/-- `buffer[i]` for a loop index; the loop only reads below `count ≤ BUFFER_SIZE`. -/
def bufferAt (buffer : Fin BUFFER_SIZE → Sample) (i : ℕ) : Sample :=
  if h : i < BUFFER_SIZE then buffer ⟨i, h⟩ else 0

/-- `for (i = 0; i < count; i++) avg += buffer[i]`. -/
def sumLoop (buffer : Fin BUFFER_SIZE → Sample) : ℕ → Sample
  | 0 => 0
  | i + 1 => sumLoop buffer i + bufferAt buffer i

/-- The producer's average: the loop's sum, divided by `count` when it is positive. -/
def bufferAverage (buffer : Fin BUFFER_SIZE → Sample) (count : ℕ) : Sample :=
  let avg := sumLoop buffer count
  if count > 0 then avg.divCount count else avg

/-- The producer's critical section, `producer.c` lines 135-163: store the
sample at `write_index`, advance it modulo `BUFFER_SIZE`, saturate `count`
and recompute the average over `buffer[0..count)`. -/
def append (d : SharedData) (sample : Sample) : SharedData :=
  let buffer := Function.update d.buffer d.write_index sample
  let count := if d.count < BUFFER_SIZE then d.count + 1 else d.count
  { buffer
    average := bufferAverage buffer count
    count
    write_index := ⟨(d.write_index + 1) % BUFFER_SIZE, Nat.mod_lt _ BUFFER_SIZE_pos⟩
    count_le := by have := d.count_le; simp only [count]; split <;> omega }

@[simp] theorem append_buffer (d : SharedData) (s : Sample) :
    (d.append s).buffer = Function.update d.buffer d.write_index s := rfl

@[simp] theorem append_count (d : SharedData) (s : Sample) :
    (d.append s).count = if d.count < BUFFER_SIZE then d.count + 1 else d.count := rfl

@[simp] theorem append_write_index (d : SharedData) (s : Sample) :
    ((d.append s).write_index : ℕ) = (d.write_index + 1) % BUFFER_SIZE := rfl

theorem append_average (d : SharedData) (s : Sample) :
    (d.append s).average = bufferAverage (d.append s).buffer (d.append s).count := rfl

section Within

variable {B : ℚ} (hB : 0 ≤ B) {f : Sample → ℚ} (hf : Sample.Linear f)
include hB hf

theorem abs_sumLoop_le {buffer : Fin BUFFER_SIZE → Sample} (hb : ∀ j, |f (buffer j)| ≤ B) :
    ∀ n, |f (sumLoop buffer n)| ≤ n * B
  | 0 => by simp [sumLoop, hf.map_zero]
  | n + 1 => by
    have hx : |f (bufferAt buffer n)| ≤ B := by
      unfold bufferAt
      split
      · exact hb _
      · rw [hf.map_zero, abs_zero]; exact hB
    have := abs_sumLoop_le hb n
    calc |f (sumLoop buffer (n + 1))| ≤ |f (sumLoop buffer n)| + |f (bufferAt buffer n)| := by
          rw [sumLoop, hf.map_add]; exact abs_add _ _
      _ ≤ (n + 1 : ℕ) * B := by push_cast; linarith

theorem abs_bufferAverage_le {buffer : Fin BUFFER_SIZE → Sample} (hb : ∀ j, |f (buffer j)| ≤ B)
    (count : ℕ) : |f (bufferAverage buffer count)| ≤ B := by
  have hs := abs_sumLoop_le hB hf hb count
  unfold bufferAverage
  split
  · rename_i hc
    rw [hf.map_divCount, abs_div, Nat.abs_cast, div_le_iff₀ (by exact_mod_cast hc)]
    linarith
  · rename_i hc
    rw [show count = 0 by omega, sumLoop, hf.map_zero, abs_zero]
    exact hB

end Within

/-- Every sample of the buffer and the average are within `B`. -/
structure Within (B : ℚ) (d : SharedData) : Prop where
  buffer : ∀ j, (d.buffer j).Within B
  average : d.average.Within B

theorem within_zero {B : ℚ} (hB : 0 ≤ B) : SharedData.zero.Within B :=
  ⟨fun _ => Sample.within_zero hB, Sample.within_zero hB⟩

theorem Within.append {B : ℚ} (hB : 0 ≤ B) {d : SharedData} (h : d.Within B) {s : Sample}
    (hs : s.Within B) : (d.append s).Within B := by
  have hbuf : ∀ j, ((d.append s).buffer j).Within B := by
    intro j
    rw [append_buffer, Function.update_apply]
    split
    · exact hs
    · exact h.buffer j
  refine ⟨hbuf, Sample.within_iff.2 fun f hf => ?_⟩
  exact abs_bufferAverage_le hB (Sample.linear_of_mem_fields hf)
    (fun j => Sample.within_iff.1 (hbuf j) f hf) _

theorem Within.foldl_append {B : ℚ} (hB : 0 ≤ B) {ss : List Sample} (hss : ∀ s ∈ ss, s.Within B)
    {d : SharedData} (hd : d.Within B) : (ss.foldl SharedData.append d).Within B := by
  induction ss generalizing d with
  | nil => exact hd
  | cons s ss ih => exact ih (fun t ht => hss t (.tail _ ht)) (hd.append hB (hss s (.head _)))

end SharedData

end HwDrivers
