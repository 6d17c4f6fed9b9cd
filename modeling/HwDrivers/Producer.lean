import HwDrivers.Segment
import HwDrivers.Scanf

/-! The producer loop of `producer.c`: one record of `/dev/mpu6050` is read
with four `fgets` and parsed with `sscanf`; a parsed sample is appended to
the shared segment. `Tracks` says what the ring buffer holds after any run. -/

namespace HwDrivers

/-- `" %f , %f , %f"`. -/
def threeFloats : List ScanDirective :=
  [.space, .float, .space, .lit ',', .space, .float, .space, .lit ',', .space, .float]

/-- `" %f"`. -/
def oneFloat : List ScanDirective := [.space, .float]

/-- `producer.c` lines 85-128: four `fgets` into `char line[128]`. The first
line's `sscanf(line, "IRQ count: %d", &irq)` is discarded; each other line
must give all its conversions. -/
def parseRecord (f : List Char) : Option Sample := do
  let (_, f) ← fgets 128 f
  let (line, f) ← fgets 128 f
  let [.float ax, .float ay, .float az] := (scanf threeFloats line).1 | none
  let (line, f) ← fgets 128 f
  let [.float gx, .float gy, .float gz] := (scanf threeFloats line).1 | none
  let (line, _) ← fgets 128 f
  let [.float temp] := (scanf oneFloat line).1 | none
  pure ⟨ax, ay, az, gx, gy, gz, temp⟩

/-- What one iteration of the loop gets from the device. -/
inductive DeviceRead
  /-- `open(DEVICE, O_RDONLY)` failed. -/
  | openFailed
  /-- `fdopen` failed. -/
  | fdopenFailed
  /-- The bytes the stream delivers. -/
  | opened (f : List Char)

/-- The sample a cycle parses, if it parses one. -/
def cycleSample : DeviceRead → Option Sample
  | .opened f => parseRecord f
  | _ => none

/-- One iteration of `while (running)`, `producer.c` lines 66-172: a failed
cycle sleeps and continues, a parsed sample is appended under the semaphore. -/
def producerCycle (d : SharedData) (r : DeviceRead) : SharedData :=
  match cycleSample r with
  | some s => d.append s
  | none => d

/-- A run of the loop from the zeroed segment. -/
def producerRun (rs : List DeviceRead) : SharedData :=
  rs.foldl producerCycle SharedData.zero

theorem producerCycle_of_none {r : DeviceRead} (h : cycleSample r = none) (d : SharedData) :
    producerCycle d r = d := by
  simp [producerCycle, h]

theorem foldl_producerCycle (rs : List DeviceRead) (d : SharedData) :
    rs.foldl producerCycle d = (rs.filterMap cycleSample).foldl SharedData.append d := by
  induction rs generalizing d with
  | nil => rfl
  | cons r rs ih =>
    cases h : cycleSample r <;> simp [List.filterMap_cons, h, producerCycle, ih]

namespace SharedData

/-- The `count` entries read from `(write_index - count) mod BUFFER_SIZE` on. -/
def window (d : SharedData) : List Sample :=
  (List.range d.count).map fun j =>
    d.buffer ⟨(d.write_index + BUFFER_SIZE - d.count + j) % BUFFER_SIZE,
      Nat.mod_lt _ BUFFER_SIZE_pos⟩

end SharedData

/-- The segment holds the last `min n BUFFER_SIZE` of the `n` samples `hist`,
each in the slot of its arrival index modulo `BUFFER_SIZE`. -/
structure Tracks (hist : List Sample) (d : SharedData) : Prop where
  count_eq : d.count = min hist.length BUFFER_SIZE
  write_index_eq : d.write_index.val = hist.length % BUFFER_SIZE
  slot_eq : ∀ k (hk : k < hist.length), hist.length - BUFFER_SIZE ≤ k →
    d.buffer ⟨k % BUFFER_SIZE, Nat.mod_lt _ BUFFER_SIZE_pos⟩ = hist[k]

theorem tracks_zero : Tracks [] SharedData.zero :=
  ⟨rfl, rfl, fun _ hk => absurd hk (Nat.not_lt_zero _)⟩

theorem Tracks.append {hist : List Sample} {d : SharedData} (h : Tracks hist d)
    (s : Sample) : Tracks (hist ++ [s]) (d.append s) := by
  have hc := h.count_eq
  have hw := h.write_index_eq
  refine ⟨?_, ?_, ?_⟩
  · simp only [SharedData.append_count, List.length_append, List.length_singleton, hc]
    split <;> omega
  · simp only [SharedData.append, List.length_append, List.length_singleton, hw]
    simp [BUFFER_SIZE]
  · intro k hk hlo
    simp only [List.length_append, List.length_singleton] at hk hlo
    simp only [SharedData.append]
    rcases Nat.lt_succ_iff_lt_or_eq.mp hk with hk | rfl
    · have hne : (⟨k % BUFFER_SIZE, Nat.mod_lt _ BUFFER_SIZE_pos⟩ : Fin BUFFER_SIZE) ≠
          d.write_index := by
        rw [Ne, Fin.ext_iff, hw]; simp only [BUFFER_SIZE] at *; omega
      rw [Function.update_noteq hne, h.slot_eq k hk (by omega), List.getElem_append_left hk]
    · have heq : (⟨hist.length % BUFFER_SIZE, Nat.mod_lt _ BUFFER_SIZE_pos⟩ :
          Fin BUFFER_SIZE) = d.write_index := Fin.ext hw.symm
      rw [heq, Function.update_same]
      simp

theorem tracks_appendAll (ss : List Sample) :
    Tracks ss (ss.foldl SharedData.append SharedData.zero) := by
  induction ss using List.reverseRecOn with
  | nil => exact tracks_zero
  | append_singleton ss s ih => simpa using ih.append s

theorem Tracks.count_le_length {hist : List Sample} {d : SharedData} (h : Tracks hist d) :
    d.count ≤ hist.length := by
  rw [h.count_eq]; exact Nat.min_le_left _ _

theorem window_index {n c j : ℕ} (hc : c ≤ min n BUFFER_SIZE) :
    (n % BUFFER_SIZE + BUFFER_SIZE - c + j) % BUFFER_SIZE = (n - c + j) % BUFFER_SIZE := by
  simp only [BUFFER_SIZE] at *; omega

/-- The window read from `(write_index - count) mod BUFFER_SIZE` is the last
`count` samples in arrival order. -/
theorem Tracks.window_eq {hist : List Sample} {d : SharedData} (h : Tracks hist d) :
    d.window = hist.drop (hist.length - d.count) := by
  have hc := h.count_eq
  have hw := h.write_index_eq
  apply List.ext_getElem
  · simp only [SharedData.window, List.length_map, List.length_range, List.length_drop]
    omega
  · intro j hj _
    simp only [SharedData.window, List.length_map, List.length_range] at hj
    simp only [SharedData.window, List.getElem_map, List.getElem_range, List.getElem_drop]
    have hk : hist.length - d.count + j < hist.length := by omega
    rw [← h.slot_eq _ hk (by omega)]
    congr 2
    rw [hw]
    exact window_index hc.le

/-- Any run of the producer loop from the zeroed segment: a failed cycle leaves
the segment as it was, and with `n` parsed samples `count = min n BUFFER_SIZE`,
`write_index = n mod BUFFER_SIZE`, and the window from
`(write_index - count) mod BUFFER_SIZE` is the last `count` samples in order. -/
theorem producerRun_ring (rs : List DeviceRead) :
    (∀ r, cycleSample r = none → ∀ d, producerCycle d r = d) ∧
    (producerRun rs).count = min (rs.filterMap cycleSample).length BUFFER_SIZE ∧
    (producerRun rs).write_index.val = (rs.filterMap cycleSample).length % BUFFER_SIZE ∧
    (producerRun rs).window = (rs.filterMap cycleSample).drop
      ((rs.filterMap cycleSample).length - (producerRun rs).count) := by
  have h : Tracks (rs.filterMap cycleSample) (producerRun rs) := by
    rw [producerRun, foldl_producerCycle]; exact tracks_appendAll _
  exact ⟨fun _ hr d => producerCycle_of_none hr d, h.count_eq, h.write_index_eq, h.window_eq⟩

/-! The average. -/

theorem sumLoop_eq_sum (b : Fin BUFFER_SIZE → Sample) (c : ℕ) :
    SharedData.sumLoop b c = ∑ i ∈ Finset.range c, SharedData.bufferAt b i := by
  induction c with
  | zero => rfl
  | succ c ih => rw [Finset.sum_range_succ, ← ih]; rfl

theorem bufferAverage_eq_divCount (b : Fin BUFFER_SIZE → Sample) (c : ℕ) :
    SharedData.bufferAverage b c = (SharedData.sumLoop b c).divCount c := by
  cases c with
  | zero => rw [Sample.divCount_zero]; rfl
  | succ c => simp [SharedData.bufferAverage]

theorem sum_map_eq_sum_range (l : List Sample) (f : Sample → ℚ) :
    (l.map f).sum = ∑ k ∈ Finset.range l.length, f (l.getD k 0) := by
  induction l with
  | nil => simp
  | cons a l ih => simp [Finset.sum_range_succ', ih, add_comm]

theorem sum_map_drop (l : List Sample) (m : ℕ) (f : Sample → ℚ) :
    ((l.drop m).map f).sum = ∑ k ∈ Finset.Ico m l.length, f (l.getD k 0) := by
  rw [sum_map_eq_sum_range, Finset.sum_Ico_eq_sum_range, List.length_drop]
  refine Finset.sum_congr rfl fun k _ => ?_
  simp [List.getElem?_drop]

theorem mean_drop (l : List Sample) (m : ℕ) :
    Sample.mean (l.drop m) =
      (∑ k ∈ Finset.Ico m l.length, l.getD k 0).divCount (l.length - m) := by
  simp only [Sample.mean, Sample.divCount, Sample.sum_eq, sum_map_drop, List.length_drop]

theorem Tracks.sumLoop_eq {hist : List Sample} {d : SharedData} (h : Tracks hist d) :
    SharedData.sumLoop d.buffer d.count =
      ∑ k ∈ Finset.Ico (hist.length - d.count) hist.length, hist.getD k 0 := by
  have hc := h.count_eq
  rw [sumLoop_eq_sum]
  symm
  apply Finset.sum_nbij (fun k => k % BUFFER_SIZE)
  · intro k hk
    simp only [Finset.mem_Ico, Finset.mem_range] at hk ⊢
    simp only [BUFFER_SIZE] at *; omega
  · intro k₁ hk₁ k₂ hk₂ he
    simp only [Finset.coe_Ico, Set.mem_Ico] at hk₁ hk₂ he
    simp only [BUFFER_SIZE] at *; omega
  · intro i hi
    simp only [Finset.coe_range, Set.mem_Iio] at hi
    refine ⟨hist.length - d.count + (i + BUFFER_SIZE - (hist.length - d.count) % BUFFER_SIZE) %
      BUFFER_SIZE, ?_, ?_⟩ <;> simp only [Finset.coe_Ico, Set.mem_Ico, BUFFER_SIZE] at * <;> omega
  · intro k hk
    simp only [Finset.mem_Ico] at hk
    rw [List.getD_eq_getElem?_getD, List.getElem?_eq_getElem hk.2, Option.getD_some,
      SharedData.bufferAt,
      dif_pos (Nat.mod_lt _ BUFFER_SIZE_pos),
      h.slot_eq k hk.2 (by simp only [BUFFER_SIZE] at *; omega)]

/-- The producer's average over `buffer[0..count)` is the mean of the last
`min n BUFFER_SIZE` samples. -/
theorem Tracks.bufferAverage_eq {hist : List Sample} {d : SharedData} (h : Tracks hist d) :
    SharedData.bufferAverage d.buffer d.count =
      Sample.mean (hist.drop (hist.length - BUFFER_SIZE)) := by
  have hc := h.count_eq
  have hm : hist.length - BUFFER_SIZE = hist.length - d.count := by omega
  rw [bufferAverage_eq_divCount, h.sumLoop_eq, hm, mean_drop]
  congr 1
  omega

theorem Tracks.append_average {hist : List Sample} {d : SharedData} (h : Tracks hist d)
    (s : Sample) : (d.append s).average =
      Sample.mean ((hist ++ [s]).drop ((hist ++ [s]).length - BUFFER_SIZE)) :=
  (h.append s).bufferAverage_eq

/-- Every state the producer reaches from the zeroed segment by appending
`ss` holds as `average` the component-wise mean of the last
`min ss.length BUFFER_SIZE` samples; the zero sample when `ss` is empty. -/
theorem appendAll_average (ss : List Sample) :
    (ss.foldl SharedData.append SharedData.zero).average =
      Sample.mean (ss.drop (ss.length - BUFFER_SIZE)) := by
  induction ss using List.reverseRecOn with
  | nil => simp only [List.foldl_nil, List.drop_nil, Sample.mean_nil]; rfl
  | append_singleton ss s _ =>
    rw [List.foldl_append, List.foldl_cons, List.foldl_nil]
    exact (tracks_appendAll ss).append_average s

end HwDrivers
