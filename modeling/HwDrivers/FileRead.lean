import HwDrivers.Bmp280

/-! Reading a character device through one open file. The `read` of
`/dev/mpu6050`, of `/dev/i2c_bmp280` and of the button counter formats a fresh
record from the driver's state at the time of the call, then copies from it at
the file's offset and advances the offset. Between two reads the driver's state
may change: a button press, a new sample, a new measurement. -/

namespace HwDrivers

/-- The kernel's `simple_read_from_buffer(to, count, ppos, from, available)` for
an offset that is not negative (the VFS refuses negative ones) and a user
buffer that `copy_to_user` can write: the bytes it copies and the new offset. -/
def simpleReadFromBuffer (buf : List Char) (pos count : ℕ) : List Char × ℕ :=
  if buf.length ≤ pos ∨ count = 0 then ([], pos)
  else
    let count := min count (buf.length - pos)
    ((buf.drop pos).take count, pos + count)

/-- `dev_read` of `/dev/mpu6050` (`07_BeagleBone/mpu6050_core.c`): the record of
the button count and the sample at the time of the call. -/
def mpuDevRead (irq : UInt32) (sample : Option (RawSample × FixedSample)) (pos count : ℕ) :
    List Char × ℕ :=
  simpleReadFromBuffer (devRead irq sample) pos count

theorem simpleReadFromBuffer_eq (buf : List Char) (pos count : ℕ) :
    simpleReadFromBuffer buf pos count =
      ((buf.drop pos).take count, pos + ((buf.drop pos).take count).length) := by
  unfold simpleReadFromBuffer
  split
  · rename_i h
    rcases h with h | rfl
    · simp [List.drop_of_length_le h]
    · simp
  · have hd : ((buf.drop pos).take count).length = min count (buf.length - pos) := by simp
    dsimp only
    rw [hd, ← List.take_take,
      List.take_of_length_le (show (buf.drop pos).length ≤ buf.length - pos by simp)]

theorem bmpDevRead_eq {calib : CalibData} {regs : Except ℤ (List UInt8)} {raw : RawData}
    (h : readRawData regs = .ok raw) (pos count : ℕ) :
    bmpDevRead calib regs pos count =
      .ok (simpleReadFromBuffer (bmpLine (compensateData calib raw)) pos count) := by
  have hlen := bmpLine_length_le (compensateData calib raw)
  rw [bmpDevRead, h]
  dsimp only
  rw [List.take_of_length_le (show (bmpLine (compensateData calib raw)).length ≤ 63 by omega),
    simpleReadFromBuffer]
  by_cases hp : (bmpLine (compensateData calib raw)).length ≤ pos
  · simp [hp]
  · by_cases hc : count = 0 <;> simp [hp, hc]

/-! ### Runs of reads on one open file -/

/-- An event on one open file: the driver's state changes, or the file is read. -/
inductive FileEvent (σ : Type)
  /-- A button press, a new sample or a new measurement: the state the next
  `read` formats its record from. -/
  | update (s : σ)
  /-- `read(fd, buf, count)`. -/
  | read (count : ℕ)

/-- The bytes the reads of a run return, in order, and the file's offset after
it; `record s` is the record a read formats in driver state `s`. -/
def fileRun {σ : Type} (record : σ → List Char) : σ → ℕ → List (FileEvent σ) → List Char × ℕ
  | _, pos, [] => ([], pos)
  | _, pos, .update s :: es => fileRun record s pos es
  | s, pos, .read count :: es =>
    let (b, pos') := simpleReadFromBuffer (record s) pos count
    let r := fileRun record s pos' es
    (b ++ r.1, r.2)

section Runs

variable {σ : Type} (record : σ → List Char)

theorem fileRun_offset (s : σ) (pos : ℕ) (es : List (FileEvent σ)) :
    (fileRun record s pos es).2 = pos + (fileRun record s pos es).1.length := by
  induction es generalizing s pos with
  | nil => rfl
  | cons e es ih =>
    cases e with
    | update s' => exact ih s' pos
    | read count =>
      simp only [fileRun, simpleReadFromBuffer_eq, List.length_append, ih]
      omega

theorem fileRun_prefix_of_record (s : σ) (pos : ℕ) (es : List (FileEvent σ))
    (hs : ∀ s', FileEvent.update s' ∈ es → record s' = record s) :
    (fileRun record s pos es).1 =
      ((record s).drop pos).take (fileRun record s pos es).1.length := by
  induction es generalizing s pos with
  | nil => rfl
  | cons e es ih =>
    cases e with
    | update s' =>
      have he := hs s' (.head _)
      simp only [fileRun]
      rw [← he]
      exact ih s' pos fun s'' h => (hs s'' (.tail _ h)).trans he.symm
    | read count =>
      simp only [fileRun, simpleReadFromBuffer_eq, List.length_append]
      have hr := ih s (pos + (((record s).drop pos).take count).length)
        fun s'' h => hs s'' (.tail _ h)
      have hb : ((record s).drop pos).take (((record s).drop pos).take count).length =
          ((record s).drop pos).take count := by
        rw [List.length_take, ← List.take_take, List.take_of_length_le le_rfl]
      conv_lhs => rw [hr]
      rw [List.take_add, hb, List.drop_drop, Nat.add_comm]

end Runs

/-- A run of reads of `/dev/i2c_bmp280`: the state is what each read's own
register read returns, and the run stops at the first read that fails,
returning its error. -/
def bmpFileRun (calib : CalibData) :
    Except ℤ (List UInt8) → ℕ → List (FileEvent (Except ℤ (List UInt8))) → Except ℤ (List Char × ℕ)
  | _, pos, [] => .ok ([], pos)
  | _, pos, .update regs :: es => bmpFileRun calib regs pos es
  | regs, pos, .read count :: es =>
    match bmpDevRead calib regs pos count with
    | .error e => .error e
    | .ok (b, pos') =>
      match bmpFileRun calib regs pos' es with
      | .error e => .error e
      | .ok (r, pos'') => .ok (b ++ r, pos'')

/-- While every register read returns the same measurement, a run of reads of
`/dev/i2c_bmp280` is the run of reads of its line. -/
theorem bmpFileRun_eq {calib : CalibData} {raw : RawData} {regs : Except ℤ (List UInt8)}
    (hr : readRawData regs = .ok raw) (pos : ℕ) {es : List (FileEvent (Except ℤ (List UInt8)))}
    (hs : ∀ regs', FileEvent.update regs' ∈ es → readRawData regs' = .ok raw) :
    bmpFileRun calib regs pos es =
      .ok (fileRun (fun _ => bmpLine (compensateData calib raw)) regs pos es) := by
  induction es generalizing regs pos with
  | nil => rfl
  | cons e es ih =>
    have hs' : ∀ regs', FileEvent.update regs' ∈ es → readRawData regs' = .ok raw :=
      fun r h => hs r (.tail _ h)
    cases e with
    | update regs' => exact ih (hs regs' (.head _)) pos hs'
    | read count =>
      simp only [bmpFileRun, bmpDevRead_eq hr, fileRun]
      rw [ih hr _ hs']

/-! ### `/dev/mpu6050` -/

/-- What `dev_read` of `/dev/mpu6050` takes under the spinlocks: the button
count and the sample, when one is `valid`. -/
structure MpuState where
  irq_counter : UInt32
  sample : Option (RawSample × FixedSample)

/-- The record `dev_read` formats in a state. -/
def mpuRecord (s : MpuState) : List Char := devRead s.irq_counter s.sample

/-- On one open file of either device, while the record the driver formats stays
the same, the reads return consecutive bytes of it: together, a prefix of the
record from the starting offset. For `/dev/mpu6050` the record is `devRead` of
the state (`mpuRecord`); for `/dev/i2c_bmp280` it is the line of the
measurement every read's register read returns, and no read fails. -/
theorem fileRun_prefix :
    (∀ {σ : Type} (record : σ → List Char) (s : σ) (pos : ℕ) (es : List (FileEvent σ)),
      (∀ s', FileEvent.update s' ∈ es → record s' = record s) →
      (fileRun record s pos es).1 = ((record s).drop pos).take (fileRun record s pos es).1.length) ∧
    (∀ (calib : CalibData) (regs : Except ℤ (List UInt8)) (raw : RawData) (pos : ℕ)
      (es : List (FileEvent (Except ℤ (List UInt8)))), readRawData regs = .ok raw →
      (∀ regs', FileEvent.update regs' ∈ es → readRawData regs' = .ok raw) →
      ∃ out, bmpFileRun calib regs pos es = .ok out ∧
        out.1 = ((bmpLine (compensateData calib raw)).drop pos).take out.1.length) :=
  ⟨fun record s pos es hs => fileRun_prefix_of_record record s pos es hs,
    fun _ _ _ pos _ hr hs => ⟨_, bmpFileRun_eq hr pos hs,
      fileRun_prefix_of_record _ _ pos _ fun _ _ => rfl⟩⟩

theorem fileRun_prefix_unchanged :
    ((∀ s', FileEvent.update s' ∈ [.read 5, .update ⟨0, none⟩, .read 300] →
      mpuRecord s' = mpuRecord ⟨0, none⟩) ∧
    (fileRun mpuRecord ⟨0, none⟩ 0 [.read 5, .update ⟨0, none⟩, .read 300]).1 =
      ((mpuRecord ⟨0, none⟩).drop 0).take
        (fileRun mpuRecord ⟨0, none⟩ 0 [.read 5, .update ⟨0, none⟩, .read 300]).1.length) ∧
    (readRawData (.ok [0x65, 0x5A, 0xC0, 0x7E, 0xED, 0x00]) = .ok ⟨0x65, 0x5A, 0xC, 0x7E, 0xED, 0x0⟩ ∧
      ∃ out, bmpFileRun datasheetCalib (.ok [0x65, 0x5A, 0xC0, 0x7E, 0xED, 0x00]) 0
          [.read 10, .read 100] = .ok out ∧
        out.1 = ((bmpLine (compensateData datasheetCalib ⟨0x65, 0x5A, 0xC, 0x7E, 0xED, 0x0⟩)).drop
          0).take out.1.length) := by
  have h : ∀ s', FileEvent.update s' ∈ ([.read 5, .update ⟨0, none⟩, .read 300] :
      List (FileEvent MpuState)) → mpuRecord s' = mpuRecord ⟨0, none⟩ := by
    intro s' hs'
    simp only [List.mem_cons, FileEvent.update.injEq, reduceCtorEq, false_or,
      List.not_mem_nil, or_false] at hs'
    rw [hs']
  have hr : readRawData (.ok [0x65, 0x5A, 0xC0, 0x7E, 0xED, 0x00]) =
      .ok ⟨0x65, 0x5A, 0xC, 0x7E, 0xED, 0x0⟩ := rfl
  exact ⟨⟨h, fileRun_prefix.1 mpuRecord _ _ _ h⟩,
    hr, fileRun_prefix.2 datasheetCalib _ _ 0 [.read 10, .read 100] hr (by simp)⟩

theorem devRead_head (irq : UInt32) (sample : Option (RawSample × FixedSample)) :
    ∃ c tail, devRead irq sample =
      "IRQ count: ".toList ++ Nat.toDigits 10 irq.toNat ++ '\n' :: c :: tail ∧
      (c = '(' → tail.head? = some 'n') := by
  cases sample with
  | none => exact ⟨'(', "no sample yet)\n".toList, by rw [devRead_none, irqLine]; rfl, fun _ => rfl⟩
  | some p =>
    obtain ⟨r, fx⟩ := p
    have hsign : ∃ c cs, signText " " fx.ax_mg.1 = c :: cs ∧ c ≠ '(' := by
      unfold signText
      split
      · exact ⟨_, _, rfl, by decide⟩
      · exact ⟨_, _, rfl, by decide⟩
    obtain ⟨c, cs, hcs, hc⟩ := hsign
    have htail : ∃ tail, devRead irq (some (r, fx)) =
        "IRQ count: ".toList ++ Nat.toDigits 10 irq.toNat ++ '\n' :: c :: tail := by
      rw [devRead_lines, irqLine, accelLine, threeText, fixedPieces_render, hcs]
      exact ⟨_, by simp only [List.append_assoc, List.cons_append]; rfl⟩
    obtain ⟨tail, htail⟩ := htail
    exact ⟨c, tail, htail, fun h => absurd h hc⟩

theorem not_prefix_devRead (irq : UInt32) (sample : Option (RawSample × FixedSample)) :
    ¬ "IRQ count: 0\n(0".toList <+: devRead irq sample := by
  obtain ⟨c, tail, hdev, hc⟩ := devRead_head irq sample
  obtain ⟨d, ds, hds⟩ := List.exists_cons_of_ne_nil (toDigits_ne_nil irq.toNat)
  have hdig := toDigits_digits irq.toNat
  rw [hdev, hds, show "IRQ count: 0\n(0".toList = "IRQ count: ".toList ++ "0\n(0".toList from rfl,
    List.append_assoc, List.prefix_append_right_inj]
  cases ds with
  | nil =>
    intro h
    simp only [List.cons_append, List.nil_append, show "0\n(0".toList = ['0', '\n', '(', '0'] from rfl,
      List.cons_prefix_cons] at h
    obtain ⟨-, -, rfl, h⟩ := h
    rcases tail with _ | ⟨t, tail⟩
    · simp at h
    · have ht : t = 'n' := Option.some.inj (hc rfl)
      simp only [List.cons_prefix_cons, ht] at h
      exact absurd h.1 (by decide)
  | cons d' ds =>
    intro h
    simp only [List.cons_append, show "0\n(0".toList = ['0', '\n', '(', '0'] from rfl,
      List.cons_prefix_cons] at h
    have := hdig d' (by rw [hds]; simp)
    rw [← h.2.1] at this
    exact absurd this (by decide)

def zeroFixed : FixedSample :=
  ⟨⟨0, by decide⟩, ⟨0, by decide⟩, ⟨0, by decide⟩, ⟨0, by decide⟩, ⟨0, by decide⟩, ⟨0, by decide⟩,
    ⟨0, by decide⟩⟩

/-- `/dev/mpu6050` opened before the first sample: a 14-byte `read` returns
`IRQ count: 0`, its newline and `(`; then the first sample arrives, and the next
`read` goes on at offset 14 of the new record. -/
def tornRead : List (FileEvent MpuState) :=
  [.read 14, .update ⟨0, some (⟨0, 0, 0, 0, 0, 0, 0⟩, zeroFixed)⟩, .read 256]

/-- The two reads return the head of the "no sample yet" record followed by the
tail of the sample's record, and no record of the device begins that way. -/
theorem fileRun_tornRead :
    (fileRun mpuRecord ⟨0, none⟩ 0 tornRead).1 =
      "IRQ count: 0\n(0.000, 0.000, 0.000, [g]\n 0.000, 0.000, 0.000, [dps]\n0.000, [\xC2\xB0C]\n".toList ∧
    ∀ irq sample, ¬ (fileRun mpuRecord ⟨0, none⟩ 0 tornRead).1 <+: devRead irq sample := by
  have h : (fileRun mpuRecord ⟨0, none⟩ 0 tornRead).1 =
      "IRQ count: 0\n(0.000, 0.000, 0.000, [g]\n 0.000, 0.000, 0.000, [dps]\n0.000, [\xC2\xB0C]\n".toList := by
    decide
  refine ⟨h, fun irq sample hp => not_prefix_devRead irq sample (List.IsPrefix.trans ?_ hp)⟩
  rw [h]
  exact ⟨_, rfl⟩

end HwDrivers
