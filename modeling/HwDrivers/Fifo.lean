import HwDrivers.Device

/-! Reading samples out of the MPU-6050's FIFO in the low-level driver of
`09_BeagleBone_lowlevel`: `mpu6050_kdd_get_fifo_count` reads the byte count,
`mpu6050_read_fifo_bytes` reads the FIFO in chunks of at most 32 bytes with
`i2c2_ll_read_block`, and `mpu6050_read_fifo_samples` decodes 14-byte frames.
`i2c2_ll_read_block` returns `0` on success; `mpu6050_read_fifo_bytes` expects
the number of bytes read. -/

namespace HwDrivers

def MPU6050_REG_FIFO_COUNTH : UInt8 := 0x72

def MPU6050_REG_FIFO_COUNTL : UInt8 := 0x73

def MPU6050_REG_FIFO_R_W : UInt8 := 0x74

def MPU6050_ERR_NOT_INITIALIZED : ℤ := -3

def EINVAL : ℤ := 22

def ENOMEM : ℤ := 12

/-- How a failing call of the I2C2 layer ends. A NACK or an arbitration loss
completes the transfer early; a timeout returns while the controller may still
raise `RRDY`, and `i2c2_ll_irq_handler` then stores into the caller's `buf`
after the call has returned. -/
structure BusFault where
  /-- The negative error the call returns. -/
  error : ℤ
  /-- The bytes `RRDY` stored into `buf` before the call returned. -/
  stored : ℕ
  /-- The bytes a late `RRDY` took from the device after a timeout. -/
  late : ℕ

/-- The MPU-6050 behind the I2C2 layer, as the FIFO functions see it. The count
registers are read once per call of `mpu6050_read_fifo_samples`, before its
first FIFO read, so the model keeps them fixed while the FIFO is read. -/
structure FifoBus where
  /-- The device's registers. -/
  regs : UInt8 → UInt8
  /-- The bytes `FIFO_R_W` hands out, oldest first. -/
  fifo : ℕ → UInt8
  /-- How many FIFO bytes have been read. -/
  readPos : ℕ
  /-- The outcome of each further call of the I2C2 layer: `none` when it succeeds.
  Calls succeed once the list is used up. -/
  faults : List (Option BusFault)

/-- `i2c2_ll_read_byte(sa, reg)`: the register's value, or the call's error. -/
def i2c2LlReadByte (b : FifoBus) (reg : UInt8) : ℤ × FifoBus :=
  match b.faults with
  | some f :: fs => (f.error, { b with faults := fs })
  | fs => ((b.regs reg).toNat, { b with faults := fs.tail })

/-- `i2c2_ll_read_block(sa, reg, len, buf)` on `FIFO_R_W`: `0` and the next `len`
bytes of the FIFO stored in `buf`; or the call's error, with the bytes the
transfer stored before it failed, and the FIFO short of those and of the bytes
a late `RRDY` takes. The controller moves at most `len` bytes (`I2C_CNT`). -/
def i2c2LlReadBlock (b : FifoBus) (len : ℕ) : ℤ × List UInt8 × FifoBus :=
  match b.faults with
  | some f :: fs =>
    let k := min f.stored len
    (f.error, (List.range k).map fun i => b.fifo (b.readPos + i),
      { b with readPos := b.readPos + k + min f.late (len - k), faults := fs })
  | fs => (0, (List.range len).map fun i => b.fifo (b.readPos + i),
      { b with readPos := b.readPos + len, faults := fs.tail })

/-- `((hi & 0xff) << 8) | (lo & 0xff)`. -/
def fifoCount (hi lo : ℤ) : ℕ := ((hi.toNat &&& 0xff) <<< 8) ||| (lo.toNat &&& 0xff)

/-- `mpu6050_kdd_get_fifo_count`: its return value and the count it stores. -/
def mpu6050KddGetFifoCount (initialized : Bool) (b : FifoBus) : ℤ × ℕ × FifoBus :=
  if !initialized then (MPU6050_ERR_NOT_INITIALIZED, 0, b)
  else
    let (hi, b) := i2c2LlReadByte b MPU6050_REG_FIFO_COUNTH
    if hi < 0 then (hi, 0, b)
    else
      let (lo, b) := i2c2LlReadByte b MPU6050_REG_FIFO_COUNTL
      if lo < 0 then (lo, 0, b)
      else (0, fifoCount hi lo, b)

/-- The loop of `mpu6050_read_fifo_bytes`, with `remaining` bytes to go from
`offset`; `buf` is what the block reads stored. Each turn reads at least one
byte or leaves, so `remaining` bounds the turns. -/
def readFifoLoop : ℕ → FifoBus → ℕ → ℕ → List UInt8 → ℤ × List UInt8 × FifoBus
  | 0, b, _, offset, buf => (offset, buf, b)
  | fuel + 1, b, remaining, offset, buf =>
    if remaining = 0 then (offset, buf, b)
    else
      let chunk := if remaining > 32 then 32 else remaining
      let (ret, data, b) := i2c2LlReadBlock b chunk
      let buf := buf ++ data
      if ret < 0 then (ret, buf, b)
      else if ret = 0 then (offset, buf, b)
      else if ret.toNat ≠ chunk then (offset + ret.toNat, buf, b)
      else readFifoLoop fuel b (remaining - ret.toNat) (offset + ret.toNat) buf

/-- `mpu6050_read_fifo_bytes(dev, buf, req)`: its return value and the bytes it
stored in `buf`. -/
def mpu6050ReadFifoBytes (initialized : Bool) (b : FifoBus) (req : ℕ) :
    ℤ × List UInt8 × FifoBus :=
  if !initialized then (MPU6050_ERR_NOT_INITIALIZED, [], b)
  else if req = 0 then (-EINVAL, [], b)
  else readFifoLoop req b req 0 []

/-- `(short)get_unaligned_be16(p)`. -/
def be16 (hi lo : UInt8) : ℤ :=
  let u : ℤ := hi.toNat * 256 + lo.toNat
  if u < 2 ^ 15 then u else u - 2 ^ 16

/-- One 14-byte frame: `ax`, `ay`, `az`, `temp`, `gx`, `gy`, `gz`, big-endian. -/
def decodeFrame (bs : List UInt8) : RawSample :=
  let byteAt (i : ℕ) : UInt8 := bs.getD i 0
  ⟨be16 (byteAt 0) (byteAt 1), be16 (byteAt 2) (byteAt 3), be16 (byteAt 4) (byteAt 5),
    be16 (byteAt 6) (byteAt 7), be16 (byteAt 8) (byteAt 9), be16 (byteAt 10) (byteAt 11),
    be16 (byteAt 12) (byteAt 13)⟩

/-- `mpu6050_read_fifo_samples(dev, samples, max_samples)`: its return value,
the samples it stores in `samples[0..)`, and the bus after. `alloc` is whether
`kmalloc(want_bytes, GFP_ATOMIC)` succeeds. -/
def mpu6050ReadFifoSamples (initialized alloc : Bool) (b : FifoBus) (max_samples : ℕ) :
    ℤ × List RawSample × FifoBus :=
  if !initialized then (MPU6050_ERR_NOT_INITIALIZED, [], b)
  else if max_samples = 0 then (-EINVAL, [], b)
  else
    let (rc, fifo_bytes, b) := mpu6050KddGetFifoCount initialized b
    if rc < 0 then (rc, [], b)
    else if fifo_bytes < 14 then (0, [], b)
    else
      let frames := min (fifo_bytes / 14) max_samples
      let want_bytes := frames * 14
      if !alloc then (-ENOMEM, [], b)
      else
        let (got, tmp, b) := mpu6050ReadFifoBytes initialized b want_bytes
        if got < 0 then (got, [], b)
        else if got.toNat < 14 then (0, [], b)
        else
          let frames := if got.toNat < want_bytes then got.toNat / 14 else frames
          (frames, (List.range frames).map fun i => decodeFrame (tmp.drop (i * 14)), b)

/-! ### Every I2C2 call succeeding -/

section Ok

variable {b : FifoBus} (hb : b.faults = [])
include hb

theorem i2c2LlReadByte_ok (reg : UInt8) :
    i2c2LlReadByte b reg = (((b.regs reg).toNat : ℤ), b) := by
  obtain ⟨regs, fifo, readPos, faults⟩ := b
  subst hb
  rfl

theorem i2c2LlReadBlock_ok (len : ℕ) :
    i2c2LlReadBlock b len = (0, (List.range len).map fun i => b.fifo (b.readPos + i),
      { b with readPos := b.readPos + len }) := by
  obtain ⟨regs, fifo, readPos, faults⟩ := b
  subst hb
  rfl

theorem mpu6050KddGetFifoCount_ok :
    mpu6050KddGetFifoCount true b = (0, fifoCount (b.regs MPU6050_REG_FIFO_COUNTH).toNat
      (b.regs MPU6050_REG_FIFO_COUNTL).toNat, b) := by
  simp only [mpu6050KddGetFifoCount, Bool.not_true, Bool.false_eq_true, if_false,
    i2c2LlReadByte_ok hb, Int.natCast_nonneg, not_lt.2, if_false]

theorem mpu6050ReadFifoBytes_ok {req : ℕ} (hreq : 0 < req) :
    mpu6050ReadFifoBytes true b req =
      (0, (List.range (min req 32)).map fun i => b.fifo (b.readPos + i),
        { b with readPos := b.readPos + min req 32 }) := by
  obtain ⟨k, rfl⟩ : ∃ k, req = k + 1 := ⟨req - 1, by omega⟩
  have hchunk : (if k + 1 > 32 then 32 else k + 1) = min (k + 1) 32 := by split <;> omega
  simp only [mpu6050ReadFifoBytes, readFifoLoop, Bool.not_true, Bool.false_eq_true, if_false,
    Nat.add_one_ne_zero, hchunk, i2c2LlReadBlock_ok hb, List.nil_append, lt_irrefl, if_true,
    Nat.cast_zero]

end Ok

/-- With every I2C2 call succeeding and the buffer allocated,
`mpu6050_read_fifo_samples` returns `0` and stores no sample, whatever count the
device reports and whatever its FIFO holds. When the count covers a frame, the
first chunk of up to 32 bytes has been read out of the FIFO and is lost. -/
theorem mpu6050ReadFifoSamples_ok (b : FifoBus) (hb : b.faults = []) {m : ℕ} (hm : 1 ≤ m) :
    let c := fifoCount (b.regs MPU6050_REG_FIFO_COUNTH).toNat (b.regs MPU6050_REG_FIFO_COUNTL).toNat
    (mpu6050ReadFifoSamples true true b m).1 = 0 ∧ (mpu6050ReadFifoSamples true true b m).2.1 = [] ∧
      (mpu6050ReadFifoSamples true true b m).2.2.readPos =
        b.readPos + if c < 14 then 0 else min (min (c / 14) m * 14) 32 := by
  intro c
  have hm0 : m ≠ 0 := by omega
  simp only [mpu6050ReadFifoSamples, Bool.not_true, Bool.false_eq_true, if_false, hm0,
    mpu6050KddGetFifoCount_ok hb, lt_irrefl]
  by_cases hc : c < 14
  · simp [c, hc]
  · have hw : 0 < min (c / 14) m * 14 := by omega
    simp [c, hc, mpu6050ReadFifoBytes_ok hb hw]

def oneFrameBus : FifoBus :=
  ⟨fun r => if r = MPU6050_REG_FIFO_COUNTL then 14 else 0, fun _ => 0, 0, []⟩

theorem mpu6050ReadFifoSamples_oneFrame :
    oneFrameBus.faults = [] ∧ 1 ≤ 1 ∧
      fifoCount (oneFrameBus.regs MPU6050_REG_FIFO_COUNTH).toNat
        (oneFrameBus.regs MPU6050_REG_FIFO_COUNTL).toNat = 14 ∧
      (mpu6050ReadFifoSamples true true oneFrameBus 1).1 = 0 ∧
      (mpu6050ReadFifoSamples true true oneFrameBus 1).2.1 = [] ∧
      (mpu6050ReadFifoSamples true true oneFrameBus 1).2.2.readPos = 14 :=
  have h := mpu6050ReadFifoSamples_ok oneFrameBus rfl le_rfl
  ⟨rfl, le_rfl, by decide, h.1, h.2.1, h.2.2⟩

end HwDrivers
