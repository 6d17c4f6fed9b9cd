import HwDrivers.Printf

/-! The character device `/dev/mpu6050`. The kernel has no floating point, so
`mpu6050_kdd_print_msg` prints a sample in fixed point: the sign, the whole
part and three digits of fraction of each milli-unit value. `dev_read` puts
the button's IRQ count in front. -/

namespace HwDrivers

/-- A C `int`. -/
abbrev CInt := {z : ℤ // -2 ^ 31 ≤ z ∧ z < 2 ^ 31}

/-- A result stored in an `int32_t`. Signed overflow is undefined in C; this is
the two's complement wrap-around the ARM code computes. -/
def wrapS32 (z : ℤ) : ℤ := (z + 2 ^ 31) % 2 ^ 32 - 2 ^ 31

/-- A result stored in an `int64_t`. -/
def wrapS64 (z : ℤ) : ℤ := (z + 2 ^ 63) % 2 ^ 64 - 2 ^ 63

/-- `mpu6050_raw_t`: the registers, C `short`s. -/
structure RawSample where
  ax : ℤ
  ay : ℤ
  az : ℤ
  temp : ℤ
  gx : ℤ
  gy : ℤ
  gz : ℤ
  deriving DecidableEq, Repr

/-- `mpu6050_sample_fixed_t`: milli-g, milli-degrees per second, milli-degrees C. -/
structure FixedSample where
  ax_mg : CInt
  ay_mg : CInt
  az_mg : CInt
  gx_mdps : CInt
  gy_mdps : CInt
  gz_mdps : CInt
  temp_mdegC : CInt
  deriving DecidableEq

/-- The sign string of a value: `"-"` below zero, else `nonneg` (`" "` for the
six axes, `""` for the temperature). -/
def signText (nonneg : String) (v : ℤ) : List Char := (if v < 0 then "-" else nonneg).toList

/-- `%s%d.%03d` of one value with its sign string, `|v / 1000|` and
`|v % 1000|`, as lines 300-341 compute them with C's truncating `/` and `%`. -/
def fixedPieces (nonneg : String) (v : ℤ) : List FmtPiece :=
  let wh := v.tdiv 1000
  let fr := v.tmod 1000
  let fr := if fr < 0 then -fr else fr
  [.s (signText nonneg v), .d (if wh < 0 then -wh else wh), .text ".", .d03 fr]

/-- `"RAW ax=%d ay=%d az=%d gx=%d gy=%d gz=%d temp=%d\n"`. -/
def rawPieces (r : RawSample) : List FmtPiece :=
  [.text "RAW ax=", .d r.ax, .text " ay=", .d r.ay, .text " az=", .d r.az, .text " gx=", .d r.gx,
    .text " gy=", .d r.gy, .text " gz=", .d r.gz, .text " temp=", .d r.temp, .text "\n"]

/-- The packed format, lines 352-362; the `°` of the source is the two bytes of
its UTF-8 encoding. -/
def packedPieces (fx : FixedSample) : List FmtPiece :=
  fixedPieces " " fx.ax_mg.1 ++ [.text ","] ++ fixedPieces " " fx.ay_mg.1 ++ [.text ","] ++
    fixedPieces " " fx.az_mg.1 ++ [.text ", [g]\n"] ++
  fixedPieces " " fx.gx_mdps.1 ++ [.text ","] ++ fixedPieces " " fx.gy_mdps.1 ++ [.text ","] ++
    fixedPieces " " fx.gz_mdps.1 ++ [.text ", [dps]\n"] ++
  fixedPieces "" fx.temp_mdegC.1 ++ [.text ", [\xC2\xB0C]\n"]

/-- The one-value-a-line format, lines 366-376. -/
def listPieces (fx : FixedSample) : List FmtPiece :=
  [.text "ax="] ++ fixedPieces " " fx.ax_mg.1 ++ [.text " g\nay="] ++ fixedPieces " " fx.ay_mg.1 ++
    [.text " g\naz="] ++ fixedPieces " " fx.az_mg.1 ++ [.text " g\ngx="] ++
  fixedPieces " " fx.gx_mdps.1 ++ [.text " dps\ngy="] ++ fixedPieces " " fx.gy_mdps.1 ++
    [.text " dps\ngz="] ++ fixedPieces " " fx.gz_mdps.1 ++ [.text " dps\ntemp="] ++
  fixedPieces "" fx.temp_mdegC.1 ++ [.text " C\n"]

/-- `mpu6050_kdd_print_msg(buf, buflen, r, fx, print_raw, print_packed)`: the
characters it stores; it returns their number. -/
def mpu6050KddPrintMsg (buflen : ℕ) (r : RawSample) (fx : FixedSample)
    (print_raw print_packed : Bool) : List Char :=
  let raw := if print_raw then scnprintf buflen (rawPieces r) else []
  raw ++ scnprintf (buflen - raw.length) (if print_packed then packedPieces fx else listPieces fx)

/-- `dev_read` of `07_BeagleBone/mpu6050_core.c`: the `pos` bytes of `kbuf[256]`
that `simple_read_from_buffer` hands to the first `read` of the file; `sample`
is the copy of `g_sample_state` when it is `valid`. -/
def devRead (irq : UInt32) (sample : Option (RawSample × FixedSample)) : List Char :=
  match sample with
  | none => scnprintf 256 [.text "IRQ count: ", .u irq.toNat, .text "\n(no sample yet)\n"]
  | some (r, fx) =>
    let head := scnprintf 256 [.text "IRQ count: ", .u irq.toNat, .text "\n"]
    head ++ mpu6050KddPrintMsg (256 - head.length) r fx false true

end HwDrivers
