import Mathlib.Logic.Basic

/-! The transfer context `g_xfer` of the AM335x I2C2 low-level driver and its
interrupt handler. `g_xfer_lock` lets one `i2c2_start_write`/`i2c2_start_read`
run at a time; the handler can run between any two of its statements, and
after it has returned. A buffer is named by the call that lent it. Each start
first makes sure the module clock runs (`i2c2_ensure_clk`). -/

namespace HwDrivers

/-- `enum i2c2_ll_phase`. -/
inductive XferPhase
  | idle
  | write
  | read
  deriving DecidableEq, Repr

/-- `struct i2c2_ll_xfer`; `done` is whether the completion was signalled since
its last `reinit_completion`. -/
structure Xfer where
  phase : XferPhase
  error : ℤ
  /-- The call whose buffer `g_xfer.buf` points to; `none` for `NULL`. -/
  buf : Option ℕ
  len : ℕ
  idx : ℕ
  done : Bool
  deriving DecidableEq, Repr

/-- The context as `i2c2_ll_init` leaves it. -/
def Xfer.init : Xfer := ⟨.idle, 0, none, 0, 0, false⟩

/-- The bits the handler reads: `I2C_IRQSTATUS_RAW` non-zero, and the NACK, AL,
XRDY, RRDY and ARDY bits of `I2C_IRQSTATUS`. -/
structure IrqStatus where
  raw : Bool
  nack : Bool
  al : Bool
  xrdy : Bool
  rrdy : Bool
  ardy : Bool
  deriving DecidableEq, Repr

def ENXIO : ℤ := 6
def EAGAIN : ℤ := 11

/-- Whether the XRDY or RRDY branch moves a byte of the buffer. -/
def dataBranch (x : Xfer) (st : IrqStatus) : Bool :=
  ((st.xrdy && x.phase = .write) || (st.rrdy && x.phase = .read)) && x.idx < x.len && x.buf.isSome

/-- `i2c2_ll_irq_handler`, lines 77-138, on the context. -/
def irqHandler (x : Xfer) (st : IrqStatus) : Xfer :=
  if !st.raw then x
  else if st.nack || st.al then
    { x with error := if st.nack then - ENXIO else - EAGAIN, phase := .idle, done := true }
  else
    let x := if dataBranch x st then { x with idx := x.idx + 1 } else x
    if st.ardy then { x with phase := .idle, done := true } else x

/-- The byte of a buffer the handler reads (XRDY) or stores (RRDY): its owner
and index. -/
def irqAccess (x : Xfer) (st : IrqStatus) : Option (ℕ × ℕ) :=
  if st.raw && !(st.nack || st.al) && dataBranch x st then x.buf.map (·, x.idx) else none

/-- Where the one caller is inside `i2c2_start_write` or `i2c2_start_read`. -/
inductive Caller
  /-- No start call is executing. -/
  | outside
  /-- Call `c`, for `op` on `n` bytes, before statement `k` of its set-up:
  `reinit_completion`, then the stores of `phase`, `error`, `buf`, `len`, `idx`. -/
  | setup (c : ℕ) (op : XferPhase) (n : ℕ) (k : ℕ)
  /-- In `wait_for_completion_timeout`. -/
  | waiting (c : ℕ)
  deriving DecidableEq, Repr

structure I2cSys where
  xfer : Xfer
  caller : Caller
  deriving DecidableEq, Repr

def I2cSys.init : I2cSys := ⟨Xfer.init, .outside⟩

/-- An event of a run. -/
inductive I2cEvent
  /-- Call `c` enters a start call for `op` on `n` bytes and its clock check passes. -/
  | start (c : ℕ) (op : XferPhase) (n : ℕ)
  /-- The caller runs its next set-up statement. -/
  | next
  /-- The completion wakes the caller, which returns `g_xfer.error`. -/
  | complete
  /-- `wait_for_completion_timeout` returns 0: the call returns `-ETIMEDOUT`. -/
  | timeout
  /-- The interrupt handler runs. -/
  | irq (st : IrqStatus)
  deriving DecidableEq, Repr

/-- Statement `k` of the set-up, lines 416-421 and 464-469. -/
def setupStore (x : Xfer) (c : ℕ) (op : XferPhase) (n : ℕ) : ℕ → Xfer
  | 0 => { x with done := false }
  | 1 => { x with phase := op }
  | 2 => { x with error := 0 }
  | 3 => { x with buf := some c }
  | 4 => { x with len := n }
  | _ => { x with idx := 0 }

def i2cStep (s : I2cSys) : I2cEvent → Option I2cSys
  | .start c op n => if s.caller = .outside then some { s with caller := .setup c op n 0 } else none
  | .next =>
    match s.caller with
    | .setup c op n k =>
      some ⟨setupStore s.xfer c op n k, if k < 5 then .setup c op n (k + 1) else .waiting c⟩
    | _ => none
  | .complete =>
    match s.caller with
    | .waiting _ => if s.xfer.done then some { s with caller := .outside } else none
    | _ => none
  | .timeout =>
    match s.caller with
    | .waiting _ => some { s with caller := .outside }
    | _ => none
  | .irq st => some { s with xfer := irqHandler s.xfer st }

def i2cRun (s : I2cSys) : List I2cEvent → Option I2cSys
  | [] => some s
  | e :: es => (i2cStep s e).bind (i2cRun · es)

theorem irqHandler_idx (x : Xfer) (st : IrqStatus) :
    (irqHandler x st).len = x.len ∧
      ((irqHandler x st).idx = x.idx ∨ x.idx < x.len ∧ (irqHandler x st).idx = x.idx + 1) := by
  unfold irqHandler
  split
  · exact ⟨rfl, .inl rfl⟩
  split
  · exact ⟨rfl, .inl rfl⟩
  by_cases hd : dataBranch x st
  · have hlt : x.idx < x.len := by
      simp only [dataBranch, Bool.and_eq_true, decide_eq_true_eq] at hd
      exact hd.1.2
    simp only [hd, if_true]
    split <;> exact ⟨rfl, .inr ⟨hlt, rfl⟩⟩
  · simp only [hd, if_false]
    split <;> exact ⟨rfl, .inl rfl⟩

/-- Everything one event can do, one constructor per outcome. -/
inductive I2cStepCase (s : I2cSys) : I2cEvent → I2cSys → Prop
  | start {c : ℕ} {op : XferPhase} {n : ℕ} (ho : s.caller = .outside) :
      I2cStepCase s (.start c op n) { s with caller := .setup c op n 0 }
  | next {c : ℕ} {op : XferPhase} {n k : ℕ} (hc : s.caller = .setup c op n k) :
      I2cStepCase s .next
        ⟨setupStore s.xfer c op n k, if k < 5 then .setup c op n (k + 1) else .waiting c⟩
  | complete {c : ℕ} (hc : s.caller = .waiting c) (hd : s.xfer.done = true) :
      I2cStepCase s .complete { s with caller := .outside }
  | timeout {c : ℕ} (hc : s.caller = .waiting c) :
      I2cStepCase s .timeout { s with caller := .outside }
  | irq (st : IrqStatus) : I2cStepCase s (.irq st) { s with xfer := irqHandler s.xfer st }

theorem i2cStep_cases {s t : I2cSys} {e : I2cEvent} (h : i2cStep s e = some t) :
    I2cStepCase s e t := by
  cases e with
  | start c op n =>
    simp only [i2cStep] at h
    split at h
    · cases h; exact .start ‹_›
    · cases h
  | next =>
    simp only [i2cStep] at h
    split at h
    · cases h; exact .next ‹_›
    · cases h
  | complete =>
    simp only [i2cStep] at h
    split at h
    · split at h
      · cases h; exact .complete ‹_› ‹_›
      · cases h
    · cases h
  | timeout =>
    simp only [i2cStep] at h
    split at h
    · cases h; exact .timeout ‹_›
    · cases h
  | irq st => cases h; exact .irq st

/-- Whether the caller has stored `len` and not yet `idx`. -/
def Caller.inLenWindow : Caller → Bool
  | .setup _ _ _ 5 => true
  | _ => false

/-- `idx ≤ len`, except between a start call's stores of `len` and `idx`. -/
def IdxBounded (s : I2cSys) : Prop := s.caller.inLenWindow = false → s.xfer.idx ≤ s.xfer.len

theorem IdxBounded.step {s t : I2cSys} {e : I2cEvent} (h : IdxBounded s)
    (hs : i2cStep s e = some t) : IdxBounded t := by
  intro hw
  cases i2cStep_cases hs with
  | start ho => exact h (by simp [ho, Caller.inLenWindow])
  | @next _ _ _ k hc =>
    match k, hw with
    | 0, _ | 1, _ | 2, _ | 3, _ => exact h (by simp [hc, Caller.inLenWindow])
    | 4, hw => simp [Caller.inLenWindow] at hw
    | k + 5, _ => simp [setupStore]
  | complete hc _ => exact h (by simp [hc, Caller.inLenWindow])
  | timeout hc => exact h (by simp [hc, Caller.inLenWindow])
  | irq st =>
    obtain ⟨hlen, hidx | ⟨hlt, hidx⟩⟩ := irqHandler_idx s.xfer st
    · simp only [hlen, hidx]; exact h hw
    · simp only [hlen, hidx]; omega

theorem IdxBounded.run {s t : I2cSys} {es : List I2cEvent} (h : IdxBounded s)
    (hr : i2cRun s es = some t) : IdxBounded t := by
  induction es generalizing s with
  | nil => cases hr; exact h
  | cons e es ih =>
    simp only [i2cRun, Option.bind_eq_some] at hr
    obtain ⟨u, hu, hr⟩ := hr
    exact ih (h.step hu) hr

/-- Under any interrupts, timeouts included, `g_xfer.idx ≤ g_xfer.len` holds in
every run, except between a start call's stores of `len` and `idx`. -/
theorem i2cRun_idx_le {es : List I2cEvent} {s : I2cSys} (hr : i2cRun I2cSys.init es = some s)
    (hw : s.caller.inLenWindow = false) : s.xfer.idx ≤ s.xfer.len :=
  IdxBounded.run (fun _ => Nat.zero_le _) hr hw

def xrdyOnly : IrqStatus := ⟨true, false, false, true, false, false⟩
def ardyOnly : IrqStatus := ⟨true, false, false, false, false, true⟩
def rrdyOnly : IrqStatus := ⟨true, false, false, false, true, false⟩

/-- `i2c2_ll_read_block(sa, reg, 14, buf)` as call `1`: the register write
sends its byte and completes, the read of 14 bytes gets no interrupt within
100 ms and returns `-ETIMEDOUT`; the caller then frees the buffer. -/
def lateRead : List I2cEvent :=
  [.start 1 .write 1, .next, .next, .next, .next, .next, .next, .irq xrdyOnly, .irq ardyOnly,
    .complete,
    .start 1 .read 14, .next, .next, .next, .next, .next, .next, .timeout]

/-- After the timed-out read has returned, the phase is still `READ` and the
buffer of the returned call is still installed, so a late RRDY stores into
byte `0` of it. -/
theorem i2cRun_lateRead :
    ∃ s, i2cRun I2cSys.init lateRead = some s ∧ s.caller = .outside ∧
      s.xfer.phase = .read ∧ irqAccess s.xfer rrdyOnly = some (1, 0) :=
  ⟨_, rfl, rfl, rfl, rfl⟩

theorem i2cRun_idx_le_lateRead :
    ∃ s, i2cRun I2cSys.init lateRead = some s ∧ s.xfer.idx ≤ s.xfer.len :=
  ⟨_, rfl, @i2cRun_idx_le lateRead _ rfl rfl⟩

/-! ### The module clock

`i2c2_ensure_clk` (lines 178-207) runs first in every transfer. It reads
`CM_PER_I2C2_CLKCTRL` as the hardware answers: `reads k` is the value of its
`k`-th read. -/

def ENODEV : ℤ := 19
def ETIMEDOUT : ℤ := 110

/-- IDLEST, bits 17:16 of `CM_PER_I2C2_CLKCTRL`: `0` when the module is functional. -/
def idlest (v : BitVec 32) : BitVec 32 := (v >>> 16) &&& 3

/-- MODULEMODE, bits 1:0: not `0` when the clock is enabled. -/
def modulemode (v : BitVec 32) : BitVec 32 := v &&& 3

/-- `i2c2_clk_is_on` on the value it reads; `mapped` is `cm_per_base != NULL`. -/
def i2c2ClkIsOn (mapped : Bool) (v : BitVec 32) : Bool :=
  mapped && idlest v == 0 && modulemode v != 0

/-- `while (timeout-- > 0)`, lines 197-203, with `t` polls left from read `k`
on: the result and the number of reads made. -/
def pollIdlest (reads : ℕ → BitVec 32) : ℕ → ℕ → ℤ × ℕ
  | 0, k => (- ETIMEDOUT, k)
  | t + 1, k => if idlest (reads k) = 0 then (0, k + 1) else pollIdlest reads t (k + 1)

/-- `i2c2_ensure_clk`: its result, the number of reads of `CM_PER_I2C2_CLKCTRL`,
and the value it writes there (`MODULEMODE = 0x2`), if it writes. -/
def i2c2EnsureClk (mapped : Bool) (reads : ℕ → BitVec 32) : ℤ × ℕ × Option (BitVec 32) :=
  if !mapped then (- ENODEV, 0, none)
  else if idlest (reads 0) == 0 && modulemode (reads 0) != 0 then (0, 1, none)
  else
    let r := pollIdlest reads 200 1
    (r.1, r.2, some ((reads 0 &&& ~~~3) ||| 2))

theorem pollIdlest_fst (reads : ℕ → BitVec 32) (t k : ℕ) :
    (pollIdlest reads t k).1 = 0 ↔ ∃ i, k ≤ i ∧ i < k + t ∧ idlest (reads i) = 0 := by
  induction t generalizing k with
  | zero => exact ⟨fun h => by simp [pollIdlest, ETIMEDOUT] at h, fun ⟨i, h1, h2, _⟩ => by omega⟩
  | succ t ih =>
    by_cases h : idlest (reads k) = 0
    · simp only [pollIdlest, h, if_true, true_iff]
      exact ⟨k, Nat.le_refl k, by omega, h⟩
    · simp only [pollIdlest, h, if_false]
      rw [ih (k + 1)]
      constructor
      · rintro ⟨i, h1, h2, h3⟩
        exact ⟨i, by omega, by omega, h3⟩
      · rintro ⟨i, h1, h2, h3⟩
        have hik : i ≠ k := fun e => h (e ▸ h3)
        exact ⟨i, by omega, by omega, h3⟩

/-- With the clock registers mapped, `i2c2_ensure_clk` succeeds exactly when its
first read shows the clock on, or one of the 200 polls after its enable write
shows the module functional. -/
theorem i2c2EnsureClk_ok_iff (reads : ℕ → BitVec 32) :
    (i2c2EnsureClk true reads).1 = 0 ↔
      i2c2ClkIsOn true (reads 0) = true ∨ ∃ i, 1 ≤ i ∧ i ≤ 200 ∧ idlest (reads i) = 0 := by
  have hp := pollIdlest_fst reads 200 1
  unfold i2c2EnsureClk i2c2ClkIsOn
  cases hb : (idlest (reads 0) == 0 && modulemode (reads 0) != 0) <;>
    simp only [Bool.not_true, Bool.true_and, hb, Bool.false_eq_true, if_false, if_true, false_or,
      true_or, iff_true, hp]
  exact exists_congr fun i => and_congr_right fun _ => and_congr_left fun _ => by omega

end HwDrivers
