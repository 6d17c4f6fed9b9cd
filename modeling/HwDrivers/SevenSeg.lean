import Mathlib.Data.Fin.VecNotation
import Mathlib.Logic.Function.Basic
import HwDrivers.Fifo

/-! The two-digit multiplexed seven-segment driver `gpio_7seg_dts`
(`src/unnamed/part_006`, lines 653-860). A `write` stores two characters in
`display_buffer`; every `STROBE_MS` the timer lights one digit with
`display_digit_at(current_digit)` and flips `current_digit`. Only the timer
drives the lines once the device is probed. -/

namespace HwDrivers

/-- `digit_map`: the segments `a` to `g` lit for each digit. -/
def digitMap : Fin 10 → Fin 7 → Bool :=
  ![![true, true, true, true, true, true, false],
    ![false, true, true, false, false, false, false],
    ![true, true, false, true, true, false, true],
    ![true, true, true, true, false, false, true],
    ![false, true, true, false, false, true, true],
    ![true, false, true, true, false, true, true],
    ![true, false, true, true, true, true, true],
    ![true, true, true, false, false, false, false],
    ![true, true, true, true, true, true, true],
    ![true, true, true, true, false, true, true]]

/-- The digit `c - '0'` of a character the test `c < '0' || c > '9'` lets
through, and `none` for the characters it turns away. -/
def charDigit (c : Char) : Option (Fin 10) :=
  if h : c < '0' ∨ c > '9' then none
  else
    some ⟨c.toNat - '0'.toNat, by
      simp only [not_or, gt_iff_lt, Char.lt_def, UInt32.lt_def, BitVec.lt_def, not_lt] at h
      have h9 : ('9' : Char).val.toBitVec.toNat = 57 := rfl
      show c.val.toBitVec.toNat - 48 < 10
      omega⟩

example : charDigit '4' = some 4 ∧ charDigit ' ' = none ∧ charDigit '\n' = none := by decide

/-- The lines `segments[0..7)` and `cathodes[0..2)`, `true` for the value 1. -/
structure Pins where
  segments : Fin 7 → Bool
  cathodes : Fin 2 → Bool

/-- A `gpiod_set_value` call. -/
inductive GpioSet
  | segment (i : Fin 7) (v : Bool)
  | cathode (j : Fin 2) (v : Bool)

def GpioSet.isCathode : GpioSet → Bool
  | .segment _ _ => false
  | .cathode _ _ => true

namespace Pins

def set (p : Pins) : GpioSet → Pins
  | .segment i v => { p with segments := Function.update p.segments i v }
  | .cathode j v => { p with cathodes := Function.update p.cathodes j v }

/-- The lines after a sequence of calls. -/
def apply (p : Pins) (ws : List GpioSet) : Pins := ws.foldl set p

@[simp] theorem apply_nil (p : Pins) : p.apply [] = p := rfl

@[simp] theorem apply_cons (p : Pins) (w : GpioSet) (ws : List GpioSet) :
    p.apply (w :: ws) = (p.set w).apply ws := rfl

@[simp] theorem apply_append (p : Pins) (ws vs : List GpioSet) :
    p.apply (ws ++ vs) = (p.apply ws).apply vs := List.foldl_append _ _ _ _

theorem apply_cathodes (p : Pins) {ws : List GpioSet} (h : ∀ w ∈ ws, w.isCathode = false) :
    (p.apply ws).cathodes = p.cathodes := by
  induction ws generalizing p with
  | nil => rfl
  | cons w ws ih =>
    rw [apply_cons, ih (p.set w) fun v hv => h v (.tail _ hv)]
    cases w with
    | segment i v => rfl
    | cathode j v => exact absurd (h (.cathode j v) (.head _)) (by simp [GpioSet.isCathode])

theorem apply_ofFn_segment (p : Pins) (f : Fin 7 → Bool) :
    p.apply (List.ofFn fun i => .segment i (f i)) = { p with segments := f } := by
  obtain ⟨segments, cathodes⟩ := p
  simp only [List.ofFn_succ, List.ofFn_zero, apply_cons, apply_nil, set, mk.injEq, and_true]
  funext i
  fin_cases i <;> rfl

end Pins

/-- `display_digit_at(idx)` with the character it reads from `display_buffer[idx]`:
its `gpiod_set_value` calls, in order. Both cathodes go to 0 first; a digit then
sets the seven segments and drives `cathodes[idx]` to 1. -/
def displayDigitAt (display_buffer : Fin 2 → Char) (idx : Fin 2) : List GpioSet :=
  [.cathode 0 false, .cathode 1 false] ++
    match charDigit (display_buffer idx) with
    | none => []
    | some d => List.ofFn (fun i => GpioSet.segment i (digitMap d i)) ++ [.cathode idx true]

/-- The driver's state: `display_buffer`, `current_digit` and the lines. The C
`current_digit` is an `int` that only `current_digit ^= 1` writes, starting from
`0`, so it is kept as a `Fin 2`. -/
structure SevenSeg where
  display_buffer : Fin 2 → Char
  current_digit : Fin 2
  pins : Pins

/-- The static initializers and the lines as `setup_gpios` leaves them: segments
`GPIOD_OUT_LOW`, cathodes `GPIOD_OUT_HIGH`. -/
def SevenSeg.init : SevenSeg := ⟨![ '0', '0'], 0, ⟨fun _ => false, fun _ => true⟩⟩

/-- `strobe_func`: `display_digit_at(current_digit)`, then `current_digit ^= 1`. -/
def strobeFunc (s : SevenSeg) : SevenSeg :=
  { s with pins := s.pins.apply (displayDigitAt s.display_buffer s.current_digit),
           current_digit := s.current_digit ^^^ 1 }

/-- `-EFAULT`'s magnitude. -/
def EFAULT : ℤ := 14

/-- `dev_write(file, buf, count, f_pos)`, with `ubuf` the bytes of the user
buffer (`copy_from_user` fails when it holds fewer than `count`): the return
value and the stores to `display_buffer`, in order. -/
def devWrite (count : ℕ) (ubuf : List Char) : ℤ × List (Fin 2 × Char) :=
  if count = 0 then (0, [])
  else if count > 128 - 1 then (-EINVAL, [])
  else if ubuf.length < count then (-EFAULT, [])
  else if count ≥ 2 then (count, [(0, ubuf.getD 0 ' '), (1, ubuf.getD 1 ' ')])
  else if count = 1 then (count, [(0, ubuf.getD 0 ' '), (1, ' ')])
  else (count, [])

theorem devWrite_refused {count : ℕ} {ubuf : List Char}
    (h : count = 0 ∨ 127 < count ∨ ubuf.length < count) :
    (devWrite count ubuf).1 ≤ 0 ∧ (devWrite count ubuf).2 = [] := by
  unfold devWrite
  split_ifs <;> first | exact ⟨by decide, rfl⟩ | (exfalso; omega)

/-- An event of the running driver. -/
inductive SegEvent
  /-- One store of a `dev_write` into `display_buffer[j]`. Writers take no lock,
  so the stores of concurrent writes interleave with each other and with the
  timer. -/
  | store (j : Fin 2) (c : Char)
  /-- The timer fires and `strobe_func` runs. It reads `display_buffer` once,
  first, and nothing else writes the lines, so a store during the callback acts
  as one after it. -/
  | strobe

def segStep (s : SevenSeg) : SegEvent → SevenSeg
  | .store j c => { s with display_buffer := Function.update s.display_buffer j c }
  | .strobe => strobeFunc s

def segRun (s : SevenSeg) (es : List SegEvent) : SevenSeg := es.foldl segStep s

/-- The stores of `dev_write(count)` as events. -/
def writeEvents (count : ℕ) (ubuf : List Char) : List SegEvent :=
  (devWrite count ubuf).2.map fun (j, c) => .store j c

/-! ### No display lit with a wrong pattern -/

/-- Every lit display shows either nothing or a digit, and a display lit with a
digit is the only one lit. -/
def Ghostless (p : Pins) : Prop :=
  ∀ j, p.cathodes j = true →
    (∀ i, p.segments i = false) ∨ (∃ d, p.segments = digitMap d) ∧ ∀ k, p.cathodes k = true → k = j

/-- Every display is off. -/
def Dark (p : Pins) : Prop := ∀ j, p.cathodes j = false

theorem Dark.ghostless {p : Pins} (h : Dark p) : Ghostless p := fun j hj => by
  rw [h j] at hj
  cases hj

theorem Ghostless.cathode_off {p : Pins} (h : Ghostless p) (j : Fin 2) :
    Ghostless (p.set (.cathode j false)) := by
  intro k hk
  have hkj : k ≠ j := by rintro rfl; simp [Pins.set] at hk
  simp only [Pins.set, Function.update_noteq hkj] at hk ⊢
  refine (h k hk).imp id fun ⟨hd, hone⟩ => ⟨hd, fun m hm => hone m ?_⟩
  by_cases hmj : m = j
  · subst hmj; simp at hm
  · rwa [Function.update_noteq hmj] at hm

/-- What the lines show once `display_digit_at(idx)` has run on the digit `o`
it read: `some d` lights `idx` alone with the segments of `d`; `none` leaves
every display off. -/
def LitAs (p : Pins) (idx : Fin 2) : Option (Fin 10) → Prop
  | none => Dark p
  | some d => p.segments = digitMap d ∧ ∀ j, p.cathodes j = decide (j = idx)

theorem dark_offs (p : Pins) : Dark ((p.set (.cathode 0 false)).set (.cathode 1 false)) := by
  intro j
  fin_cases j <;> rfl

theorem apply_displayDigitAt (p : Pins) (buf : Fin 2 → Char) (idx : Fin 2) :
    LitAs (p.apply (displayDigitAt buf idx)) idx (charDigit (buf idx)) := by
  unfold displayDigitAt
  rcases charDigit (buf idx) with _ | d
  · exact dark_offs p
  · simp only [Pins.apply_append, Pins.apply_cons, Pins.apply_nil, Pins.apply_ofFn_segment]
    refine ⟨rfl, fun j => ?_⟩
    by_cases hj : j = idx
    · subst hj; simp [Pins.set]
    · simp only [Pins.set, Function.update_noteq hj, decide_eq_false hj]
      exact dark_offs p j

theorem LitAs.ghostless {p : Pins} {idx : Fin 2} {o : Option (Fin 10)} (h : LitAs p idx o) :
    Ghostless p := by
  cases o with
  | none => exact Dark.ghostless h
  | some d =>
    obtain ⟨hs, hc⟩ := h
    intro j hj
    have hj' : j = idx := by simpa [hc j] using hj
    exact .inr ⟨⟨d, hs⟩, fun k hk => by simpa [hc k, ← hj'] using hk⟩

theorem displayDigitAt_length_le (buf : Fin 2 → Char) (idx : Fin 2) :
    (displayDigitAt buf idx).length ≤ 10 := by
  unfold displayDigitAt
  split <;> simp

theorem ghostless_apply_take {p : Pins} (hp : Ghostless p) (buf : Fin 2 → Char) (idx : Fin 2)
    (n : ℕ) : Ghostless (p.apply ((displayDigitAt buf idx).take n)) := by
  by_cases hn : 10 ≤ n
  · rw [List.take_of_length_le ((displayDigitAt_length_le buf idx).trans hn)]
    exact (apply_displayDigitAt p buf idx).ghostless
  match n with
  | 0 => exact hp
  | 1 => exact hp.cathode_off 0
  | n + 2 =>
    have hd := dark_offs p
    unfold displayDigitAt
    simp only [List.cons_append, List.nil_append, List.take_succ_cons, Pins.apply_cons]
    rcases charDigit (buf idx) with _ | d
    · exact Dark.ghostless (by simpa using hd)
    · have hs : ∀ w ∈ (List.ofFn fun i => GpioSet.segment i (digitMap d i)).take n,
          w.isCathode = false := by
        intro w hw
        obtain ⟨i, rfl⟩ := (List.mem_ofFn _ _).1 (List.mem_of_mem_take hw)
        rfl
      rw [List.take_append_eq_append_take, List.length_ofFn,
        show n - 7 = 0 by omega, List.take_zero, List.append_nil]
      exact Dark.ghostless fun j => by rw [Pins.apply_cathodes _ hs]; exact hd j

/-! ### Runs -/

@[simp] theorem segRun_nil (s : SevenSeg) : segRun s [] = s := rfl

@[simp] theorem segRun_cons (s : SevenSeg) (e : SegEvent) (es : List SegEvent) :
    segRun s (e :: es) = segRun (segStep s e) es := rfl

theorem segRun_append (s : SevenSeg) (es fs : List SegEvent) :
    segRun s (es ++ fs) = segRun (segRun s es) fs := List.foldl_append _ _ _ _

theorem strobeFunc_lit (s : SevenSeg) :
    LitAs (strobeFunc s).pins s.current_digit (charDigit (s.display_buffer s.current_digit)) :=
  apply_displayDigitAt _ _ _

theorem segStep_ghostless {s : SevenSeg} (h : Ghostless s.pins) :
    ∀ e, Ghostless (segStep s e).pins
  | .store _ _ => h
  | .strobe => (strobeFunc_lit s).ghostless

theorem ghostless_segRun {s : SevenSeg} (h : Ghostless s.pins) (es : List SegEvent) :
    Ghostless (segRun s es).pins := by
  induction es generalizing s with
  | nil => exact h
  | cons e es ih => exact ih (segStep_ghostless h e)

/-- In every run, whatever the order of the writes' stores and the strobes, no
state of the lines, between two `gpiod_set_value` calls of a strobe included,
lights a display with a pattern other than a digit's, and a digit is lit on one
display only. -/
theorem segRun_ghostless (es : List SegEvent) (n : ℕ) :
    let s := segRun SevenSeg.init es
    Ghostless (s.pins.apply ((displayDigitAt s.display_buffer s.current_digit).take n)) :=
  ghostless_apply_take (ghostless_segRun (fun _ _ => .inl fun _ => rfl) es) _ _ n

/-! ### A write, then two strobes -/

theorem segRun_writeEvents (s : SevenSeg) {count : ℕ} {ubuf : List Char} (h1 : 1 ≤ count)
    (h2 : count ≤ 127) (hu : count ≤ ubuf.length) :
    (devWrite count ubuf).1 = count ∧ segRun s (writeEvents count ubuf) =
      { s with display_buffer := ![ubuf.getD 0 ' ', if 2 ≤ count then ubuf.getD 1 ' ' else ' '] } := by
  have hstore : ∀ a b : Char,
      segRun s [.store 0 a, .store 1 b] = { s with display_buffer := ![a, b] } := by
    intro a b
    simp only [segRun_cons, segRun_nil, segStep, SevenSeg.mk.injEq, and_true]
    funext j
    fin_cases j <;> rfl
  unfold writeEvents devWrite
  by_cases h : 2 ≤ count
  · rw [if_neg (by omega), if_neg (by omega), if_neg (by omega), if_pos h, if_pos h]
    exact ⟨rfl, hstore _ _⟩
  · obtain rfl : count = 1 := by omega
    rw [if_neg (by omega), if_neg (by omega), if_neg (by omega), if_neg h, if_pos rfl, if_neg h]
    exact ⟨rfl, hstore _ _⟩

/-- After any accepted write, from any state, the next two strobes light each
digit with the byte the write put there, or leave it dark when that byte is not
a digit: the first strobe the digit `current_digit` was at, the second the other. -/
theorem devWrite_strobes (s : SevenSeg) {count : ℕ} {ubuf : List Char} (h1 : 1 ≤ count)
    (h2 : count ≤ 127) (hu : count ≤ ubuf.length) :
    let shown : Fin 2 → Char := ![ubuf.getD 0 ' ', if 2 ≤ count then ubuf.getD 1 ' ' else ' ']
    let t := segRun s (writeEvents count ubuf ++ [.strobe])
    (devWrite count ubuf).1 = count ∧
      LitAs t.pins s.current_digit (charDigit (shown s.current_digit)) ∧
      LitAs (segStep t .strobe).pins (s.current_digit ^^^ 1)
        (charDigit (shown (s.current_digit ^^^ 1))) := by
  obtain ⟨hret, hw⟩ := segRun_writeEvents s h1 h2 hu
  simp only [segRun_append, hw, segRun_cons, segRun_nil]
  exact ⟨hret, strobeFunc_lit _, strobeFunc_lit _⟩

theorem devWrite_strobes_echo :
    let ubuf := "42\n".toList
    let shown : Fin 2 → Char := ![ubuf.getD 0 ' ', if 2 ≤ 3 then ubuf.getD 1 ' ' else ' ']
    let t := segRun SevenSeg.init (writeEvents 3 ubuf ++ [.strobe])
    1 ≤ 3 ∧ 3 ≤ 127 ∧ 3 ≤ ubuf.length ∧ (devWrite 3 ubuf).1 = 3 ∧
      LitAs t.pins SevenSeg.init.current_digit (charDigit (shown SevenSeg.init.current_digit)) ∧
      LitAs (segStep t .strobe).pins (SevenSeg.init.current_digit ^^^ 1)
        (charDigit (shown (SevenSeg.init.current_digit ^^^ 1))) :=
  ⟨by decide, by decide, by decide, devWrite_strobes SevenSeg.init (by decide) (by decide) (by decide)⟩

/-! ### The single-digit driver `gpio_7seg` of `01_GPIO`

One display, its cathode line `cathode_enable` active low, and no timer: each
`write` sets the lines itself through `display_digit`. Writers take no lock, so
the calls of two writes can interleave. -/

namespace OneDigit

/-- The lines `segments[0..7)` and `cathode_enable`. -/
structure Pins where
  segments : Fin 7 → Bool
  cathode_enable : Bool

/-- A `gpiod_set_value` call. -/
inductive GpioSet
  | segment (i : Fin 7) (v : Bool)
  | cathode (v : Bool)
  deriving DecidableEq

def Pins.set (p : Pins) : GpioSet → Pins
  | .segment i v => { p with segments := Function.update p.segments i v }
  | .cathode v => { p with cathode_enable := v }

def Pins.apply (p : Pins) (ws : List GpioSet) : Pins := ws.foldl Pins.set p

/-- `display_digit(c)`: a character the test turns away drives `cathode_enable`
to 1 (off); a digit sets the seven segments, then drives it to 0 (on). -/
def displayDigit (c : Char) : List GpioSet :=
  match charDigit c with
  | none => [.cathode true]
  | some d => List.ofFn (fun i => GpioSet.segment i (digitMap d i)) ++ [.cathode false]

/-- `dev_write(file, buf, count, f_pos)`, with `ubuf` the bytes of the user
buffer: the return value and the character it passes to `display_digit`. -/
def devWrite (count : ℕ) (ubuf : List Char) : ℤ × Option Char :=
  if count > 128 - 1 then (-EINVAL, none)
  else if ubuf.length < count then (-EFAULT, none)
  else if count > 0 then (count, some (ubuf.getD 0 ' '))
  else (count, none)

/-- The lines, and the calls each writer's `display_digit` has still to make. -/
structure Sys where
  pins : Pins
  pending : ℕ → List GpioSet

/-- The lines as `setup_gpios` leaves them: segments 0, `cathode_enable` 1. -/
def Sys.init : Sys := ⟨⟨fun _ => false, true⟩, fun _ => []⟩

inductive Event
  /-- Writer `w`, with no call in flight, enters `dev_write`. -/
  | write (w count : ℕ) (ubuf : List Char)
  /-- Writer `w` makes its next `gpiod_set_value` call. -/
  | gpio (w : ℕ)

def step (s : Sys) : Event → Option Sys
  | .write w count ubuf =>
    if s.pending w = [] then
      let calls := (devWrite count ubuf).2.elim [] displayDigit
      some { s with pending := Function.update s.pending w calls }
    else none
  | .gpio w =>
    match s.pending w with
    | [] => none
    | g :: gs => some ⟨s.pins.set g, Function.update s.pending w gs⟩

def run (s : Sys) : List Event → Option Sys
  | [] => some s
  | e :: es => (step s e).bind (run · es)

/-- What the display shows: `none` off, `some d` the segments of `d`, lit. -/
def Shows (p : Pins) : Option (Fin 10) → Prop
  | none => p.cathode_enable = true
  | some d => p.cathode_enable = false ∧ p.segments = digitMap d

theorem shows_apply_displayDigit (p : Pins) (c : Char) :
    Shows (p.apply (displayDigit c)) (charDigit c) := by
  unfold displayDigit
  rcases charDigit c with _ | d
  · rfl
  · obtain ⟨segments, cathode_enable⟩ := p
    simp only [Pins.apply, List.foldl_append, List.ofFn_succ, List.ofFn_zero, List.foldl_cons,
      List.foldl_nil, Pins.set]
    refine ⟨rfl, funext fun i => ?_⟩
    fin_cases i <;> rfl

/-- A write that runs to its end before another starts: `dev_write` by writer
`0`, then every call of its `display_digit`. -/
def soloWrite (count : ℕ) (ubuf : List Char) : List Event :=
  .write 0 count ubuf ::
    List.replicate ((devWrite count ubuf).2.elim [] displayDigit).length (.gpio 0)

theorem run_gpio_replicate (s : Sys) (ws : List GpioSet) (h : s.pending 0 = ws) (es : List Event) :
    run s (List.replicate ws.length (.gpio 0) ++ es) =
      run ⟨s.pins.apply ws, Function.update s.pending 0 []⟩ es := by
  induction ws generalizing s with
  | nil =>
    obtain ⟨pins, pending⟩ := s
    simp only [List.length_nil, List.replicate_zero, List.nil_append, Pins.apply, List.foldl_nil]
    congr
    rw [← h, Function.update_eq_self]
  | cons g gs ih =>
    simp only [List.length_cons, List.replicate_succ, List.cons_append, run, step, h,
      Option.some_bind, List.append_eq]
    rw [ih _ (by simp)]
    simp [Pins.apply]

theorem run_soloWrite (s : Sys) (hp : ∀ w, s.pending w = []) (count : ℕ) (ubuf : List Char)
    (es : List Event) :
    run s (soloWrite count ubuf ++ es) =
      run ⟨s.pins.apply ((devWrite count ubuf).2.elim [] displayDigit), s.pending⟩ es := by
  simp only [soloWrite, List.cons_append, run, step, hp, if_true, Option.some_bind, List.append_eq]
  rw [run_gpio_replicate _ ((devWrite count ubuf).2.elim [] displayDigit)
      (by simp only [Function.update_same]), Function.update_idem,
    (Function.update_eq_self_iff.2 (hp 0).symm : Function.update s.pending 0 [] = s.pending)]

/-- The digit a write leaves on the display after the one before: the digit of
the byte it passes to `display_digit`, or nothing for a non-digit; a write that
passes none leaves the display as it was. -/
def shownAfter (o : Option (Fin 10)) (w : ℕ × List Char) : Option (Fin 10) :=
  ((devWrite w.1 w.2).2.map charDigit).getD o

theorem shows_shownAfter {p : Pins} {o : Option (Fin 10)} (h : Shows p o) (count : ℕ)
    (ubuf : List Char) :
    Shows (p.apply ((devWrite count ubuf).2.elim [] displayDigit)) (shownAfter o (count, ubuf)) := by
  unfold shownAfter
  rcases (devWrite count ubuf).2 with _ | c
  · exact h
  · exact shows_apply_displayDigit p c

/-- Every sequence of writes that do not overlap leaves no call in flight, and
the display off or lit with exactly the digit of the byte the last write that
displayed one passed to `display_digit`. -/
theorem run_soloWrites (ws : List (ℕ × List Char)) :
    ∃ s, run Sys.init (ws.flatMap fun w => soloWrite w.1 w.2) = some s ∧
      (∀ w, s.pending w = []) ∧ Shows s.pins (ws.foldl shownAfter none) := by
  suffices h : ∀ (s : Sys) (o : Option (Fin 10)), (∀ w, s.pending w = []) → Shows s.pins o →
      ∃ t, run s (ws.flatMap fun w => soloWrite w.1 w.2) = some t ∧
        (∀ w, t.pending w = []) ∧ Shows t.pins (ws.foldl shownAfter o) from
    h _ _ (fun _ => rfl) rfl
  induction ws with
  | nil => exact fun s o hp hs => ⟨s, rfl, hp, hs⟩
  | cons w ws ih =>
    intro s o hp hs
    rw [List.flatMap_cons, run_soloWrite s hp]
    exact ih _ _ hp (shows_shownAfter hs w.1 w.2)

/-- The writes must not overlap: writer `0` writes `8` and writer `1` writes `1`,
writer `1` sets segments `a` to `d`, writer `0` runs to its end, then writer `1`
sets `e` to `g` and turns the display on, lit with `a` to `d` alone, no digit. -/
example :
    ∃ s, run Sys.init ([.write 0 1 ['8'], .write 1 1 ['1'], .gpio 1, .gpio 1, .gpio 1, .gpio 1] ++
        List.replicate 8 (.gpio 0) ++ [.gpio 1, .gpio 1, .gpio 1, .gpio 1]) = some s ∧
      s.pending 0 = [] ∧ s.pending 1 = [] ∧ s.pins.cathode_enable = false ∧
      ∀ d, s.pins.segments ≠ digitMap d :=
  ⟨_, rfl, rfl, rfl, rfl, by decide⟩

end OneDigit

end HwDrivers
