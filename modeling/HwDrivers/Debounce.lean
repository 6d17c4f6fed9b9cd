import Mathlib.Data.Int.ModEq
import Mathlib.Data.Nat.Cast.Basic

/-! The push button's interrupt handler `gpio_irq_handler`, the same in the three
drivers that have one. It counts an interrupt when
`time_after(now, last_jiffies + msecs_to_jiffies(DEBOUNCE_MS))` and then stores
`now` in `last_jiffies`, which starts at `0`. `jiffies` and `unsigned long` are
`w` bits wide; an interrupt at true tick time `t` sees `jiffies = t % 2 ^ w`. -/

namespace HwDrivers

def DEBOUNCE_MS : ℕ := 200

/-- `msecs_to_jiffies(m)` of a constant when `HZ` divides `1000`: rounded up to
whole ticks. -/
def msecsToJiffies (hz m : ℕ) : ℕ := (m + 1000 / hz - 1) / (1000 / hz)

/-- The kernel's `INITIAL_JIFFIES`, `(unsigned long)(unsigned int)(-300 * HZ)`:
`jiffies` at boot, so that a 32-bit `jiffies` wraps five minutes in. -/
def initialJiffies (hz : ℕ) : ℕ := 2 ^ 32 - 300 * hz

/-- `time_after(a, b)` on `w`-bit words: `(long)((b) - (a)) < 0`. -/
def timeAfter (w a b : ℕ) : Bool := decide ((2 : ℤ) ^ (w - 1) ≤ ((b : ℤ) - a) % 2 ^ w)

/-- What `gpio_irq_handler` keeps under its spinlock. -/
structure ButtonState where
  last_jiffies : ℕ
  irq_counter : UInt32
  deriving DecidableEq, Repr

/-- The static initializer: `last_jiffies = 0`, `irq_counter = 0`. -/
def ButtonState.init : ButtonState := ⟨0, 0⟩

/-- Whether `gpio_irq_handler` counts an interrupt taken at `jiffies = now`, with
`d = msecs_to_jiffies(DEBOUNCE_MS)`. -/
def debounceCounts (w d : ℕ) (s : ButtonState) (now : ℕ) : Bool :=
  timeAfter w now ((s.last_jiffies + d) % 2 ^ w)

/-- `gpio_irq_handler` at `jiffies = now`. -/
def gpioIrqHandler (w d : ℕ) (s : ButtonState) (now : ℕ) : ButtonState :=
  if debounceCounts w d s now then ⟨now, s.irq_counter + 1⟩ else s

/-- Interrupts at true tick times `ts`: whether the handler counts each. -/
def buttonRun (w d : ℕ) : ButtonState → List ℕ → List Bool
  | _, [] => []
  | s, t :: ts =>
    debounceCounts w d s (t % 2 ^ w) :: buttonRun w d (gpioIrqHandler w d s (t % 2 ^ w)) ts

/-- The rule the handler's comment states, over true time: count the first
interrupt, and any that comes more than `d` ticks after the last one counted. -/
def debounceSpec (d : ℕ) : Option ℕ → List ℕ → List Bool
  | _, [] => []
  | none, t :: ts => true :: debounceSpec d (some t) ts
  | some l, t :: ts =>
    if d < t - l then true :: debounceSpec d (some t) ts else false :: debounceSpec d (some l) ts

theorem msecsToJiffies_debounce_le {hz : ℕ} (hhz : 0 < hz) (hz1 : hz ≤ 1000) :
    msecsToJiffies hz DEBOUNCE_MS ≤ DEBOUNCE_MS := by
  have hk : 1 ≤ 1000 / hz := (Nat.one_le_div_iff hhz).2 hz1
  exact Nat.div_le_of_le_mul (by unfold DEBOUNCE_MS; omega)

/-! ### From boot until the wrap -/

theorem debounceCounts_init_boot {hz d t : ℕ} (hhz : hz ≤ 1000) (hd : d ≤ DEBOUNCE_MS)
    (ht : initialJiffies hz ≤ t ∧ t ≤ 2 ^ 32 + d) :
    debounceCounts 32 d ButtonState.init (t % 2 ^ 32) = false := by
  simp only [debounceCounts, timeAfter, ButtonState.init, decide_eq_false_iff_not, not_le]
  unfold initialJiffies DEBOUNCE_MS at *
  omega

theorem buttonRun_init_boot {hz d : ℕ} (hz1 : hz ≤ 1000) (hd : d ≤ DEBOUNCE_MS) {ts : List ℕ}
    (hts : ∀ t ∈ ts, initialJiffies hz ≤ t ∧ t ≤ 2 ^ 32 + d) :
    buttonRun 32 d ButtonState.init ts = ts.map (fun _ => false) := by
  induction ts with
  | nil => rfl
  | cons t ts ih =>
    have h0 := debounceCounts_init_boot hz1 hd (hts t (.head _))
    simp only [buttonRun, gpioIrqHandler, h0, Bool.false_eq_true, if_false, List.map_cons,
      ih fun t' h => hts t' (.tail _ h)]

/-- On a 32-bit `jiffies`, every press from boot until `msecs_to_jiffies(DEBOUNCE_MS)`
ticks after the wrap is ignored, the first one included, where the rule counts
the first. -/
theorem buttonRun_boot {hz : ℕ} (hhz : 0 < hz) (hz1 : hz ≤ 1000) {ts : List ℕ} (hne : ts ≠ [])
    (hts : ∀ t ∈ ts, initialJiffies hz ≤ t ∧ t ≤ 2 ^ 32 + msecsToJiffies hz DEBOUNCE_MS) :
    buttonRun 32 (msecsToJiffies hz DEBOUNCE_MS) ButtonState.init ts = ts.map (fun _ => false) ∧
      buttonRun 32 (msecsToJiffies hz DEBOUNCE_MS) ButtonState.init ts ≠
        debounceSpec (msecsToJiffies hz DEBOUNCE_MS) none ts := by
  have hrun := buttonRun_init_boot hz1 (msecsToJiffies_debounce_le hhz hz1) hts
  refine ⟨hrun, ?_⟩
  obtain ⟨t, ts, rfl⟩ := List.exists_cons_of_ne_nil hne
  rw [hrun, List.map_cons, debounceSpec]
  simp

theorem buttonRun_boot_first :
    (0 < 100 ∧ 100 ≤ 1000 ∧ [initialJiffies 100] ≠ [] ∧
      ∀ t ∈ [initialJiffies 100], initialJiffies 100 ≤ t ∧
        t ≤ 2 ^ 32 + msecsToJiffies 100 DEBOUNCE_MS) ∧
    buttonRun 32 (msecsToJiffies 100 DEBOUNCE_MS) ButtonState.init [initialJiffies 100] =
      [false] :=
  ⟨⟨by decide, by decide, by decide, by decide⟩,
    (buttonRun_boot (by decide) (by decide) (by decide) (by decide)).1⟩

/-! ### Where the handler follows the rule -/

theorem half_le_emod_iff {w : ℕ} (hw : 0 < w) {x : ℤ} (hlo : -2 ^ (w - 1) ≤ x)
    (hhi : x < 2 ^ (w - 1)) : (2 : ℤ) ^ (w - 1) ≤ x % 2 ^ w ↔ x < 0 := by
  have hN : (2 : ℤ) ^ w = 2 * 2 ^ (w - 1) := by rw [← pow_succ', Nat.sub_add_cancel hw]
  have hH : (0 : ℤ) < 2 ^ (w - 1) := by
    exact_mod_cast Nat.pos_pow_of_pos (w - 1) (by decide : 0 < 2)
  rw [hN]
  by_cases hx : x < 0
  · rw [← Int.add_emod_self, Int.emod_eq_of_lt (by omega) (by omega)]; omega
  · rw [Int.emod_eq_of_lt (by omega) (by omega)]; omega

theorem debounceCounts_eq {w d : ℕ} (s : ButtonState) (t : ℕ) :
    debounceCounts w d s (t % 2 ^ w) =
      decide ((2 : ℤ) ^ (w - 1) ≤ ((s.last_jiffies : ℤ) + d - t) % 2 ^ w) := by
  simp only [debounceCounts, timeAfter]
  push_cast
  rw [Int.sub_emod ((s.last_jiffies : ℤ) + d)]

/-- The handler's `last_jiffies` against the rule's last counted time: `0`
before the first count, that time's `jiffies` after. -/
def LastCounted (w : ℕ) (s : ButtonState) : Option ℕ → Prop
  | none => s.last_jiffies = 0
  | some l => s.last_jiffies = l % 2 ^ w

/-- Where `time_after` can tell: the first interrupt comes at a `jiffies` value
in `(d, d + 2 ^ (w - 1)]`, and each later one at most `d + 2 ^ (w - 1)` ticks
after the last one counted. -/
def InHalfRange (w d : ℕ) : Option ℕ → List ℕ → Prop
  | _, [] => True
  | none, t :: ts => d < t % 2 ^ w ∧ t % 2 ^ w ≤ d + 2 ^ (w - 1) ∧ InHalfRange w d (some t) ts
  | some l, t :: ts =>
    l ≤ t ∧ t - l ≤ d + 2 ^ (w - 1) ∧
      InHalfRange w d (if d < t - l then some t else some l) ts

instance InHalfRange.decidable (w d : ℕ) :
    (o : Option ℕ) → (ts : List ℕ) → Decidable (InHalfRange w d o ts)
  | none, [] | some _, [] => isTrue trivial
  | none, t :: ts =>
    have := InHalfRange.decidable w d (some t) ts
    inferInstanceAs (Decidable (_ ∧ _ ∧ _))
  | some l, t :: ts =>
    have := InHalfRange.decidable w d (if d < t - l then some t else some l) ts
    inferInstanceAs (Decidable (_ ∧ _ ∧ _))

section Follows

variable {w d : ℕ} (hw : 0 < w) (hd : d < 2 ^ (w - 1))
include hw hd

theorem debounceCounts_first {s : ButtonState} (hs : LastCounted w s none) {t : ℕ}
    (ht : d < t % 2 ^ w ∧ t % 2 ^ w ≤ d + 2 ^ (w - 1)) :
    debounceCounts w d s (t % 2 ^ w) = true := by
  have hmod := @debounceCounts_eq w d s (t % 2 ^ w)
  rw [Nat.mod_mod] at hmod
  have h1 : (d : ℤ) < ((t % 2 ^ w : ℕ) : ℤ) := by exact_mod_cast ht.1
  have h2 : ((t % 2 ^ w : ℕ) : ℤ) ≤ d + 2 ^ (w - 1) := by exact_mod_cast ht.2
  have h3 : (d : ℤ) < 2 ^ (w - 1) := by exact_mod_cast hd
  rw [hmod, decide_eq_true_iff, hs, half_le_emod_iff hw] <;> omega

theorem debounceCounts_later {s : ButtonState} {l : ℕ} (hs : LastCounted w s (some l)) {t : ℕ}
    (ht : l ≤ t ∧ t - l ≤ d + 2 ^ (w - 1)) :
    debounceCounts w d s (t % 2 ^ w) = decide (d < t - l) := by
  have hc : (((l % 2 ^ w : ℕ) : ℤ) + d - t) % 2 ^ w = ((l : ℤ) + d - t) % 2 ^ w := by
    push_cast
    exact ((Int.mod_modEq _ _).add_right _).sub_right _
  have h1 : (l : ℤ) ≤ t := by exact_mod_cast ht.1
  have h2 : ((t - l : ℕ) : ℤ) ≤ ((d + 2 ^ (w - 1) : ℕ) : ℤ) := by exact_mod_cast ht.2
  push_cast [Nat.cast_sub ht.1] at h2
  have h3 : (d : ℤ) < 2 ^ (w - 1) := by exact_mod_cast hd
  rw [debounceCounts_eq, hs, hc, decide_eq_decide, half_le_emod_iff hw (by omega) (by omega)]
  omega

/-- Step by step, the handler's decisions are the rule's while `last_jiffies`
tracks the last counted time. -/
theorem buttonRun_follows {s : ButtonState} {o : Option ℕ} {ts : List ℕ}
    (hs : LastCounted w s o) (h : InHalfRange w d o ts) :
    buttonRun w d s ts = debounceSpec d o ts := by
  induction ts generalizing s o with
  | nil => cases o <;> rfl
  | cons t ts ih =>
    cases o with
    | none =>
      obtain ⟨ht1, ht2, hrest⟩ := h
      have hc := debounceCounts_first hw hd hs ⟨ht1, ht2⟩
      rw [buttonRun, debounceSpec, gpioIrqHandler, if_pos hc, hc]
      exact congrArg _ (ih rfl hrest)
    | some l =>
      obtain ⟨ht1, ht2, hrest⟩ := h
      have hc := debounceCounts_later hw hd hs ⟨ht1, ht2⟩
      rw [buttonRun, debounceSpec, gpioIrqHandler, hc]
      by_cases hlt : d < t - l
      · rw [if_pos hlt] at hrest
        simp only [hlt, decide_True, if_true]
        exact congrArg _ (ih rfl hrest)
      · rw [if_neg hlt] at hrest
        simp only [hlt, decide_False, Bool.false_eq_true, if_false]
        exact congrArg _ (ih hs hrest)

end Follows

/-- From the module's load, with a debounce window shorter than half the range:
when the first interrupt comes at a `jiffies` value in `(d, d + 2 ^ (w - 1)]` and
none comes more than `d + 2 ^ (w - 1)` ticks after the last one counted, the
handler counts exactly the first interrupt and those more than `d` ticks after
the last one counted. -/
theorem buttonRun_eq_debounceSpec {w d : ℕ} (hw : 0 < w) (hd : d < 2 ^ (w - 1)) {ts : List ℕ}
    (h : InHalfRange w d none ts) : buttonRun w d ButtonState.init ts = debounceSpec d none ts :=
  buttonRun_follows hw hd rfl h

theorem buttonRun_eq_debounceSpec_presses :
    (0 < 32 ∧ msecsToJiffies 100 DEBOUNCE_MS < 2 ^ (32 - 1) ∧
      InHalfRange 32 (msecsToJiffies 100 DEBOUNCE_MS) none [300, 350, 360, 400]) ∧
    buttonRun 32 (msecsToJiffies 100 DEBOUNCE_MS) ButtonState.init [300, 350, 360, 400] =
      debounceSpec (msecsToJiffies 100 DEBOUNCE_MS) none [300, 350, 360, 400] :=
  ⟨⟨by decide, by decide, by decide⟩, buttonRun_eq_debounceSpec (by decide) (by decide) (by decide)⟩

end HwDrivers
