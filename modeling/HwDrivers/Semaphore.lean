import Mathlib.Logic.Function.Basic

/-! The named semaphore `/data_sem` that guards the segment. The producer and
the server's threads each run `sem_wait`, a critical section, `sem_post`.
Every signal handler is installed with `sa_flags = 0`, so a handled signal
that arrives while `sem_wait` blocks makes it return `-1` with `EINTR`; no
caller checks that value, and the critical section runs anyway. -/

namespace HwDrivers

/-- Where a party stands with respect to the segment. -/
inductive Phase
  | idle
  /-- Blocked in `sem_wait`. -/
  | blocked
  /-- Between its `sem_wait` and its `sem_post`. -/
  | inside
  deriving DecidableEq, Repr

/-- The semaphore's value and the phase of every party. -/
structure SemState where
  value : ℕ
  phase : ℕ → Phase

/-- `sem_open(SEM_NAME, O_CREAT, 0666, 1)`, nobody inside. -/
def SemState.init : SemState := ⟨1, fun _ => .idle⟩

/-- An event of a run. -/
inductive SemEvent
  /-- Party `p` calls `sem_wait`. -/
  | wait (p : ℕ)
  /-- A blocked `sem_wait` of `p` takes a count that a `sem_post` made. -/
  | wake (p : ℕ)
  /-- A handled signal interrupts the blocked `sem_wait` of `p`. -/
  | interrupt (p : ℕ)
  /-- Party `p` calls `sem_post` after its critical section. -/
  | post (p : ℕ)
  deriving DecidableEq, Repr

/-- Whether the event is a signal landing in a blocked `sem_wait`. -/
def SemEvent.isInterrupt : SemEvent → Bool
  | .interrupt _ => true
  | _ => false

def semStep (s : SemState) : SemEvent → Option SemState
  | .wait p =>
    if s.phase p = .idle then
      some (if 0 < s.value then ⟨s.value - 1, Function.update s.phase p .inside⟩
        else ⟨s.value, Function.update s.phase p .blocked⟩)
    else none
  | .wake p =>
    if s.phase p = .blocked ∧ 0 < s.value then
      some ⟨s.value - 1, Function.update s.phase p .inside⟩
    else none
  | .interrupt p =>
    if s.phase p = .blocked then some ⟨s.value, Function.update s.phase p .inside⟩
    else none
  | .post p =>
    if s.phase p = .inside then some ⟨s.value + 1, Function.update s.phase p .idle⟩
    else none

def semRun (s : SemState) : List SemEvent → Option SemState
  | [] => some s
  | e :: es => (semStep s e).bind (semRun · es)

/-- At most one party inside and a value of at most one: either the count is
free and nobody is inside, or it is taken by the one party inside. -/
def Exclusive (s : SemState) : Prop :=
  (s.value = 1 ∧ ∀ p, s.phase p ≠ .inside) ∨
  (s.value = 0 ∧ ∃ p, s.phase p = .inside ∧ ∀ q, s.phase q = .inside → q = p)

theorem Exclusive.at_most_one {s : SemState} (h : Exclusive s) {p q : ℕ}
    (hp : s.phase p = .inside) (hq : s.phase q = .inside) : p = q := by
  rcases h with ⟨_, hn⟩ | ⟨_, r, _, hr⟩
  · exact absurd hp (hn p)
  · rw [hr p hp, hr q hq]

theorem Exclusive.value_le {s : SemState} (h : Exclusive s) : s.value ≤ 1 := by
  rcases h with ⟨h, _⟩ | ⟨h, _⟩ <;> omega

theorem exclusive_init : Exclusive SemState.init := .inl ⟨rfl, fun _ => nofun⟩

theorem Exclusive.enter {s : SemState} (h : Exclusive s) (hv : 0 < s.value) (p : ℕ) :
    Exclusive ⟨s.value - 1, Function.update s.phase p .inside⟩ := by
  rcases h with ⟨hv1, hn⟩ | ⟨hv0, _⟩
  · refine .inr ⟨show s.value - 1 = 0 by omega, p, by simp, fun q hq => ?_⟩
    by_contra hqp
    exact hn q (by simpa [Function.update_noteq hqp] using hq)
  · omega

theorem Exclusive.outside {s : SemState} (h : Exclusive s) {p : ℕ} (hp : s.phase p ≠ .inside)
    {ph : Phase} (hph : ph ≠ .inside) : Exclusive ⟨s.value, Function.update s.phase p ph⟩ := by
  have hq : ∀ q, Function.update s.phase p ph q = .inside → s.phase q = .inside := by
    intro q hq
    by_cases hqp : q = p
    · subst hqp; simp [hph] at hq
    · simpa [Function.update_noteq hqp] using hq
  rcases h with ⟨hv, hn⟩ | ⟨hv, r, hr, hu⟩
  · exact .inl ⟨hv, fun q h => hn q (hq q h)⟩
  · have hrp : r ≠ p := by rintro rfl; exact hp hr
    exact .inr ⟨hv, r, by simp [Function.update_noteq hrp, hr], fun q h => hu q (hq q h)⟩

theorem Exclusive.leave {s : SemState} (h : Exclusive s) {p : ℕ} (hp : s.phase p = .inside) :
    Exclusive ⟨s.value + 1, Function.update s.phase p .idle⟩ := by
  rcases h with ⟨_, hn⟩ | ⟨hv, r, _, hu⟩
  · exact absurd hp (hn p)
  · refine .inl ⟨by simp [hv], fun q hq => ?_⟩
    by_cases hqp : q = p
    · subst hqp; simp at hq
    · exact hqp ((hu q (by simpa [Function.update_noteq hqp] using hq)).trans (hu p hp).symm)

theorem Exclusive.step {s t : SemState} {e : SemEvent} (h : Exclusive s)
    (he : e.isInterrupt = false) (hs : semStep s e = some t) : Exclusive t := by
  cases e with
  | wait p =>
    simp only [semStep] at hs
    split_ifs at hs with hidle hv <;> cases hs
    · exact h.enter hv p
    · exact h.outside (by simp [hidle]) (by decide)
  | wake p =>
    simp only [semStep] at hs
    split_ifs at hs with hw
    cases hs
    exact h.enter hw.2 p
  | interrupt p => cases he
  | post p =>
    simp only [semStep] at hs
    split_ifs at hs with hin
    cases hs
    exact h.leave hin

/-- Runs in which no signal interrupts a blocked `sem_wait` keep `Exclusive`. -/
theorem Exclusive.run {s t : SemState} {es : List SemEvent} (h : Exclusive s)
    (he : ∀ e ∈ es, e.isInterrupt = false) (hr : semRun s es = some t) : Exclusive t := by
  induction es generalizing s with
  | nil => cases hr; exact h
  | cons e es ih =>
    simp only [semRun, Option.bind_eq_some] at hr
    obtain ⟨u, hu, hr⟩ := hr
    exact ih (h.step (he e (.head _)) hu) (fun e' he' => he e' (.tail _ he')) hr

/-- Without a signal landing in a blocked `sem_wait`, at most one party is ever
inside a critical section and the semaphore's value never exceeds one. -/
theorem semRun_exclusive {t : SemState} {es : List SemEvent}
    (he : ∀ e ∈ es, e.isInterrupt = false) (hr : semRun SemState.init es = some t) :
    (∀ p q, t.phase p = .inside → t.phase q = .inside → p = q) ∧ t.value ≤ 1 :=
  let h := exclusive_init.run he hr
  ⟨fun _ _ => h.at_most_one, h.value_le⟩

theorem semRun_exclusive_handoff :
    ∃ t, semRun SemState.init [.wait 0, .wait 1, .post 0, .wake 1] = some t ∧
      t.phase 1 = .inside ∧ t.value ≤ 1 :=
  ⟨_, rfl, rfl, (@semRun_exclusive _ [.wait 0, .wait 1, .post 0, .wake 1] (by decide) rfl).2⟩

/-- Party `0` is the producer, party `1` the server's `data_reader_thread`. The
producer takes the semaphore; the reader blocks in `sem_wait`; a signal (a
`SIGWINCH`, say, which the server handles) lands in that `sem_wait`. -/
def interruptedWait : List SemEvent := [.wait 0, .wait 1, .interrupt 1]

theorem semRun_interruptedWait :
    (semRun SemState.init interruptedWait).map (fun s => (s.phase 0, s.phase 1)) =
      some (.inside, .inside) ∧
    (semRun SemState.init (interruptedWait ++ [.post 1, .post 0])).map (·.value) = some 2 := by
  decide

end HwDrivers
