import Mathlib.Tactic.Ring

/-! Admission control of the cache server: the accept loop (lines 662-711) and
the handler threads' exit through `pthread_cleanup_pop(1)`. Only the acceptor
admits. It reads `g_server_config.max_connnections` three times per
connection, and a `SIGUSR2` reload can rewrite the field between two reads. -/

namespace HwDrivers

/-- Where the acceptor is with one accepted connection. -/
inductive AcceptPc
  /-- In `select` or `accept`, no connection in hand. -/
  | idle
  /-- After `atomic_load(&g_active_connections)`, line 678, with the value read. -/
  | loaded (active : ℤ)
  /-- The first read, `max_connnections > 0`, held. -/
  | limitPositive (active : ℤ)
  /-- Before the test `max_connnections == 0`, line 688. -/
  | zeroTest
  /-- After `atomic_fetch_add`, line 700, until `pthread_create` makes the thread or fails. -/
  | reserved
  /-- `pthread_create` has made the thread and has not yet returned. -/
  | creating
  deriving DecidableEq, Repr

/-- The counter, the handler threads and the configured limit. -/
structure AdmitState where
  /-- `g_active_connections`. -/
  active : ℤ
  /-- Threads `pthread_create` made that have not yet run `pthread_cleanup_push`. -/
  pending : ℕ
  /-- Handler threads past `pthread_cleanup_push` and not yet past `pthread_cleanup_pop(1)`. -/
  live : ℕ
  /-- `g_server_config.max_connnections`. -/
  maxConnections : ℤ
  pc : AcceptPc
  deriving DecidableEq, Repr

def AdmitState.init (m : ℤ) : AdmitState := ⟨0, 0, 0, m, .idle⟩

/-- An event of a run. The acceptor's steps, the handler threads' steps and the
reloads interleave in any order. -/
inductive AdmitEvent
  /-- `accept` returns a connection and the counter is loaded. -/
  | accept
  /-- Line 679: `max_connnections > 0`. -/
  | readLimit
  /-- Line 680: `active_connections >= max_connnections` rejects. -/
  | readLimitAgain
  /-- Line 688 rejects on `max_connnections == 0`; otherwise line 700 reserves. -/
  | testZero
  /-- `pthread_create` makes the thread, or fails and line 705 releases the slot. -/
  | create (ok : Bool)
  /-- `pthread_create` returns `0` to the acceptor, which detaches the thread. -/
  | created
  /-- A made thread enters `conn_handler` and runs `pthread_cleanup_push`. -/
  | start
  /-- A handler leaves through `pthread_cleanup_pop(1)` on any of its exit paths. -/
  | exit
  /-- A reload stores `m` into `max_connnections`. -/
  | reload (m : ℤ)
  deriving DecidableEq, Repr

def AdmitEvent.isReload : AdmitEvent → Bool
  | .reload _ => true
  | _ => false

def admitStep (s : AdmitState) : AdmitEvent → Option AdmitState
  | .accept => if s.pc = .idle then some { s with pc := .loaded s.active } else none
  | .readLimit =>
    match s.pc with
    | .loaded a =>
      some { s with pc := if 0 < s.maxConnections then .limitPositive a else .zeroTest }
    | _ => none
  | .readLimitAgain =>
    match s.pc with
    | .limitPositive a => some { s with pc := if s.maxConnections ≤ a then .idle else .zeroTest }
    | _ => none
  | .testZero =>
    if s.pc = .zeroTest then
      some (if s.maxConnections = 0 then { s with pc := .idle }
        else { s with active := s.active + 1, pc := .reserved })
    else none
  | .create ok =>
    if s.pc = .reserved then
      some (if ok then { s with pending := s.pending + 1, pc := .creating }
        else { s with active := s.active - 1, pc := .idle })
    else none
  | .created => if s.pc = .creating then some { s with pc := .idle } else none
  | .start =>
    if 0 < s.pending then some { s with pending := s.pending - 1, live := s.live + 1 } else none
  | .exit => if 0 < s.live then some { s with active := s.active - 1, live := s.live - 1 } else none
  | .reload m => some { s with maxConnections := m }

def admitRun (s : AdmitState) : List AdmitEvent → Option AdmitState
  | [] => some s
  | e :: es => (admitStep s e).bind (admitRun · es)

/-- Everything one event can do, one constructor per outcome. -/
inductive AdmitStepCase (s : AdmitState) : AdmitEvent → AdmitState → Prop
  | accept (hpc : s.pc = .idle) : AdmitStepCase s .accept { s with pc := .loaded s.active }
  | positive {a : ℤ} (hpc : s.pc = .loaded a) (hm : 0 < s.maxConnections) :
      AdmitStepCase s .readLimit { s with pc := .limitPositive a }
  | notPositive {a : ℤ} (hpc : s.pc = .loaded a) (hm : s.maxConnections ≤ 0) :
      AdmitStepCase s .readLimit { s with pc := .zeroTest }
  | full {a : ℤ} (hpc : s.pc = .limitPositive a) (hm : s.maxConnections ≤ a) :
      AdmitStepCase s .readLimitAgain { s with pc := .idle }
  | room {a : ℤ} (hpc : s.pc = .limitPositive a) (hm : a < s.maxConnections) :
      AdmitStepCase s .readLimitAgain { s with pc := .zeroTest }
  | zero (hpc : s.pc = .zeroTest) (hm : s.maxConnections = 0) :
      AdmitStepCase s .testZero { s with pc := .idle }
  | reserve (hpc : s.pc = .zeroTest) (hm : s.maxConnections ≠ 0) :
      AdmitStepCase s .testZero { s with active := s.active + 1, pc := .reserved }
  | made (hpc : s.pc = .reserved) :
      AdmitStepCase s (.create true) { s with pending := s.pending + 1, pc := .creating }
  | createFailed (hpc : s.pc = .reserved) :
      AdmitStepCase s (.create false) { s with active := s.active - 1, pc := .idle }
  | returned (hpc : s.pc = .creating) : AdmitStepCase s .created { s with pc := .idle }
  | start (hpending : 0 < s.pending) :
      AdmitStepCase s .start { s with pending := s.pending - 1, live := s.live + 1 }
  | exit (hlive : 0 < s.live) :
      AdmitStepCase s .exit { s with active := s.active - 1, live := s.live - 1 }
  | reload (m : ℤ) : AdmitStepCase s (.reload m) { s with maxConnections := m }

theorem admitStep_cases {s t : AdmitState} {e : AdmitEvent} (h : admitStep s e = some t) :
    AdmitStepCase s e t := by
  cases e with
  | readLimit =>
    simp only [admitStep] at h
    split at h
    · rename_i a hpc
      cases h
      split
      · exact .positive hpc ‹_›
      · exact .notPositive hpc (by omega)
    · cases h
  | readLimitAgain =>
    simp only [admitStep] at h
    split at h
    · rename_i a hpc
      cases h
      split
      · exact .full hpc ‹_›
      · exact .room hpc (by omega)
    · cases h
  | accept =>
    simp only [admitStep] at h
    split at h
    · cases h; exact .accept ‹_›
    · cases h
  | testZero =>
    simp only [admitStep] at h
    split at h
    · cases h
      split
      · exact .zero ‹_› ‹_›
      · exact .reserve ‹_› ‹_›
    · cases h
  | create ok =>
    simp only [admitStep] at h
    split at h
    · cases h
      cases ok
      · exact .createFailed ‹_›
      · exact .made ‹_›
    · cases h
  | created =>
    simp only [admitStep] at h
    split at h
    · cases h; exact .returned ‹_›
    · cases h
  | start =>
    simp only [admitStep] at h
    split at h
    · cases h; exact .start ‹_›
    · cases h
  | exit =>
    simp only [admitStep] at h
    split at h
    · cases h; exact .exit ‹_›
    · cases h
  | reload m => cases h; exact .reload m

/-- The slot the acceptor holds between `atomic_fetch_add` and the moment
`pthread_create` makes the thread or fails. -/
def AcceptPc.reservedSlot : AcceptPc → ℕ
  | .reserved => 1
  | _ => 0

/-- The counter is the handler threads made and not yet exited plus the
acceptor's reserved slot, and a loaded count is at least those threads. -/
structure Balanced (s : AdmitState) : Prop where
  active_eq : s.active = s.pending + s.live + s.pc.reservedSlot
  loaded_ge : ∀ a, s.pc = .loaded a → (s.pending + s.live : ℤ) ≤ a
  positive_ge : ∀ a, s.pc = .limitPositive a → (s.pending + s.live : ℤ) ≤ a

theorem balanced_init (m : ℤ) : Balanced (AdmitState.init m) :=
  ⟨by simp [AdmitState.init, AcceptPc.reservedSlot], nofun, nofun⟩

theorem Balanced.step {s t : AdmitState} {e : AdmitEvent} (h : Balanced s)
    (hs : admitStep s e = some t) : Balanced t := by
  obtain ⟨ha, hl, hp⟩ := h
  cases admitStep_cases hs with
  | accept hpc =>
    rw [hpc] at ha
    exact ⟨ha, fun _ h => by cases h; simp only [ha, AcceptPc.reservedSlot]; omega, nofun⟩
  | positive hpc _ => rw [hpc] at ha; exact ⟨ha, nofun, fun _ h => by cases h; exact hl _ hpc⟩
  | notPositive hpc _ => rw [hpc] at ha; exact ⟨ha, nofun, nofun⟩
  | full hpc _ => rw [hpc] at ha; exact ⟨ha, nofun, nofun⟩
  | room hpc _ => rw [hpc] at ha; exact ⟨ha, nofun, nofun⟩
  | zero hpc _ => rw [hpc] at ha; exact ⟨ha, nofun, nofun⟩
  | reserve hpc _ =>
    rw [hpc] at ha
    exact ⟨show s.active + 1 = s.pending + s.live + 1 by
      simp only [AcceptPc.reservedSlot] at ha; omega, nofun, nofun⟩
  | made hpc =>
    rw [hpc] at ha
    exact ⟨show s.active = ((s.pending + 1 : ℕ) : ℤ) + s.live + 0 by
      simp only [AcceptPc.reservedSlot] at ha; omega, nofun, nofun⟩
  | createFailed hpc =>
    rw [hpc] at ha
    exact ⟨show s.active - 1 = s.pending + s.live + 0 by
      simp only [AcceptPc.reservedSlot] at ha; omega, nofun, nofun⟩
  | returned hpc => rw [hpc] at ha; exact ⟨ha, nofun, nofun⟩
  | start hpending =>
    refine ⟨show s.active = ((s.pending - 1 : ℕ) : ℤ) + ((s.live + 1 : ℕ) : ℤ) +
      s.pc.reservedSlot by omega, fun a h => ?_, fun a h => ?_⟩
    · have := hl a h; show ((s.pending - 1 : ℕ) : ℤ) + ((s.live + 1 : ℕ) : ℤ) ≤ a; omega
    · have := hp a h; show ((s.pending - 1 : ℕ) : ℤ) + ((s.live + 1 : ℕ) : ℤ) ≤ a; omega
  | exit hlive =>
    refine ⟨show s.active - 1 = s.pending + ((s.live - 1 : ℕ) : ℤ) + s.pc.reservedSlot by omega,
      fun a h => ?_, fun a h => ?_⟩
    · have := hl a h; show s.pending + ((s.live - 1 : ℕ) : ℤ) ≤ a; omega
    · have := hp a h; show s.pending + ((s.live - 1 : ℕ) : ℤ) ≤ a; omega
  | reload m => exact ⟨ha, hl, hp⟩

theorem Balanced.run {s t : AdmitState} {es : List AdmitEvent} (h : Balanced s)
    (hr : admitRun s es = some t) : Balanced t := by
  induction es generalizing s with
  | nil => cases hr; exact h
  | cons e es ih =>
    simp only [admitRun, Option.bind_eq_some] at hr
    obtain ⟨u, hu, hr⟩ := hr
    exact ih (h.step hu) hr

/-- Under a constant limit `K ≥ 0`: the handler threads and the reserved slot
fit in `K`, and the acceptor reaches the zero test with room left unless `K = 0`. -/
structure Bounded (K : ℤ) (s : AdmitState) : Prop where
  max_eq : s.maxConnections = K
  threads_le : (s.pending + s.live : ℤ) + s.pc.reservedSlot ≤ K
  zero_lt : s.pc = .zeroTest → K ≠ 0 → (s.pending + s.live : ℤ) < K

theorem Bounded.step {K : ℤ} {s t : AdmitState} {e : AdmitEvent} (h : Bounded K s)
    (hb : Balanced s) (he : e.isReload = false) (hs : admitStep s e = some t) :
    Bounded K t := by
  obtain ⟨hm, hl, hz⟩ := h
  cases admitStep_cases hs with
  | accept hpc => rw [hpc] at hl; exact ⟨hm, hl, nofun⟩
  | positive hpc _ => rw [hpc] at hl; exact ⟨hm, hl, nofun⟩
  | notPositive hpc hle =>
    rw [hpc] at hl
    exact ⟨hm, hl, fun _ _ => by simp only [AcceptPc.reservedSlot] at hl; omega⟩
  | full hpc _ => rw [hpc] at hl; exact ⟨hm, hl, nofun⟩
  | room hpc hlt =>
    rw [hpc] at hl
    have := hb.positive_ge _ hpc
    exact ⟨hm, hl, fun _ _ => by show (s.pending + s.live : ℤ) < K; omega⟩
  | zero hpc _ => rw [hpc] at hl; exact ⟨hm, hl, nofun⟩
  | reserve hpc hne =>
    have := hz hpc (hm ▸ hne)
    exact ⟨hm, show (s.pending + s.live : ℤ) + 1 ≤ K by omega, nofun⟩
  | made hpc =>
    rw [hpc] at hl
    exact ⟨hm, show ((s.pending + 1 : ℕ) : ℤ) + s.live + 0 ≤ K by
      simp only [AcceptPc.reservedSlot] at hl; omega, nofun⟩
  | createFailed hpc =>
    rw [hpc] at hl
    exact ⟨hm, show (s.pending + s.live : ℤ) + 0 ≤ K by
      simp only [AcceptPc.reservedSlot] at hl; omega, nofun⟩
  | returned hpc => rw [hpc] at hl; exact ⟨hm, hl, nofun⟩
  | start hpending =>
    refine ⟨hm, show ((s.pending - 1 : ℕ) : ℤ) + ((s.live + 1 : ℕ) : ℤ) + s.pc.reservedSlot ≤ K by
      omega, fun hpc hK => ?_⟩
    have := hz hpc hK
    show ((s.pending - 1 : ℕ) : ℤ) + ((s.live + 1 : ℕ) : ℤ) < K
    omega
  | exit hlive =>
    refine ⟨hm, show s.pending + ((s.live - 1 : ℕ) : ℤ) + s.pc.reservedSlot ≤ K by omega,
      fun hpc hK => ?_⟩
    have := hz hpc hK
    show s.pending + ((s.live - 1 : ℕ) : ℤ) < K
    omega
  | reload m => cases he

theorem Bounded.run {K : ℤ} {s t : AdmitState} {es : List AdmitEvent} (h : Bounded K s)
    (hb : Balanced s) (he : ∀ e ∈ es, e.isReload = false) (hr : admitRun s es = some t) :
    Bounded K t := by
  induction es generalizing s with
  | nil => cases hr; exact h
  | cons e es ih =>
    simp only [admitRun, Option.bind_eq_some] at hr
    obtain ⟨u, hu, hr⟩ := hr
    exact ih (h.step hb (he e (by simp)) hu) (hb.step hu) (fun e' he' => he e' (by simp [he'])) hr

/-- Every run from startup with limit `m`, in any interleaving of the acceptor,
the handler threads and reloads: `g_active_connections` is the number of handler
threads `pthread_create` made and that are not yet past `pthread_cleanup_pop(1)`,
whether or not they have begun to run, plus the slot the acceptor holds from
`atomic_fetch_add` until `pthread_create` makes the thread or fails. With no
reload and `m ≥ 0`, those threads and the reserved slot never exceed `m`: a slot
is reserved only while fewer than `m` threads exist, never when `m = 0`. -/
theorem admitRun_balanced {m : ℤ} {es : List AdmitEvent} {s : AdmitState}
    (hr : admitRun (AdmitState.init m) es = some s) :
    s.active = s.pending + s.live + s.pc.reservedSlot ∧
    ((∀ e ∈ es, e.isReload = false) → 0 ≤ m →
      (s.pending + s.live : ℤ) + s.pc.reservedSlot ≤ m) := by
  refine ⟨((balanced_init m).run hr).active_eq, fun he hm => ?_⟩
  have h0 : Bounded m (AdmitState.init m) :=
    ⟨rfl, by simpa [AdmitState.init, AcceptPc.reservedSlot] using hm, nofun⟩
  exact (h0.run (balanced_init m) he hr).threads_le

theorem admitRun_balanced_earlyExit :
    ∃ s, admitRun (AdmitState.init 2)
        [.accept, .readLimit, .readLimitAgain, .testZero, .create true, .start, .exit] = some s ∧
      s.pc = .creating ∧ s.active = s.pending + s.live + s.pc.reservedSlot ∧
      ((∀ e ∈ ([.accept, .readLimit, .readLimitAgain, .testZero, .create true, .start, .exit] :
          List AdmitEvent), e.isReload = false) → 0 ≤ (2 : ℤ) →
        (s.pending + s.live : ℤ) + s.pc.reservedSlot ≤ 2) :=
  ⟨_, rfl, rfl, admitRun_balanced (m := 2) rfl⟩

/-- A reload lands between the acceptor's reads of the limit: the limit is `2`
and one handler is live; the limit is reloaded to `0`; the next connection's
first read sees `0`, a reload to `1` comes before the zero test, and the
connection is admitted with one live handler and a limit of one. -/
def reloadRace : List AdmitEvent :=
  [.accept, .readLimit, .readLimitAgain, .testZero, .create true, .created, .start, .reload 0,
    .accept, .readLimit, .reload 1]

/-- Just after `atomic_fetch_add`, and again once `pthread_create` has made the
thread but before it runs, the counter is one above the started handlers; with
reloads a connection is admitted though the positive limit is not above the live
handlers. -/
theorem admitRun_counterexample :
    (admitRun (AdmitState.init 10) [.accept, .readLimit, .readLimitAgain, .testZero]).map
      (fun s => (s.active, s.live)) = some (1, 0) ∧
    (admitRun (AdmitState.init 10) [.accept, .readLimit, .readLimitAgain, .testZero,
      .create true, .created]).map (fun s => (s.active, s.live)) = some (1, 0) ∧
    (admitRun (AdmitState.init 2) reloadRace).map
      (fun s => (s.live, s.maxConnections, s.pc)) = some (1, 1, .zeroTest) ∧
    (admitRun (AdmitState.init 2) (reloadRace ++ [.testZero])).map (·.pc) = some .reserved := by
  decide

end HwDrivers
