import HwDrivers.Segment

/-! The cache server's `g_cached_data` and the threads around it. Every access
holds `g_cached_data.mutex`, so each critical section is one step; a handler
waiting in `pthread_cond_timedwait` has released the mutex, and each of its
wake-ups (a broadcast, a spurious one, the timeout) is a step of its own. The
list `published` records the pair of every publication; no code reads it. -/

namespace HwDrivers

/-- `cached_data_t` without its mutex and condition variable. -/
structure CachedData where
  current_sample : Sample
  average : Sample
  version : ℕ
  deriving DecidableEq

namespace CachedData

/-- The static initializer: a zero pair and `version = 0`. -/
def init : CachedData := ⟨0, 0, 0⟩

/-- `data_reader_thread`, lines 177-182: store the pair, `version++` on a
`uint64_t`, broadcast. -/
def publish (c : CachedData) (sample avg : Sample) : CachedData :=
  ⟨sample, avg, (c.version + 1) % 2 ^ 64⟩

/-- The pair `get_cached_data` and `wait_for_new_data` copy out. -/
def get (c : CachedData) : Sample × Sample := (c.current_sample, c.average)

end CachedData

/-- The pair of cache version `v`: the static initializer's zero pair at `0`,
the pair of the `v`-th publication after that. -/
def pairAt (pub : List (Sample × Sample)) (v : ℕ) : Sample × Sample :=
  if v = 0 then (0, 0) else pub.getD (v - 1) (0, 0)

theorem pairAt_append {pub : List (Sample × Sample)} {v : ℕ} (h : v ≤ pub.length)
    (p : Sample × Sample) : pairAt (pub ++ [p]) v = pairAt pub v := by
  unfold pairAt
  split
  · rfl
  · simp only [List.getD_eq_getElem?_getD,
      List.getElem?_append_left (show v - 1 < pub.length by omega)]

theorem pairAt_append_length (pub : List (Sample × Sample)) (p : Sample × Sample) :
    pairAt (pub ++ [p]) (pub.length + 1) = p := by
  simp [pairAt]

/-- Where an `/events` handler is in its loop, lines 386-467. -/
inductive SsePc
  /-- At `while (running)`. -/
  | loop
  /-- In `pthread_cond_timedwait` inside `wait_for_new_data`. -/
  | waiting
  /-- Formatting and sending the frame of `last_version`. -/
  | sending
  | exited
  deriving DecidableEq, Repr

/-- An `/events` handler past its headers: its locals and the frames it sent,
each with the version it came from. -/
structure SseHandler where
  pc : SsePc
  last_version : ℕ
  local_sample : Sample
  local_avg : Sample
  frames : List (ℕ × Sample × Sample)

/-- What `epoll_wait(epfd, &rev, 1, 10)` reports. -/
inductive PollResult
  /-- `n < 0` with `EINTR`. -/
  | interrupted
  /-- `n < 0` otherwise. -/
  | failed
  /-- `n == 0`. -/
  | timedOut
  /-- `EPOLLRDHUP`, `EPOLLHUP` or `EPOLLERR`. -/
  | hangup
  /-- `EPOLLIN` only: the input is drained. -/
  | readable
  deriving DecidableEq, Repr

/-- A step of one handler. -/
inductive SseEvent
  | poll (r : PollResult)
  /-- `pthread_cond_timedwait` returns without `ETIMEDOUT`. -/
  | wake
  /-- `pthread_cond_timedwait` returns `ETIMEDOUT`. -/
  | timeout
  /-- The frame's `send` succeeds or fails. -/
  | send (ok : Bool)
  deriving DecidableEq, Repr

namespace SseHandler

/-- A handler entering its loop: `last_version = 0`, locals from `get_cached_data`. -/
def start (c : CachedData) : SseHandler := ⟨.loop, 0, c.current_sample, c.average, []⟩

/-- `wait_for_new_data` returns `version` and the pair, then the test
`new_version == last_version` of lines 402-405. -/
def afterWait (h : SseHandler) (c : CachedData) : SseHandler :=
  if c.version = h.last_version then
    { h with pc := .loop, local_sample := c.current_sample, local_avg := c.average }
  else
    { h with pc := .sending, last_version := c.version, local_sample := c.current_sample,
             local_avg := c.average }

/-- The test of `while (g_cached_data.version == last_version && running)`. -/
def checkWait (h : SseHandler) (c : CachedData) (running : Bool) : SseHandler :=
  if c.version = h.last_version ∧ running = true then { h with pc := .waiting }
  else h.afterWait c

/-- One step of a handler, with the cache and `running` as they are then. -/
def step (c : CachedData) (running : Bool) (h : SseHandler) : SseEvent → Option SseHandler
  | .poll r =>
    if h.pc = .loop then
      some <| if running then
        match r with
        | .interrupted | .readable => h
        | .failed | .hangup => { h with pc := .exited }
        | .timedOut => h.checkWait c running
      else { h with pc := .exited }
    else none
  | .wake => if h.pc = .waiting then some (h.checkWait c running) else none
  | .timeout => if h.pc = .waiting then some (h.afterWait c) else none
  | .send ok =>
    if h.pc = .sending then
      some <| if ok then
        { h with pc := .loop,
                 frames := h.frames ++ [(h.last_version, h.local_sample, h.local_avg)] }
      else { h with pc := .exited }
    else none

/-- Everything one step of a handler can do, one constructor per outcome. -/
inductive StepCase (c : CachedData) (running : Bool) (h : SseHandler) :
    SseEvent → SseHandler → Prop
  | pollStay {r : PollResult} (hpc : h.pc = .loop) (hk : r = .interrupted ∨ r = .readable) :
      StepCase c running h (.poll r) h
  | pollExit {r : PollResult} (hpc : h.pc = .loop) :
      StepCase c running h (.poll r) { h with pc := .exited }
  | pollWait (hpc : h.pc = .loop) : StepCase c running h (.poll .timedOut) (h.checkWait c running)
  | wake (hpc : h.pc = .waiting) : StepCase c running h .wake (h.checkWait c running)
  | timeout (hpc : h.pc = .waiting) : StepCase c running h .timeout (h.afterWait c)
  | sent (hpc : h.pc = .sending) :
      StepCase c running h (.send true)
        { h with pc := .loop, frames := h.frames ++ [(h.last_version, h.local_sample, h.local_avg)] }
  | sendFailed (hpc : h.pc = .sending) :
      StepCase c running h (.send false) { h with pc := .exited }

theorem step_cases {c : CachedData} {running : Bool} {h h' : SseHandler} {e : SseEvent}
    (hs : h.step c running e = some h') : StepCase c running h e h' := by
  cases e with
  | poll r =>
    simp only [step] at hs
    split at hs
    · cases hs
      split
      · cases r
        · exact .pollStay ‹_› (.inl rfl)
        · exact .pollExit ‹_›
        · exact .pollWait ‹_›
        · exact .pollExit ‹_›
        · exact .pollStay ‹_› (.inr rfl)
      · exact .pollExit ‹_›
    · cases hs
  | wake =>
    simp only [step] at hs
    split at hs
    · cases hs; exact .wake ‹_›
    · cases hs
  | timeout =>
    simp only [step] at hs
    split at hs
    · cases hs; exact .timeout ‹_›
    · cases hs
  | send ok =>
    simp only [step] at hs
    split at hs
    · cases hs
      cases ok
      · exact .sendFailed ‹_›
      · exact .sent ‹_›
    · cases hs

end SseHandler

/-- The cache, `running`, the `/events` handlers, and the publications so far. -/
structure CacheSys where
  cache : CachedData
  running : Bool
  handlers : List SseHandler
  published : List (Sample × Sample)

/-- An event of the server. -/
inductive CacheEvent
  /-- `data_reader_thread` publishes a pair it copied from the segment. -/
  | publish (sample avg : Sample)
  /-- A termination signal clears `running`. -/
  | stop
  /-- A new `/events` client reaches the loop. -/
  | connect
  /-- Handler `i` takes a step. -/
  | handler (i : ℕ) (e : SseEvent)

namespace CacheSys

def init : CacheSys := ⟨CachedData.init, true, [], []⟩

def step (s : CacheSys) : CacheEvent → Option CacheSys
  | .publish sample avg =>
    some { s with cache := s.cache.publish sample avg, published := s.published ++ [(sample, avg)] }
  | .stop => some { s with running := false }
  | .connect => some { s with handlers := s.handlers ++ [SseHandler.start s.cache] }
  | .handler i e => do
    let h ← s.handlers[i]?
    let h' ← h.step s.cache s.running e
    pure { s with handlers := s.handlers.set i h' }

def run (s : CacheSys) : List CacheEvent → Option CacheSys
  | [] => some s
  | e :: es => (s.step e).bind (run · es)

end CacheSys

/-! The invariant. -/

/-- One handler against the publications `pub`: its `last_version` is a version
that happened, and every frame it sent carries the pair of its version, in
strictly increasing order of versions. -/
structure HandlerOk (pub : List (Sample × Sample)) (h : SseHandler) : Prop where
  last_le : h.last_version ≤ pub.length
  sending_pair : h.pc = .sending → (h.local_sample, h.local_avg) = pairAt pub h.last_version
  frames_le : ∀ f ∈ h.frames, f.1 ≤ h.last_version
  sending_gt : h.pc = .sending → ∀ f ∈ h.frames, f.1 < h.last_version
  frames_sorted : (h.frames.map (·.1)).Pairwise (· < ·)
  frames_pair : ∀ f ∈ h.frames, f.2 = pairAt pub f.1

/-- The cache's version counts the publications, its pair is the last one's,
and every handler is `HandlerOk`. -/
structure CacheInv (s : CacheSys) : Prop where
  version_eq : s.cache.version = s.published.length
  get_eq : s.cache.get = pairAt s.published s.published.length
  handlers_ok : ∀ h ∈ s.handlers, HandlerOk s.published h

namespace HandlerOk

variable {pub : List (Sample × Sample)} {h : SseHandler} {c : CachedData}

theorem publish (hh : HandlerOk pub h) (p : Sample × Sample) : HandlerOk (pub ++ [p]) h where
  last_le := by simp only [List.length_append, List.length_singleton]; have := hh.last_le; omega
  sending_pair hs := by rw [pairAt_append hh.last_le]; exact hh.sending_pair hs
  frames_le := hh.frames_le
  sending_gt := hh.sending_gt
  frames_sorted := hh.frames_sorted
  frames_pair f hf := by
    rw [pairAt_append ((hh.frames_le f hf).trans hh.last_le)]; exact hh.frames_pair f hf

theorem start (c : CachedData) : HandlerOk pub (SseHandler.start c) where
  last_le := Nat.zero_le _
  sending_pair := by simp [SseHandler.start]
  frames_le := by simp [SseHandler.start]
  sending_gt := by simp [SseHandler.start]
  frames_sorted := List.Pairwise.nil
  frames_pair := by simp [SseHandler.start]

theorem with_pc (hh : HandlerOk pub h) {pc : SsePc} (hpc : pc ≠ .sending) :
    HandlerOk pub { h with pc := pc } :=
  ⟨hh.last_le, fun hs => absurd hs hpc, hh.frames_le, fun hs => absurd hs hpc,
    hh.frames_sorted, hh.frames_pair⟩

theorem sent (hh : HandlerOk pub h) (hsend : h.pc = .sending) :
    HandlerOk pub
      { h with
        pc := .loop
        frames := h.frames ++ [(h.last_version, h.local_sample, h.local_avg)] } := by
  refine ⟨hh.last_le, nofun, fun f hf => ?_, nofun, ?_, fun f hf => ?_⟩
  · simp only [List.mem_append, List.mem_singleton] at hf
    rcases hf with hf | rfl
    · exact hh.frames_le f hf
    · exact le_rfl
  · simp only [List.map_append, List.map_singleton, List.pairwise_append,
      List.pairwise_singleton, List.mem_singleton, List.mem_map]
    refine ⟨hh.frames_sorted, trivial, ?_⟩
    rintro _ ⟨f, hf, rfl⟩ _ rfl
    exact hh.sending_gt hsend f hf
  · simp only [List.mem_append, List.mem_singleton] at hf
    rcases hf with hf | rfl
    · exact hh.frames_pair f hf
    · exact hh.sending_pair hsend

section Cache

variable (hv : c.version = pub.length) (hg : c.get = pairAt pub pub.length)
include hv hg

theorem afterWait (hh : HandlerOk pub h) : HandlerOk pub (h.afterWait c) := by
  unfold SseHandler.afterWait
  split
  · exact ⟨hh.last_le, nofun, hh.frames_le, nofun, hh.frames_sorted, hh.frames_pair⟩
  · rename_i hne
    have hlt : h.last_version < c.version := by have := hh.last_le; omega
    refine ⟨hv.le, fun _ => by rw [hv]; exact hg, fun f hf => (hh.frames_le f hf).trans hlt.le,
      fun _ f hf => lt_of_le_of_lt (hh.frames_le f hf) hlt, hh.frames_sorted, hh.frames_pair⟩

theorem checkWait (hh : HandlerOk pub h) (running : Bool) :
    HandlerOk pub (h.checkWait c running) := by
  unfold SseHandler.checkWait
  split
  · exact hh.with_pc (by decide)
  · exact hh.afterWait hv hg

theorem step (hh : HandlerOk pub h) {running : Bool} {e : SseEvent} {h' : SseHandler}
    (hs : h.step c running e = some h') : HandlerOk pub h' := by
  cases SseHandler.step_cases hs with
  | pollStay _ _ => exact hh
  | pollExit _ => exact hh.with_pc (by decide)
  | pollWait _ => exact hh.checkWait hv hg running
  | wake _ => exact hh.checkWait hv hg running
  | timeout _ => exact hh.afterWait hv hg
  | sent hsend => exact hh.sent hsend
  | sendFailed _ => exact hh.with_pc (by decide)

end Cache

end HandlerOk

namespace CacheInv

theorem initial : CacheInv CacheSys.init := ⟨rfl, rfl, by simp [CacheSys.init]⟩

theorem step_published_le {s t : CacheSys} {e : CacheEvent} (hs : s.step e = some t) :
    s.published.length ≤ t.published.length := by
  cases e with
  | publish sample avg => cases hs; simp
  | stop => cases hs; exact le_rfl
  | connect => cases hs; exact le_rfl
  | handler i e =>
    simp only [CacheSys.step, Option.bind_eq_bind, Option.bind_eq_some, Option.pure_def,
      Option.some.injEq] at hs
    obtain ⟨_, _, _, _, rfl⟩ := hs
    exact le_rfl

theorem run_published_le {s t : CacheSys} {es : List CacheEvent} (hr : s.run es = some t) :
    s.published.length ≤ t.published.length := by
  induction es generalizing s with
  | nil => cases hr; exact le_rfl
  | cons e es ih =>
    simp only [CacheSys.run, Option.bind_eq_some] at hr
    obtain ⟨u, hu, hr⟩ := hr
    exact (step_published_le hu).trans (ih hr)

theorem step {s t : CacheSys} {e : CacheEvent} (hi : CacheInv s) (hs : s.step e = some t)
    (hn : t.published.length < 2 ^ 64) : CacheInv t := by
  cases e with
  | publish sample avg =>
    cases hs
    simp only [List.length_append, List.length_singleton] at hn
    refine ⟨?_, ?_, fun h hh => (hi.handlers_ok h hh).publish _⟩
    · simp only [CachedData.publish, hi.version_eq, List.length_append, List.length_singleton]
      exact Nat.mod_eq_of_lt hn
    · simp only [List.length_append, List.length_singleton, pairAt_append_length]; rfl
  | stop => cases hs; exact ⟨hi.version_eq, hi.get_eq, hi.handlers_ok⟩
  | connect =>
    cases hs
    refine ⟨hi.version_eq, hi.get_eq, fun h hh => ?_⟩
    simp only [List.mem_append, List.mem_singleton] at hh
    rcases hh with hh | rfl
    · exact hi.handlers_ok h hh
    · exact HandlerOk.start _
  | handler i e =>
    simp only [CacheSys.step, Option.bind_eq_bind, Option.bind_eq_some, Option.pure_def,
      Option.some.injEq] at hs
    obtain ⟨h, hget, h', hstep, rfl⟩ := hs
    refine ⟨hi.version_eq, hi.get_eq, fun g hg => ?_⟩
    rcases List.mem_or_eq_of_mem_set hg with hg | rfl
    · exact hi.handlers_ok g hg
    · exact (hi.handlers_ok h (List.getElem?_mem hget)).step hi.version_eq hi.get_eq hstep

theorem run {s t : CacheSys} {es : List CacheEvent} (hi : CacheInv s) (hr : s.run es = some t)
    (hn : t.published.length < 2 ^ 64) : CacheInv t := by
  induction es generalizing s with
  | nil => cases hr; exact hi
  | cons e es ih =>
    simp only [CacheSys.run, Option.bind_eq_some] at hr
    obtain ⟨u, hu, hr⟩ := hr
    exact ih (hi.step hu ((run_published_le hr).trans_lt hn)) hr

end CacheInv

/-- Every run with fewer than `2 ^ 64` publications: the version is the number of
publications; the pair any reader copies out (`get_cached_data`, or
`wait_for_new_data` with the version it returns) is the pair of that version,
the static initializer's zero pair at version `0`; and each `/events` handler
sends frames of strictly increasing versions, each with the pair of its version. -/
theorem cacheRun_consistent {es : List CacheEvent} {s : CacheSys}
    (hr : CacheSys.init.run es = some s) (hn : s.published.length < 2 ^ 64) :
    s.cache.version = s.published.length ∧
    s.cache.get = pairAt s.published s.cache.version ∧
    ∀ h ∈ s.handlers, (h.frames.map (·.1)).Pairwise (· < ·) ∧
      ∀ f ∈ h.frames, f.2 = pairAt s.published f.1 := by
  have hi := CacheInv.initial.run hr hn
  refine ⟨hi.version_eq, hi.version_eq ▸ hi.get_eq, fun h hh => ?_⟩
  have hok := hi.handlers_ok h hh
  exact ⟨hok.frames_sorted, hok.frames_pair⟩

/-- A handler waits, is woken by the first publication, sends its frame, waits
again and times out. -/
def wakeup : List CacheEvent :=
  [.connect, .handler 0 (.poll .timedOut), .publish 0 0, .handler 0 .wake,
    .handler 0 (.send true), .handler 0 (.poll .timedOut), .handler 0 .timeout]

theorem cacheRun_consistent_wakeup :
    ∃ s, CacheSys.init.run wakeup = some s ∧ s.cache.version = s.published.length ∧
      s.handlers.length = 1 :=
  ⟨_, rfl, (@cacheRun_consistent wakeup _ rfl (by decide)).1, rfl⟩

/-- Before the first publication, `get_cached_data` copies the static
initializer's zero pair, which no publication stored. -/
theorem cache_copy_not_published :
    ¬ ∀ (es : List CacheEvent) (s : CacheSys), CacheSys.init.run es = some s →
      s.cache.get ∈ s.published := by
  intro h
  exact List.not_mem_nil _ (h [] CacheSys.init rfl)

end HwDrivers
