import Mathlib.Data.Nat.Defs
import Mathlib.Logic.Basic

/-! The cache server's accept loop (lines 633-660) and its self-pipe under one
termination signal. The handler stores `running = 0` and writes one byte to
the pipe. `O_NONBLOCK` is set on the write end only (lines 569-572), so a
`read` of the emptied pipe blocks while the write end stays open. A handler
run on the acceptor's thread interrupts a blocked call (`sa_flags = 0`: it
returns `EINTR`); one run on another thread interleaves its two stores. -/

namespace HwDrivers

/-- Where the acceptor is in its loop. -/
inductive LoopPc
  /-- `while (running)`. -/
  | check
  /-- Building the `fd_set`s, before `select` is entered. -/
  | preSelect
  /-- In `select(maxfd + 1, &rfds, NULL, NULL, NULL)`. -/
  | select
  /-- In `while (read(sigpipe_fds[0], buf, sizeof(buf)) > 0)`. -/
  | drain
  /-- Handling the listening socket. -/
  | accepting
  /-- Past the loop: closing the sockets, `cleanup_shared_memory`. -/
  | shutdown
  deriving DecidableEq, Repr

/-- How far the one execution of the termination handler has got. -/
inductive HandlerPc
  | notRun
  /-- `running = 0` is stored, the byte not yet written. -/
  | stored
  | done
  deriving DecidableEq, Repr

structure LoopState where
  pc : LoopPc
  running : Bool
  /-- Bytes in the self-pipe. -/
  pipe : ℕ
  /-- A connection waits on the listening socket. -/
  pending : Bool
  handler : HandlerPc
  deriving DecidableEq, Repr

/-- The loop is entered with `running = 1` and an empty pipe. -/
def LoopState.init : LoopState := ⟨.check, true, 0, false, .notRun⟩

/-- An event of a run. -/
inductive LoopEvent
  /-- A client connects. -/
  | connect
  /-- The acceptor takes its next step. -/
  | acceptor
  /-- The whole handler runs on the acceptor's thread. -/
  | signalHere
  /-- The handler, run on another thread, stores `running = 0`. -/
  | signalStore
  /-- The handler, run on another thread, writes its byte. -/
  | signalWrite
  deriving DecidableEq, Repr

/-- Whether the acceptor is blocked: in `select` with nothing ready, or reading
the empty pipe. -/
def LoopState.blocked (s : LoopState) : Bool :=
  (s.pc = .select && s.pipe = 0 && !s.pending) || (s.pc = .drain && s.pipe = 0)

/-- The acceptor's next step; `none` while it is blocked or done. -/
def acceptorStep (s : LoopState) : Option LoopState :=
  match s.pc with
  | .check => some { s with pc := if s.running then .preSelect else .shutdown }
  | .preSelect => some { s with pc := .select }
  | .select =>
    if 0 < s.pipe then some { s with pc := .drain }
    else if s.pending then some { s with pc := .accepting }
    else none
  | .drain => if 0 < s.pipe then some { s with pipe := s.pipe - min s.pipe 64 } else none
  | .accepting => some { s with pc := .check, pending := false }
  | .shutdown => none

/-- A blocked call that the signal interrupts: `select` returns `EINTR` and the
loop continues; `read` returns `-1` and the drain loop breaks out. -/
def interruptedPc : LoopPc → LoopPc
  | .select => .check
  | .drain => .shutdown
  | pc => pc

def loopStep (s : LoopState) : LoopEvent → Option LoopState
  | .connect => some { s with pending := true }
  | .acceptor => acceptorStep s
  | .signalHere =>
    if s.handler = .notRun then
      some { s with running := false, pipe := s.pipe + 1, handler := .done,
                    pc := if s.blocked then interruptedPc s.pc else s.pc }
    else none
  | .signalStore =>
    if s.handler = .notRun then some { s with running := false, handler := .stored } else none
  | .signalWrite =>
    if s.handler = .stored then some { s with pipe := s.pipe + 1, handler := .done } else none

def loopRun (s : LoopState) : List LoopEvent → Option LoopState
  | [] => some s
  | e :: es => (loopStep s e).bind (loopRun · es)

/-- The handler has run and the acceptor reads the empty pipe. -/
def Hung (s : LoopState) : Prop := s.pc = .drain ∧ s.pipe = 0 ∧ s.handler = .done

theorem Hung.step {s t : LoopState} {e : LoopEvent} (h : Hung s)
    (hs : loopStep s e = some t) : Hung t := by
  obtain ⟨hpc, hp, hh⟩ := h
  cases e with
  | connect => cases hs; exact ⟨hpc, hp, hh⟩
  | acceptor => simp [loopStep, acceptorStep, hpc, hp] at hs
  | signalHere => simp [loopStep, hh] at hs
  | signalStore => simp [loopStep, hh] at hs
  | signalWrite => simp [loopStep, hh] at hs

theorem Hung.run {s t : LoopState} {es : List LoopEvent} (h : Hung s)
    (hr : loopRun s es = some t) : Hung t := by
  induction es generalizing s with
  | nil => cases hr; exact h
  | cons e es ih =>
    simp only [loopRun, Option.bind_eq_some] at hr
    obtain ⟨u, hu, hr⟩ := hr
    exact ih (h.step hu) hr

/-- The signal lands on the acceptor's thread after `while (running)` and
before `select`; `select` sees the byte, the drain loop reads it and reads again. -/
def signalBeforeSelect : List LoopEvent :=
  [.acceptor, .signalHere, .acceptor, .acceptor, .acceptor]

/-- The signal is taken by another thread while the acceptor is in `select`. -/
def signalElsewhere : List LoopEvent :=
  [.acceptor, .acceptor, .signalStore, .signalWrite, .acceptor, .acceptor]

/-- Either way the termination handler has run and the acceptor sits in a
`read` of the empty pipe, and no continuation of the run ever returns from it:
the acceptor never reaches the shutdown sequence. -/
theorem loopRun_hangs :
    (∃ s, loopRun LoopState.init signalBeforeSelect = some s ∧ Hung s) ∧
    (∃ s, loopRun LoopState.init signalElsewhere = some s ∧ Hung s) ∧
    ∀ (s : LoopState) (es : List LoopEvent) (t : LoopState),
      Hung s → loopRun s es = some t → t.pc = .drain :=
  ⟨⟨_, rfl, by decide, by decide, by decide⟩, ⟨_, rfl, by decide, by decide, by decide⟩,
    fun _ _ _ h hr => (h.run hr).1⟩

end HwDrivers
