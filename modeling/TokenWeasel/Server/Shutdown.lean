import TokenWeasel.Library.Channel
import TokenWeasel.Library.Schedule
import TokenWeasel.Store.Energy

/-!
# The accounting writer at shutdown (`twl-server/src/sink.rs`, `server.rs`)

The connections of the server, the queue of accounting records and the thread that persists them,
from the start of the server to the exit of the process.  Nothing joins the thread: the server
future ends when the last connection has.
-/

namespace TokenWeasel.Server.Shutdown

open Library Store

def accountingQueueCapacity : Nat := 1024

inductive Record where
  | usage (u : Usage)
  | energy (elapsedSecs watts : Rat)
  deriving DecidableEq

inductive TrySendError where
  | full
  | disconnected
  deriving DecidableEq

/-- Where the writer thread stands in its loop. -/
inductive Thread where
  | receiving
  | persisting (record : Record)
  | stopped

inductive Phase where
  | serving
  | draining
  | returned
  | exited
  deriving DecidableEq

structure Process where
  phase : Phase := .serving
  connections : Nat := 0
  channel : Channel Record
  thread : Thread := .receiving
  passed : List Record := []
  tables : Tables

inductive Event where
  | connect
  | recordUsage (u : Usage)
  | recordEnergy (elapsedSecs watts : Rat)
  | disconnect
  | shutdownSignal
  | serveEnds
  | recv
  | persist (now : Option Int) (fault : Option DbError)
  | exit

/-- `AccountingWriter::spawn`. -/
def spawn (tables : Tables) : Process :=
  { channel := .new accountingQueueCapacity, tables := tables }

def persist (now : Option Int) (fault : Option DbError) (r : Record) (tables : Tables) : Tables :=
  match r with
  | .usage u => { tables with toDatabase := record now fault u tables.toDatabase }
  | .energy elapsedSecs watts => Store.recordEnergy now fault elapsedSecs watts tables

namespace Process

def trySend (s : Process) (r : Record) : Except TrySendError Process :=
  match s.thread with
  | .stopped => .error .disconnected
  | .receiving | .persisting _ =>
    match s.channel.trySend r with
    | none => .error .full
    | some channel => .ok { s with channel := channel }

/-- A record that finds no room is dropped. -/
def enqueue (s : Process) (r : Record) : Bool × Process :=
  match s.trySend r with
  | .ok next => (true, next)
  | .error _ => (false, s)

def recordUsage (s : Process) (u : Usage) : Bool × Process := s.enqueue (.usage u)

def recordEnergy (s : Process) (elapsedSecs watts : Rat) : Process :=
  (s.enqueue (.energy elapsedSecs watts)).2

/-- `while let Ok(record) = rx.recv()`: an empty queue stops the loop once no sender is left. -/
def recv (s : Process) : Process :=
  match s.thread with
  | .receiving =>
    match s.channel.recv with
    | some (r, channel) => { s with thread := .persisting r, channel := channel }
    | none => if s.phase = .returned then { s with thread := .stopped } else s
  | .persisting _ | .stopped => s

def persistNext (s : Process) (now : Option Int) (fault : Option DbError) : Process :=
  match s.thread with
  | .persisting r =>
    { s with
      thread := .receiving
      passed := s.passed ++ [r]
      tables := persist now fault r s.tables }
  | .receiving | .stopped => s

/-- Records come from the requests of open connections, and no thread outlives the process. -/
def step (s : Process) : Event → Process
  | .connect => if s.phase = .serving then { s with connections := s.connections + 1 } else s
  | .recordUsage u => if 0 < s.connections then (s.recordUsage u).2 else s
  | .recordEnergy elapsedSecs watts =>
    if 0 < s.connections then s.recordEnergy elapsedSecs watts else s
  | .disconnect => { s with connections := s.connections - 1 }
  | .shutdownSignal => if s.phase = .serving then { s with phase := .draining } else s
  | .serveEnds =>
    if s.phase = .draining ∧ s.connections = 0 then { s with phase := .returned } else s
  | .recv => if s.phase = .exited then s else s.recv
  | .persist now fault => if s.phase = .exited then s else s.persistNext now fault
  | .exit => if s.phase = .returned then { s with phase := .exited } else s

/-- `run` has returned. -/
def Over (s : Process) : Prop := s.phase = .returned ∨ s.phase = .exited

/-- Every record that was accepted, as often as it was, was passed to `persist`. -/
def Lossless (s : Process) : Prop := s.Over → s.channel.sent.Subperm s.passed

def inHand (s : Process) : List Record :=
  match s.thread with
  | .persisting r => [r]
  | .receiving | .stopped => []

/-- Nothing is queued, and nothing received is still to be passed on. -/
def Idle (s : Process) : Prop := s.channel.queue = [] ∧ s.inHand = []

/-- The server future ends only while the writer is idle. -/
def EndsIdle (s : Process) (e : Event) : Prop :=
  e = .serveEnds → s.phase = .draining → s.connections = 0 → s.Idle

structure Wf (s : Process) : Prop where
  received_eq : s.channel.received = s.passed ++ s.inHand
  closed : s.Over → s.connections = 0
  running : ¬ s.Over → s.thread ≠ .stopped

variable {s : Process}

theorem Wf.sent_eq (h : s.Wf) : s.channel.sent = s.passed ++ (s.inHand ++ s.channel.queue) := by
  rw [s.channel.fifo, h.received_eq, List.append_assoc]

theorem Wf.subperm_iff_idle (h : s.Wf) : s.channel.sent.Subperm s.passed ↔ s.Idle := by
  constructor
  · intro hsub
    have hlength := hsub.length_le
    rw [h.sent_eq, List.length_append, List.length_append] at hlength
    exact ⟨List.length_eq_zero_iff.mp (by omega), List.length_eq_zero_iff.mp (by omega)⟩
  · intro hidle
    rw [h.sent_eq, hidle.1, hidle.2, List.append_nil, List.append_nil]

/-- Enqueueing touches the channel alone, and what the thread has received stays. -/
theorem trySend_eq_ok {r : Record} {next : Process} (h : s.trySend r = .ok next) :
    ∃ channel, channel.received = s.channel.received ∧ next = { s with channel := channel } := by
  unfold trySend at h
  cases hthread : s.thread with
  | stopped =>
      rw [hthread] at h
      exact absurd h (by simp)
  | receiving | persisting =>
      rw [hthread] at h
      dsimp only at h
      cases hsend : s.channel.trySend r with
      | none =>
          rw [hsend] at h
          exact absurd h (by simp)
      | some channel =>
          rw [hsend] at h
          refine ⟨channel, (Channel.trySend_eq_some hsend).2, ?_⟩
          rw [← Except.ok.inj h, ← hthread]

/-- Until the server returns, only a full queue refuses a record. -/
theorem Wf.trySend_error (h : s.Wf) (hover : ¬ s.Over) {r : Record} {e : TrySendError}
    (herror : s.trySend r = .error e) :
    e = .full ∧ s.channel.capacity ≤ s.channel.queue.length := by
  unfold trySend at herror
  cases hthread : s.thread with
  | stopped => exact absurd hthread (h.running hover)
  | receiving | persisting =>
      rw [hthread] at herror
      dsimp only at herror
      cases hsend : s.channel.trySend r with
      | some channel =>
          rw [hsend] at herror
          exact absurd herror (by simp)
      | none =>
          rw [hsend] at herror
          refine ⟨(Except.error.inj herror).symm, Nat.le_of_not_lt fun hroom ↦ ?_⟩
          have hsome := (Channel.trySend_isSome_iff (r := r)).mpr hroom
          rw [hsend] at hsome
          exact absurd hsome Bool.false_ne_true

theorem Wf.enqueue (h : s.Wf) (hopen : 0 < s.connections) (r : Record) :
    (s.enqueue r).2.Wf ∧ (s.Lossless → (s.enqueue r).2.Lossless) := by
  have hover : ¬ s.Over := fun hover ↦ absurd (h.closed hover) (by omega)
  unfold Process.enqueue
  cases hsend : s.trySend r with
  | error e => exact ⟨h, id⟩
  | ok next =>
      obtain ⟨channel, hreceived, hnext⟩ := trySend_eq_ok hsend
      dsimp only
      rw [hnext]
      refine ⟨⟨?_, h.closed, h.running⟩, fun _ hover' ↦ absurd hover' hover⟩
      show channel.received = s.passed ++ s.inHand
      rw [hreceived]
      exact h.received_eq

theorem Wf.recv (h : s.Wf) : s.recv.Wf ∧ (s.Lossless → s.recv.Lossless) := by
  have hreceived := h.received_eq
  unfold Process.recv
  unfold inHand at hreceived
  cases hthread : s.thread with
  | persisting r => exact ⟨h, id⟩
  | stopped => exact ⟨h, id⟩
  | receiving =>
      rw [hthread, List.append_nil] at hreceived
      dsimp only
      cases hrecv : s.channel.recv with
      | some taken =>
          have hchannel := Channel.recv_eq_some hrecv
          refine ⟨⟨?_, h.closed, fun _ ↦ by simp⟩, fun hlossless hover ↦ ?_⟩
          · show taken.2.received = s.passed ++ [taken.1]
            rw [hchannel.2, hreceived]
          · show taken.2.sent.Subperm s.passed
            rw [hchannel.1]
            exact hlossless hover
      | none =>
          dsimp only
          split
          · rename_i hreturned
            have hover : s.Over := Or.inl hreturned
            refine ⟨⟨?_, h.closed, fun hnot ↦ absurd hover hnot⟩, id⟩
            show s.channel.received = s.passed ++ []
            rw [hreceived, List.append_nil]
          · exact ⟨h, id⟩

theorem Wf.persistNext (h : s.Wf) (now : Option Int) (fault : Option DbError) :
    (s.persistNext now fault).Wf ∧ (s.Lossless → (s.persistNext now fault).Lossless) := by
  have hreceived := h.received_eq
  unfold Process.persistNext
  unfold inHand at hreceived
  cases hthread : s.thread with
  | receiving => exact ⟨h, id⟩
  | stopped => exact ⟨h, id⟩
  | persisting r =>
      rw [hthread] at hreceived
      refine ⟨⟨?_, h.closed, fun _ ↦ by simp⟩, fun hlossless hover ↦ ?_⟩
      · show s.channel.received = s.passed ++ [r] ++ []
        rw [hreceived, List.append_nil]
      · exact (hlossless hover).trans (List.sublist_append_left _ _).subperm

theorem spawn_wf (tables : Tables) : (spawn tables).Wf where
  received_eq := rfl
  closed := by rintro (h | h) <;> exact absurd h (by simp [spawn])
  running := by intro _; simp [spawn]

/-- No step but the end of the server future loses a record. -/
theorem Wf.step (h : s.Wf) (e : Event) :
    (s.step e).Wf ∧ (e ≠ .serveEnds → s.Lossless → (s.step e).Lossless) := by
  have hstay : s.Wf ∧ (e ≠ .serveEnds → s.Lossless → s.Lossless) := ⟨h, fun _ ↦ id⟩
  cases e with
  | connect =>
      simp only [Process.step]
      split
      · rename_i hserving
        have hover : ¬ s.Over := by simp [Over, hserving]
        exact ⟨⟨h.received_eq, fun hover' ↦ absurd hover' hover, h.running⟩, fun _ ↦ id⟩
      · exact hstay
  | recordUsage u =>
      simp only [Process.step]
      split
      · rename_i hopen
        exact ⟨(h.enqueue hopen _).1, fun _ ↦ (h.enqueue hopen _).2⟩
      · exact hstay
  | recordEnergy elapsedSecs watts =>
      simp only [Process.step]
      split
      · rename_i hopen
        exact ⟨(h.enqueue hopen _).1, fun _ ↦ (h.enqueue hopen _).2⟩
      · exact hstay
  | disconnect =>
      refine ⟨⟨h.received_eq, fun hover ↦ ?_, h.running⟩, fun _ ↦ id⟩
      have hnone := h.closed hover
      show s.connections - 1 = 0
      omega
  | shutdownSignal =>
      simp only [Process.step]
      split
      · rename_i hserving
        have hrunning := h.running (by simp [Over, hserving])
        have hover : ¬ Over { s with phase := .draining } := by simp [Over]
        exact ⟨⟨h.received_eq, fun hover' ↦ absurd hover' hover, fun _ ↦ hrunning⟩,
          fun _ _ hover' ↦ absurd hover' hover⟩
      · exact hstay
  | serveEnds =>
      simp only [Process.step]
      split
      · rename_i hend
        exact ⟨⟨h.received_eq, fun _ ↦ hend.2, fun hnot ↦ absurd (Or.inl rfl) hnot⟩,
          fun hne ↦ absurd rfl hne⟩
      · exact hstay
  | recv =>
      simp only [Process.step]
      split
      · exact hstay
      · exact ⟨h.recv.1, fun _ ↦ h.recv.2⟩
  | persist now fault =>
      simp only [Process.step]
      split
      · exact hstay
      · exact ⟨(h.persistNext now fault).1, fun _ ↦ (h.persistNext now fault).2⟩
  | exit =>
      simp only [Process.step]
      split
      · rename_i hreturned
        have hover : s.Over := Or.inl hreturned
        exact ⟨⟨h.received_eq, fun _ ↦ h.closed hover, fun hnot ↦ absurd (Or.inr rfl) hnot⟩,
          fun _ hlossless _ ↦ hlossless hover⟩
      · exact hstay

theorem Wf.lossless_step_iff (h : s.Wf) (hlossless : s.Lossless) (e : Event) :
    (s.step e).Lossless ↔ s.EndsIdle e := by
  by_cases he : e = .serveEnds
  · rw [he]
    simp only [Process.step]
    split
    · rename_i hend
      constructor
      · intro hnext _ _ _
        exact h.subperm_iff_idle.mp (hnext (Or.inl rfl))
      · intro hidle _
        exact h.subperm_iff_idle.mpr (hidle rfl hend.1 hend.2)
    · rename_i hend
      exact iff_of_true hlossless fun _ hdraining hnone ↦ absurd ⟨hdraining, hnone⟩ hend
  · exact iff_of_true ((h.step e).2 he hlossless) fun heq ↦ absurd heq he

end Process

/-- Shutdown loses no accepted record, at any moment of a run, exactly when the server future ends
with the writer idle. -/
theorem lossless_iff_endsIdle (tables : Tables) (events : List Event) :
    (∀ done, done <+: events → (run Process.step (spawn tables) done).Lossless) ↔
      Along Process.step Process.EndsIdle (spawn tables) events := by
  have hstart : (spawn tables).Lossless := by
    rintro (h | h) <;> exact absurd h (by simp [spawn])
  exact along_iff_forall_run (Process.spawn_wf tables) hstart (fun _ e h ↦ (h.step e).1)
    (fun _ e h hlossless ↦ h.lossless_step_iff hlossless e) events

/-- The last request ends, and the server with it, before the thread has received its record. -/
theorem shutdown_drops_queued_record :
    ¬ (run Process.step (spawn {}) [.connect, .shutdownSignal, .recordEnergy 2 300, .disconnect,
      .serveEnds]).Lossless := by
  intro h
  have hsub := (h (Or.inl rfl)).length_le
  exact absurd hsub (by decide)

end TokenWeasel.Server.Shutdown
