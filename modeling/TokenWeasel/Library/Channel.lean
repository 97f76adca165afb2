import Mathlib.Data.List.Basic

/-!
# Channels — bounded queues and what went through them

A channel carries its own history: what was sent is what was received and then what is queued.
-/

namespace TokenWeasel.Library

universe u
variable {ρ : Type u}

structure Channel (ρ : Type u) where
  capacity : Nat
  queue : List ρ
  sent : List ρ
  received : List ρ
  fifo : sent = received ++ queue
  bounded : queue.length ≤ capacity

namespace Channel

def new (capacity : Nat) : Channel ρ where
  capacity := capacity
  queue := []
  sent := []
  received := []
  fifo := rfl
  bounded := Nat.zero_le capacity

/-- Sending never waits: it fails when the queue is full. -/
def trySend (channel : Channel ρ) (r : ρ) : Option (Channel ρ) :=
  if h : channel.queue.length < channel.capacity then
    some { channel with
      queue := channel.queue ++ [r]
      sent := channel.sent ++ [r]
      fifo := by rw [channel.fifo, List.append_assoc]
      bounded := by rw [List.length_append]; exact h }
  else none

def recv (channel : Channel ρ) : Option (ρ × Channel ρ) :=
  match h : channel.queue with
  | [] => none
  | r :: rest =>
    some (r, { channel with
      queue := rest
      received := channel.received ++ [r]
      fifo := by rw [channel.fifo, h, List.append_assoc, List.singleton_append]
      bounded := by
        have hle := channel.bounded
        rw [h, List.length_cons] at hle
        exact Nat.le_of_succ_le hle })

variable {channel next : Channel ρ} {r : ρ}

theorem trySend_eq_some (h : channel.trySend r = some next) :
    next.sent = channel.sent ++ [r] ∧ next.received = channel.received := by
  unfold trySend at h
  split at h
  · rw [← Option.some.inj h]
    exact ⟨rfl, rfl⟩
  · exact absurd h (by simp)

theorem trySend_isSome_iff :
    (channel.trySend r).isSome ↔ channel.queue.length < channel.capacity := by
  unfold trySend
  split
  · rename_i h
    exact iff_of_true rfl h
  · rename_i h
    exact iff_of_false Bool.false_ne_true h

theorem recv_eq_some (h : channel.recv = some (r, next)) :
    next.sent = channel.sent ∧ next.received = channel.received ++ [r] := by
  unfold recv at h
  split at h
  · exact absurd h (by simp)
  · rw [Option.some.injEq, Prod.mk.injEq] at h
    rw [← h.1, ← h.2]
    exact ⟨rfl, rfl⟩

end Channel

end TokenWeasel.Library
