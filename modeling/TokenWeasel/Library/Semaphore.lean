import Mathlib.Data.List.Perm.Basic

/-!
# Semaphores — a pool of permits and a first-come queue for them

A permit is a name, so that what happens to each of them can be followed; the number of permits
that are free is the length of `free`.  A released permit goes to the first waiter, and to the pool
only when nobody waits.
-/

namespace TokenWeasel.Library

universe u

abbrev Permit := Nat

structure Semaphore (ι : Type u) where
  free : List Permit
  waiters : List ι

namespace Semaphore

variable {ι : Type u}

def new (permits : Nat) : Semaphore ι where
  free := List.range permits
  waiters := []

def available (s : Semaphore ι) : Nat := s.free.length

/-- A free permit at once, or a place at the end of the queue. -/
def acquire (s : Semaphore ι) (i : ι) : Semaphore ι × Option Permit :=
  match s.free with
  | permit :: free => ({ s with free := free }, some permit)
  | [] => ({ s with waiters := s.waiters ++ [i] }, none)

/-- The waiter that is handed the permit, if there is one. -/
def release (s : Semaphore ι) (permit : Permit) : Semaphore ι × Option ι :=
  match s.waiters with
  | i :: waiters => ({ s with waiters := waiters }, some i)
  | [] => ({ s with free := permit :: s.free }, none)

/-- A waiter leaves the queue before it is handed a permit. -/
def cancel [BEq ι] (s : Semaphore ι) (i : ι) : Semaphore ι :=
  { s with waiters := s.waiters.erase i }

variable {s : Semaphore ι} {i : ι} {permit : Permit}

theorem acquire_cases (s : Semaphore ι) (i : ι) :
    (∃ permit, s.free = permit :: (s.acquire i).1.free ∧ (s.acquire i).2 = some permit ∧
      (s.acquire i).1.waiters = s.waiters) ∨
    (s.free = [] ∧ (s.acquire i).1.free = [] ∧ (s.acquire i).2 = none ∧
      (s.acquire i).1.waiters = s.waiters ++ [i]) := by
  unfold acquire
  cases hfree : s.free with
  | nil => exact Or.inr ⟨rfl, rfl, rfl, rfl⟩
  | cons permit free => exact Or.inl ⟨permit, rfl, rfl, rfl⟩

theorem release_cases (s : Semaphore ι) (permit : Permit) :
    (∃ i, s.waiters = i :: (s.release permit).1.waiters ∧ (s.release permit).2 = some i ∧
      (s.release permit).1.free = s.free) ∨
    (s.waiters = [] ∧ (s.release permit).1.waiters = [] ∧ (s.release permit).2 = none ∧
      (s.release permit).1.free = permit :: s.free) := by
  unfold release
  cases hwaiters : s.waiters with
  | nil => exact Or.inr ⟨rfl, rfl, rfl, rfl⟩
  | cons i waiters => exact Or.inl ⟨i, rfl, rfl, rfl⟩

/-! ## Nobody waits beside a free permit -/

def Orderly (s : Semaphore ι) : Prop := s.free = [] ∨ s.waiters = []

theorem orderly_new (permits : Nat) : (new permits : Semaphore ι).Orderly := Or.inr rfl

theorem Orderly.acquire (h : s.Orderly) (i : ι) : (s.acquire i).1.Orderly := by
  unfold Orderly at h ⊢
  cases acquire_cases s i with
  | inl htaken =>
      rcases htaken with ⟨permit, hfree, -, hwaiters⟩
      -- there was a free permit, so nobody waited
      rw [hwaiters]
      exact Or.inr (h.resolve_left (by rw [hfree]; exact List.cons_ne_nil _ _))
  | inr hqueued => exact Or.inl hqueued.2.1

theorem Orderly.release (h : s.Orderly) (permit : Permit) : (s.release permit).1.Orderly := by
  unfold Orderly at h ⊢
  cases release_cases s permit with
  | inl hhanded =>
      rcases hhanded with ⟨i, hwaiters, -, hfree⟩
      rw [hfree]
      exact Or.inl (h.resolve_right (by rw [hwaiters]; exact List.cons_ne_nil _ _))
  | inr hpooled => exact Or.inr hpooled.2.1

theorem Orderly.cancel [BEq ι] (h : s.Orderly) (i : ι) : (s.cancel i).Orderly := by
  show s.free = [] ∨ s.waiters.erase i = []
  cases h with
  | inl hfree => exact Or.inl hfree
  | inr hwaiters =>
      rw [hwaiters]
      exact Or.inr rfl

end Semaphore

end TokenWeasel.Library
