import Mathlib.Data.List.Induction
import TokenWeasel.Library.Schedule
import TokenWeasel.Library.Slots

/-!
# Read-copy-update

A shared cell holds a pointer to an immutable value.  A caller loads the pointer, computes a new
value from the one it points to, and swaps the pointers if the cell still holds the one it loaded;
otherwise it starts again.  Any number of callers interleave.  A computation may take names from an
allocator that the callers share.
-/

namespace TokenWeasel.Library.Rcu

universe u v w
variable {σ : Type u} {ω : Type v} {α : Type w}

/-- A pointer and the value behind it; pointers are compared by their addresses. -/
structure Arc (σ : Type u) where
  address : Nat
  value : σ

inductive Phase (σ : Type u) where
  | start
  | loaded (cur : Arc σ)
  | computed (cur new : Arc σ)
  | returned

structure Caller (σ : Type u) (ω : Type v) where
  update : ω
  phase : Phase σ

/-- A swap that succeeded. -/
structure Commit (σ : Type u) (ω : Type v) where
  caller : Nat
  update : ω
  value : σ

/-- The heap has the value behind each pointer that was ever made, at its address.  `commits` is
kept for the proofs. -/
structure Cell (σ : Type u) (ω : Type v) (α : Type w) where
  current : Arc σ
  heap : List σ
  allocator : α
  callers : List (Caller σ ω)
  commits : List (Commit σ ω)

inductive Event (ω : Type v) where
  | call (update : ω)
  | load (k : Nat)
  | compute (k : Nat)
  | swap (k : Nat)

namespace Cell

def make (value : σ) (allocator : α) : Cell σ ω α where
  current := { address := 0, value := value }
  heap := [value]
  allocator := allocator
  callers := []
  commits := []

def setCaller (cell : Cell σ ω α) (k : Nat) (caller : Caller σ ω) : Cell σ ω α :=
  { cell with callers := cell.callers.set k caller }

/-- A new pointer to what `update` makes of the value behind `cur`. -/
def compute (f : ω → σ → α → σ × α) (cell : Cell σ ω α) (k : Nat) (update : ω) (cur : Arc σ) :
    Cell σ ω α :=
  let next := f update cur.value cell.allocator
  { cell with
    heap := cell.heap ++ [next.1]
    allocator := next.2
    callers := cell.callers.set k
      { update := update
        phase := .computed cur { address := cell.heap.length, value := next.1 } } }

def commit (cell : Cell σ ω α) (k : Nat) (update : ω) (new : Arc σ) : Cell σ ω α :=
  { cell with
    current := new
    callers := cell.callers.set k { update := update, phase := .returned }
    commits := cell.commits ++ [{ caller := k, update := update, value := new.value }] }

def step (f : ω → σ → α → σ × α) (cell : Cell σ ω α) : Event ω → Cell σ ω α
  | .call update => { cell with callers := cell.callers ++ [{ update := update, phase := .start }] }
  | .load k =>
    match cell.callers[k]? with
    | some ⟨update, .start⟩ => cell.setCaller k { update := update, phase := .loaded cell.current }
    | _ => cell
  | .compute k =>
    match cell.callers[k]? with
    | some ⟨update, .loaded cur⟩ => cell.compute f k update cur
    | _ => cell
  | .swap k =>
    match cell.callers[k]? with
    | some ⟨update, .computed cur new⟩ =>
      if cell.current.address = cur.address then cell.commit k update new
      else cell.setCaller k { update := update, phase := .start }
    | _ => cell

/-- What an event can do. -/
inductive Transition (f : ω → σ → α → σ × α) (cell : Cell σ ω α) : Cell σ ω α → Prop where
  | stay : Transition f cell cell
  | call (update : ω) :
      Transition f cell
        { cell with callers := cell.callers ++ [{ update := update, phase := .start }] }
  | load (k : Nat) (update : ω) (h : cell.callers[k]? = some ⟨update, .start⟩) :
      Transition f cell
        (cell.setCaller k { update := update, phase := .loaded cell.current })
  | compute (k : Nat) (update : ω) (cur : Arc σ)
      (h : cell.callers[k]? = some ⟨update, .loaded cur⟩) :
      Transition f cell (cell.compute f k update cur)
  | commit (k : Nat) (update : ω) (cur new : Arc σ)
      (h : cell.callers[k]? = some ⟨update, .computed cur new⟩)
      (hsame : cell.current.address = cur.address) :
      Transition f cell (cell.commit k update new)
  | retry (k : Nat) (update : ω) (cur new : Arc σ)
      (h : cell.callers[k]? = some ⟨update, .computed cur new⟩) :
      Transition f cell (cell.setCaller k { update := update, phase := .start })

theorem step_transition (f : ω → σ → α → σ × α) (cell : Cell σ ω α) (event : Event ω) :
    Transition f cell (cell.step f event) := by
  cases event with
  | call update => exact .call update
  | load k =>
      simp only [step]
      split
      · rename_i update h
        exact .load k update h
      · exact .stay
  | compute k =>
      simp only [step]
      split
      · rename_i update cur h
        exact .compute k update cur h
      · exact .stay
  | swap k =>
      simp only [step]
      split
      · rename_i update cur new h
        split
        · rename_i hsame
          exact .commit k update cur new h hsame
        · exact .retry k update cur new h
      · exact .stay

/-- A call that no other caller disturbs replaces the value at its first try. -/
theorem run_undisturbed (f : ω → σ → α → σ × α) (cell : Cell σ ω α) (update : ω) :
    let k := cell.callers.length
    let after := run (step f) cell [.call update, .load k, .compute k, .swap k]
    (after.current.value, after.allocator) = f update cell.current.value cell.allocator := by
  intro k after
  have hget : ∀ caller, (cell.callers ++ [caller])[k]? = some caller :=
    fun caller ↦ List.getElem?_concat_length
  have hset : ∀ old caller, (cell.callers ++ [old]).set k caller = cell.callers ++ [caller] := by
    intro old caller
    rw [List.set_append_right _ _ (Nat.le_refl _), Nat.sub_self]
    rfl
  simp only [after, run_cons, run_nil, step, setCaller, compute, commit, hget, hset, if_true]

end Cell

/-! ## Pointers and their values -/

def Backed (heap : List σ) (a : Arc σ) : Prop := heap[a.address]? = some a.value

theorem Backed.append {heap : List σ} {a : Arc σ} (h : Backed heap a) (more : List σ) :
    Backed (heap ++ more) a := by
  have hlt : a.address < heap.length := slot_lt h
  show (heap ++ more)[a.address]? = some a.value
  rw [List.getElem?_append_left hlt]
  exact h

theorem Backed.mem {heap : List σ} {a : Arc σ} (h : Backed heap a) : a.value ∈ heap :=
  List.mem_of_getElem? h

theorem Backed.value_eq {heap : List σ} {a b : Arc σ} (ha : Backed heap a) (hb : Backed heap b)
    (h : a.address = b.address) : a.value = b.value := by
  apply Option.some.inj
  rw [← ha, ← hb, h]

/-- The value after some commits. -/
def latest (init : σ) (commits : List (Commit σ ω)) : σ :=
  (commits.getLast?.map Commit.value).getD init

@[simp] theorem latest_concat (init : σ) (commits : List (Commit σ ω)) (c : Commit σ ω) :
    latest init (commits ++ [c]) = c.value := by
  rw [latest, List.getLast?_concat]
  rfl

/-- All values the cell has held. -/
def published (init : σ) (commits : List (Commit σ ω)) : List σ := init :: commits.map Commit.value

theorem latest_mem_published (init : σ) (commits : List (Commit σ ω)) :
    latest init commits ∈ published init commits := by
  rcases List.eq_nil_or_concat' commits with rfl | ⟨front, c, rfl⟩
  · exact List.mem_cons_self
  · rw [latest_concat]
    exact List.mem_cons_of_mem _ (List.mem_map_of_mem (List.mem_append_right _ List.mem_cons_self))

/-- What a caller has in hand. -/
def CallerSound (f : ω → σ → α → σ × α) (heap : List σ) (caller : Caller σ ω) : Prop :=
  match caller.phase with
  | .loaded cur => Backed heap cur
  | .computed cur new =>
    Backed heap cur ∧ Backed heap new ∧ ∃ a, new.value = (f caller.update cur.value a).1
  | _ => True

theorem CallerSound.append {f : ω → σ → α → σ × α} {heap : List σ} {caller : Caller σ ω}
    (h : CallerSound f heap caller) (more : List σ) : CallerSound f (heap ++ more) caller := by
  rcases caller with ⟨update, phase⟩
  cases phase with
  | start => trivial
  | loaded cur => exact Backed.append h more
  | computed cur new => exact ⟨h.1.append more, h.2.1.append more, h.2.2⟩
  | returned => trivial

structure Sound (f : ω → σ → α → σ × α) (init : σ) (cell : Cell σ ω α) : Prop where
  current_backed : Backed cell.heap cell.current
  current_latest : cell.current.value = latest init cell.commits
  callers : ∀ (k : Nat) caller, cell.callers[k]? = some caller → CallerSound f cell.heap caller
  commits : ∀ c ∈ cell.commits, c.value ∈ cell.heap
  initial : init ∈ cell.heap

section Run

variable {f : ω → σ → α → σ × α} {init : σ} {cell next : Cell σ ω α}

theorem Sound.setCaller (h : Sound f init cell) (k : Nat) {caller : Caller σ ω}
    (hcaller : CallerSound f cell.heap caller) : Sound f init (cell.setCaller k caller) where
  current_backed := h.current_backed
  current_latest := h.current_latest
  callers := by
    intro j other hother
    rcases slot_set_cases hother with ⟨-, heq⟩ | ⟨-, hold⟩
    · rw [heq]
      exact hcaller
    · exact h.callers j other hold
  commits := h.commits
  initial := h.initial

theorem Sound.transition (h : Sound f init cell) (hnext : Cell.Transition f cell next) :
    Sound f init next := by
  cases hnext with
  | stay => exact h
  | call update =>
      refine ⟨h.current_backed, h.current_latest, ?_, h.commits, h.initial⟩
      intro j other hother
      rcases slot_concat_cases hother with ⟨-, heq⟩ | ⟨-, hold⟩
      · rw [heq]
        trivial
      · exact h.callers j other hold
  | load k update hk => exact h.setCaller k h.current_backed
  | compute k update cur hk =>
      have hcur : Backed cell.heap cur := h.callers k _ hk
      refine ⟨h.current_backed.append _, h.current_latest, ?_, ?_,
        List.mem_append_left _ h.initial⟩
      · intro j other hother
        rcases slot_set_cases hother with ⟨-, heq⟩ | ⟨-, hold⟩
        · rw [heq]
          refine ⟨hcur.append _, ?_, cell.allocator, rfl⟩
          exact List.getElem?_concat_length
        · exact (h.callers j other hold).append _
      · exact fun c hc ↦ List.mem_append_left _ (h.commits c hc)
  | commit k update cur new hk hsame =>
      -- the cell takes over the caller's pointer
      have hnew : Backed cell.heap new := (h.callers k _ hk).2.1
      refine ⟨hnew, ?_, ?_, ?_, h.initial⟩
      · show new.value = latest init (cell.commits ++ [_])
        rw [latest_concat]
      · intro j other hother
        rcases slot_set_cases hother with ⟨-, heq⟩ | ⟨-, hold⟩
        · rw [heq]
          trivial
        · exact h.callers j other hold
      · intro c hc
        cases List.mem_append.mp hc with
        | inl hold => exact h.commits c hold
        | inr heq =>
            rw [List.mem_singleton.mp heq]
            exact hnew.mem
  | retry k update cur new hk => exact h.setCaller k trivial

theorem sound_make (f : ω → σ → α → σ × α) (init : σ) (a : α) :
    Sound f init (Cell.make init a : Cell σ ω α) where
  current_backed := rfl
  current_latest := rfl
  callers := fun _ _ hk ↦ by simp [Cell.make] at hk
  commits := fun _ hc ↦ absurd hc List.not_mem_nil
  initial := List.mem_singleton_self init

theorem Sound.published_subset (h : Sound f init cell) :
    published init cell.commits ⊆ cell.heap := by
  intro value hvalue
  cases List.mem_cons.mp hvalue with
  | inl heq => exact heq ▸ h.initial
  | inr hcommit =>
      rcases List.mem_map.mp hcommit with ⟨c, hc, rfl⟩
      exact h.commits c hc

/-- The cell goes on holding what it held. -/
theorem published_transition (hnext : Cell.Transition f cell next) :
    published init cell.commits ⊆ published init next.commits := by
  cases hnext with
  | commit k update cur new hk hsame =>
      intro value hvalue
      show value ∈ init :: List.map _ (cell.commits ++ [_])
      rw [List.map_append]
      exact List.mem_append_left _ hvalue
  | _ => exact List.Subset.refl _

/-- A swap succeeds on the value its caller computed from: a commit is the update of the latest
value. -/
theorem Sound.commit_value (h : Sound f init cell) {k : Nat} {update : ω} {cur new : Arc σ}
    (hk : cell.callers[k]? = some ⟨update, .computed cur new⟩)
    (hsame : cell.current.address = cur.address) :
    ∃ a, new.value = (f update (latest init cell.commits) a).1 := by
  rcases h.callers k _ hk with ⟨hcur, -, a, hvalue⟩
  -- equal addresses, and so the value the caller loaded is the current one
  have heq : cell.current.value = cur.value := h.current_backed.value_eq hcur hsame
  refine ⟨a, ?_⟩
  rw [← h.current_latest, heq]
  exact hvalue

/-! ## Rules for whole runs -/

/-- What every transition of a sound cell preserves holds after every run. -/
theorem sound_induction (f : ω → σ → α → σ × α) (init : σ) {P : Cell σ ω α → Prop} {a : α}
    (hinit : P (Cell.make init a))
    (htransition : ∀ cell next, Sound f init cell → Cell.Transition f cell next → P cell → P next)
    (events : List (Event ω)) : P (run (Cell.step f) (Cell.make init a) events) := by
  have hboth : Sound f init (run (Cell.step f) (Cell.make init a) events) ∧
      P (run (Cell.step f) (Cell.make init a) events) := by
    refine run_invariant (P := fun cell ↦ Sound f init cell ∧ P cell)
      ⟨sound_make f init a, hinit⟩ ?_ events
    intro cell event h
    have hnext := cell.step_transition f event
    exact ⟨h.1.transition hnext, htransition cell _ h.1 hnext h.2⟩
  exact hboth.2

/-- What a commit on the latest value preserves holds of the commits of every run. -/
theorem commits_induction {P : List (Commit σ ω) → Prop} (hnil : P [])
    (hcommit : ∀ commits k update a, P commits →
      P (commits ++ [⟨k, update, (f update (latest init commits) a).1⟩]))
    (a : α) (events : List (Event ω)) :
    P (run (Cell.step f) (Cell.make init a) events).commits := by
  refine sound_induction f init (P := fun cell ↦ P cell.commits) hnil ?_ events
  intro cell next hsound hnext h
  cases hnext with
  | commit k update cur new hk hsame =>
      rcases hsound.commit_value hk hsame with ⟨b, hvalue⟩
      show P (cell.commits ++ [⟨k, update, new.value⟩])
      rw [hvalue]
      exact hcommit cell.commits k update b h
  | _ => exact h

/-- What a computation from any value made so far preserves holds of the heap and the allocator. -/
theorem heap_induction {P : List σ → α → Prop} {a : α} (hinit : P [init] a)
    (hcompute : ∀ heap b update value, value ∈ heap → P heap b →
      P (heap ++ [(f update value b).1]) (f update value b).2)
    (events : List (Event ω)) :
    P (run (Cell.step f) (Cell.make init a) events).heap
      (run (Cell.step f) (Cell.make init a) events).allocator := by
  refine sound_induction f init (P := fun cell ↦ P cell.heap cell.allocator)
    hinit ?_ events
  intro cell next hsound hnext h
  cases hnext with
  | compute k update cur hk =>
      have hcur : Backed cell.heap cur := hsound.callers k _ hk
      exact hcompute cell.heap cell.allocator update cur.value hcur.mem h
  | _ => exact h

/-- Seen through `view` the updates are atomic, in the order of their commits. -/
theorem linearizable {τ : Type*} (view : σ → τ) (apply : ω → τ → τ)
    (happly : ∀ update value a, view (f update value a).1 = apply update (view value))
    (a : α) (events : List (Event ω)) :
    view (latest init (run (Cell.step f) (Cell.make init a) events).commits) =
      (run (Cell.step f) (Cell.make init a) events).commits.foldl
        (fun t c ↦ apply c.update t) (view init) := by
  refine commits_induction
    (P := fun commits ↦ view (latest init commits) =
      commits.foldl (fun t c ↦ apply c.update t) (view init)) rfl ?_ a events
  intro commits k update b ih
  rw [latest_concat, List.foldl_concat, ← ih]
  exact happly update _ b

/-! ## Every call commits once -/

def Caller.hasReturned (caller : Caller σ ω) : Bool :=
  match caller.phase with
  | .returned => true
  | _ => false

/-- The updates a caller has committed. -/
def commitsOf (commits : List (Commit σ ω)) (k : Nat) : List ω :=
  (commits.filter (·.caller = k)).map Commit.update

def CommittedOnce (cell : Cell σ ω α) : Prop :=
  (∀ c ∈ cell.commits, c.caller < cell.callers.length) ∧
  ∀ (k : Nat) caller, cell.callers[k]? = some caller →
    commitsOf cell.commits k = if caller.hasReturned then [caller.update] else []

theorem commitsOf_concat (commits : List (Commit σ ω)) (c : Commit σ ω) (k : Nat) :
    commitsOf (commits ++ [c]) k =
      commitsOf commits k ++ if c.caller = k then [c.update] else [] := by
  rw [commitsOf, List.filter_append, List.map_append]
  by_cases h : c.caller = k <;> simp [commitsOf, h]

theorem CommittedOnce.setCaller (h : CommittedOnce cell) {k : Nat} {old caller : Caller σ ω}
    (hk : cell.callers[k]? = some old) (hold : old.hasReturned = false)
    (hcaller : caller.hasReturned = false) : CommittedOnce (cell.setCaller k caller) := by
  constructor
  · intro c hc
    show c.caller < (cell.callers.set k caller).length
    rw [List.length_set]
    exact h.1 c hc
  · intro j other hother
    show commitsOf cell.commits j = _
    rcases slot_set_cases hother with ⟨rfl, rfl⟩ | ⟨-, hother⟩
    · have hnone := h.2 j old hk
      rw [hold] at hnone
      rw [hnone, hcaller]
      rfl
    · exact h.2 j other hother

theorem CommittedOnce.transition (h : CommittedOnce cell) (hnext : Cell.Transition f cell next) :
    CommittedOnce next := by
  cases hnext with
  | stay => exact h
  | call update =>
      constructor
      · intro c hc
        show c.caller < (cell.callers ++ [_]).length
        rw [List.length_append]
        exact Nat.lt_add_right _ (h.1 c hc)
      · intro k caller hk
        show commitsOf cell.commits k = _
        rcases slot_concat_cases hk with ⟨rfl, rfl⟩ | ⟨-, hold⟩
        · -- no commit has the new number
          have hnone : cell.commits.filter (·.caller = cell.callers.length) = [] := by
            rw [List.filter_eq_nil_iff]
            intro c hc heq
            have hlt := h.1 c hc
            rw [decide_eq_true_eq] at heq
            omega
          rw [commitsOf, hnone]
          rfl
        · exact h.2 k caller hold
  | load k update hk => exact h.setCaller hk rfl rfl
  | compute k update cur hk =>
      let new : Arc σ := ⟨cell.heap.length, (f update cur.value cell.allocator).1⟩
      have hset : CommittedOnce (cell.setCaller k ⟨update, .computed cur new⟩) :=
        h.setCaller hk rfl rfl
      exact hset
  | commit k update cur new hk hsame =>
      constructor
      · intro c hc
        show c.caller < (cell.callers.set k _).length
        rw [List.length_set]
        cases List.mem_append.mp hc with
        | inl hold => exact h.1 c hold
        | inr heq =>
            rw [List.mem_singleton.mp heq]
            exact slot_lt hk
      · intro j caller hj
        show commitsOf (cell.commits ++ [_]) j = _
        rw [commitsOf_concat]
        rcases slot_set_cases hj with ⟨rfl, rfl⟩ | ⟨hne, hold⟩
        · have hnone : commitsOf cell.commits j = [] := h.2 j _ hk
          rw [hnone, if_pos rfl]
          rfl
        · rw [if_neg (Ne.symm hne), List.append_nil]
          exact h.2 j caller hold
  | retry k update cur new hk => exact h.setCaller hk rfl rfl

theorem committedOnce_run (f : ω → σ → α → σ × α) (init : σ) (a : α) (events : List (Event ω)) :
    CommittedOnce (run (Cell.step f) (Cell.make init a) events) := by
  refine run_invariant (P := CommittedOnce) ⟨?_, ?_⟩
    (fun cell event h ↦ h.transition (cell.step_transition f event)) events
  · exact fun c hc ↦ absurd hc List.not_mem_nil
  · exact fun k caller hk ↦ by simp [Cell.make] at hk

end Run

end TokenWeasel.Library.Rcu
