import Mathlib.Data.Int.LeastGreatest
import Mathlib.Order.Bounds.Basic

/-!
# Time zones

The offset of a zone is constant but for finitely many transitions.  An instant shows the local
time that is its offset later; a local time may be shown by no instant, or by several.
-/

namespace TokenWeasel.Library

def secsPerDay : Int := 86400

structure TimeZone where
  /-- The offset before the first transition. -/
  initial : Int
  /-- The instants, each with the offset from then on. -/
  transitions : List (Int × Int)
  sorted : transitions.Pairwise fun a b ↦ a.1 < b.1

namespace TimeZone

def offsetAfter (offset : Int) : List (Int × Int) → Int → Int
  | [], _ => offset
  | transition :: later, t =>
    if t < transition.1 then offset else offsetAfter transition.2 later t

section Zone

variable (zone : TimeZone)

def offset (t : Int) : Int := offsetAfter zone.initial zone.transitions t

def offsets : List Int := zone.initial :: zone.transitions.map Prod.snd

def localTime (t : Int) : Int := t + zone.offset t

/-- In days since the epoch. -/
def localDate (t : Int) : Int := zone.localTime t / secsPerDay

/-- The date does not go back. -/
def DatesAscend : Prop := ∀ s t, s ≤ t → zone.localDate s ≤ zone.localDate t

/-- No clock is a day ahead or behind. -/
def OffsetsWithinDay : Prop :=
  ∀ offset ∈ zone.offsets, -secsPerDay < offset ∧ offset < secsPerDay

def Shows (time : Int) : Prop := ∃ t, zone.localTime t = time

/-- The first instant that shows the local time. -/
def earliest (time : Int) : Option Int :=
  ((zone.offsets.map (time - ·)).filter (zone.localTime · = time)).min?

end Zone

theorem offsetAfter_mem (offset : Int) (transitions : List (Int × Int)) (t : Int) :
    offsetAfter offset transitions t ∈ offset :: transitions.map Prod.snd := by
  induction transitions generalizing offset with
  | nil => exact List.mem_cons_self
  | cons transition later ih =>
      unfold offsetAfter
      split
      · exact List.mem_cons_self
      · rw [List.map_cons]
        exact List.mem_cons_of_mem offset (ih transition.2)

variable {zone : TimeZone}

theorem offset_mem (t : Int) : zone.offset t ∈ zone.offsets :=
  offsetAfter_mem zone.initial zone.transitions t

theorem localTime_within (h : zone.OffsetsWithinDay) (t : Int) :
    t - secsPerDay < zone.localTime t ∧ zone.localTime t < t + secsPerDay := by
  have hoffset := h _ (offset_mem t)
  rw [localTime]
  omega

/-- An instant that shows the time is one offset before it. -/
theorem mem_candidates {time t : Int} :
    t ∈ (zone.offsets.map (time - ·)).filter (zone.localTime · = time) ↔
      zone.localTime t = time := by
  rw [List.mem_filter, decide_eq_true_eq]
  refine ⟨fun h ↦ h.2, fun h ↦ ⟨List.mem_map.mpr ⟨zone.offset t, offset_mem t, ?_⟩, h⟩⟩
  rw [← h, localTime]
  omega

theorem earliest_eq_some {time t : Int} :
    zone.earliest time = some t ↔ IsLeast {t | zone.localTime t = time} t := by
  rw [earliest, List.min?_eq_some_iff, mem_candidates]
  constructor
  · rintro ⟨hshows, hleast⟩
    exact ⟨hshows, fun other hother ↦ hleast other (mem_candidates.mpr hother)⟩
  · rintro ⟨hshows, hleast⟩
    exact ⟨hshows, fun other hother ↦ hleast (mem_candidates.mp hother)⟩

theorem earliest_eq_none {time : Int} : zone.earliest time = none ↔ ¬zone.Shows time := by
  rw [earliest, List.min?_eq_none_iff, List.eq_nil_iff_forall_not_mem]
  constructor
  · rintro h ⟨t, ht⟩
    exact h t (mem_candidates.mpr ht)
  · intro h t ht
    exact h ⟨t, mem_candidates.mp ht⟩

/-! ## First instants -/

theorem exists_bound (offsets : List Int) :
    ∃ bound, ∀ offset ∈ offsets, -bound ≤ offset ∧ offset ≤ bound := by
  induction offsets with
  | nil => exact ⟨0, fun offset h ↦ absurd h List.not_mem_nil⟩
  | cons first rest ih =>
      rcases ih with ⟨bound, hbound⟩
      refine ⟨max bound (max first (-first)), fun offset h ↦ ?_⟩
      cases List.mem_cons.mp h with
      | inl heq => omega
      | inr hrest =>
          have hle := hbound offset hrest
          omega

/-- Every date from some date on has an instant, and the first of them is one instant. -/
theorem exists_first_from (zone : TimeZone) (date : Int) :
    ∃ t, IsLeast {t | date ≤ zone.localDate t} t := by
  rcases exists_bound zone.offsets with ⟨bound, hbound⟩
  have hiff : ∀ t, date ≤ zone.localDate t ↔ date * secsPerDay ≤ t + zone.offset t :=
    fun t ↦ Int.le_ediv_iff_mul_le (by decide)
  have hlower : ∀ t, date ≤ zone.localDate t → date * secsPerDay - bound ≤ t := by
    intro t ht
    have hle := (hiff t).mp ht
    have hoffset := hbound _ (offset_mem t)
    omega
  -- far enough behind the midnight of the date no offset reaches back over it
  have hexists : date ≤ zone.localDate (date * secsPerDay + bound) := by
    apply (hiff _).mpr
    have hoffset := hbound _ (offset_mem (date * secsPerDay + bound))
    omega
  rcases Int.exists_least_of_bdd ⟨_, hlower⟩ ⟨_, hexists⟩ with ⟨first, hfirst, hleast⟩
  exact ⟨first, hfirst, fun t ht ↦ hleast t ht⟩

theorem exists_first_of (zone : TimeZone) {date : Int} (h : ∃ t, zone.localDate t = date) :
    ∃ t, IsLeast {t | zone.localDate t = date} t := by
  rcases exists_first_from zone date with ⟨bound, -, hbound⟩
  have hlower : ∀ t, zone.localDate t = date → bound ≤ t := fun t ht ↦ hbound (Int.le_of_eq ht.symm)
  rcases Int.exists_least_of_bdd ⟨bound, hlower⟩ h with ⟨first, hfirst, hleast⟩
  exact ⟨first, hfirst, fun t ht ↦ hleast t ht⟩

end TimeZone

end TokenWeasel.Library
