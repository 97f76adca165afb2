import TokenWeasel.Library.TimeZone
import TokenWeasel.Server.Routes

/-!
# Local days (`twl-server/src/localtime.rs`)

The start of a calendar date in a time zone, and the windows of the reports that it bounds.  Dates
are days since the epoch, without the ends of `NaiveDate`'s range.
-/

namespace TokenWeasel.Server

open Library Store Routes

/-- `MAX_DAYS`. -/
def maxDays : Nat := 366

/-- The full hours of the date, in order. -/
def hours (date : Int) : List Int :=
  (List.range 24).map fun hour : Nat ↦ date * secsPerDay + hour * 3600

/-- The midnights of the dates after the date. -/
def laterMidnights (date : Int) : List Int :=
  (List.range maxDays).map fun day : Nat ↦ (date + day + 1) * secsPerDay

/-- `from_local_datetime(..).earliest()` is the zone's. -/
def dateToStartTimestamp (zone : TimeZone) (date : Int) : Int :=
  match (hours date).findSome? zone.earliest with
  | some t => t
  | none =>
    -- the entire date was skipped
    match (laterMidnights date).findSome? zone.earliest with
    | some t => t
    | none => (date + maxDays) * secsPerDay

/-! ## The search -/

/-- The local times that are tried, in order. -/
def probes (date : Int) : List Int := hours date ++ laterMidnights date

theorem dateToStartTimestamp_eq (zone : TimeZone) (date : Int) :
    dateToStartTimestamp zone date =
      ((probes date).findSome? zone.earliest).getD ((date + maxDays) * secsPerDay) := by
  unfold dateToStartTimestamp probes
  rw [List.findSome?_append]
  cases (hours date).findSome? zone.earliest with
  | some t => rfl
  | none =>
      cases (laterMidnights date).findSome? zone.earliest with
      | some t => rfl
      | none => rfl

/-- The clock shows at the instant the first of the local times tried that it ever shows.  When it
shows none of them, the instant is the last resort. -/
def ProbedAt (zone : TimeZone) (date t : Int) : Prop :=
  (∃ before after, probes date = before ++ zone.localTime t :: after ∧
    ∀ time ∈ before, ¬zone.Shows time) ∨
  ((∀ time ∈ probes date, ¬zone.Shows time) ∧ t = (date + maxDays) * secsPerDay)

variable {zone : TimeZone} {date : Int}

theorem dateToStartTimestamp_of_probe {before after : List Int} {time : Int}
    (hprobes : probes date = before ++ time :: after) (hbefore : ∀ time ∈ before, ¬zone.Shows time)
    (hshows : zone.Shows time) :
    IsLeast {t | zone.localTime t = time} (dateToStartTimestamp zone date) := by
  have hnone : before.findSome? zone.earliest = none :=
    List.findSome?_eq_none_iff.mpr fun time htime ↦
      TimeZone.earliest_eq_none.mpr (hbefore time htime)
  cases hearliest : zone.earliest time with
  | none => exact absurd hshows (TimeZone.earliest_eq_none.mp hearliest)
  | some t =>
      rw [dateToStartTimestamp_eq, hprobes, List.findSome?_append, hnone, Option.none_or,
        List.findSome?_cons, hearliest]
      exact TimeZone.earliest_eq_some.mp hearliest

theorem dateToStartTimestamp_of_none (h : ∀ time ∈ probes date, ¬zone.Shows time) :
    dateToStartTimestamp zone date = (date + maxDays) * secsPerDay := by
  have hnone : (probes date).findSome? zone.earliest = none :=
    List.findSome?_eq_none_iff.mpr fun time htime ↦ TimeZone.earliest_eq_none.mpr (h time htime)
  rw [dateToStartTimestamp_eq, hnone]
  rfl

/-- Where the search ends. -/
theorem probedAt_start (zone : TimeZone) (date : Int) :
    ProbedAt zone date (dateToStartTimestamp zone date) := by
  cases hfound : (probes date).findSome? zone.earliest with
  | none =>
      have hnone : ∀ time ∈ probes date, ¬zone.Shows time := fun time htime ↦
        TimeZone.earliest_eq_none.mp (List.findSome?_eq_none_iff.mp hfound time htime)
      exact Or.inr ⟨hnone, dateToStartTimestamp_of_none hnone⟩
  | some t =>
      rcases List.findSome?_eq_some_iff.mp hfound with ⟨before, time, after, hprobes, ht, hbefore⟩
      have hshows : zone.localTime t = time := (TimeZone.earliest_eq_some.mp ht).1
      refine Or.inl ⟨before, after, ?_, fun time htime ↦
        TimeZone.earliest_eq_none.mp (hbefore time htime)⟩
      rw [dateToStartTimestamp_eq, hfound, Option.getD_some, hshows]
      exact hprobes

/-- The search finds the first of a set of instants that is told by the local time exactly when the
local time that is found first is shown by it. -/
theorem isLeast_start_iff {P : Int → Prop} {first : Int}
    (hfirst : IsLeast {t | P (zone.localTime t)} first) :
    IsLeast {t | P (zone.localTime t)} (dateToStartTimestamp zone date) ↔
      ProbedAt zone date first := by
  constructor
  · intro hstart
    rw [hfirst.unique hstart]
    exact probedAt_start zone date
  · rintro (⟨before, after, hprobes, hbefore⟩ | ⟨hnone, hlast⟩)
    · -- the instant that is found shows what the first one shows
      have hstart := dateToStartTimestamp_of_probe hprobes hbefore ⟨first, rfl⟩
      have hle : dateToStartTimestamp zone date ≤ first := hstart.2 rfl
      have hmem : P (zone.localTime (dateToStartTimestamp zone date)) := by
        rw [hstart.1]
        exact hfirst.1
      rw [← le_antisymm (hfirst.2 hmem) hle]
      exact hfirst
    · rw [dateToStartTimestamp_of_none hnone, ← hlast]
      exact hfirst

/-! ## On the hour

Where the offsets are less than a day, the last resort is not met, and the local times tried are
the full hours of the date. -/

theorem mem_hours {time : Int} : time ∈ hours date ↔ time / secsPerDay = date ∧ 3600 ∣ time := by
  unfold hours secsPerDay
  rw [List.mem_map]
  constructor
  · rintro ⟨hour, hhour, rfl⟩
    have hlt := List.mem_range.mp hhour
    omega
  · rintro ⟨hdate, hour, rfl⟩
    refine ⟨(hour - date * 24).toNat, List.mem_range.mpr ?_, ?_⟩
    · omega
    · omega

theorem mem_laterMidnights {time : Int} : time ∈ laterMidnights date ↔
    secsPerDay ∣ time ∧ date < time / secsPerDay ∧ time / secsPerDay ≤ date + maxDays := by
  unfold laterMidnights secsPerDay maxDays
  rw [List.mem_map]
  constructor
  · rintro ⟨day, hday, rfl⟩
    have hlt := List.mem_range.mp hday
    omega
  · rintro ⟨⟨day, rfl⟩, hlow, hhigh⟩
    refine ⟨(day - date - 1).toNat, List.mem_range.mpr ?_, ?_⟩
    · omega
    · omega

theorem probes_increasing (date : Int) : (probes date).Pairwise (· < ·) := by
  unfold probes
  rw [List.pairwise_append]
  refine ⟨?_, ?_, ?_⟩
  · apply List.pairwise_map.mpr
    exact List.pairwise_lt_range.imp fun hlt ↦ by omega
  · apply List.pairwise_map.mpr
    apply List.pairwise_lt_range.imp
    intro day later hlt
    unfold secsPerDay
    omega
  · intro hour hhour midnight hmidnight
    have hdate := (mem_hours.mp hhour).1
    have hlater := (mem_laterMidnights.mp hmidnight).2.1
    by_contra hle
    have hmono : midnight / secsPerDay ≤ hour / secsPerDay :=
      Int.ediv_le_ediv (by decide) (not_lt.mp hle)
    omega

/-- An instant shows the first of the probes that is shown when it shows the least one. -/
theorem probedAt_iff_least (hoffsets : zone.OffsetsWithinDay) {t : Int}
    (hnear : zone.localDate t < date + 365) :
    ProbedAt zone date t ↔ zone.localTime t ∈ probes date ∧
      ∀ other, zone.localTime other ∈ probes date → zone.localTime t ≤ zone.localTime other := by
  constructor
  · rintro (⟨before, after, hprobes, hbefore⟩ | ⟨-, hlast⟩)
    · have hsorted := probes_increasing date
      rw [hprobes] at hsorted ⊢
      refine ⟨List.mem_append_right _ List.mem_cons_self, fun other hother ↦ ?_⟩
      cases List.mem_append.mp hother with
      | inl hin => exact absurd ⟨other, rfl⟩ (hbefore _ hin)
      | inr hin =>
          cases List.mem_cons.mp hin with
          | inl heq => exact Int.le_of_eq heq.symm
          | inr hafter =>
              exact ((List.pairwise_cons.mp (List.pairwise_append.mp hsorted).2.1).1 _ hafter).le
    · -- the last resort is a year after the date, and its local date almost that
      have hwithin := (TimeZone.localTime_within hoffsets t).1
      have hdate : date + 365 ≤ zone.localDate t := by
        apply (Int.le_ediv_iff_mul_le (by decide)).mpr
        unfold maxDays at hlast
        unfold secsPerDay at *
        omega
      omega
  · rintro ⟨hmem, hleast⟩
    -- what is tried before it is earlier, so it is not shown
    rcases List.append_of_mem hmem with ⟨before, after, hprobes⟩
    refine Or.inl ⟨before, after, hprobes, ?_⟩
    rintro _ hbefore ⟨other, rfl⟩
    have hsorted := probes_increasing date
    rw [hprobes] at hsorted hleast
    have hle := hleast other (List.mem_append_left _ hbefore)
    have hlt := (List.pairwise_append.mp hsorted).2.2 _ hbefore _ List.mem_cons_self
    omega

/-- The instant shows a full hour, and no earlier full hour of its date is shown later. -/
def BeginsOnHour (zone : TimeZone) (first : Int) : Prop :=
  3600 ∣ zone.localTime first ∧ ∀ t, first < t → zone.localDate t = zone.localDate first →
    3600 ∣ zone.localTime t → zone.localTime first ≤ zone.localTime t

theorem probedAt_iff_beginsOnHour (hoffsets : zone.OffsetsWithinDay) {first : Int}
    (hfirst : IsLeast {t | zone.localDate t = date} first) :
    ProbedAt zone date first ↔ BeginsOnHour zone first := by
  have hdate : zone.localDate first = date := hfirst.1
  rw [probedAt_iff_least hoffsets (by omega)]
  constructor
  · rintro ⟨hmem, hleast⟩
    refine ⟨?_, fun t _ ht hhour ↦ hleast t ?_⟩
    · cases List.mem_append.mp hmem with
      | inl hhours => exact (mem_hours.mp hhours).2
      | inr hlater =>
          have hlt : date < zone.localDate first := (mem_laterMidnights.mp hlater).2.1
          omega
    · exact List.mem_append_left _ (mem_hours.mpr ⟨ht.trans hdate, hhour⟩)
  · rintro ⟨hhour, hleast⟩
    refine ⟨List.mem_append_left _ (mem_hours.mpr ⟨hdate, hhour⟩), fun t ht ↦ ?_⟩
    cases List.mem_append.mp ht with
    | inl hhours =>
        obtain ⟨ht, hhour⟩ := mem_hours.mp hhours
        cases (hfirst.2 ht).eq_or_lt with
        | inl heq => rw [heq]
        | inr hlt => exact hleast t hlt (ht.trans hdate.symm) hhour
    | inr hlater =>
        -- a later date has a later local time
        by_contra hle
        have hmono : zone.localDate t ≤ zone.localDate first :=
          Int.ediv_le_ediv (by decide) (not_le.mp hle).le
        have hlt : date < zone.localDate t := (mem_laterMidnights.mp hlater).2.1
        omega

/-- A date that is skipped is followed by a midnight. -/
theorem probedAt_iff_midnight (hoffsets : zone.OffsetsWithinDay) (hascend : zone.DatesAscend)
    (hskipped : ∀ t, zone.localDate t ≠ date) {first : Int}
    (hfirst : IsLeast {t | date ≤ zone.localDate t} first) :
    ProbedAt zone date first ↔ secsPerDay ∣ zone.localTime first := by
  have hlater : date < zone.localDate first := lt_of_le_of_ne hfirst.1 (hskipped first).symm
  -- the instant before is of an earlier date, so no more than two days are skipped
  have hnear : zone.localDate first ≤ date + 2 := by
    have hbefore : ¬date ≤ zone.localDate (first - 1) := by
      intro hle
      have hleast := hfirst.2 hle
      omega
    have hwithin := TimeZone.localTime_within hoffsets first
    have hwithin' := TimeZone.localTime_within hoffsets (first - 1)
    unfold TimeZone.localDate secsPerDay at *
    omega
  rw [probedAt_iff_least hoffsets (by omega)]
  constructor
  · rintro ⟨hmem, -⟩
    cases List.mem_append.mp hmem with
    | inl hhours => exact absurd (mem_hours.mp hhours).1 (hskipped first)
    | inr hmidnight => exact (mem_laterMidnights.mp hmidnight).1
  · intro hmidnight
    refine ⟨List.mem_append_right _ (mem_laterMidnights.mpr ⟨hmidnight, hlater, ?_⟩),
      fun t ht ↦ ?_⟩
    · exact hnear.trans (by unfold maxDays; omega)
    · have hdate : date ≤ zone.localDate t := by
        cases List.mem_append.mp ht with
        | inl hhours => exact (mem_hours.mp hhours).1.ge
        | inr hlater => exact (mem_laterMidnights.mp hlater).2.1.le
      have hmono : zone.localDate first ≤ zone.localDate t := hascend _ _ (hfirst.2 hdate)
      calc zone.localTime first = zone.localDate first * secsPerDay :=
            (Int.ediv_mul_cancel hmidnight).symm
        _ ≤ zone.localDate t * secsPerDay := Int.mul_le_mul_of_nonneg_right hmono (by decide)
        _ ≤ zone.localTime t := Int.ediv_mul_le _ (by decide)

/-- The start of a date is its first instant exactly when the date begins on the hour. -/
theorem isLeast_start_iff_beginsOnHour (hoffsets : zone.OffsetsWithinDay) {first : Int}
    (hfirst : IsLeast {t | zone.localDate t = date} first) :
    IsLeast {t | zone.localDate t = date} (dateToStartTimestamp zone date) ↔
      BeginsOnHour zone first :=
  (isLeast_start_iff (P := fun time ↦ time / secsPerDay = date) hfirst).trans
    (probedAt_iff_beginsOnHour hoffsets hfirst)

/-! ## The windows of the reports -/

/-- In a zone whose dates do not go back, a start keeps exactly the instants from the date on when
it is the first of them. -/
theorem forall_le_iff_isLeast (hascend : zone.DatesAscend) (start : Int) :
    (∀ t, start ≤ t ↔ date ≤ zone.localDate t) ↔ IsLeast {t | date ≤ zone.localDate t} start := by
  constructor
  · intro h
    exact ⟨(h start).mp le_rfl, fun t ht ↦ (h t).mpr ht⟩
  · intro hleast t
    exact ⟨fun hle ↦ le_trans hleast.1 (hascend _ _ hle), fun ht ↦ hleast.2 ht⟩

/-- Two first instants bound the window of a date. -/
theorem window_of_first {start stop : Int} (hstart : ∀ t, start ≤ t ↔ date ≤ zone.localDate t)
    (hstop : ∀ t, stop ≤ t ↔ date + 1 ≤ zone.localDate t) (t : Int) :
    start ≤ t ∧ t < stop ↔ zone.localDate t = date := by
  have hlow := hstart t
  have hhigh := hstop t
  omega

/-- A window of exactly the instants of a date that has some begins and ends with the first instants
of dates. -/
theorem first_of_window (hascend : zone.DatesAscend) (hdate : ∃ t, zone.localDate t = date)
    {start stop : Int} (h : ∀ t, start ≤ t ∧ t < stop ↔ zone.localDate t = date) :
    (∀ t, start ≤ t ↔ date ≤ zone.localDate t) ∧ ∀ t, stop ≤ t ↔ date + 1 ≤ zone.localDate t := by
  rcases hdate with ⟨inside, hinside⟩
  -- the window is not empty, so its start is inside it
  have hin := (h inside).mpr hinside
  have hstart : zone.localDate start = date := (h start).mp ⟨le_rfl, by omega⟩
  have hstop : date + 1 ≤ zone.localDate stop := by
    have hle : zone.localDate start ≤ zone.localDate stop := hascend _ _ (by omega)
    have hne : zone.localDate stop ≠ date := fun heq ↦ absurd ((h stop).mpr heq).2 (lt_irrefl stop)
    omega
  refine ⟨fun t ↦ ⟨fun hle ↦ hstart ▸ hascend _ _ hle, fun ht ↦ ?_⟩,
    fun t ↦ ⟨fun hle ↦ le_trans hstop (hascend _ _ hle), fun ht ↦ ?_⟩⟩
  · by_contra hlt
    have hle : zone.localDate t ≤ zone.localDate start := hascend _ _ (by omega)
    exact hlt ((h t).mpr (by omega)).1
  · by_contra hlt
    by_cases hafter : start ≤ t
    · have heq := (h t).mp ⟨hafter, by omega⟩
      omega
    · have hle : zone.localDate t ≤ zone.localDate start := hascend _ _ (by omega)
      omega

theorem forall_start_le_iff_beginsOnHour (hoffsets : zone.OffsetsWithinDay)
    (hascend : zone.DatesAscend) {first : Int}
    (hfirst : IsLeast {t | zone.localDate t = date} first) :
    (∀ t, dateToStartTimestamp zone date ≤ t ↔ date ≤ zone.localDate t) ↔
      BeginsOnHour zone first := by
  have hfrom : IsLeast {t | date ≤ zone.localDate t} first := by
    refine ⟨hfirst.1.ge, fun t ht ↦ ?_⟩
    by_contra hlt
    -- an earlier instant has no later date, so it would be of the date itself
    have hle : zone.localDate t ≤ date := (hascend _ _ (not_le.mp hlt).le).trans hfirst.1.le
    exact hlt (hfirst.2 (le_antisymm hle ht))
  exact (forall_le_iff_isLeast hascend _).trans
    ((isLeast_start_iff (P := fun time ↦ date ≤ time / secsPerDay) hfrom).trans
      (probedAt_iff_beginsOnHour hoffsets hfirst))

/-- The window of a day is exact when the day and the next one begin on the hour. -/
theorem window_iff_beginsOnHour (hoffsets : zone.OffsetsWithinDay) (hascend : zone.DatesAscend)
    {first next : Int} (hfirst : IsLeast {t | zone.localDate t = date} first)
    (hnext : IsLeast {t | zone.localDate t = date + 1} next) :
    (∀ t, dateToStartTimestamp zone date ≤ t ∧ t < dateToStartTimestamp zone (date + 1) ↔
      zone.localDate t = date) ↔ BeginsOnHour zone first ∧ BeginsOnHour zone next := by
  rw [← forall_start_le_iff_beginsOnHour hoffsets hascend hfirst,
    ← forall_start_le_iff_beginsOnHour hoffsets hascend hnext]
  constructor
  · exact fun hwindow ↦ first_of_window hascend ⟨first, hfirst.1⟩ hwindow
  · rintro ⟨hstart, hstop⟩ t
    exact window_of_first hstart hstop t

/-- The clock of a request: `DATE(ts, 'unixepoch', 'localtime')` is the text of the local date. -/
def localClock (zone : TimeZone) (text : Int → String) (now : Int) : LocalTime where
  startOfDay day := dateToStartTimestamp zone (zone.localDate now + day)
  date t := some (text (zone.localDate t))

/-- The rows of a window are those of the group that `daily` has for its date. -/
theorem filter_window {text : Int → String} (htext : Function.Injective text) {start stop : Int}
    (hwindow : ∀ t, start ≤ t ∧ t < stop ↔ zone.localDate t = date) (now : Int)
    (rows : List TokenUsage) :
    (rows.filter fun row ↦ start ≤ row.ts && row.ts < stop) =
      rows.filter fun row ↦ (localClock zone text now).date row.ts = some (text date) := by
  apply List.filter_congr
  intro row _
  rw [Bool.eq_iff_iff, Bool.and_eq_true, decide_eq_true_eq, decide_eq_true_eq, decide_eq_true_eq,
    hwindow row.ts]
  exact (htext.eq_iff.symm.trans (Option.some_inj.symm))

theorem stats_of_from {start : Int} (hfrom : ∀ t, start ≤ t ↔ date ≤ zone.localDate t)
    (db : Database) :
    stats start db = modelReport (db.tokenUsage.filter fun row ↦ date ≤ zone.localDate row.ts) := by
  rw [stats]
  congr 1
  apply List.filter_congr
  intro row _
  exact decide_eq_decide.mpr (hfrom row.ts)

theorem dayBucketsResponse_of_window {text : Int → String} (htext : Function.Injective text)
    {now daysAgo : Int} (hdate : date = zone.localDate now - daysAgo)
    (hwindow : ∀ t, dateToStartTimestamp zone date ≤ t ∧ t < dateToStartTimestamp zone (date + 1) ↔
      zone.localDate t = date) (tables : Tables) :
    dayBucketsResponse (localClock zone text now) tables daysAgo .all =
      bucketReport (dateToStartTimestamp zone date) (tables.toDatabase.tokenUsage.filter fun row ↦
        (localClock zone text now).date row.ts = some (text date)) := by
  rw [← filter_window htext hwindow]
  have hstart : (localClock zone text now).startOfDay (-daysAgo) =
      dateToStartTimestamp zone date := by
    rw [hdate]
    rfl
  have hstop : (localClock zone text now).startOfDay (-daysAgo + 1) =
      dateToStartTimestamp zone (date + 1) := by
    rw [hdate, Int.sub_eq_add_neg, Int.add_assoc]
    rfl
  rw [dayBucketsResponse, hstart, hstop]
  rfl

/-- The start of a date is its first instant exactly when the local time shown there is the first of
those tried that the clock ever shows.  Where dates do not go back, the reports from a date on have
exactly the instants from it on under the same condition, the window of a day has exactly the
instants of its date when both its ends meet it, and of a date that has instants only then. -/
theorem dateToStartTimestamp_iff (zone : TimeZone) (date : Int) :
    ((∃ t, zone.localDate t = date) → ∃ first, IsLeast {t | zone.localDate t = date} first ∧
      (IsLeast {t | zone.localDate t = date} (dateToStartTimestamp zone date) ↔
        ProbedAt zone date first)) ∧
    (zone.DatesAscend → ∃ first next, IsLeast {t | date ≤ zone.localDate t} first ∧
      IsLeast {t | date + 1 ≤ zone.localDate t} next ∧
      ((∀ t, dateToStartTimestamp zone date ≤ t ↔ date ≤ zone.localDate t) ↔
        ProbedAt zone date first) ∧
      (ProbedAt zone date first → ProbedAt zone (date + 1) next →
        ∀ t, dateToStartTimestamp zone date ≤ t ∧ t < dateToStartTimestamp zone (date + 1) ↔
          zone.localDate t = date) ∧
      ((∃ t, zone.localDate t = date) →
        (∀ t, dateToStartTimestamp zone date ≤ t ∧ t < dateToStartTimestamp zone (date + 1) ↔
          zone.localDate t = date) →
        ProbedAt zone date first ∧ ProbedAt zone (date + 1) next)) := by
  constructor
  · intro hdate
    rcases TimeZone.exists_first_of zone hdate with ⟨first, hfirst⟩
    exact ⟨first, hfirst, isLeast_start_iff (P := fun time ↦ time / secsPerDay = date) hfirst⟩
  · intro hascend
    rcases TimeZone.exists_first_from zone date with ⟨first, hfirst⟩
    rcases TimeZone.exists_first_from zone (date + 1) with ⟨next, hnext⟩
    have hstart := (forall_le_iff_isLeast hascend (dateToStartTimestamp zone date)).trans
      (isLeast_start_iff (P := fun time ↦ date ≤ time / secsPerDay) hfirst)
    have hstop := (forall_le_iff_isLeast hascend (dateToStartTimestamp zone (date + 1))).trans
      (isLeast_start_iff (P := fun time ↦ date + 1 ≤ time / secsPerDay) hnext)
    refine ⟨first, next, hfirst, hnext, hstart, fun hday hnextDay ↦ ?_, fun hdate hwindow ↦ ?_⟩
    · exact window_of_first (hstart.mpr hday) (hstop.mpr hnextDay)
    · have hbounds := first_of_window hascend hdate hwindow
      exact ⟨hstart.mp hbounds.1, hstop.mp hbounds.2⟩

/-- America/Toronto as it went to summer time in 1919, half an hour before midnight. -/
def toronto : TimeZone where
  initial := -5 * 3600
  transitions := [(-1601753400, -4 * 3600)]
  sorted := by decide

/-- 31 March 1919 began at half past midnight, and its start is said to be at one o'clock. -/
theorem dateToStartTimestamp_toronto :
    toronto.DatesAscend ∧ toronto.localDate (-1601753400) = -18539 ∧
    dateToStartTimestamp toronto (-18539) = -1601751600 ∧
    ¬IsLeast {t | toronto.localDate t = -18539} (dateToStartTimestamp toronto (-18539)) ∧
    ¬∀ t, dateToStartTimestamp toronto (-18539) ≤ t ∧
      t < dateToStartTimestamp toronto (-18539 + 1) ↔ toronto.localDate t = -18539 := by
  have hfirst : toronto.localDate (-1601753400) = -18539 := by decide
  have hstart : dateToStartTimestamp toronto (-18539) = -1601751600 := by decide
  refine ⟨fun s t hle ↦ ?_, hfirst, hstart, fun hleast ↦ ?_, fun hwindow ↦ ?_⟩
  · -- the only transition goes forward
    have htime : ∀ t, toronto.localTime t =
        if t < -1601753400 then t + -5 * 3600 else t + -4 * 3600 := by
      intro t
      unfold TimeZone.localTime TimeZone.offset toronto
      simp only [TimeZone.offsetAfter]
      split
      · rfl
      · rfl
    apply Int.ediv_le_ediv (by decide)
    rw [htime, htime]
    split
    · split
      · omega
      · omega
    · split
      · omega
      · omega
  · have hle := hleast.2 hfirst
    rw [hstart] at hle
    exact absurd hle (by decide)
  · have hinside := ((hwindow _).mpr hfirst).1
    rw [hstart] at hinside
    exact absurd hinside (by decide)

end TokenWeasel.Server
