import Mathlib.Order.Bounds.Defs
import ParishKit.Campaigns.Intervals
import ParishKit.Lib.DateText
import ParishKit.Lib.Except

/-!
# Local days

A wall time resolved in the supplied time zone, and the intervals of a local day
and of a campaign. A datetime of the years 1 to 9999 is representable; reading a
wall time, or showing an instant, raises when the result is not.
-/

namespace ParishKit.Campaigns

open ParishKit.Lib (OffsetChange Zone bisectM bisectM_error bisectM_ok
  bisectM_of_ok clockAt dateMax dateMin except_bind_eq_error except_bind_eq_ok
  exists_change offsetAt wallOffset)

/-- The microseconds of a day. -/
def dayLength : Int :=
  86400000000

/-- A datetime can hold it. -/
def Representable (time : Int) : Prop :=
  dateMin * dayLength ≤ time ∧ time < (dateMax + 1) * dayLength

instance (time : Int) : Decidable (Representable time) :=
  inferInstanceAs (Decidable (_ ∧ _))

def unresolvedText : String :=
  "Local time cannot be resolved in the supplied timezone."

def followingDayText : String :=
  "A date with a representable following day is required."

def endFirstText : String :=
  "interval end must not precede its start"

def campaignDatesText : String :=
  "Campaign end date must be after its start date."

/-- A time zone: the instant a wall time is read as, with either fold, and the
wall time of an instant. -/
structure ZoneInfo where
  instant : Bool → Int → Int
  clock : Int → Int

/-- The time zone of an offset and its later changes. -/
def zoneInfo (initial : Int) (changes : List OffsetChange) : ZoneInfo where
  instant fold wall := wall - wallOffset fold initial changes wall
  clock := clockAt initial changes

namespace ZoneInfo

def datetime (time : Int) : Except String Int :=
  if Representable time then pure time else throw unresolvedText

/-- `resolve_local`. -/
def resolve (info : ZoneInfo) (wall : Int) : Except String Int := do
  let first ← datetime (info.instant false wall)
  let second ← datetime (info.instant true wall)
  let low := min first second
  let high := max first second
  let lowWall ← datetime (info.clock low)
  let highWall ← datetime (info.clock high)
  if lowWall = wall then
    pure low
  else if highWall = wall then
    pure high
  else if low = high then
    throw unresolvedText
  else
    bisectM (fun middle => do
      let shown ← datetime (info.clock middle)
      pure (decide (shown < wall))) (high - low).toNat low high

end ZoneInfo

/-- `UTCInterval`: half-open, and empty for a skipped local day. -/
structure UTCInterval where
  start : Int
  stop : Int
  ordered : start ≤ stop

def utcInterval (start stop : Int) : Except String UTCInterval :=
  if ordered : start ≤ stop then pure ⟨start, stop, ordered⟩
  else throw endFirstText

structure LocalDayInterval where
  day : Int
  interval : UTCInterval

namespace ZoneInfo

/-- `local_day`. -/
def localDay (info : ZoneInfo) (day : Int) : Except String LocalDayInterval :=
  if day = dateMax then
    throw followingDayText
  else do
    let start ← info.resolve (day * dayLength)
    let stop ← info.resolve ((day + 1) * dayLength)
    let interval ← utcInterval start stop
    pure ⟨day, interval⟩

/-- `campaign_interval`. -/
def campaignInterval (info : ZoneInfo) (start stop : Int) :
    Except String UTCInterval :=
  if stop ≤ start then
    throw campaignDatesText
  else do
    let first ← info.localDay start
    let last ← info.localDay stop
    utcInterval first.interval.start last.interval.stop

/-! ## What is resolved -/

def of (zone : Zone) : ZoneInfo :=
  zoneInfo zone.initial zone.changes

theorem datetime_ok {time found : Int} (isFound : datetime time = .ok found) :
    found = time := by
  unfold datetime at isFound
  split at isFound
  · cases isFound
    rfl
  · cases isFound

theorem datetime_of_representable {time : Int} (fits : Representable time) :
    datetime time = .ok time :=
  if_pos fits

/-- What is not refused is the instant of the zone's clock. -/
theorem resolve_ok
    {zone : Zone} {wall instant : Int}
    (isFound : (of zone).resolve wall = .ok instant) :
    instant = resolveLocal zone wall := by
  unfold resolve at isFound
  obtain ⟨first, readFirst, afterFirst⟩ := except_bind_eq_ok isFound
  obtain ⟨second, readSecond, afterSecond⟩ := except_bind_eq_ok afterFirst
  obtain ⟨lowWall, showLow, afterLow⟩ := except_bind_eq_ok afterSecond
  obtain ⟨highWall, showHigh, chosen⟩ := except_bind_eq_ok afterLow
  have isFirst : first = zone.instant false wall := datetime_ok readFirst
  have isSecond : second = zone.instant true wall := datetime_ok readSecond
  have isLow : lowWall = zone.clock (min first second) := datetime_ok showLow
  have isHigh : highWall = zone.clock (max first second) := datetime_ok showHigh
  rw [isLow, isHigh] at chosen
  unfold resolveLocal
  rw [← isFirst, ← isSecond]
  by_cases lowShows : zone.clock (min first second) = wall
  · rw [if_pos lowShows] at chosen ⊢
    cases chosen
    rfl
  · rw [if_neg lowShows] at chosen ⊢
    by_cases highShows : zone.clock (max first second) = wall
    · rw [if_pos highShows] at chosen ⊢
      cases chosen
      rfl
    · rw [if_neg highShows] at chosen ⊢
      split at chosen
      · cases chosen
      · refine bisectM_ok ?_ chosen
        intro middle result isResult
        obtain ⟨shown, showMiddle, isTest⟩ := except_bind_eq_ok isResult
        have isShown : shown = zone.clock middle := datetime_ok showMiddle
        cases isTest
        rw [isShown]

/-- The candidates of a wall time are representable, and so is what the clock
shows between them. -/
structure Readable (zone : Zone) (wall : Int) : Prop where
  candidates : ∀ fold, Representable (zone.instant fold wall)
  shown : ∀ instant,
    min (zone.instant false wall) (zone.instant true wall) ≤ instant →
    instant ≤ max (zone.instant false wall) (zone.instant true wall) →
    Representable (zone.clock instant)

/-- A wall time that no candidate shows has two candidates. -/
theorem candidates_apart
    {zone : Zone} {wall : Int}
    (missing : zone.clock (min (zone.instant false wall)
      (zone.instant true wall)) ≠ wall) :
    min (zone.instant false wall) (zone.instant true wall) ≠
      max (zone.instant false wall) (zone.instant true wall) := by
  rcases zone.readAs wall with ⟨shown, le, _⟩ | ⟨less, _⟩
  · rw [min_eq_left le] at missing
    exact absurd shown missing
  · rw [min_eq_right (Int.le_of_lt less), max_eq_left (Int.le_of_lt less)]
    omega

theorem resolve_of_readable
    {zone : Zone} {wall : Int} (readable : Readable zone wall) :
    (of zone).resolve wall = .ok (resolveLocal zone wall) := by
  have le : min (zone.instant false wall) (zone.instant true wall) ≤
      max (zone.instant false wall) (zone.instant true wall) := min_le_max
  have readFirst : datetime ((of zone).instant false wall) =
      .ok (zone.instant false wall) :=
    datetime_of_representable (readable.candidates false)
  have readSecond : datetime ((of zone).instant true wall) =
      .ok (zone.instant true wall) :=
    datetime_of_representable (readable.candidates true)
  have showBetween : ∀ instant,
      min (zone.instant false wall) (zone.instant true wall) ≤ instant →
      instant ≤ max (zone.instant false wall) (zone.instant true wall) →
      datetime ((of zone).clock instant) = .ok (zone.clock instant) :=
    fun instant lower upper =>
      datetime_of_representable (readable.shown instant lower upper)
  unfold resolve
  rw [readFirst, readSecond]
  change (datetime _ >>= fun lowWall => datetime _ >>= fun highWall => _) = _
  rw [showBetween _ (Int.le_refl _) le, showBetween _ le (Int.le_refl _)]
  change (if _ then _ else _) = _
  unfold resolveLocal
  by_cases lowShows : zone.clock (min (zone.instant false wall)
      (zone.instant true wall)) = wall
  · rw [if_pos lowShows, if_pos lowShows]
    rfl
  · rw [if_neg lowShows, if_neg lowShows]
    split
    · rfl
    · rw [if_neg (candidates_apart lowShows)]
      refine bisectM_of_ok le fun middle lower upper => ?_
      rw [showBetween middle lower upper]
      rfl

end ZoneInfo

/-! ## The instant of a wall time -/

/-- A wall time no clock shows is resolved to the change that skips it. -/
def Skipped (zone : Zone) (wall instant : Int) : Prop :=
  (∀ other, zone.clock other ≠ wall) ∧
    (∃ change ∈ zone.changes, change.instant = instant) ∧
    IsLeast {other | wall < zone.clock other} instant

theorem isLeast_or_skipped (zone : Zone) (wall : Int) :
    IsLeast {other | zone.clock other = wall} (resolveLocal zone wall) ∨
      Skipped zone wall (resolveLocal zone wall) := by
  have isFirst := resolveLocal_firstShown zone wall
  rcases zone.readAs wall with ⟨shown, _, sooner⟩ |
    ⟨_, change, _, _, sooner, later⟩
  · left
    have isInstant : resolveLocal zone wall = zone.instant false wall :=
      isFirst.unique ⟨Int.le_of_eq shown.symm, sooner⟩
    rw [isInstant]
    refine ⟨shown, fun other showsToo => ?_⟩
    by_contra less
    have early := sooner other (Int.not_le.mp less)
    have isWall : zone.clock other = wall := showsToo
    omega
  · right
    have isChange : resolveLocal zone wall = change :=
      isFirst.unique ⟨Int.le_of_lt (later change (Int.le_refl _)), sooner⟩
    rw [isChange]
    refine ⟨fun other shows => ?_, ?_, later change (Int.le_refl _), ?_⟩
    · by_cases since : change ≤ other
      · have above := later other since
        omega
      · have below := sooner other (Int.not_le.mp since)
        omega
    · -- The clock passes the wall time by, so its offset changes there.
      refine exists_change (show offsetAt zone.initial zone.changes (change - 1) ≠
        offsetAt zone.initial zone.changes change from fun same => ?_)
      have below := sooner (change - 1) (by omega)
      have above := later change (Int.le_refl _)
      unfold Zone.clock clockAt at below above
      omega
    · intro other isLater
      by_contra less
      have below := sooner other (Int.not_le.mp less)
      have above : wall < zone.clock other := isLater
      omega

/-- Two wall times have the same instant exactly when no clock shows what lies
between them. -/
theorem resolveLocal_eq_iff
    (zone : Zone) {wall later : Int} (less : wall < later) :
    resolveLocal zone wall = resolveLocal zone later ↔
      ∀ instant, wall ≤ zone.clock instant → later ≤ zone.clock instant := by
  have isFirst := resolveLocal_firstShown zone wall
  have isLater := resolveLocal_firstShown zone later
  constructor
  · intro same instant shown
    -- The last wall time before `later` is skipped, and what skips it does so
    -- for good.
    have isLast : resolveLocal zone (later - 1) = resolveLocal zone later := by
      have lower := resolveLocal_mono zone (show wall ≤ later - 1 by omega)
      have upper := resolveLocal_mono zone (show later - 1 ≤ later by omega)
      omega
    have reached := isFirst.le_of_shown shown
    rcases zone.readAs (later - 1) with ⟨shows, _, sooner⟩ |
      ⟨_, change, _, _, sooner, forGood⟩
    · have isInstant : resolveLocal zone (later - 1) =
          zone.instant false (later - 1) :=
        (resolveLocal_firstShown zone _).unique ⟨Int.le_of_eq shows.symm, sooner⟩
      have tooLate := isLater.1
      rw [← isLast, isInstant, shows] at tooLate
      omega
    · have isChange : resolveLocal zone (later - 1) = change :=
        (resolveLocal_firstShown zone _).unique
          ⟨Int.le_of_lt (forGood change (Int.le_refl _)), sooner⟩
      have above := forGood instant (by omega)
      omega
  · intro nothing
    refine isFirst.unique ⟨by have shown := isLater.1; omega, fun earlier isEarlier => ?_⟩
    by_contra shown
    have passed := nothing earlier (Int.not_lt.mp shown)
    have before := isLater.2 earlier isEarlier
    omega

/-! ## Days -/

namespace ZoneInfo

theorem utcInterval_ok
    {start stop : Int} {interval : UTCInterval}
    (isInterval : utcInterval start stop = .ok interval) :
    interval.start = start ∧ interval.stop = stop := by
  unfold utcInterval at isInterval
  split at isInterval
  · cases isInterval
    exact ⟨rfl, rfl⟩
  · cases isInterval

theorem localDay_ok
    {zone : Zone} {day : Int} {found : LocalDayInterval}
    (isFound : (of zone).localDay day = .ok found) :
    found.interval.start = resolveLocal zone (day * dayLength) ∧
      found.interval.stop = resolveLocal zone ((day + 1) * dayLength) := by
  unfold localDay at isFound
  split at isFound
  · cases isFound
  · obtain ⟨start, isStart, afterStart⟩ := except_bind_eq_ok isFound
    obtain ⟨stop, isStop, afterStop⟩ := except_bind_eq_ok afterStart
    obtain ⟨interval, isInterval, isDay⟩ := except_bind_eq_ok afterStop
    cases isDay
    obtain ⟨startsThere, stopsThere⟩ := utcInterval_ok isInterval
    exact ⟨startsThere.trans (resolve_ok isStart),
      stopsThere.trans (resolve_ok isStop)⟩

theorem datetime_error {time : Int} {text : String}
    (raises : datetime time = .error text) : text = unresolvedText := by
  unfold datetime at raises
  split at raises
  · cases raises
  · cases raises
    rfl

theorem resolve_error
    {info : ZoneInfo} {wall : Int} {text : String}
    (raises : info.resolve wall = .error text) : text = unresolvedText := by
  unfold resolve at raises
  rcases except_bind_eq_error raises with first | ⟨first, _, afterFirst⟩
  · exact datetime_error first
  rcases except_bind_eq_error afterFirst with second | ⟨second, _, afterSecond⟩
  · exact datetime_error second
  rcases except_bind_eq_error afterSecond with lowWall | ⟨lowWall, _, afterLow⟩
  · exact datetime_error lowWall
  rcases except_bind_eq_error afterLow with highWall | ⟨highWall, _, chosen⟩
  · exact datetime_error highWall
  split at chosen
  · cases chosen
  · split at chosen
    · cases chosen
    · split at chosen
      · cases chosen
        rfl
      · obtain ⟨middle, isRaised⟩ := bisectM_error chosen
        rcases except_bind_eq_error isRaised with shown | ⟨shown, _, isTest⟩
        · exact datetime_error shown
        · cases isTest

/-- A day does not end before it starts. -/
theorem localDay_not_endFirst (zone : Zone) (day : Int) :
    (of zone).localDay day ≠ .error endFirstText := by
  intro raises
  unfold localDay at raises
  split at raises
  · exact absurd (Except.error.inj raises) (by decide)
  rcases except_bind_eq_error raises with start | ⟨start, isStart, afterStart⟩
  · exact absurd (resolve_error start) (by decide)
  rcases except_bind_eq_error afterStart with stop | ⟨stop, isStop, afterStop⟩
  · exact absurd (resolve_error stop) (by decide)
  have ordered : start ≤ stop := by
    rw [resolve_ok isStart, resolve_ok isStop]
    exact resolveLocal_mono zone (by unfold dayLength; omega)
  rw [utcInterval, dif_pos ordered] at afterStop
  cases afterStop

/-- A campaign does not end before it starts. -/
theorem campaignInterval_not_endFirst (zone : Zone) (start stop : Int) :
    (of zone).campaignInterval start stop ≠ .error endFirstText := by
  intro raises
  unfold campaignInterval at raises
  split at raises
  · exact absurd (Except.error.inj raises) (by decide)
  rename_i later
  rcases except_bind_eq_error raises with first | ⟨first, isFirst, afterFirst⟩
  · exact localDay_not_endFirst zone start first
  rcases except_bind_eq_error afterFirst with last | ⟨last, isLast, afterLast⟩
  · exact localDay_not_endFirst zone stop last
  have ordered : first.interval.start ≤ last.interval.stop := by
    rw [(localDay_ok isFirst).1, (localDay_ok isLast).2]
    exact resolveLocal_mono zone (by unfold dayLength; omega)
  rw [utcInterval, dif_pos ordered] at afterLast
  cases afterLast

/-- A day is empty exactly when the clock never shows it. -/
theorem localDay_empty_iff
    {zone : Zone} {day : Int} {found : LocalDayInterval}
    (isFound : (of zone).localDay day = .ok found) :
    found.interval.start = found.interval.stop ↔
      ∀ instant, zone.clock instant / dayLength ≠ day := by
  have less : day * dayLength < (day + 1) * dayLength := by
    unfold dayLength
    omega
  rw [(localDay_ok isFound).1, (localDay_ok isFound).2,
    resolveLocal_eq_iff zone less]
  unfold dayLength
  constructor
  · intro nothing instant isDay
    have passed := nothing instant (by omega)
    omega
  · intro nothing instant shown
    have isOther := nothing instant
    omega

/-! ## Local times -/

/-- A readable wall time has the first instant that shows it, or the change that
skips it. So later wall times have no earlier instants, and no day and no campaign
ends before it starts. A day is empty exactly when the clock never shows it, and
the next one starts where it ends. -/
theorem local_times_resolve (zone : Zone) :
    (∀ wall, Readable zone wall → ∃ instant,
      (of zone).resolve wall = .ok instant ∧
      (IsLeast {other | zone.clock other = wall} instant ∨
        Skipped zone wall instant)) ∧
    (∀ wall later first second, wall ≤ later →
      (of zone).resolve wall = .ok first →
      (of zone).resolve later = .ok second → first ≤ second) ∧
    (∀ day, (of zone).localDay day ≠ .error endFirstText) ∧
    (∀ start stop, (of zone).campaignInterval start stop ≠ .error endFirstText) ∧
    (∀ day found, (of zone).localDay day = .ok found →
      (found.interval.start = found.interval.stop ↔
        ∀ instant, zone.clock instant / dayLength ≠ day)) ∧
    ∀ day found following, (of zone).localDay day = .ok found →
      (of zone).localDay (day + 1) = .ok following →
      found.interval.stop = following.interval.start := by
  refine ⟨fun wall readable => ⟨_, resolve_of_readable readable,
    isLeast_or_skipped zone wall⟩, fun wall later first second le isFirst isSecond => ?_,
    localDay_not_endFirst zone, campaignInterval_not_endFirst zone,
    fun day found isFound => localDay_empty_iff isFound,
    fun day found following isFound isFollowing => ?_⟩
  · rw [resolve_ok isFirst, resolve_ok isSecond]
    exact resolveLocal_mono zone le
  · rw [(localDay_ok isFound).2, (localDay_ok isFollowing).1]

/-! ## Where it does not hold -/

/-- An instant lies after one candidate of a wall time and not after the other. -/
def Between (info : ZoneInfo) (wall instant : Int) : Prop :=
  min (info.instant false wall) (info.instant true wall) < instant ∧
    instant ≤ max (info.instant false wall) (info.instant true wall)

/-- The clock goes forward an hour at ten in the morning of day 2, and back half
an hour later. -/
def closeChanges : List OffsetChange :=
  [⟨2 * 86400000000 + 36000000000, 3600000000⟩,
    ⟨2 * 86400000000 + 37800000000, 0⟩]

/-- The clock goes forward an hour, an hour before the last date ends. -/
def lastChanges : List OffsetChange :=
  [⟨dateMax * dayLength + 82800000000, 3600000000⟩]

theorem closeChanges_apart
    {wall : Int}
    (first : Between (zoneInfo 0 closeChanges) wall
      (2 * 86400000000 + 36000000000)) :
    ¬ Between (zoneInfo 0 closeChanges) wall
      (2 * 86400000000 + 37800000000) := by
  simp only [Between, zoneInfo, closeChanges, wallOffset] at first ⊢
  grind

/-- Between two close changes a later wall time has an earlier instant, although
no two changes lie between the candidates of one wall time. And a skipped time
raises so late on the last date, although its candidates are representable. -/
theorem close_changes_resolve_back :
    (∀ wall, ∀ first ∈ closeChanges, ∀ second ∈ closeChanges,
      Between (zoneInfo 0 closeChanges) wall first.instant →
      Between (zoneInfo 0 closeChanges) wall second.instant → first = second) ∧
    (zoneInfo 0 closeChanges).resolve (2 * 86400000000 + 38520000000) =
      .ok (2 * 86400000000 + 38520000000) ∧
    (zoneInfo 0 closeChanges).resolve (2 * 86400000000 + 40320000000) =
      .ok (2 * 86400000000 + 36720000000) ∧
    (∀ fold, Representable ((zoneInfo 0 lastChanges).instant fold
      (dateMax * dayLength + 84600000000))) ∧
    (zoneInfo 0 lastChanges).resolve (dateMax * dayLength + 84600000000) =
      .error unresolvedText := by
  refine ⟨fun wall first isFirst second isSecond between betweenToo => ?_, rfl, rfl,
    by decide, rfl⟩
  simp only [closeChanges, List.mem_cons, List.not_mem_nil, or_false] at isFirst isSecond
  rcases isFirst with rfl | rfl <;> rcases isSecond with rfl | rfl
  · rfl
  · exact absurd betweenToo (closeChanges_apart between)
  · exact absurd between (closeChanges_apart betweenToo)
  · rfl

end ZoneInfo

end ParishKit.Campaigns
