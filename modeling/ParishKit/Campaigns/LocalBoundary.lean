import Mathlib.Data.List.Dedup
import ParishKit.Campaigns.LocalDays

/-!
# The database's local times

`stewardship_resolve_local_v1` collects the offsets of two days around a nominal
instant and keeps the ones that show the wall time. The database's timestamps
reach further than a datetime's years, so none of them overflows here.
-/

namespace ParishKit.Campaigns

open ParishKit.Lib (OffsetChange Spaced Zone bisect bisect_eq clockAt dateMin
  offsetAt)

/-- `AT TIME ZONE`, of a wall time and of an instant. -/
structure SqlZone where
  instant : Int → Int
  wall : Int → Int

namespace SqlZone

def hour : Int :=
  3600000000

def boundaryText : String :=
  "Local boundary cannot be resolved"

/-- `generate_series`, by the hour. -/
def probes (nominal : Int) : List Int :=
  (List.range 97).map fun step : Nat => nominal - 48 * hour + step * hour

def offsets (zone : SqlZone) (nominal : Int) : List Int :=
  ((probes nominal).map fun probe => zone.wall probe - probe).dedup

def candidates (zone : SqlZone) (wallTime : Int) : List Int :=
  (zone.offsets (zone.instant wallTime)).map (wallTime - ·)

/-- `stewardship_resolve_local_v1`. -/
def resolveLocalV1 (zone : SqlZone) (wallTime : Int) : Except String Int :=
  match ((zone.candidates wallTime).filter
        fun instant => zone.wall instant == wallTime).min?,
      (zone.candidates wallTime).min?, (zone.candidates wallTime).max? with
  | some earliest, _, _ => pure earliest
  | none, some low, some high =>
      if high ≤ low ∨ wallTime ≤ zone.wall low ∨ zone.wall high ≤ wallTime then
        throw boundaryText
      else
        pure (bisect (fun middle => decide (zone.wall middle < wallTime))
          (high - low).toNat low high)
  | none, _, _ => throw boundaryText

/-! ## The candidates -/

section

variable {zone : SqlZone} {nominal wallTime : Int}

theorem mem_probes_of_mem
    {probe : Int} (member : probe ∈ probes nominal) :
    nominal - 48 * hour ≤ probe ∧ probe ≤ nominal + 48 * hour := by
  obtain ⟨step, inRange, rfl⟩ := List.mem_map.mp member
  have bounded := List.mem_range.mp inRange
  unfold hour
  omega

theorem first_mem_probes : nominal - 48 * hour ∈ probes nominal :=
  List.mem_map.mpr ⟨0, List.mem_range.mpr (by omega), by simp⟩

theorem last_mem_probes : nominal + 48 * hour ∈ probes nominal :=
  List.mem_map.mpr ⟨96, List.mem_range.mpr (by omega), by unfold hour; omega⟩

theorem mem_candidates {instant : Int} :
    instant ∈ zone.candidates wallTime ↔
      ∃ probe ∈ probes (zone.instant wallTime),
        instant = wallTime - (zone.wall probe - probe) := by
  unfold candidates offsets
  simp only [List.mem_map, List.mem_dedup]
  constructor
  · rintro ⟨_, ⟨probe, member, rfl⟩, rfl⟩
    exact ⟨probe, member, rfl⟩
  · rintro ⟨probe, member, rfl⟩
    exact ⟨_, ⟨probe, member, rfl⟩, rfl⟩

/-- The earliest candidate that shows the wall time is returned. -/
theorem resolveLocalV1_of_shown
    {earliest : Int} (member : earliest ∈ zone.candidates wallTime)
    (shown : zone.wall earliest = wallTime)
    (isFirst : ∀ instant, zone.wall instant = wallTime → earliest ≤ instant) :
    zone.resolveLocalV1 wallTime = .ok earliest := by
  have isEarliest : ((zone.candidates wallTime).filter
      fun instant => zone.wall instant == wallTime).min? = some earliest := by
    rw [List.min?_eq_some_iff]
    refine ⟨List.mem_filter.mpr ⟨member, by simpa using shown⟩,
      fun other isOther => isFirst other ?_⟩
    simpa using (List.mem_filter.mp isOther).2
  unfold resolveLocalV1
  rw [isEarliest]
  rfl

/-- When none shows it, the change between them is found. -/
theorem resolveLocalV1_of_skipped
    {low high turn : Int} (isLow : low ∈ zone.candidates wallTime)
    (isHigh : high ∈ zone.candidates wallTime)
    (within : ∀ instant ∈ zone.candidates wallTime,
      low ≤ instant ∧ instant ≤ high)
    (before : low < turn) (after : turn ≤ high)
    (sooner : ∀ instant < turn, zone.wall instant < wallTime)
    (later : ∀ instant, turn ≤ instant → wallTime < zone.wall instant) :
    zone.resolveLocalV1 wallTime = .ok turn := by
  have isNone : ((zone.candidates wallTime).filter
      fun instant => zone.wall instant == wallTime).min? = none := by
    rw [List.min?_eq_none_iff, List.filter_eq_nil_iff]
    intro instant _ shows
    have shown : zone.wall instant = wallTime := by simpa using shows
    by_cases isBefore : instant < turn
    · have early := sooner instant isBefore
      omega
    · have late := later instant (Int.not_lt.mp isBefore)
      omega
  have isMin : (zone.candidates wallTime).min? = some low :=
    List.min?_eq_some_iff.mpr ⟨isLow, fun other member => (within other member).1⟩
  have isMax : (zone.candidates wallTime).max? = some high :=
    List.max?_eq_some_iff.mpr ⟨isHigh, fun other member => (within other member).2⟩
  have early := sooner low before
  have late := later high after
  have threshold : ∀ instant,
      decide (zone.wall instant < wallTime) = true ↔ instant < turn := by
    intro instant
    rw [decide_eq_true_eq]
    constructor
    · intro isBefore
      by_contra reached
      have isAfter := later instant (Int.not_lt.mp reached)
      omega
    · exact sooner instant
  unfold resolveLocalV1
  rw [isNone, isMin, isMax]
  change (if _ then _ else _) = _
  rw [if_neg (by omega), bisect_eq threshold (by omega) before after]
  rfl

end

/-! ## The same instants -/

/-- No change is larger than a day, and two are more than four days apart. -/
def FarApart (initial : Int) (changes : List OffsetChange) : Prop :=
  Spaced (24 * hour) (96 * hour) initial changes

section

variable {initial : Int} {changes : List OffsetChange}

def spacedZone (spaced : FarApart initial changes) : Zone where
  initial := initial
  changes := changes
  ordered := spaced.wallsOrdered (by decide)

theorem offset_eq {nominal : Int → Int} (probe : Int) :
    SqlZone.wall ⟨nominal, clockAt initial changes⟩ probe - probe =
      offsetAt initial changes probe := by
  change probe + offsetAt initial changes probe - probe = _
  omega

/-- Every candidate has one of the two offsets at the ends of the search. -/
theorem candidate_cases
    (spaced : FarApart initial changes) {nominal : Int → Int} {wallTime : Int}
    {instant : Int}
    (member : instant ∈ SqlZone.candidates ⟨nominal, clockAt initial changes⟩ wallTime) :
    instant = wallTime -
        offsetAt initial changes (nominal wallTime - 48 * hour) ∨
      instant = wallTime -
        offsetAt initial changes (nominal wallTime + 48 * hour) := by
  obtain ⟨probe, isProbe, rfl⟩ := mem_candidates.mp member
  obtain ⟨lower, upper⟩ := mem_probes_of_mem isProbe
  obtain ⟨turn, isTurn⟩ := spaced.changes_once
    (nominal wallTime - 48 * hour) (nominal wallTime + 48 * hour)
    (by unfold hour; omega)
  obtain ⟨before, since⟩ := isTurn probe lower upper
  rw [offset_eq]
  by_cases early : probe < turn
  · left
    rw [before early]
  · right
    rw [since (Int.not_lt.mp early)]

theorem first_mem_candidates {nominal : Int → Int} {wallTime : Int} :
    wallTime - offsetAt initial changes (nominal wallTime - 48 * hour) ∈
      SqlZone.candidates ⟨nominal, clockAt initial changes⟩ wallTime :=
  mem_candidates.mpr ⟨_, first_mem_probes, by rw [offset_eq]⟩

theorem last_mem_candidates {nominal : Int → Int} {wallTime : Int} :
    wallTime - offsetAt initial changes (nominal wallTime + 48 * hour) ∈
      SqlZone.candidates ⟨nominal, clockAt initial changes⟩ wallTime :=
  mem_candidates.mpr ⟨_, last_mem_probes, by rw [offset_eq]⟩

/-- The search resolves a wall time as the campaigns do, however the database
reads a skipped or repeated one. -/
theorem resolveLocalV1_eq
    (spaced : FarApart initial changes) {nominal : Int → Int} {wallTime : Int}
    {fold : Bool}
    (reads : nominal wallTime = (zoneInfo initial changes).instant fold wallTime) :
    SqlZone.resolveLocalV1 ⟨nominal, clockAt initial changes⟩ wallTime =
      .ok (resolveLocal (spacedZone spaced) wallTime) := by
  have near := spaced.wallOffset_near (by decide) (by decide) wallTime
  obtain ⟨turn, isTurn⟩ := spaced.changes_once
    (nominal wallTime - 48 * hour) (nominal wallTime + 48 * hour)
    (by unfold hour; omega)
  have isFirst := resolveLocal_firstShown (spacedZone spaced) wallTime
  -- Both candidates lie within a day of the nominal instant.
  have close : ∀ other,
      nominal wallTime - 24 * hour ≤ (zoneInfo initial changes).instant other wallTime ∧
      (zoneInfo initial changes).instant other wallTime ≤ nominal wallTime + 24 * hour := by
    intro other
    rw [reads]
    unfold zoneInfo
    cases fold <;> cases other <;> dsimp only <;> omega
  have closeFirst := close false
  have closeSecond := close true
  rcases (spacedZone spaced).readAs wallTime with ⟨shown, le, sooner⟩ |
    ⟨less, change, lower, upper, sooner, later⟩
  · have isInstant : resolveLocal (spacedZone spaced) wallTime =
        (zoneInfo initial changes).instant false wallTime :=
      isFirst.unique ⟨Int.le_of_eq shown.symm, sooner⟩
    rw [isInstant]
    have shows : clockAt initial changes
        ((zoneInfo initial changes).instant false wallTime) = wallTime := shown
    refine resolveLocalV1_of_shown ?_ shows fun instant showsToo => ?_
    · obtain ⟨before, since⟩ := isTurn
        ((zoneInfo initial changes).instant false wallTime)
        (by unfold hour at *; omega) (by unfold hour at *; omega)
      unfold clockAt at shows
      by_cases early : (zoneInfo initial changes).instant false wallTime < turn
      · have isCandidate :
            wallTime - offsetAt initial changes (nominal wallTime - 48 * hour) ∈
              SqlZone.candidates ⟨nominal, clockAt initial changes⟩ wallTime :=
          first_mem_candidates
        rw [← before early] at isCandidate
        convert isCandidate using 1
        omega
      · have isCandidate :
            wallTime - offsetAt initial changes (nominal wallTime + 48 * hour) ∈
              SqlZone.candidates ⟨nominal, clockAt initial changes⟩ wallTime :=
          last_mem_candidates
        rw [← since (Int.not_lt.mp early)] at isCandidate
        convert isCandidate using 1
        omega
    · by_contra less
      have early := sooner instant (Int.not_le.mp less)
      have showsWall : (spacedZone spaced).clock instant = wallTime := showsToo
      omega
  · have isChange : resolveLocal (spacedZone spaced) wallTime = change :=
      isFirst.unique ⟨Int.le_of_lt (later change (Int.le_refl _)), sooner⟩
    rw [isChange]
    have isFirstCandidate : (spacedZone spaced).instant false wallTime =
        (zoneInfo initial changes).instant false wallTime := rfl
    have isSecondCandidate : (spacedZone spaced).instant true wallTime =
        (zoneInfo initial changes).instant true wallTime := rfl
    -- The clock passes the wall time by at the one change within the search.
    have before := (isTurn (change - 1) (by unfold hour at *; omega)
      (by unfold hour at *; omega))
    have since := (isTurn change (by unfold hour at *; omega)
      (by unfold hour at *; omega))
    have early : change - 1 + offsetAt initial changes (change - 1) < wallTime :=
      sooner (change - 1) (by omega)
    have late : wallTime < change + offsetAt initial changes change :=
      later change (Int.le_refl _)
    have isOnce : turn = change := by
      by_contra other
      by_cases isEarlier : turn < change
      · rw [before.2 (by omega)] at early
        rw [since.2 (by omega)] at late
        omega
      · rw [before.1 (by omega)] at early
        rw [since.1 (by omega)] at late
        omega
    rw [before.1 (by omega)] at early
    rw [since.2 (by omega)] at late
    refine resolveLocalV1_of_skipped last_mem_candidates first_mem_candidates
      (fun instant member => ?_) (by omega) (by omega) sooner later
    rcases candidate_cases spaced member with rfl | rfl <;> omega

/-- The database never raises, and it returns the first instant that shows the
wall time or the change that skips it. What the campaigns resolve is the same, and
they resolve every readable wall time. -/
theorem database_resolves_alike
    (spaced : FarApart initial changes) {nominal : Int → Int}
    (reads : ∀ wallTime, ∃ fold,
      nominal wallTime = (zoneInfo initial changes).instant fold wallTime)
    (wallTime : Int) :
    ∃ instant,
      SqlZone.resolveLocalV1 ⟨nominal, clockAt initial changes⟩ wallTime =
        .ok instant ∧
      (IsLeast {other | clockAt initial changes other = wallTime} instant ∨
        Skipped (spacedZone spaced) wallTime instant) ∧
      (ZoneInfo.Readable (spacedZone spaced) wallTime →
        (zoneInfo initial changes).resolve wallTime = .ok instant) ∧
      ∀ found, (zoneInfo initial changes).resolve wallTime = .ok found →
        found = instant := by
  obtain ⟨fold, isReading⟩ := reads wallTime
  exact ⟨_, resolveLocalV1_eq spaced isReading,
    isLeast_or_skipped (spacedZone spaced) wallTime,
    fun readable => ZoneInfo.resolve_of_readable readable,
    fun found isFound => ZoneInfo.resolve_ok
      (show (ZoneInfo.of (spacedZone spaced)).resolve wallTime = .ok found
        from isFound)⟩

end

/-- The database reads a repeated time late and a skipped one with the offset
before it: the later candidate of both. -/
def laterCandidate (info : ZoneInfo) (wallTime : Int) : Int :=
  max (info.instant false wallTime) (info.instant true wallTime)

/-- The clock goes forward an hour on day 100, at two in the morning. -/
def springChanges : List OffsetChange :=
  [⟨100 * 86400000000 + 7200000000, 3600000000⟩]

theorem spring_farApart : FarApart 0 springChanges :=
  ⟨by decide, by decide, by simp, trivial⟩

theorem laterCandidate_reads (info : ZoneInfo) (wallTime : Int) :
    ∃ fold, laterCandidate info wallTime = info.instant fold wallTime := by
  rcases max_choice (info.instant false wallTime) (info.instant true wallTime) with
    isLater | isLater
  · exact ⟨false, isLater⟩
  · exact ⟨true, isLater⟩

/-- Half past two is skipped, and resolved to the change. -/
theorem database_resolves_spring_alike :
    FarApart 0 springChanges ∧
    SqlZone.resolveLocalV1 ⟨laterCandidate (zoneInfo 0 springChanges),
      clockAt 0 springChanges⟩ (100 * 86400000000 + 9000000000) =
      .ok (100 * 86400000000 + 7200000000) := by
  obtain ⟨instant, isResolved, _, _, same⟩ :=
    database_resolves_alike spring_farApart
      (laterCandidate_reads (zoneInfo 0 springChanges))
      (100 * 86400000000 + 9000000000)
  have isChange : 100 * 86400000000 + 7200000000 = instant := same _ rfl
  rw [isResolved, isChange]
  exact ⟨spring_farApart, rfl⟩

/-- Midnight of the first date lies before every datetime where clocks are ahead:
the campaigns raise, and the database returns an instant of the year before. -/
theorem first_midnight_resolves_in_database_alone :
    (zoneInfo 3600000000 []).resolve (dateMin * dayLength) =
      .error unresolvedText ∧
    SqlZone.resolveLocalV1 ⟨laterCandidate (zoneInfo 3600000000 []),
      clockAt 3600000000 []⟩ (dateMin * dayLength) =
      .ok (dateMin * dayLength - 3600000000) := by
  obtain ⟨fold, isReading⟩ :=
    laterCandidate_reads (zoneInfo 3600000000 []) (dateMin * dayLength)
  have noChanges : FarApart 3600000000 [] := trivial
  exact ⟨rfl, resolveLocalV1_eq noChanges isReading⟩

end SqlZone

end ParishKit.Campaigns
