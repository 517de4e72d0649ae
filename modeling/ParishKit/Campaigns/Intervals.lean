import ParishKit.Lib.Search
import ParishKit.Lib.Zone

/-!
# Local times

The instant a campaign's wall time stands for: the earlier one of a repeated time,
and the first instant after a skipped one. Instants and wall times are
microseconds; that both are representable is left out.
-/

namespace ParishKit.Campaigns

open ParishKit.Lib

/-- `resolve_local`. The two candidates bracket a skipped time, and the search
between them finds the change. -/
def resolveLocal (zone : Zone) (wallTime : Int) : Int :=
  let low := min (zone.instant false wallTime) (zone.instant true wallTime)
  let high := max (zone.instant false wallTime) (zone.instant true wallTime)
  if zone.clock low = wallTime then
    low
  else if zone.clock high = wallTime then
    high
  else
    bisect (fun middle => decide (zone.clock middle < wallTime))
      (high - low).toNat low high

/-- A wall time is resolved to the first instant that shows it or a later
time. -/
theorem resolveLocal_firstShown (zone : Zone) (wallTime : Int) :
    zone.FirstShown wallTime (resolveLocal zone wallTime) := by
  unfold resolveLocal
  rcases zone.readAs wallTime with ⟨shown, le, isFirst⟩ |
    ⟨less, change, lower, upper, sooner, later⟩
  · rw [min_eq_left le, if_pos shown]
    exact ⟨Int.le_of_eq shown.symm, isFirst⟩
  · have before := sooner _ lower
    have after := later _ upper
    rw [min_eq_right (Int.le_of_lt less), max_eq_left (Int.le_of_lt less),
      if_neg (Int.ne_of_lt before), if_neg (Int.ne_of_gt after)]
    have threshold : ∀ instant,
        decide (zone.clock instant < wallTime) = true ↔ instant < change := by
      intro instant
      rw [decide_eq_true_eq]
      constructor
      · intro isBefore
        by_contra reached
        have isAfter := later instant (Int.not_lt.mp reached)
        omega
      · exact sooner instant
    rw [bisect_eq threshold (by omega) lower upper]
    exact ⟨Int.le_of_lt (later change (Int.le_refl change)), sooner⟩

theorem resolveLocal_mono
    (zone : Zone) {first second : Int} (le : first ≤ second) :
    resolveLocal zone first ≤ resolveLocal zone second :=
  Zone.FirstShown.mono le (resolveLocal_firstShown zone first)
    (resolveLocal_firstShown zone second)

/-- What the clock has shown, or passed by, is resolved to no later instant. -/
theorem resolveLocal_le
    {zone : Zone} {wallTime instant : Int} (shown : wallTime ≤ zone.clock instant) :
    resolveLocal zone wallTime ≤ instant :=
  (resolveLocal_firstShown zone wallTime).le_of_shown shown

end ParishKit.Campaigns
