import Mathlib.Algebra.Order.Floor.Ring
import Mathlib.Algebra.Order.Field.Basic
import Mathlib.Logic.Function.Basic
import Mathlib.Tactic.Linarith
import Mathlib.Tactic.Ring

/-!
# Token buckets

A bucket fills at a rate up to its burst, and a draw takes a token or says how long
to wait for one. The level of a bucket at a later time is all that later draws
depend on.
-/

namespace ParishKit.Lib

universe u

/-- A positive rate, and a burst of at least one token. -/
structure BucketPolicy (Time : Type u) [Field Time] [LinearOrder Time] where
  rate : Time
  burst : Time
  rate_pos : 0 < rate
  one_le_burst : 1 ≤ burst

/-- What was left at an instant. -/
structure Bucket (Time : Type u) where
  tokens : Time
  instant : Time
deriving DecidableEq, Repr

section

variable {Time : Type u} [Field Time] [LinearOrder Time]

namespace BucketPolicy

/-- The tokens at a later time. -/
def level (policy : BucketPolicy Time) (bucket : Bucket Time) (now : Time) : Time :=
  min policy.burst (bucket.tokens + max 0 (now - bucket.instant) * policy.rate)

def full (policy : BucketPolicy Time) (now : Time) : Bucket Time :=
  ⟨policy.burst, now⟩

/-- A token is taken, or the whole seconds to wait for one. -/
def draw [FloorRing Time] (policy : BucketPolicy Time) (bucket : Bucket Time)
    (now : Time) : Int × Bucket Time :=
  if 1 ≤ policy.level bucket now then
    (0, ⟨policy.level bucket now - 1, now⟩)
  else
    (⌈(1 - policy.level bucket now) / policy.rate⌉, ⟨policy.level bucket now, now⟩)

/-- A bucket holds no more than the burst and was last drawn from before now. -/
structure Sound (policy : BucketPolicy Time) (bucket : Bucket Time) (now : Time) :
    Prop where
  nonneg : 0 ≤ bucket.tokens
  within : bucket.tokens ≤ policy.burst
  passed : bucket.instant ≤ now

/-! ## Levels -/

variable [IsStrictOrderedRing Time] {policy : BucketPolicy Time} {bucket : Bucket Time}
  {now later : Time}

theorem level_full : policy.level (policy.full now) later = policy.burst := by
  unfold level full
  refine min_eq_left (le_add_of_nonneg_right ?_)
  exact mul_nonneg (le_max_left _ _) (le_of_lt policy.rate_pos)

omit [IsStrictOrderedRing Time] in
theorem level_le_burst : policy.level bucket now ≤ policy.burst :=
  min_le_left _ _

omit [IsStrictOrderedRing Time] in
theorem Sound.mono (sound : policy.Sound bucket now) (le : now ≤ later) :
    policy.Sound bucket later :=
  ⟨sound.nonneg, sound.within, le_trans sound.passed le⟩

theorem Sound.level_nonneg (sound : policy.Sound bucket now) :
    0 ≤ policy.level bucket now := by
  refine le_min (le_trans zero_le_one policy.one_le_burst) ?_
  exact add_nonneg sound.nonneg
    (mul_nonneg (le_max_left _ _) (le_of_lt policy.rate_pos))

/-- A level rises no faster than the rate. -/
theorem Sound.level_rise (sound : policy.Sound bucket now) (le : now ≤ later) :
    policy.level bucket later ≤
      policy.level bucket now + policy.rate * (later - now) := by
  have rate := policy.rate_pos
  have passed := sound.passed
  have grows : 0 ≤ policy.rate * (later - now) :=
    mul_nonneg (le_of_lt rate) (sub_nonneg.mpr le)
  unfold level
  rw [max_eq_right (sub_nonneg.mpr passed),
    max_eq_right (sub_nonneg.mpr (le_trans passed le))]
  rcases min_choice policy.burst
    (bucket.tokens + (now - bucket.instant) * policy.rate) with isBurst | isLevel
  · rw [isBurst]
    exact le_trans (min_le_left _ _) (le_add_of_nonneg_right grows)
  · rw [isLevel]
    refine le_trans (min_le_right _ _) (le_of_eq ?_)
    ring

/-- A level read once and again later is the later one. -/
theorem level_level (passed : bucket.instant ≤ now) (le : now ≤ later) :
    policy.level ⟨policy.level bucket now, now⟩ later =
      policy.level bucket later := by
  have rate := policy.rate_pos
  have grows : 0 ≤ (later - now) * policy.rate :=
    mul_nonneg (sub_nonneg.mpr le) (le_of_lt rate)
  have total : bucket.tokens + (later - bucket.instant) * policy.rate =
      bucket.tokens + (now - bucket.instant) * policy.rate +
        (later - now) * policy.rate := by
    ring
  unfold level
  rw [max_eq_right (sub_nonneg.mpr passed), max_eq_right (sub_nonneg.mpr le),
    max_eq_right (sub_nonneg.mpr (le_trans passed le)), total]
  rcases le_total policy.burst
    (bucket.tokens + (now - bucket.instant) * policy.rate) with full | notFull
  · rw [min_eq_left full, min_eq_left (by linarith), min_eq_left (by linarith)]
  · rw [min_eq_right notFull]

/-- A bucket that was not drawn from for as long as it takes to fill is full. -/
theorem Sound.level_idle
    (sound : policy.Sound bucket now)
    (idle : policy.burst / policy.rate ≤ now - bucket.instant) :
    policy.level bucket now = policy.burst := by
  have rate := policy.rate_pos
  have filled : policy.burst ≤ (now - bucket.instant) * policy.rate :=
    (div_le_iff₀ rate).mp idle
  have nonneg := sound.nonneg
  unfold level
  rw [max_eq_right (sub_nonneg.mpr sound.passed), min_eq_left (by linarith)]

/-! ## Draws -/

variable [FloorRing Time]

omit [IsStrictOrderedRing Time] in
/-- A draw depends on the level alone. -/
theorem draw_congr {other : Bucket Time}
    (same : policy.level bucket now = policy.level other now) :
    policy.draw bucket now = policy.draw other now := by
  unfold draw
  rw [same]

theorem draw_eq_zero_iff :
    (policy.draw bucket now).1 = 0 ↔ 1 ≤ policy.level bucket now := by
  unfold draw
  split
  · rename_i enough
    exact ⟨fun _ => enough, fun _ => rfl⟩
  · rename_i tooFew
    have wait : 0 < (1 - policy.level bucket now) / policy.rate :=
      div_pos (sub_pos.mpr (not_le.mp tooFew)) policy.rate_pos
    have positive := Int.ceil_pos.mpr wait
    constructor
    · intro isZero
      change ⌈(1 - policy.level bucket now) / policy.rate⌉ = 0 at isZero
      omega
    · intro enough
      exact absurd enough tooFew

/-- The delay decides whether a token is taken. -/
theorem draw_eq (policy : BucketPolicy Time) (bucket : Bucket Time) (now : Time) :
    policy.draw bucket now =
      let delay := if 1 ≤ policy.level bucket now then 0
        else ⌈(1 - policy.level bucket now) / policy.rate⌉
      (delay, ⟨if delay = 0 then policy.level bucket now - 1
        else policy.level bucket now, now⟩) := by
  by_cases enough : 1 ≤ policy.level bucket now
  · unfold draw
    simp only [if_pos enough, if_true]
  · have waits := mt draw_eq_zero_iff.mp enough
    unfold draw at waits ⊢
    rw [if_neg enough] at waits
    simp only [if_neg enough]
    rw [if_neg waits]

theorem Sound.draw (sound : policy.Sound bucket now) :
    policy.Sound (policy.draw bucket now).2 now := by
  unfold BucketPolicy.draw
  split
  · rename_i enough
    refine ⟨sub_nonneg.mpr enough, ?_, le_refl now⟩
    exact le_trans (sub_le_self _ zero_le_one) level_le_burst
  · exact ⟨sound.level_nonneg, level_le_burst, le_refl now⟩

omit [IsStrictOrderedRing Time] in
theorem draw_instant : (policy.draw bucket now).2.instant = now := by
  unfold draw
  split
  · rfl
  · rfl

/-- A draw that is admitted takes one token, another takes none. -/
theorem level_draw :
    policy.level (policy.draw bucket now).2 now =
      policy.level bucket now -
        (if (policy.draw bucket now).1 = 0 then 1 else 0) := by
  have atNow : ∀ tokens ≤ policy.burst,
      policy.level ⟨tokens, now⟩ now = tokens := by
    intro tokens within
    unfold level
    rw [sub_self, max_self, zero_mul, add_zero, min_eq_right within]
  by_cases enough : 1 ≤ policy.level bucket now
  · rw [if_pos (draw_eq_zero_iff.mpr enough)]
    unfold draw
    rw [if_pos enough]
    exact atNow _ (le_trans (sub_le_self _ zero_le_one) level_le_burst)
  · rw [if_neg (mt draw_eq_zero_iff.mp enough), sub_zero]
    unfold draw
    rw [if_neg enough]
    exact atNow _ level_le_burst

/-- Whoever waits as long as a refused draw says finds a token. -/
theorem one_le_level_after
    (refused : (policy.draw bucket now).1 ≠ 0)
    (waited : now + ((policy.draw bucket now).1 : Time) ≤ later) :
    1 ≤ policy.level (policy.draw bucket now).2 later := by
  have rate := policy.rate_pos
  have tooFew := mt draw_eq_zero_iff.mpr refused
  unfold draw at waited ⊢
  rw [if_neg tooFew] at waited ⊢
  have enough : (1 - policy.level bucket now) / policy.rate ≤ later - now := by
    have rounded := Int.le_ceil ((1 - policy.level bucket now) / policy.rate)
    change now + (⌈(1 - policy.level bucket now) / policy.rate⌉ : Time) ≤ later
      at waited
    linarith
  have gained : 1 - policy.level bucket now ≤ (later - now) * policy.rate :=
    (div_le_iff₀ rate).mp enough
  refine le_min policy.one_le_burst ?_
  have atLeast := mul_le_mul_of_nonneg_right
    (le_max_right (0 : Time) (later - now)) (le_of_lt rate)
  change 1 ≤ policy.level bucket now + max 0 (later - now) * policy.rate
  linarith

/-! ## One bucket for each key -/

variable {Key : Type*} [DecidableEq Key]

/-- The tokens a key would find; one without a bucket finds the burst. -/
def levelIn (policy : BucketPolicy Time) (buckets : Key → Option (Bucket Time))
    (key : Key) (now : Time) : Time :=
  match buckets key with
  | some bucket => policy.level bucket now
  | none => policy.burst

omit [FloorRing Time] [DecidableEq Key] in
theorem level_getD_full (buckets : Key → Option (Bucket Time)) (key : Key) :
    policy.level ((buckets key).getD (policy.full now)) now =
      policy.levelIn buckets key now := by
  unfold levelIn
  cases buckets key with
  | none => exact level_full
  | some bucket => rfl

/-- The waits of a series of draws from buckets that are full at first. -/
def drawAll (policy : BucketPolicy Time) :
    (Key → Option (Bucket Time)) → List (Key × Time) → List Int
  | _, [] => []
  | buckets, (key, now) :: rest =>
      let drawn := policy.draw ((buckets key).getD (policy.full now)) now
      drawn.1 :: drawAll policy (Function.update buckets key (some drawn.2)) rest

end BucketPolicy

end

end ParishKit.Lib
