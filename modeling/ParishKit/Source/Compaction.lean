import ParishKit.Lib.Calendar

/-!
# Source retention

The promoted snapshots of the source, the anchors that retention keeps and one
compaction batch. Instants are microseconds since the start of year 1, UTC.
-/

namespace ParishKit.Source

open ParishKit.Lib

abbrev SnapshotId := Nat

def dayLength : Int :=
  86400000000

/-- `RECENT_RETENTION`, six hours. -/
def recentRetention : Int :=
  21600000000

/-- The day number of an instant. -/
def dayOf (instant : Int) : Int :=
  instant / dayLength + 1

def dateOf (instant : Int) : CivilDate :=
  civil (dayOf instant)

/-! ## Retention policy -/

/-- The same date a year before; February 29 maps to February 28. -/
def yearBefore (date : CivilDate) : CivilDate :=
  let replaced : CivilDate := { date with year := date.year - 1 }
  if replaced.Valid then replaced else { replaced with day := 28 }

/-- The recent and the yearly cutoff. -/
structure Cutoffs where
  recent : Int
  yearly : Int

/-- `retention_cutoffs`; the year before year 1 raises. -/
def retentionCutoffs (now : Int) : Option Cutoffs :=
  let date := dateOf now
  if date.year ≤ 1 then
    none
  else
    some ⟨now - recentRetention,
      ((yearBefore date).ordinal - 1) * dayLength + now % dayLength⟩

variable {Digest : Type} [DecidableEq Digest]

/-- The permanent part of a promoted snapshot. -/
structure Promotion (Digest : Type) where
  id : SnapshotId
  promotedAt : Int
  generation : Nat
  contentDigest : Option Digest
deriving DecidableEq

inductive RetentionBucket where
  | day (date : CivilDate)
  | month (year : Int) (month : Nat)
deriving DecidableEq

/-- The bucket of a promotion that is not recent. -/
def bucketOf (yearly instant : Int) : RetentionBucket :=
  if yearly ≤ instant then .day (dateOf instant)
  else .month (dateOf instant).year (dateOf instant).month

/-- Later by instant, then by generation. -/
def Promotion.after (first second : Promotion Digest) : Bool :=
  decide (second.promotedAt < first.promotedAt) ||
    (first.promotedAt == second.promotedAt &&
      decide (second.generation < first.generation))

/-- The latest of the promotions. -/
def latest (promotions : List (Promotion Digest)) :
    Option (Promotion Digest) :=
  promotions.foldl (fun prior next =>
    match prior with
    | none => some next
    | some kept => if next.after kept then some next else some kept) none

/-- `retention_anchors`: what is recent, and the latest of each day, or of each
month before the yearly cutoff. -/
def retentionAnchors (stamps : List (Promotion Digest)) (cutoffs : Cutoffs) :
    List SnapshotId :=
  stamps.filterMap fun stamp =>
    if cutoffs.recent ≤ stamp.promotedAt then
      some stamp.id
    else
      (latest (stamps.filter fun other =>
        decide (other.promotedAt < cutoffs.recent) &&
          bucketOf cutoffs.yearly other.promotedAt ==
            bucketOf cutoffs.yearly stamp.promotedAt)).map (·.id)

/-! ## The source -/

structure Snapshot (Digest : Type) where
  promotion : Promotion Digest
  compactedAt : Option Int
deriving DecidableEq

structure SourcePin where
  id : Nat
  snapshotId : SnapshotId
  expiresAt : Option Int

/-- Snapshots in the order of their promotion, the current pointer, the pins and
the instant of the last batch. -/
structure SourceState (Digest : Type) where
  snapshots : List (Snapshot Digest)
  current : Option SnapshotId
  pins : List SourcePin
  lastBatch : Option Int

def SourceState.empty : SourceState Digest :=
  ⟨[], none, [], none⟩

namespace SourceState

def promotions (state : SourceState Digest) : List (Promotion Digest) :=
  state.snapshots.map (·.promotion)

/-- `_retained_anchors`: each anchor, or the latest snapshot that still has its
content. -/
def retainedAnchors (state : SourceState Digest) (cutoffs : Cutoffs) :
    List SnapshotId :=
  let rows := state.snapshots.filter fun row =>
    decide (row.promotion.promotedAt < cutoffs.recent)
  let anchors := retentionAnchors (rows.map (·.promotion)) cutoffs
  let kept := rows.filter fun row =>
    anchors.contains row.promotion.id && row.compactedAt.isNone
  let digests := (rows.filter fun row =>
    anchors.contains row.promotion.id && row.compactedAt.isSome).filterMap
      fun row => row.promotion.contentDigest
  kept.map (·.promotion.id) ++ digests.filterMap fun digest =>
    (latest ((state.snapshots.filter fun row =>
      row.compactedAt.isNone &&
        row.promotion.contentDigest == some digest).map (·.promotion))).map
      (·.id)

def currentDigest (state : SourceState Digest) : Option Digest :=
  (state.snapshots.find? fun row =>
    some row.promotion.id == state.current).bind
      fun row => row.promotion.contentDigest

/-- `_live_pins`. -/
def livePinned (state : SourceState Digest) (now : Int) (id : SnapshotId) :
    Bool :=
  state.pins.any fun pin =>
    pin.snapshotId == id && pin.expiresAt.all fun expires => decide (now < expires)

/-- The candidates of `_select_compaction`. -/
def candidate (state : SourceState Digest) (cutoffs : Cutoffs) (now : Int)
    (liveReferences : List SnapshotId) (row : Snapshot Digest) : Bool :=
  (decide (row.promotion.promotedAt < cutoffs.recent) ||
    (state.currentDigest.isSome &&
      row.promotion.contentDigest == state.currentDigest)) &&
  row.compactedAt.isNone &&
  some row.promotion.id != state.current &&
  !(state.retainedAnchors cutoffs).contains row.promotion.id &&
  !liveReferences.contains row.promotion.id &&
  !state.livePinned now row.promotion.id

end SourceState

/-! ## Operations -/

/-- `chosen` are the candidates that a batch marks: those under its limit that
no reader had locked and no late pin protects. -/
inductive SourceOp (Digest : Type) where
  | promote (id : SnapshotId) (instant : Int) (generation : Nat)
      (digest : Digest)
  | pin (pin : SourcePin)
  | release (id : Nat)
  | compact (now : Int) (liveReferences chosen : List SnapshotId)

namespace SourceState

/-- Promotions follow one another in instant and generation. -/
def promote (state : SourceState Digest) (id : SnapshotId) (instant : Int)
    (generation : Nat) (digest : Digest) : Option (SourceState Digest) :=
  if state.promotions.all fun other =>
      decide (other.promotedAt ≤ instant) &&
        decide (other.generation < generation) && other.id != id then
    some { state with
      snapshots := state.snapshots ++ [⟨⟨id, instant, generation, some digest⟩,
        none⟩]
      current := some id }
  else
    none

/-- The rows that one batch marks. -/
def marks (state : SourceState Digest) (cutoffs : Cutoffs) (now : Int)
    (liveReferences chosen : List SnapshotId) (row : Snapshot Digest) : Bool :=
  state.candidate cutoffs now liveReferences row &&
    chosen.contains row.promotion.id

/-- The marking of `compact_source`. Batches run one after another. -/
def compact (state : SourceState Digest) (now : Int)
    (liveReferences chosen : List SnapshotId) : Option (SourceState Digest) :=
  match retentionCutoffs now with
  | none => none
  | some cutoffs =>
      if state.lastBatch.any fun last => decide (now < last) then
        none
      else
        some { state with
          snapshots := state.snapshots.map fun row =>
            if state.marks cutoffs now liveReferences chosen row then
              { row with compactedAt := some now }
            else
              row
          lastBatch := some now }

end SourceState

def SourceOp.apply (op : SourceOp Digest) (state : SourceState Digest) :
    Option (SourceState Digest) :=
  match op with
  | .promote id instant generation digest =>
      state.promote id instant generation digest
  | .pin added => some { state with pins := state.pins ++ [added] }
  | .release id =>
      some { state with pins := state.pins.filter fun pin => pin.id != id }
  | .compact now liveReferences chosen =>
      state.compact now liveReferences chosen

end ParishKit.Source
