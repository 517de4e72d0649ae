import ParishKit.Source.RefreshCadence

/-!
# Refresh production

The scheduler's pass over the current slots. What it reads besides its two tables
(the applied schedule, the holds, the Family emails) may be anything at each moment
it reads; configurations never change once applied. A pass that raises leaves the
tables as they were.
-/

namespace ParishKit.Source

open ParishKit.Lib

/-! ## Tables -/

structure RefreshReceipt where
  commandId : Nat
  requestId : Nat
  taskRootId : Nat
deriving DecidableEq

/-- A row of `SourceRefreshTick`, with its command's cause and receipt. -/
structure RefreshTick where
  receipt : RefreshReceipt
  cause : RefreshCause
  configuration : Nat
  dueAt : Int
  timezone : Text
  nightlyTime : Text
  slotKey : Text
deriving DecidableEq

inductive SlotDecision where
  | skipped
  | held
deriving DecidableEq

/-- What a slot is skipped for. -/
inductive WindowCause where
  | initialSending
  | reminderPreparing
  | reminderSending
deriving DecidableEq

/-- A row of `SourceSlotDecision`. -/
structure DecisionRow where
  configuration : Nat
  cause : RefreshCause
  dueAt : Int
  timezone : Text
  nightlyTime : Text
  slotKey : Text
  decision : SlotDecision
  windowCause : Option WindowCause
deriving DecidableEq

structure RefreshTables where
  ticks : List RefreshTick
  decisions : List DecisionRow
deriving DecidableEq

def RefreshTables.empty : RefreshTables :=
  ⟨[], []⟩

namespace RefreshTables

def tick? (tables : RefreshTables) (key : Text) : Option RefreshTick :=
  tables.ticks.find? fun tick => tick.slotKey == key

def isTicked (tables : RefreshTables) (key : Text) : Bool :=
  (tables.tick? key).isSome

def decision? (tables : RefreshTables) (key : Text) : Option SlotDecision :=
  (tables.decisions.find? fun row => row.slotKey == key).map DecisionRow.decision

end RefreshTables

/-! ## Surroundings -/

/-- A Family email's window: its start is in it, its end is not. -/
structure EmailWindow where
  start : Int
  stop : Int
  cause : WindowCause

/-- The order of the causes' names. -/
def WindowCause.rank : WindowCause → Nat
  | .initialSending => 0
  | .reminderPreparing => 1
  | .reminderSending => 2

/-- `window_cause`. -/
def windowCause (windows : List EmailWindow) (instant : Int) : Option WindowCause :=
  let sorted := windows.insertionSort fun left right =>
    left.start < right.start ∨
      left.start = right.start ∧ left.cause.rank ≤ right.cause.rank
  (sorted.find? fun window =>
    decide (window.start ≤ instant) && decide (instant < window.stop)).map
      EmailWindow.cause

/-- The mode, the current campaign and its pause. -/
structure DeliveryState where
  mode : Text
  campaign : Option Nat
  deliveryPaused : Option Bool
deriving DecidableEq

/-- How an insertion ends: a guard may refuse the row, and anything else raises. -/
inductive Attempt (Value : Type) where
  | done (value : Value)
  | refused
  | raised

/-- What the scheduler reads at one moment besides its tables. -/
structure Surroundings where
  now : Int
  /-- The active configuration; none before setup. -/
  configuration : Option Nat
  /-- The current campaign's row is there, or there is no current campaign. -/
  campaignRead : Bool
  /-- `require_source_refresh` admits the current campaign. -/
  admitted : Bool
  /-- `_organization`; none is a refusal. -/
  organization : Option Nat
  /-- The digest of `_window`; none is an invalid window. -/
  windowDigest : Option Text
  /-- The campaign's or the parish's zone; none is a missing row. -/
  timezone : Option Text
  /-- `_catch_up_at`. -/
  effectiveAt : Option Int
  /-- `daytime_held`, now. -/
  daytimeHeld : Bool
  /-- `refreshes_held`, now. -/
  refreshesHeld : Bool
  /-- `current_windows`, now. -/
  currentWindows : List EmailWindow
  /-- `skip_setting_since`. -/
  skipSettingSince : Option Int
  deliveryState : DeliveryState
  /-- `request_refresh`. -/
  requestRefresh : RefreshTables → RefreshSlot → Attempt RefreshReceipt
  /-- The tick guard. -/
  admitsTick : RefreshTables → RefreshTick → Bool
  /-- The slot decision guard. -/
  admitsDecision : RefreshTables → DecisionRow → Bool

/-- The applied integrations, by configuration. -/
class AppliedIntegrations where
  settings : Nat → Option StoredSettings

namespace Surroundings

variable [AppliedIntegrations]

/-- The applied schedule's settings. -/
def settings (moment : Surroundings) : Option StoredSettings :=
  moment.configuration.bind AppliedIntegrations.settings

end Surroundings

/-- A tick's insertion. Its slot key is unique. -/
def RefreshTables.insertTick (tables : RefreshTables) (moment : Surroundings)
    (tick : RefreshTick) : Attempt RefreshTables :=
  if moment.admitsTick tables tick = false then .refused
  else if tables.isTicked tick.slotKey then .raised
  else .done { tables with ticks := tables.ticks ++ [tick] }

/-- A decision's insertion. Its slot key is unique. -/
def RefreshTables.insertDecision (tables : RefreshTables) (moment : Surroundings)
    (row : DecisionRow) : Attempt RefreshTables :=
  if moment.admitsDecision tables row = false then .refused
  else if (tables.decision? row.slotKey).isSome then .raised
  else .done { tables with decisions := tables.decisions ++ [row] }

/-! ## The current slots -/

section

variable [TimeZones] [SlotDigests] [AppliedIntegrations]

/-- `_Cadence`. -/
structure Cadence where
  configuration : Nat
  settings : StoredSettings
  schedule : RefreshSchedule
  timezone : Text
  fingerprint : Text
  now : Int
  slots : List RefreshSlot

/-- `_cadence`. -/
def cadence (moment : Surroundings) : Option Cadence := do
  let configuration ← moment.configuration
  let organization ← moment.organization
  let windowDigest ← moment.windowDigest
  let settings ← AppliedIntegrations.settings configuration
  let timezone ← moment.timezone
  let schedule := refreshSettings settings
  let fingerprint := SlotDigests.scopeFingerprint organization windowDigest
  let slots ← dueSlots moment.now timezone fingerprint schedule
  some ⟨configuration, settings, schedule, timezone, fingerprint, moment.now, slots⟩

/-- `_listed`. -/
def Cadence.listed (cadence : Cadence) : Option (List RefreshSlot) :=
  listedDueSlots cadence.now cadence.timezone cadence.fingerprint cadence.schedule

/-- `_catch_up`. -/
def catchUp (tables : RefreshTables) (effectiveAt : Option Int)
    (timezone fingerprint : Text) : Option RefreshSlot :=
  effectiveAt.bind fun effectiveAt =>
    let slot := catchUpSlot effectiveAt timezone fingerprint
    if tables.ticks.any fun tick => tick.cause == .catchUp &&
        tick.dueAt == slot.dueAt && tick.slotKey != slot.slotKey then
      none
    else
      some slot

/-- The regular slots with the catch-up after the first. -/
def withCatchUp (slots : List RefreshSlot) (catchUp : Option RefreshSlot) :
    List RefreshSlot :=
  slots.take 1 ++ catchUp.toList ++ slots.drop 1

/-- The slots a pass considers. -/
def currentSlots (cadence : Cadence) (tables : RefreshTables)
    (effectiveAt : Option Int) : List RefreshSlot :=
  withCatchUp cadence.slots
    (catchUp tables effectiveAt cadence.timezone cadence.fingerprint)

/-- `_waits_for_send`. -/
def waitsForSend (slot : RefreshSlot) (nightlyTime : Text) : Bool :=
  match slot.cause with
  | .catchUp => true
  | .nightly => slot.nightlyTime != some nightlyTime

/-- `_undecided`. -/
def undecided (candidates : List RefreshSlot) (tables : RefreshTables)
    (nightlyTime : Text) (skipSince : Option Int) : List RefreshSlot :=
  candidates.filter fun slot =>
    !tables.isTicked slot.slotKey && (tables.decision? slot.slotKey).isNone &&
      waitsForSend slot nightlyTime &&
      skipSince.all fun since => decide (since ≤ slot.dueAt)

/-! ## The idle shortcut -/

/-- `_may_decide`; none raises. -/
def mayDecide (moment : Surroundings) (tables : RefreshTables) (cadence : Cadence) :
    Option Bool := do
  let candidates ← cadence.listed
  let slots := undecided candidates tables cadence.schedule.nightlyTime
    moment.skipSettingSince
  some (!slots.isEmpty && (moment.daytimeHeld ||
    slots.any fun slot => (windowCause moment.currentWindows slot.dueAt).isSome))

/-- `_ticked`, of the loop's settings as they are. -/
def ticked (moment : Surroundings) (tables : RefreshTables) :
    Option (List RefreshReceipt) :=
  if moment.campaignRead = false then
    none
  else do
    let cadence ← cadence moment
    let slots := currentSlots cadence tables moment.effectiveAt
    let receipts ← slots.mapM fun slot =>
      (tables.tick? slot.slotKey).map RefreshTick.receipt
    if skipsAroundEmails cadence.settings then do
      let decides ← mayDecide moment tables cadence
      if decides then none else some receipts
    else
      some receipts

/-! ## The locked pass -/

/-- What the scheduler logs of a slot. -/
inductive Notice where
  | sourceHeld (slotKey : Text)
  | goLiveHeld (slotKey : Text)
  | catchUpRefused (slotKey : Text)
  | decisionRefused (slotKey : Text)

/-- What a pass has done so far. -/
structure PassState where
  tables : RefreshTables
  /-- The decisions by slot key, when the pass decides slots. -/
  decisions : Option (Text → Option SlotDecision)
  waiting : List Text
  rejected : List Text
  notices : List Notice
  result : List RefreshReceipt

/-- What a pass has read. -/
structure PassInputs where
  moment : Surroundings
  cadence : Cadence
  held : Bool
  goLive : Bool
  recordedSkips : List Text
  /-- The slots logged before, of each kind; none when they are not kept. -/
  skipped : Option (List Text)
  refused : Option (List Text)

def loggedBefore (logged : Option (List Text)) (key : Text) : Bool :=
  logged.any fun keys => keys.contains key

def insertKey (keys : List Text) (key : Text) : List Text :=
  if key ∈ keys then keys else keys ++ [key]

/-- `record`, and whether the row was written. -/
def record (inputs : PassInputs) (slot : RefreshSlot) (decision : SlotDecision)
    (cause : Option WindowCause) (state : PassState) : Option (PassState × Bool) :=
  if slot.slotKey ∈ state.rejected then
    some (state, false)
  else
    let row : DecisionRow := {
      configuration := inputs.cadence.configuration
      cause := slot.cause
      dueAt := slot.dueAt
      timezone := inputs.cadence.timezone
      nightlyTime := slot.nightlyTime.getD inputs.cadence.schedule.nightlyTime
      slotKey := slot.slotKey
      decision := decision
      windowCause := cause }
    match state.tables.insertDecision inputs.moment row with
    | .done tables => some ({ state with tables := tables }, true)
    | .refused => some ({ state with
        rejected := insertKey state.rejected slot.slotKey
        notices := if loggedBefore inputs.refused slot.slotKey then state.notices
          else state.notices ++ [.decisionRefused slot.slotKey] }, false)
    | .raised => none

/-- `decisions[key] = decision`. -/
def PassState.decided (state : PassState) (key : Text) (decision : SlotDecision) :
    PassState :=
  { state with decisions := state.decisions.map fun decisions =>
      Function.update decisions key (some decision) }

/-- A held slot waits; it is logged unless it was before. -/
def PassState.wait (state : PassState) (key : Text) (notice : Notice)
    (logged : Bool) : PassState :=
  { state with
    waiting := insertKey state.waiting key
    notices := if logged then state.notices else state.notices ++ [notice] }

/-- The decision for one undecided slot. -/
def decideSlot (inputs : PassInputs) (windows : List EmailWindow) (state : PassState)
    (slot : RefreshSlot) : Option PassState :=
  match windowCause windows slot.dueAt with
  | some cause => do
      let (state, written) ← record inputs slot .skipped (some cause) state
      some (if written then state.decided slot.slotKey .skipped else state)
  | none =>
      if inputs.held then do
        let (state, written) ← record inputs slot .held none state
        let state := if written then state.decided slot.slotKey .held else state
        some (state.wait slot.slotKey (.sourceHeld slot.slotKey)
          (loggedBefore inputs.skipped slot.slotKey))
      else
        some state

/-- The newest held slot of a skipped latest one's kind, unless a later one ran. -/
def heldInstead (candidates : List RefreshSlot) (tables : RefreshTables)
    (decisions : Text → Option SlotDecision) (slot : RefreshSlot) :
    Option RefreshSlot :=
  if decisions slot.slotKey = some .skipped then
    let same := candidates.filter fun other => other.cause == slot.cause
    let newest := greatest? (fun left right => decide (left.dueAt < right.dueAt))
      (same.filter fun other => decide (other.dueAt < slot.dueAt) &&
        decisions other.slotKey == some .held && !tables.isTicked other.slotKey)
    newest.filter fun newest => !same.any fun other =>
      tables.isTicked other.slotKey && decide (newest.dueAt < other.dueAt)
  else
    none

/-- `_decide`: the state with its decisions, and the slots to run instead of
skipped ones. -/
def decideSlots (inputs : PassInputs) (windows : List EmailWindow)
    (skipSince : Option Int) (candidates latest : List RefreshSlot)
    (state : PassState) : Option (PassState × List RefreshSlot) := do
  let keys := (candidates ++ latest).map RefreshSlot.slotKey
  let known : Text → Option SlotDecision := fun key =>
    if key ∈ keys then state.tables.decision? key else none
  let slots := undecided candidates state.tables inputs.cadence.schedule.nightlyTime
    skipSince
  let decided ← slots.foldlM (decideSlot inputs windows)
    { state with decisions := some known }
  let extra := if inputs.held then []
    else latest.filterMap
      (heldInstead candidates state.tables (decided.decisions.getD fun _ => none))
  some (decided, extra)

/-- `create`. -/
def createTick (inputs : PassInputs) (slot : RefreshSlot) (tables : RefreshTables) :
    Attempt (RefreshTables × RefreshReceipt) :=
  match inputs.moment.requestRefresh tables slot with
  | .done receipt =>
      let tick : RefreshTick := {
        receipt := receipt
        cause := slot.cause
        configuration := inputs.cadence.configuration
        dueAt := slot.dueAt
        timezone := inputs.cadence.timezone
        nightlyTime := slot.nightlyTime.getD inputs.cadence.schedule.nightlyTime
        slotKey := slot.slotKey }
      match tables.insertTick inputs.moment tick with
      | .done tables => .done (tables, receipt)
      | .refused => .refused
      | .raised => .raised
  | .refused => .refused
  | .raised => .raised

/-- A slot without a decision is recorded as held, when the pass decides slots. -/
def holdSlot (inputs : PassInputs) (state : PassState) (slot : RefreshSlot) :
    Option PassState :=
  if state.decisions.any fun decisions => (decisions slot.slotKey).isNone then
    Prod.fst <$> record inputs slot .held none (state.decided slot.slotKey .held)
  else
    some state

/-- One slot of the pass. -/
def passSlot (inputs : PassInputs) (state : PassState) (slot : RefreshSlot) :
    Option PassState :=
  match state.tables.tick? slot.slotKey with
  | some previous => some { state with result := state.result ++ [previous.receipt] }
  | none =>
      if slot.slotKey ∈ inputs.recordedSkips ∨
          state.decisions.bind (· slot.slotKey) = some .skipped then
        some state
      else if inputs.goLive then
        some (state.wait slot.slotKey (.goLiveHeld slot.slotKey)
          (loggedBefore inputs.skipped slot.slotKey))
      else if inputs.held &&
          waitsForSend slot inputs.cadence.schedule.nightlyTime then do
        let recorded ← holdSlot inputs state slot
        some (recorded.wait slot.slotKey (.sourceHeld slot.slotKey)
          (recorded.waiting.contains slot.slotKey ||
            loggedBefore inputs.skipped slot.slotKey))
      else
        match createTick inputs slot state.tables, slot.cause with
        | .done (tables, receipt), _ => some { state with
            tables := tables
            result := state.result ++ [receipt] }
        | .refused, .catchUp => some { state with
            rejected := insertKey state.rejected slot.slotKey
            notices := if loggedBefore inputs.refused slot.slotKey then state.notices
              else state.notices ++ [.catchUpRefused slot.slotKey] }
        | .refused, .nightly => none
        | .raised, _ => none

/-- `_skip_planning`: the windows, the skip setting's start and the delivery state. -/
def skipPlanning (moment : Surroundings) :
    Option (List EmailWindow × Option Int × DeliveryState) :=
  match moment.settings with
  | none => none
  | some settings =>
      if skipsAroundEmails settings then
        some (moment.currentWindows, moment.skipSettingSince, moment.deliveryState)
      else
        none

/-- What a pass works with. `early` is what was read before the lock. -/
def passInputs (early locked : Surroundings) (cadence : Cadence)
    (slots : List RefreshSlot) (skipped refused : Option (List Text))
    (tables : RefreshTables) : PassInputs where
  moment := locked
  cadence := cadence
  held := early.daytimeHeld
  goLive := early.refreshesHeld
  recordedSkips := (slots.map RefreshSlot.slotKey).filter fun key =>
    tables.decision? key == some .skipped
  skipped := skipped
  refused := refused

/-- The slots are decided first when the schedule skips refreshes, unless the
delivery state has changed since the windows were read. -/
def planSlots (early locked : Surroundings) (inputs : PassInputs)
    (slots : List RefreshSlot) (start : PassState) :
    Option (PassState × List RefreshSlot) :=
  match skipPlanning early with
  | none => some (start, [])
  | some (windows, skipSince, planned) =>
      if skipsAroundEmails inputs.cadence.settings &&
          planned == locked.deliveryState then do
        let candidates ← inputs.cadence.listed
        decideSlots inputs windows skipSince candidates slots start
      else
        some (start, [])

/-- The pass under the work-order lock. -/
def lockedPass (early locked : Surroundings) (skipped refused : Option (List Text))
    (tables : RefreshTables) : Option PassState :=
  let start : PassState := ⟨tables, none, [], [], [], []⟩
  if locked.admitted = false ∨ locked.organization.isNone then
    some start
  else do
    let cadence ← cadence locked
    let slots := currentSlots cadence tables early.effectiveAt
    let inputs := passInputs early locked cadence slots skipped refused tables
    let (decided, extra) ← planSlots early locked inputs slots start
    (slots ++ extra).foldlM (passSlot inputs) decided

/-- One loop of the scheduler: what it reads for the shortcut, before the lock and
under it, and the slots it has logged. -/
structure RefreshLoop where
  idle : Surroundings
  early : Surroundings
  locked : Surroundings
  skipped : Option (List Text)
  refused : Option (List Text)

/-- `produce_refreshes`; none raises. -/
def produceRefreshes (loop : RefreshLoop) (tables : RefreshTables) :
    Option (RefreshTables × List RefreshReceipt) :=
  match ticked loop.idle tables with
  | some receipts => some (tables, receipts)
  | none => (lockedPass loop.early loop.locked loop.skipped loop.refused tables).map
      fun state => (state.tables, state.result)

end

end ParishKit.Source
