import Mathlib.Algebra.Order.Group.Nat
import Mathlib.Data.List.TakeDrop
import ParishKit.ParishSoft.PagesSound

/-!
# Reading a stable collection

Against a provider whose records do not change, a read within its bounds returns exactly
the records, whichever of its dialects the provider counts positions in.
-/

namespace ParishKit.ParishSoft

open ParishKit.Lib

variable {Row Field Identity : Type}
  {contract : PageContract Field} {reader : RowReader Row Field Identity} {maximum : Nat}
  {records : List Row} {identities : List Identity} {origin : Int}

/-! ## The provider -/

/-- The records have different identities, and each shows how many there are and which
of them it is, where the contract has fields for that. -/
structure StableRecords (contract : PageContract Field)
    (reader : RowReader Row Field Identity) (records : List Row) (identities : List Identity)
    (origin : Int) : Prop where
  distinct : identities.Nodup
  identified : List.Forall₂ (fun row identity => reader.identify row = .ok identity)
    records identities
  totals : ∀ field, contract.totalField = some field → ∀ row ∈ records,
    reader.intField field row = some (records.length : Int)
  firstOrdinal : origin = 0 ∨ origin = 1
  ordinals : ∀ field, contract.ordinalField = some field → ∀ (index : Nat) row,
    records[index]? = some row → reader.intField field row = some (index + origin)

/-- What a position stands for: a page counted from zero, a page counted from one with
nothing at zero or with the first page there as well, or a row. -/
inductive Dialect where
  | zeroBased
  | oneBased
  | aliased
  | rowOffset
deriving DecidableEq

/-- Where the page at a position starts. -/
def Dialect.start (dialect : Dialect) (size position : Nat) : Nat :=
  match dialect with
  | zeroBased => position * size
  | oneBased | aliased => (position - 1) * size
  | rowOffset => position

def Dialect.page (dialect : Dialect) (records : List Row) (size position : Nat) : List Row :=
  if dialect = .oneBased ∧ position = 0 then []
  else (records.drop (dialect.start size position)).take size

/-! ## The collection -/

/-- The collection holds the first records and nothing else. -/
structure Gathered (contract : PageContract Field) (records : List Row)
    (identities : List Identity) (origin : Int) (collection : Collection Row Identity)
    (count : Nat) : Prop where
  rows : collection.rows = records.take count
  identities : collection.identities = identities.take count
  received : collection.received = count
  inside : count ≤ records.length
  total : ∀ total ∈ collection.expectedTotal, total = records.length
  totalShown : contract.totalField.isSome = true → 0 < count →
    collection.expectedTotal = some (records.length : Int)
  origin : ∀ shown ∈ collection.ordinalOrigin, shown = origin
  originShown : contract.ordinalField.isSome = true → collection.ordinalOrigin = none →
    count = 0

theorem Gathered.empty :
    Gathered contract records identities origin Collection.empty 0 where
  rows := rfl
  identities := rfl
  received := rfl
  inside := Nat.zero_le _
  total := by simp [Collection.empty]
  totalShown := by simp
  origin := by simp [Collection.empty]
  originShown := fun _ _ => rfl

variable {collection : Collection Row Identity} {count : Nat}

theorem Gathered.checkTotal
    (gathered : Gathered contract records identities origin collection count)
    (stable : StableRecords contract reader records identities origin)
    (within : records.length ≤ maximum) {row : Row} (member : row ∈ records) :
    ∃ expected, ParishSoft.checkTotal contract reader maximum collection row = .ok expected ∧
      (∀ total ∈ expected, total = records.length) ∧
      (contract.totalField.isSome = true → expected = some (records.length : Int)) := by
  unfold ParishSoft.checkTotal
  cases isField : contract.totalField with
  | none => exact ⟨collection.expectedTotal, rfl, gathered.total, by simp⟩
  | some field =>
      have shows := stable.totals field isField row member
      have some : 0 < records.length := List.length_pos_of_mem member
      have fits : ¬¬((1 : Int) ≤ records.length ∧ (records.length : Int) ≤ maximum) := by omega
      have same : (collection.expectedTotal.any fun expected =>
          decide ((records.length : Int) ≠ expected)) = false := by
        cases isExpected : collection.expectedTotal with
        | none => rfl
        | some expected =>
            have equal := gathered.total expected isExpected
            simp [equal]
      simp only [shows]
      rw [if_neg fits, same, if_neg Bool.false_ne_true]
      refine ⟨_, rfl, ?_, fun _ => rfl⟩
      intro total isTotal
      exact (Option.some.inj isTotal).symm

theorem Gathered.checkOrdinal
    (gathered : Gathered contract records identities origin collection count)
    (stable : StableRecords contract reader records identities origin)
    {row : Row} (isRow : records[count]? = some row) :
    ∃ shown, ParishSoft.checkOrdinal contract reader collection row = .ok shown ∧
      (∀ value ∈ shown, value = origin) ∧
      (contract.ordinalField.isSome = true → shown ≠ none) := by
  unfold ParishSoft.checkOrdinal
  cases isField : contract.ordinalField with
  | none => exact ⟨collection.ordinalOrigin, rfl, gathered.origin, by simp⟩
  | some field =>
      have shows := stable.ordinals field isField count row isRow
      simp only [shows]
      cases isOrigin : collection.ordinalOrigin with
      | none =>
          have atStart : count = 0 :=
            gathered.originShown (by rw [isField]; rfl) isOrigin
          have first : ¬((count : Int) + origin ≠ 0 ∧ (count : Int) + origin ≠ 1) := by
            rcases stable.firstOrdinal with isZero | isOne
            · omega
            · omega
          have inPlace : ¬((count : Int) + origin ≠ collection.received + (count + origin)) := by
            rw [gathered.received]
            omega
          dsimp only
          rw [if_neg first, if_neg inPlace]
          refine ⟨_, rfl, ?_, by simp⟩
          intro value isValue
          have equal := Option.some.inj isValue
          omega
      | some shown =>
          have equal := gathered.origin shown isOrigin
          have inPlace : ¬((count : Int) + origin ≠ collection.received + shown) := by
            rw [gathered.received, equal]
            omega
          dsimp only
          rw [if_neg inPlace]
          refine ⟨_, rfl, ?_, by simp⟩
          intro value isValue
          rw [← Option.some.inj isValue, equal]

section Adding

variable [BEq Row] [DecidableEq Identity]

/-- The identities of a page's entries are the collection's. -/
def PageKnown (collection : Collection Row Identity) (page : PageRows Row Identity) : Prop :=
  ∀ entry ∈ page, entry.1 ∈ collection.identities

omit [BEq Row] in
theorem PageKnown.get?_eq_none
    {page : PageRows Row Identity} (known : PageKnown collection page) {identity : Identity}
    (fresh : identity ∉ collection.identities) : PageRows.get? page identity = none := by
  unfold PageRows.get?
  rw [Option.map_eq_none_iff, List.find?_eq_none]
  intro entry member same
  have equal : entry.1 = identity := by simpa using same
  exact fresh (equal ▸ known entry member)

/-- The next record is kept. -/
theorem Gathered.addRow
    (gathered : Gathered contract records identities origin collection count)
    (stable : StableRecords contract reader records identities origin)
    (within : records.length ≤ maximum) {page : PageRows Row Identity}
    (known : PageKnown collection page) {row : Row} (isRow : records[count]? = some row) :
    ∃ next, ParishSoft.addRow contract reader maximum (collection, page) row = .ok next ∧
      Gathered contract records identities origin next.1 (count + 1) ∧
      PageKnown next.1 next.2 := by
  obtain ⟨inside, isGet⟩ := List.getElem?_eq_some_iff.mp isRow
  have insideIds : count < identities.length := by
    rw [← stable.identified.length_eq]
    exact inside
  have isIdentity : reader.identify row = .ok identities[count] := by
    have both := stable.identified.get inside insideIds
    simpa [isGet] using both
  have fresh : identities[count] ∉ collection.identities := by
    rw [gathered.identities]
    intro seen
    obtain ⟨index, below, same⟩ := List.mem_take_iff_getElem.mp seen
    have equal := (stable.distinct.getElem_inj_iff).mp same
    omega
  have none := known.get?_eq_none fresh
  have notRepeat : isRepeat page identities[count] row = false := by
    rw [isRepeat, none]
    rfl
  have checked : checkIdentity collection page identities[count] row = .ok () := by
    unfold checkIdentity
    rw [if_neg]
    rintro ⟨seen, _⟩
    exact fresh seen
  obtain ⟨expected, isTotal, totalIs, totalShown⟩ :=
    gathered.checkTotal stable within (List.mem_of_getElem? isRow)
  obtain ⟨shown, isOrdinal, originIs, originShown⟩ := gathered.checkOrdinal stable isRow
  refine ⟨(⟨collection.rows ++ [row], collection.identities ++ [identities[count]],
      collection.received + 1, expected, shown⟩, page ++ [(identities[count], row)]),
    ?_, ⟨?_, ?_, ?_, inside, totalIs, fun hasField _ => totalShown hasField, originIs,
    fun hasField isNone => (originShown hasField isNone).elim⟩, ?_⟩
  · unfold ParishSoft.addRow
    rw [isIdentity, except_ok_bind]
    dsimp only
    rw [checked, except_ok_bind, isTotal, except_ok_bind, isOrdinal, except_ok_bind, notRepeat]
    rfl
  · rw [gathered.rows, List.take_add_one, isRow]
    rfl
  · rw [gathered.identities, List.take_add_one, List.getElem?_eq_getElem insideIds]
    rfl
  · rw [gathered.received]
  · intro entry member
    rcases List.mem_append.mp member with old | new
    · exact List.mem_append_left _ (known entry old)
    · rw [List.mem_singleton.mp new]
      exact List.mem_append_right _ List.mem_cons_self

theorem Gathered.foldlM
    (gathered : Gathered contract records identities origin collection count)
    (stable : StableRecords contract reader records identities origin)
    (within : records.length ≤ maximum) {page : PageRows Row Identity}
    (known : PageKnown collection page) {rows rest : List Row}
    (isRows : records.drop count = rows ++ rest) :
    ∃ next, rows.foldlM (ParishSoft.addRow contract reader maximum) (collection, page) =
        .ok next ∧
      Gathered contract records identities origin next.1 (count + rows.length) := by
  induction rows generalizing collection count page with
  | nil => exact ⟨_, rfl, gathered⟩
  | cons row rows inductionHypothesis =>
      have isRow : records[count]? = some row := by
        have first : (records.drop count)[0]? = some row := by
          rw [isRows]
          rfl
        simpa using first
      obtain ⟨middle, isFirst, gatheredFirst, knownFirst⟩ :=
        gathered.addRow stable within known isRow
      have isLater : records.drop (count + 1) = rows ++ rest := by
        rw [← List.drop_drop, isRows]
        rfl
      obtain ⟨next, isNext, gatheredNext⟩ :=
        inductionHypothesis gatheredFirst knownFirst isLater
      refine ⟨next, ?_, ?_⟩
      · rw [List.foldlM_cons, isFirst, except_ok_bind]
        exact isNext
      · have length : count + (row :: rows).length = count + 1 + rows.length := by
          rw [List.length_cons]
          omega
        rw [length]
        exact gatheredNext

/-- A page of the records that come next is kept. -/
theorem Gathered.add
    (gathered : Gathered contract records identities origin collection count)
    (stable : StableRecords contract reader records identities origin)
    (within : records.length ≤ maximum) (size : Nat) :
    ∃ next, collection.add contract reader maximum ((records.drop count).take size) =
        .ok next ∧
      Gathered contract records identities origin next (min (count + size) records.length) := by
  have known : PageKnown collection ([] : PageRows Row Identity) := by
    intro entry member
    cases member
  obtain ⟨next, isNext, gatheredNext⟩ := gathered.foldlM stable within known
    (List.take_append_drop size (records.drop count)).symm
  have length : count + ((records.drop count).take size).length =
      min (count + size) records.length := by
    have inside := gathered.inside
    rw [List.length_take, List.length_drop]
    omega
  refine ⟨next.1, ?_, length ▸ gatheredNext⟩
  unfold Collection.add
  have fits : ¬maximum < collection.received + ((records.drop count).take size).length := by
    rw [gathered.received, length]
    omega
  rw [if_neg fits, isNext]
  rfl

omit [BEq Row] [DecidableEq Identity] in
theorem Gathered.finish
    (gathered : Gathered contract records identities origin collection records.length) :
    collection.finish = .ok records := by
  have met : (collection.expectedTotal.any fun total =>
      decide (total ≠ (collection.received : Int))) = false := by
    cases isExpected : collection.expectedTotal with
    | none => rfl
    | some total =>
        have equal := gathered.total total isExpected
        rw [gathered.received]
        simp [equal]
  unfold Collection.finish
  rw [met, if_neg Bool.false_ne_true, gathered.rows, List.take_length]

end Adding

/-! ## The loop -/

theorem bareRows_array
    {rows : List Row} {size : Nat} (fits : rows.length ≤ size) :
    bareRows (.bare (.array (rows.map some))) size = .ok rows := by
  unfold bareRows arrayRows
  have tooMany : ¬size < (rows.map some).length := by
    rw [List.length_map]
    omega
  have allRecords : (rows.map some).any Option.isNone = false := by
    simp
  dsimp only
  rw [if_neg tooMany, allRecords, if_neg Bool.false_ne_true]
  simp [List.reduceOption, List.filterMap_map]

section Loop

variable [BEq Row] [DecidableEq Identity] {pageSize maximumRecords maximumPages size : Nat}
  {fetch : Nat → Nat → Except ReadFault (Response Row)} {start : Nat → Nat}

/-- A page of the records that come next, without an envelope. -/
theorem Gathered.nextPage
    (gathered : Gathered contract records identities origin collection count)
    (stable : StableRecords contract reader records identities origin)
    (noEnvelope : contract.envelope = false) (within : records.length ≤ maximumRecords)
    (fits : size ≤ pageSize) {rows : List Row} (isRows : rows = (records.drop count).take size)
    (position : Nat) :
    ∃ next, ParishSoft.nextPage contract reader pageSize maximumRecords
        (.bare (.array (rows.map some))) position collection =
          .ok (next, rows.length, rows.isEmpty) ∧
      Gathered contract records identities origin next
        (min (count + size) records.length) := by
  obtain ⟨next, isNext, gatheredNext⟩ := gathered.add stable within size
  refine ⟨next, ?_, gatheredNext⟩
  have short : rows.length ≤ pageSize := by
    rw [isRows, List.length_take]
    omega
  unfold ParishSoft.nextPage
  rw [if_neg (by simp [noEnvelope]), bareRows_array short, except_ok_bind, isRows, isNext]
  rfl

omit [BEq Row] [DecidableEq Identity] in
theorem drop_min_length (first size : Nat) :
    (records.drop first).take size =
      (records.drop (min first records.length)).take size := by
  rcases le_total first records.length with inside | outside
  · rw [min_eq_left inside]
  · rw [min_eq_right outside, List.drop_eq_nil_of_le outside, List.drop_length]

/-- The loop reads what is left, as long as the bound leaves requests for it and one more. -/
theorem Gathered.readLoop
    {left requests position step : Nat}
    (gathered : Gathered contract records identities origin collection
      (min (start position) records.length))
    (stable : StableRecords contract reader records identities origin)
    (noEnvelope : contract.envelope = false) (within : records.length ≤ maximumRecords)
    (some : 0 < size) (fits : size ≤ pageSize) (positive : 0 < position)
    (served : ∀ request position, 0 < position → fetch request position =
      .ok (.bare (.array (((records.drop (start position)).take size).map Option.some))))
    (advances : ∀ position, 0 < position → start position < records.length →
      min (start (position + if step = pageSize ∧ contract.zeroProbe = true then
          ((records.drop (start position)).take size).length else step)) records.length =
        min (start position + size) records.length)
    (enough : records.length ≤ start position + left * size) :
    ParishSoft.readLoop contract reader pageSize maximumRecords fetch (left + 1) requests
      position step collection = .ok records := by
  induction left generalizing requests position collection with
  | zero =>
      have ended : records.length ≤ start position := by omega
      obtain ⟨next, isNext, gatheredNext⟩ := gathered.nextPage stable noEnvelope within fits
        (drop_min_length (start position) size) position
      rw [ParishSoft.readLoop, served requests position positive, except_ok_bind, isNext,
        except_ok_bind]
      have nothing : (records.drop (start position)).take size = [] := by
        rw [List.drop_eq_nil_of_le ended, List.take_nil]
      rw [min_eq_right ended, min_eq_right (Nat.le_add_right _ _)] at gatheredNext
      dsimp only
      rw [nothing, List.isEmpty_nil, if_pos rfl]
      exact gatheredNext.finish
  | succ left inductionHypothesis =>
      obtain ⟨next, isNext, gatheredNext⟩ := gathered.nextPage stable noEnvelope within fits
        (drop_min_length (start position) size) position
      rw [ParishSoft.readLoop, served requests position positive, except_ok_bind, isNext,
        except_ok_bind]
      dsimp only
      by_cases ended : records.length ≤ start position
      · have nothing : (records.drop (start position)).take size = [] := by
          rw [List.drop_eq_nil_of_le ended, List.take_nil]
        rw [min_eq_right ended, min_eq_right (Nat.le_add_right _ _)] at gatheredNext
        rw [nothing, List.isEmpty_nil, if_pos rfl]
        exact gatheredNext.finish
      · have more : start position < records.length := by omega
        have notEmpty : ((records.drop (start position)).take size).isEmpty = false := by
          rw [List.isEmpty_eq_false_iff_exists_mem]
          refine ⟨records[start position], ?_⟩
          rw [List.drop_eq_getElem_cons more]
          obtain ⟨before, rfl⟩ := Nat.exists_eq_succ_of_ne_zero (Nat.ne_of_gt some)
          rw [List.take_succ_cons]
          exact List.mem_cons_self
        rw [notEmpty, if_neg Bool.false_ne_true]
        have moved := advances position positive more
        rw [min_eq_left more.le, ← moved] at gatheredNext
        apply inductionHypothesis gatheredNext
        · omega
        · have total : (left + 1) * size = left * size + size := Nat.succ_mul left size
          omega

end Loop

/-! ## The probe -/

section Probing

variable [BEq Row] [LawfulBEq Row] [DecidableEq Identity] (pageSize : Nat) {size : Nat}

omit [BEq Row] [LawfulBEq Row] [DecidableEq Identity] in
theorem StableRecords.mapM_take
    (stable : StableRecords contract reader records identities origin) (skipped taken : Nat) :
    ((records.drop skipped).take taken).mapM reader.identify =
      .ok ((identities.drop skipped).take taken) := by
  rw [except_mapM_eq_ok_iff]
  exact List.forall₂_take taken (List.forall₂_drop skipped stable.identified)

omit [BEq Row] [LawfulBEq Row] [DecidableEq Identity] in
theorem StableRecords.nodup
    (stable : StableRecords contract reader records identities origin) : records.Nodup := by
  have identified := stable.identified
  have distinct := stable.distinct
  clear stable
  induction identified with
  | nil => exact List.nodup_nil
  | @cons row identity rows identities isFirst rest inductionHypothesis =>
      obtain ⟨fresh, restDistinct⟩ := List.nodup_cons.mp distinct
      refine List.nodup_cons.mpr ⟨?_, inductionHypothesis restDistinct⟩
      intro member
      obtain ⟨other, isOther, same⟩ := exists_output_of_forall₂ rest member
      rw [isFirst] at same
      cases same
      exact fresh isOther

omit [LawfulBEq Row] in
/-- Nothing at position zero. -/
theorem probe_nothing
    (size : Nat) (stable : StableRecords contract reader records identities origin)
    (within : records.length ≤ maximum) :
    ∃ collection, probe contract reader pageSize maximum [] (records.take size) =
        .ok ⟨collection, 2, 1, (records.take size).isEmpty⟩ ∧
      Gathered contract records identities origin collection (min size records.length) := by
  have start : Gathered contract records identities origin
      (Collection.empty : Collection Row Identity) 0 := Gathered.empty
  obtain ⟨first, isFirst, gatheredFirst⟩ := start.add stable within 0
  rw [Nat.zero_add, Nat.zero_min] at gatheredFirst
  obtain ⟨second, isSecond, gatheredSecond⟩ := gatheredFirst.add stable within size
  rw [List.drop_zero, List.take_zero] at isFirst
  rw [List.drop_zero] at isSecond
  rw [Nat.zero_add] at gatheredSecond
  refine ⟨second, ?_, gatheredSecond⟩
  unfold probe
  rw [isFirst, except_ok_bind, List.isEmpty_nil, if_pos rfl, isSecond]
  rfl

/-- The first page at both positions. -/
theorem probe_same
    (size : Nat) (stable : StableRecords contract reader records identities origin)
    (within : records.length ≤ maximum) (some : (records.take size).isEmpty = false) :
    ∃ collection, probe contract reader pageSize maximum (records.take size)
        (records.take size) = .ok ⟨collection, 2, 1, false⟩ ∧
      Gathered contract records identities origin collection (min size records.length) := by
  have start : Gathered contract records identities origin
      (Collection.empty : Collection Row Identity) 0 := Gathered.empty
  obtain ⟨first, isFirst, gatheredFirst⟩ := start.add stable within size
  rw [List.drop_zero] at isFirst
  rw [Nat.zero_add] at gatheredFirst
  refine ⟨first, ?_, gatheredFirst⟩
  unfold probe
  rw [isFirst, except_ok_bind, some, if_neg Bool.false_ne_true, beq_self_eq_true, if_pos rfl]
  rfl

omit [BEq Row] [LawfulBEq Row] [DecidableEq Identity] in
/-- No record of the second page declares another total. -/
theorem Gathered.probeTotalMoved_eq_false
    (gathered : Gathered contract records identities origin collection count)
    (stable : StableRecords contract reader records identities origin) (some : 0 < count)
    {second : List Row} (isSecond : ∀ row ∈ second, row ∈ records) :
    probeTotalMoved contract reader collection second = false := by
  unfold probeTotalMoved
  cases isField : contract.totalField with
  | none => rfl
  | some field =>
      have expected := gathered.totalShown (by rw [isField]; rfl) some
      rw [Option.any_some, List.any_eq_false]
      intro row member
      simp [stable.totals field isField row (isSecond row member), expected]

/-- The records that come next at position one. -/
theorem probe_next
    (size : Nat) (stable : StableRecords contract reader records identities origin)
    (within : records.length ≤ maximum) (some : 0 < min size records.length) :
    ∃ collection, probe contract reader pageSize maximum (records.take size)
        ((records.drop size).take size) =
          .ok ⟨collection, 2, 1, ((records.drop size).take size).isEmpty⟩ ∧
      Gathered contract records identities origin collection
        (min (size + size) records.length) := by
  have start : Gathered contract records identities origin
      (Collection.empty : Collection Row Identity) 0 := Gathered.empty
  obtain ⟨first, isFirst, gatheredFirst⟩ := start.add stable within size
  rw [List.drop_zero] at isFirst
  rw [Nat.zero_add] at gatheredFirst
  obtain ⟨second, isSecond, gatheredSecond⟩ := gatheredFirst.add stable within size
  rw [← drop_min_length] at isSecond
  have count : min (min size records.length + size) records.length =
      min (size + size) records.length := by
    omega
  rw [count] at gatheredSecond
  have length : (records.take size).length = min size records.length := List.length_take
  have notEmpty : (records.take size).isEmpty = false := by
    rw [List.isEmpty_eq_false_iff_exists_mem]
    exact List.exists_mem_of_length_pos (by omega)
  have apart : ∀ row ∈ records.take size, row ∉ (records.drop size).take size := by
    intro row member later
    exact List.disjoint_take_drop stable.nodup le_rfl member (List.mem_of_mem_take later)
  have different : (records.take size == (records.drop size).take size) = false := by
    rw [beq_eq_false_iff_ne]
    intro equal
    obtain ⟨row, member⟩ := List.exists_mem_of_length_pos (length ▸ some)
    exact apart row member (equal ▸ member)
  have members : ∀ row ∈ (records.drop size).take size, row ∈ records :=
    fun row member => List.mem_of_mem_drop (List.mem_of_mem_take member)
  have still := gatheredFirst.probeTotalMoved_eq_false stable some members
  have ids := stable.mapM_take 0 size
  rw [List.drop_zero, List.drop_zero] at ids
  have distinctIds : ((identities.drop size).take size).Nodup :=
    ((List.take_sublist _ _).trans (List.drop_sublist _ _)).nodup stable.distinct
  have noOverlap : ¬∃ identity ∈ (identities.drop size).take size,
      identity ∈ identities.take size := by
    rintro ⟨identity, later, earlier⟩
    exact List.disjoint_take_drop stable.distinct le_rfl earlier (List.mem_of_mem_take later)
  refine ⟨second, ?_, gatheredSecond⟩
  unfold probe
  rw [isFirst, except_ok_bind, notEmpty, if_neg Bool.false_ne_true, different,
    if_neg Bool.false_ne_true, still, if_neg Bool.false_ne_true, ids, except_ok_bind,
    stable.mapM_take size size, except_ok_bind, if_neg (not_not.mpr distinctIds),
    if_neg noOverlap, isSecond]
  rfl

omit [DecidableEq Identity] in
theorem offByOne_shifted (several : 2 ≤ min size records.length) :
    offByOne (records.take size) ((records.drop 1).take size) = true := by
  have length : (records.take size).length = min size records.length := List.length_take
  have later : ((records.drop 1).take size).length = min size (records.length - 1) := by
    rw [List.length_take, List.length_drop]
  have same : (records.take size).drop 1 =
      ((records.drop 1).take size).take ((records.take size).length - 1) := by
    rw [List.drop_take, List.take_take, List.take_eq_take_iff, length, List.length_drop]
    omega
  unfold offByOne
  rw [← same, beq_self_eq_true, length, later]
  simp only [Bool.and_true, Bool.and_eq_true, decide_eq_true_eq]
  omega

/-- The records from the second one on at position one. -/
theorem probe_shifted
    (size : Nat) (stable : StableRecords contract reader records identities origin)
    (within : records.length ≤ maximum) (several : 2 ≤ min size records.length) :
    ∃ collection, probe contract reader pageSize maximum (records.take size)
        ((records.drop 1).take size) =
          .ok ⟨collection, min size records.length, pageSize, false⟩ ∧
      Gathered contract records identities origin collection (min size records.length) := by
  have start : Gathered contract records identities origin
      (Collection.empty : Collection Row Identity) 0 := Gathered.empty
  obtain ⟨first, isFirst, gatheredFirst⟩ := start.add stable within size
  rw [List.drop_zero] at isFirst
  rw [Nat.zero_add] at gatheredFirst
  have length : (records.take size).length = min size records.length := List.length_take
  have some : 0 < min size records.length := by omega
  have notEmpty : (records.take size).isEmpty = false := by
    rw [List.isEmpty_eq_false_iff_exists_mem]
    exact List.exists_mem_of_length_pos (by omega)
  have different : (records.take size == (records.drop 1).take size) = false := by
    rw [beq_eq_false_iff_ne]
    intro equal
    have inside : 0 < records.length := by omega
    have first : records[0] ∈ records.take 1 :=
      List.mem_take_iff_getElem.mpr ⟨0, by omega, rfl⟩
    have second : records[0] ∈ (records.drop 1).take size := by
      rw [← equal]
      exact List.mem_take_iff_getElem.mpr ⟨0, by omega, rfl⟩
    exact List.disjoint_take_drop stable.nodup le_rfl first (List.mem_of_mem_take second)
  have members : ∀ row ∈ (records.drop 1).take size, row ∈ records :=
    fun row member => List.mem_of_mem_drop (List.mem_of_mem_take member)
  have still := gatheredFirst.probeTotalMoved_eq_false stable some members
  have ids := stable.mapM_take 0 size
  rw [List.drop_zero, List.drop_zero] at ids
  have distinctIds : ((identities.drop 1).take size).Nodup :=
    ((List.take_sublist _ _).trans (List.drop_sublist _ _)).nodup stable.distinct
  have overlap : ∃ identity ∈ (identities.drop 1).take size,
      identity ∈ identities.take size := by
    have sameLength := stable.identified.length_eq
    have inside : 1 < identities.length := by omega
    refine ⟨identities[1], ?_, List.mem_take_iff_getElem.mpr ⟨1, by omega, rfl⟩⟩
    refine List.mem_take_iff_getElem.mpr ⟨0, ?_, ?_⟩
    · rw [List.length_drop]
      omega
    · simp
  have shifted := offByOne_shifted several
  refine ⟨first, ?_, gatheredFirst⟩
  unfold probe
  rw [isFirst, except_ok_bind, notEmpty, if_neg Bool.false_ne_true, different,
    if_neg Bool.false_ne_true, still, if_neg Bool.false_ne_true, ids, except_ok_bind,
    stable.mapM_take 1 size, except_ok_bind, if_neg (not_not.mpr distinctIds),
    if_pos overlap, if_pos shifted, length]
  rfl

end Probing

/-! ## A whole read -/

section Reading

variable [BEq Row] [LawfulBEq Row] [DecidableEq Identity]
  {pageSize maximumRecords maximumPages size : Nat} {dialect : Dialect}

/-- A provider whose pages hold as many records as there are, up to a size of its own. -/
def Dialect.fetch (dialect : Dialect) (records : List Row) (size : Nat) :
    Nat → Nat → Except ReadFault (Response Row) :=
  fun _ position => .ok (.bare (.array ((dialect.page records size position).map some)))

omit [BEq Row] [LawfulBEq Row] [DecidableEq Identity] in
theorem Dialect.fetch_of_pos (request : Nat) {position : Nat} (positive : 0 < position) :
    dialect.fetch records size request position =
      .ok (.bare (.array (((records.drop (dialect.start size position)).take size).map
        some))) := by
  unfold Dialect.fetch Dialect.page
  have notFirst : ¬(dialect = .oneBased ∧ position = 0) := by
    rintro ⟨_, atZero⟩
    omega
  rw [if_neg notFirst]

omit [BEq Row] [LawfulBEq Row] [DecidableEq Identity] in
theorem Dialect.page_zero (dialect : Dialect) (records : List Row) (size : Nat) :
    dialect.page records size 0 = if dialect = .oneBased then [] else records.take size := by
  unfold Dialect.page
  by_cases one : dialect = .oneBased
  · rw [if_pos ⟨one, rfl⟩, if_pos one]
  · have atStart : dialect.start size 0 = 0 := by
      cases dialect with
      | zeroBased => exact Nat.zero_mul size
      | oneBased => exact (one rfl).elim
      | aliased => exact Nat.zero_mul size
      | rowOffset => rfl
    rw [if_neg fun both => one both.1, if_neg one, atStart, List.drop_zero]

omit [BEq Row] [LawfulBEq Row] [DecidableEq Identity] in
theorem Dialect.page_one (dialect : Dialect) (records : List Row) (size : Nat) :
    dialect.page records size 1 = (records.drop (dialect.start size 1)).take size := by
  unfold Dialect.page
  exact if_neg fun both => Nat.one_ne_zero both.2

/-- Going on from a position by one page, or by the rows of a page. -/
def Advances (contract : PageContract Field) (records : List Row) (pageSize size step : Nat)
    (dialect : Dialect) : Prop :=
  ∀ position, 0 < position → dialect.start size position < records.length →
    min (dialect.start size (position + if step = pageSize ∧ contract.zeroProbe = true then
        ((records.drop (dialect.start size position)).take size).length else step))
      records.length =
    min (dialect.start size position + size) records.length

omit [BEq Row] [LawfulBEq Row] [DecidableEq Identity] in
theorem advances_one
    (some : 0 < size) (fits : size ≤ pageSize) (paged : dialect = .rowOffset → size = 1) :
    Advances contract records pageSize size 1 dialect := by
  intro position positive more
  have one : (if 1 = pageSize ∧ contract.zeroProbe = true then
      ((records.drop (dialect.start size position)).take size).length else 1) = 1 := by
    split_ifs with single
    · rw [List.length_take, List.length_drop]
      omega
    · rfl
  rw [one]
  congr 1
  cases dialect with
  | zeroBased => exact Nat.succ_mul position size
  | oneBased =>
      obtain ⟨before, rfl⟩ := Nat.exists_eq_succ_of_ne_zero (Nat.ne_of_gt positive)
      exact Nat.succ_mul before size
  | aliased =>
      obtain ⟨before, rfl⟩ := Nat.exists_eq_succ_of_ne_zero (Nat.ne_of_gt positive)
      exact Nat.succ_mul before size
  | rowOffset =>
      have single := paged rfl
      simp [Dialect.start, single]

omit [BEq Row] [LawfulBEq Row] [DecidableEq Identity] in
theorem advances_rows
    (probes : contract.zeroProbe = true) :
    Advances contract records pageSize size pageSize .rowOffset := by
  intro position _ more
  rw [if_pos ⟨rfl, probes⟩, List.length_take, List.length_drop]
  simp only [Dialect.start] at more ⊢
  omega

/-- Where a probe leaves the scan. -/
structure ProbeExact (contract : PageContract Field) (records : List Row)
    (identities : List Identity) (origin : Int) (pageSize size : Nat) (dialect : Dialect)
    (result : ProbeResult Row Identity) : Prop where
  gathered : Gathered contract records identities origin result.collection
    (min (dialect.start size result.position) records.length)
  positive : 0 < result.position
  reached : min size records.length ≤ dialect.start size result.position
  finished : result.done = true → records.length ≤ dialect.start size result.position
  advances : Advances contract records pageSize size result.step dialect

omit [BEq Row] [LawfulBEq Row] [DecidableEq Identity] in
theorem length_le_of_isEmpty
    {skipped : Nat} (some : 0 < size)
    (isEmpty : ((records.drop skipped).take size).isEmpty = true) :
    records.length ≤ skipped := by
  have nothing := List.isEmpty_iff.mp isEmpty
  have length := congrArg List.length nothing
  rw [List.length_take, List.length_drop, List.length_nil] at length
  omega

omit [LawfulBEq Row] in
theorem probe_exact_nil
    (stable : StableRecords contract reader ([] : List Row) identities origin) :
    ∃ result, probe contract reader pageSize maximumRecords (dialect.page [] size 0)
        (dialect.page [] size 1) = .ok result ∧
      ProbeExact contract ([] : List Row) identities origin pageSize size dialect result := by
  have empty : ∀ position, dialect.page ([] : List Row) size position = [] := by
    intro position
    unfold Dialect.page
    split_ifs
    · rfl
    · rw [List.drop_nil, List.take_nil]
  obtain ⟨collection, isProbed, gathered⟩ :=
    probe_nothing pageSize size stable (Nat.zero_le maximumRecords)
  rw [List.take_nil] at isProbed
  refine ⟨_, by rw [empty, empty, isProbed], ?_, Nat.succ_pos 1, ?_, ?_, ?_⟩
  · simpa using gathered
  · simp
  · simp
  · intro position _ more
    exact absurd more (Nat.not_lt_zero _)

theorem probe_exact_rowOffset
    (stable : StableRecords contract reader records identities origin)
    (probes : contract.zeroProbe = true) (within : records.length ≤ maximumRecords)
    (some : 0 < size) (fits : size ≤ pageSize) (hasRecords : 0 < records.length) :
    ∃ result, probe contract reader pageSize maximumRecords (records.take size)
        ((records.drop 1).take size) = .ok result ∧
      ProbeExact contract records identities origin pageSize size .rowOffset result := by
  by_cases several : 2 ≤ min size records.length
  · obtain ⟨collection, isProbed, gathered⟩ :=
      probe_shifted pageSize size stable within several
    refine ⟨_, isProbed, ?_, ?_, le_rfl, fun no => (Bool.false_ne_true no).elim,
      advances_rows probes⟩
    · simpa [Dialect.start] using gathered
    · dsimp only
      omega
  · have small : size = 1 ∨ records.length = 1 := by omega
    have samePage : (records.drop 1).take size = (records.drop size).take size := by
      rcases small with single | alone
      · rw [single]
      · rw [List.drop_eq_nil_of_le alone.le, List.drop_eq_nil_of_le (by omega)]
    obtain ⟨collection, isProbed, gathered⟩ :=
      probe_next pageSize size stable within (by omega)
    refine ⟨_, by rw [samePage, isProbed], ?_, Nat.succ_pos 1, ?_, ?_, ?_⟩
    · have count : min (Dialect.rowOffset.start size 2) records.length =
          min (size + size) records.length := by
        simp only [Dialect.start]
        omega
      dsimp only
      rw [count]
      exact gathered
    · simp only [Dialect.start]
      omega
    · intro isEmpty
      have short := length_le_of_isEmpty some isEmpty
      simp only [Dialect.start]
      omega
    · rcases small with single | alone
      · exact advances_one some fits fun _ => single
      · intro position positive more
        simp only [Dialect.start] at more
        omega

theorem probe_exact
    (stable : StableRecords contract reader records identities origin)
    (probes : contract.zeroProbe = true) (within : records.length ≤ maximumRecords)
    (some : 0 < size) (fits : size ≤ pageSize) :
    ∃ result, probe contract reader pageSize maximumRecords (dialect.page records size 0)
        (dialect.page records size 1) = .ok result ∧
      ProbeExact contract records identities origin pageSize size dialect result := by
  by_cases noRecords : records = []
  · subst noRecords
    exact probe_exact_nil stable
  have hasRecords : 0 < records.length := List.length_pos_iff.mpr noRecords
  have filled : 0 < min size records.length := by omega
  have paged : ∀ other : Dialect, other ≠ .rowOffset →
      Advances contract records pageSize size 1 other := by
    intro other isPaged
    exact advances_one some fits fun isRow => (isPaged isRow).elim
  have firstPage : (records.take size).isEmpty = false := by
    rw [List.isEmpty_eq_false_iff_exists_mem]
    exact List.exists_mem_of_length_pos (by rw [List.length_take]; exact filled)
  rw [Dialect.page_zero, Dialect.page_one]
  cases dialect with
  | zeroBased =>
      obtain ⟨collection, isProbed, gathered⟩ := probe_next pageSize size stable within filled
      have isStart : Dialect.zeroBased.start size 1 = size := Nat.one_mul size
      have further : Dialect.zeroBased.start size 2 = size + size := Nat.two_mul size
      rw [if_neg (by decide), isStart]
      refine ⟨⟨collection, 2, 1, _⟩, isProbed, ?_, Nat.succ_pos 1, ?_, ?_,
        paged .zeroBased (by decide)⟩
      · dsimp only
        rw [further]
        exact gathered
      · dsimp only
        omega
      · intro isEmpty
        have short := length_le_of_isEmpty some isEmpty
        dsimp only
        omega
  | oneBased =>
      obtain ⟨collection, isProbed, gathered⟩ := probe_nothing pageSize size stable within
      have isStart : Dialect.oneBased.start size 1 = 0 := Nat.zero_mul size
      have further : Dialect.oneBased.start size 2 = size := Nat.one_mul size
      rw [if_pos rfl, isStart, List.drop_zero]
      refine ⟨⟨collection, 2, 1, _⟩, isProbed, ?_, Nat.succ_pos 1, ?_, ?_,
        paged .oneBased (by decide)⟩
      · dsimp only
        rw [further]
        exact gathered
      · dsimp only
        omega
      · intro isEmpty
        dsimp only at isEmpty
        rw [firstPage] at isEmpty
        cases isEmpty
  | aliased =>
      obtain ⟨collection, isProbed, gathered⟩ :=
        probe_same pageSize size stable within firstPage
      have isStart : Dialect.aliased.start size 1 = 0 := Nat.zero_mul size
      have further : Dialect.aliased.start size 2 = size := Nat.one_mul size
      rw [if_neg (by decide), isStart, List.drop_zero]
      refine ⟨⟨collection, 2, 1, false⟩, isProbed, ?_, Nat.succ_pos 1, ?_,
        fun no => (Bool.false_ne_true no).elim, paged .aliased (by decide)⟩
      · dsimp only
        rw [further]
        exact gathered
      · dsimp only
        omega
  | rowOffset =>
      have isStart : Dialect.rowOffset.start size 1 = 1 := rfl
      rw [if_neg (by decide), isStart]
      exact probe_exact_rowOffset stable probes within some fits hasRecords

/-- A stable collection is read whole, whichever dialect its provider speaks. A contract
that does not probe needs a provider that counts pages from one. -/
theorem readPages_exact
    (stable : StableRecords contract reader records identities origin)
    (valid : ValidBounds contract pageSize maximumRecords maximumPages)
    (noEnvelope : contract.envelope = false) (within : records.length ≤ maximumRecords)
    (some : 0 < size) (fits : size ≤ pageSize)
    (speaks : contract.zeroProbe = true ∨ dialect = .oneBased ∨ dialect = .aliased)
    (requests : 3 ≤ maximumPages) (enough : records.length ≤ (maximumPages - 2) * size) :
    readPages contract reader pageSize maximumRecords maximumPages
      (dialect.fetch records size) = .ok records := by
  have enoughMore : (maximumPages - 2) * size = (maximumPages - 3) * size + size := by
    have next : maximumPages - 2 = maximumPages - 3 + 1 := by omega
    rw [next, Nat.succ_mul]
  unfold readPages
  rw [if_neg (not_not.mpr valid)]
  cases probes : contract.zeroProbe with
  | true =>
      rw [if_pos rfl]
      have pageFits : ∀ position, (dialect.page records size position).length ≤ pageSize := by
        intro position
        unfold Dialect.page
        split_ifs
        · exact Nat.zero_le _
        · rw [List.length_take]
          omega
      have fetched : ∀ request position, request < maximumPages →
          boundedFetch maximumPages (dialect.fetch records size) request position =
            .ok (.bare (.array ((dialect.page records size position).map Option.some))) := by
        intro request position bounded
        unfold boundedFetch
        rw [if_neg (by omega)]
        rfl
      obtain ⟨result, isProbed, exactly⟩ := probe_exact stable probes
        within some fits
      rw [fetched 0 0 (by omega), except_ok_bind, bareRows_array (pageFits 0), except_ok_bind,
        fetched 1 1 (by omega), except_ok_bind, bareRows_array (pageFits 1), except_ok_bind,
        isProbed, except_ok_bind]
      cases done : result.done with
      | true =>
          rw [if_pos rfl]
          have gathered := exactly.gathered
          rw [min_eq_right (exactly.finished done)] at gathered
          exact gathered.finish
      | false =>
          rw [if_neg Bool.false_ne_true]
          have left : maximumPages - 2 = maximumPages - 3 + 1 := by omega
          rw [left]
          apply exactly.gathered.readLoop stable noEnvelope within some fits exactly.positive
          · intro request position positive
            exact Dialect.fetch_of_pos request positive
          · exact exactly.advances
          · have reached := exactly.reached
            omega
  | false =>
      rw [if_neg Bool.false_ne_true]
      have paged : dialect ≠ .rowOffset := by
        rcases speaks with isProbe | rfl | rfl
        · rw [probes] at isProbe
          cases isProbe
        · decide
        · decide
      have atStart : dialect.start size 1 = 0 := by
        rcases speaks with isProbe | rfl | rfl
        · rw [probes] at isProbe
          cases isProbe
        · exact Nat.zero_mul size
        · exact Nat.zero_mul size
      have start : Gathered contract records identities origin
          (Collection.empty : Collection Row Identity)
          (min (dialect.start size 1) records.length) := by
        rw [atStart, Nat.zero_min]
        exact Gathered.empty
      have left : maximumPages = maximumPages - 1 + 1 := by omega
      rw [left]
      apply start.readLoop stable noEnvelope within some fits Nat.one_pos
      · intro request position positive
        exact Dialect.fetch_of_pos request positive
      · exact advances_one some fits fun isRow => (paged isRow).elim
      · have more : (maximumPages - 2) * size ≤ (maximumPages - 1) * size :=
          Nat.mul_le_mul_right size (by omega)
        omega

/-! ## Envelopes -/

/-- A provider that declares its total and its number of pages with every page. -/
def envelopeFetch (records : List Row) (size : Nat) :
    Nat → Nat → Except ReadFault (Response Row) :=
  fun _ position =>
    .ok (.envelope
      (.array (((records.drop ((position - 1) * size)).take size).map some))
      (some ⟨records.length, pageCount records.length size, size, position⟩))

omit [BEq Row] [LawfulBEq Row] [DecidableEq Identity] in
theorem pageCount_le_iff
    (some : 0 < size) (total position : Nat) :
    pageCount total size ≤ position ↔ total ≤ position * size := by
  unfold pageCount
  have positive : (0 : Int) < size := by omega
  have nonnegative : (0 : Int) ≤ (size : Int) := positive.le
  rw [Int.fdiv_eq_ediv_of_nonneg _ nonnegative, ← Int.lt_add_one_iff,
    Int.ediv_lt_iff_lt_mul positive, Int.add_mul]
  have product : ((position * size : Nat) : Int) = position * size := Int.natCast_mul _ _
  constructor
  · intro below
    have bound : (total : Int) ≤ position * size := by omega
    rw [← product] at bound
    exact Int.ofNat_le.mp bound
  · intro bound
    have cast : (total : Int) ≤ position * size := by
      rw [← product]
      exact Int.ofNat_le.mpr bound
    omega

omit [BEq Row] [LawfulBEq Row] [DecidableEq Identity] in
theorem Gathered.withTotal
    (gathered : Gathered contract records identities origin collection count) :
    Gathered contract records identities origin
      { collection with expectedTotal := some (records.length : Int) } count where
  rows := gathered.rows
  identities := gathered.identities
  received := gathered.received
  inside := gathered.inside
  total := by
    intro total isTotal
    exact (Option.some.inj isTotal).symm
  totalShown := fun _ _ => rfl
  origin := gathered.origin
  originShown := gathered.originShown

omit [BEq Row] [LawfulBEq Row] [DecidableEq Identity] in
theorem pageCount_zero (some : 0 < size) : pageCount 0 size = 0 := by
  unfold pageCount
  rw [Int.fdiv_eq_ediv_of_nonneg _ (by omega)]
  apply Int.ediv_eq_zero_of_lt
  · omega
  · omega

omit [BEq Row] [LawfulBEq Row] [DecidableEq Identity] in
/-- A page's declared numbers fit its rows. -/
theorem envelopeRows_exact
    (some : 0 < size) (within : records.length ≤ maximumRecords) {before : Nat}
    (more : before = 0 ∨ before * size < records.length) :
    envelopeRows
        (.envelope (.array (((records.drop (before * size)).take size).map Option.some))
          (Option.some ⟨records.length, pageCount records.length size, size,
            ((before + 1 : Nat) : Int)⟩))
        (before + 1) size maximumRecords =
      .ok ((records.drop (before * size)).take size, (records.length : Int),
        decide (records.length ≤ (before + 1) * size)) := by
  have counted : (before : Int) + 1 ≤ max (pageCount records.length size) 1 := by
    rcases more with atStart | inside
    · omega
    · have notYet : ¬pageCount records.length size ≤ before := by
        rw [pageCount_le_iff some]
        omega
      omega
  have consistent : (PagingInfo.mk records.length (pageCount records.length size) size
      ((before + 1 : Nat) : Int)).Consistent (before + 1) size maximumRecords := by
    refine ⟨by dsimp only; omega, by dsimp only; omega, rfl, rfl, ?_, ?_⟩
    · dsimp only
      split_ifs with noRecords
      · rw [noRecords, pageCount_zero some]
        exact Or.inl rfl
      · rfl
    · simpa using counted
  have rows : arrayRows (.array (((records.drop (before * size)).take size).map Option.some))
      size = .ok ((records.drop (before * size)).take size) :=
    bareRows_array (by rw [List.length_take]; omega)
  have length : (((records.drop (before * size)).take size).length : Int) =
      min (size : Int) (max 0 ((records.length : Int) - (((before + 1 : Nat) : Int) - 1) *
        size)) := by
    have product : ((before * size : Nat) : Int) = before * size := Int.natCast_mul _ _
    have shift : ((before + 1 : Nat) : Int) - 1 = before := by omega
    rw [shift, ← product, List.length_take, List.length_drop]
    omega
  have last : decide (max (pageCount records.length size) 1 ≤ ((before + 1 : Nat) : Int)) =
      decide (records.length ≤ (before + 1) * size) := by
    rw [decide_eq_decide, ← pageCount_le_iff some]
    omega
  unfold envelopeRows
  dsimp only
  rw [if_neg (not_not.mpr consistent)]
  unfold envelopeData
  dsimp only
  rw [rows, except_ok_bind, if_neg (not_not.mpr length), last]
  rfl

omit [LawfulBEq Row] in
theorem Gathered.nextPage_envelope
    {before : Nat}
    (gathered : Gathered contract records identities origin collection
      (min (before * size) records.length))
    (stable : StableRecords contract reader records identities origin)
    (envelope : contract.envelope = true) (within : records.length ≤ maximumRecords)
    (some : 0 < size) (more : before = 0 ∨ before * size < records.length) :
    ∃ next, ParishSoft.nextPage contract reader size maximumRecords
        (.envelope (.array (((records.drop (before * size)).take size).map Option.some))
          (Option.some ⟨records.length, pageCount records.length size, size,
            ((before + 1 : Nat) : Int)⟩))
        (before + 1) collection =
          .ok (next, ((records.drop (before * size)).take size).length,
            decide (records.length ≤ (before + 1) * size)) ∧
      Gathered contract records identities origin next
        (min ((before + 1) * size) records.length) := by
  obtain ⟨next, isNext, gatheredNext⟩ := gathered.withTotal.add stable within size
  rw [← drop_min_length] at isNext
  have count : min (min (before * size) records.length + size) records.length =
      min ((before + 1) * size) records.length := by
    have product : (before + 1) * size = before * size + size := Nat.succ_mul before size
    rw [product]
    omega
  rw [count] at gatheredNext
  have agrees : (collection.expectedTotal.any fun expected =>
      decide (expected ≠ (records.length : Int))) = false := by
    cases isExpected : collection.expectedTotal with
    | none => rfl
    | some expected => simp [gathered.total expected isExpected]
  refine ⟨next, ?_, gatheredNext⟩
  unfold ParishSoft.nextPage
  rw [if_pos envelope, envelopeRows_exact some within more, except_ok_bind]
  dsimp only
  rw [agrees, if_neg Bool.false_ne_true, isNext]
  rfl

omit [LawfulBEq Row] in
theorem Gathered.readLoop_envelope
    {left requests before : Nat}
    (gathered : Gathered contract records identities origin collection
      (min (before * size) records.length))
    (stable : StableRecords contract reader records identities origin)
    (envelope : contract.envelope = true) (probes : contract.zeroProbe = false)
    (within : records.length ≤ maximumRecords) (some : 0 < size)
    (more : before = 0 ∨ before * size < records.length)
    (enough : records.length ≤ (before + 1 + left) * size) :
    ParishSoft.readLoop contract reader size maximumRecords (envelopeFetch records size)
      (left + 1) requests (before + 1) 1 collection = .ok records := by
  induction left generalizing requests before collection with
  | zero =>
      obtain ⟨next, isNext, gatheredNext⟩ :=
        gathered.nextPage_envelope stable envelope within some more
      have last : records.length ≤ (before + 1) * size := enough
      rw [ParishSoft.readLoop]
      change (Except.ok _ >>= _) = _
      rw [except_ok_bind, Nat.add_sub_cancel, isNext, except_ok_bind]
      dsimp only
      rw [min_eq_right last] at gatheredNext
      rw [if_pos (decide_eq_true last)]
      exact gatheredNext.finish
  | succ left inductionHypothesis =>
      obtain ⟨next, isNext, gatheredNext⟩ :=
        gathered.nextPage_envelope stable envelope within some more
      rw [ParishSoft.readLoop]
      change (Except.ok _ >>= _) = _
      rw [except_ok_bind, Nat.add_sub_cancel, isNext, except_ok_bind]
      dsimp only
      by_cases last : records.length ≤ (before + 1) * size
      · rw [min_eq_right last] at gatheredNext
        rw [if_pos (decide_eq_true last)]
        exact gatheredNext.finish
      · rw [if_neg (by simpa using last), if_neg (by simp [probes])]
        apply inductionHypothesis gatheredNext
        · exact Or.inr (by omega)
        · have same : before + 1 + 1 + left = before + 1 + (left + 1) := by omega
          rw [same]
          exact enough

omit [LawfulBEq Row] in
/-- A stable collection with envelopes is read whole, without a request past its last
page. -/
theorem readPages_envelope_exact
    (stable : StableRecords contract reader records identities origin)
    (valid : ValidBounds contract size maximumRecords maximumPages)
    (envelope : contract.envelope = true) (within : records.length ≤ maximumRecords)
    (enough : records.length ≤ maximumPages * size) :
    readPages contract reader size maximumRecords maximumPages (envelopeFetch records size) =
      .ok records := by
  have some : 0 < size := valid.1
  have hasPages : 0 < maximumPages := valid.2.2.2.2.1
  have probes : contract.zeroProbe = false := by
    cases isProbe : contract.zeroProbe with
    | true => exact (valid.2.2.2.2.2.2 ⟨envelope, isProbe⟩).elim
    | false => rfl
  have start : Gathered contract records identities origin
      (Collection.empty : Collection Row Identity) (min (0 * size) records.length) := by
    rw [Nat.zero_mul, Nat.zero_min]
    exact Gathered.empty
  unfold readPages
  rw [if_neg (not_not.mpr valid), probes, if_neg Bool.false_ne_true]
  have left : maximumPages = maximumPages - 1 + 1 := by omega
  rw [left]
  apply start.readLoop_envelope stable envelope probes within some (Or.inl rfl)
  have same : 0 + 1 + (maximumPages - 1) = maximumPages := by omega
  rw [same]
  exact enough

end Reading

/-! ## Three members -/

/-- Contacts are listed without totals, row numbers or an envelope. -/
def contactList : PageContract Unit :=
  ⟨false, true, none, none⟩

def memberNumber : RowReader Nat Unit Nat where
  identify row := if row = 0 then .error (.incomplete "Source record identity is unavailable.")
    else .ok row
  intField _ _ := none

theorem threeMembers_stable :
    StableRecords contactList memberNumber [7, 8, 9] [7, 8, 9] 0 := by
  refine ⟨by decide, ?_, ?_, Or.inl rfl, ?_⟩
  · simp [memberNumber]
  · intro field isField
    cases isField
  · intro field isField
    cases isField

theorem threeMembers_exact :
    readPages contactList memberNumber 2 100 10 (Dialect.rowOffset.fetch [7, 8, 9] 2) =
      .ok [7, 8, 9] :=
  readPages_exact threeMembers_stable (by decide) rfl (by decide) (by decide) (by decide)
    (Or.inl rfl) (by decide) (by decide)

theorem threeMembers_sound :
    ∃ pages, ProvenRead contactList memberNumber 2 100 10
      (Dialect.rowOffset.fetch [7, 8, 9] 2) [7, 8, 9] pages :=
  readPages_sound (by decide)

theorem threeMembers_envelope_exact :
    readPages { contactList with envelope := true, zeroProbe := false } memberNumber 2 100 10
      (envelopeFetch [7, 8, 9] 2) = .ok [7, 8, 9] := by
  have stable : StableRecords { contactList with envelope := true, zeroProbe := false }
      memberNumber [7, 8, 9] [7, 8, 9] 0 :=
    ⟨threeMembers_stable.distinct, threeMembers_stable.identified, threeMembers_stable.totals,
      threeMembers_stable.firstOrdinal, threeMembers_stable.ordinals⟩
  exact readPages_envelope_exact stable (by decide) rfl (by decide) (by decide)

end ParishKit.ParishSoft
