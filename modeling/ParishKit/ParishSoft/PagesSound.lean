import Mathlib.Data.List.Nodup
import ParishKit.ParishSoft.Pages

/-!
# What a paginated read proves

Whatever the provider answers, a read that succeeds returns records of different
identities, and every total and row number it was shown fits what it received.
-/

namespace ParishKit.ParishSoft

open ParishKit.Lib

variable {Row Field Identity : Type} [BEq Row] [DecidableEq Identity]
  {contract : PageContract Field} {reader : RowReader Row Field Identity} {maximum : Nat}
  {collection : Collection Row Identity}

/-! ## One row -/

omit [BEq Row] [DecidableEq Identity] in
theorem checkTotal_eq_ok
    {row : Row} {expected : Option Int}
    (checked : checkTotal contract reader maximum collection row = .ok expected) :
    (contract.totalField = none ∧ expected = collection.expectedTotal) ∨
      ∃ field total, contract.totalField = some field ∧
        reader.intField field row = some total ∧ expected = some total ∧
        ∀ declared ∈ collection.expectedTotal, declared = total := by
  unfold checkTotal at checked
  split at checked
  case h_1 noField =>
    cases checked
    exact Or.inl ⟨noField, rfl⟩
  case h_2 field isField =>
    split at checked
    case h_1 => cases checked
    case h_2 total isTotal =>
      split_ifs at checked with outside changed
      cases checked
      refine Or.inr ⟨field, total, isField, isTotal, rfl, ?_⟩
      intro declared isDeclared
      rw [Option.mem_def.mp isDeclared] at changed
      have same : total = declared := by simpa using changed
      exact same.symm

omit [BEq Row] [DecidableEq Identity] in
theorem checkOrdinal_eq_ok
    {row : Row} {shown : Option Int}
    (checked : checkOrdinal contract reader collection row = .ok shown) :
    (contract.ordinalField = none ∧ shown = collection.ordinalOrigin) ∨
      ∃ field, ∃ origin : Int, contract.ordinalField = some field ∧
        reader.intField field row = some (collection.received + origin) ∧
        shown = some origin ∧
        (collection.ordinalOrigin = some origin ∨
          collection.ordinalOrigin = none ∧ (origin = 0 ∨ origin = 1)) := by
  unfold checkOrdinal at checked
  split at checked
  case h_1 noField =>
    cases checked
    exact Or.inl ⟨noField, rfl⟩
  case h_2 field isField =>
    split at checked
    case h_1 => cases checked
    case h_2 ordinal isOrdinal =>
      split at checked
      case h_1 noOrigin =>
        split_ifs at checked with notFirst moved
        cases checked
        have atStart : ordinal = collection.received + ordinal := not_not.mp moved
        refine Or.inr ⟨field, ordinal, isField, by rw [← atStart, isOrdinal], rfl,
          Or.inr ⟨noOrigin, ?_⟩⟩
        omega
      case h_2 origin isOrigin =>
        split_ifs at checked with moved
        cases checked
        have inPlace : ordinal = collection.received + origin := not_not.mp moved
        exact Or.inr ⟨field, origin, isField, by rw [← inPlace, isOrdinal], rfl,
          Or.inl isOrigin⟩

/-- The entries of a page are rows that the collection has kept. -/
def PageKept (reader : RowReader Row Field Identity) (collection : Collection Row Identity)
    (page : PageRows Row Identity) : Prop :=
  ∀ entry ∈ page, entry.2 ∈ collection.rows ∧ reader.identify entry.2 = .ok entry.1

omit [BEq Row] in
theorem PageRows.mem_of_get?
    {page : PageRows Row Identity} {identity : Identity} {kept : Row}
    (found : PageRows.get? page identity = some kept) : (identity, kept) ∈ page := by
  obtain ⟨entry, isFound, rfl⟩ := Option.map_eq_some_iff.mp found
  have same : entry.1 = identity := by simpa using List.find?_some isFound
  rw [← same]
  exact List.mem_of_find?_eq_some isFound

/-! ## The collection -/

/-- What the checks establish of the rows received so far. -/
structure Proven (contract : PageContract Field) (reader : RowReader Row Field Identity)
    (collection : Collection Row Identity) (received : List Row) : Prop where
  counted : collection.received = received.length
  identified : List.Forall₂ (fun row identity => reader.identify row = .ok identity)
    collection.rows collection.identities
  distinct : collection.identities.Nodup
  kept : collection.rows.Sublist received
  /-- What was received and not kept repeats a kept record. -/
  covered : ∀ row ∈ received, ∃ kept ∈ collection.rows,
    reader.identify kept = reader.identify row ∧ (kept = row ∨ (kept == row) = true)
  totals : ∀ field, contract.totalField = some field → ∀ row ∈ received,
    ∃ total, collection.expectedTotal = some total ∧ reader.intField field row = some total
  origins : ∀ origin ∈ collection.ordinalOrigin, origin = 0 ∨ origin = 1
  ordinals : ∀ field, contract.ordinalField = some field → ∀ (index : Nat) row,
    received[index]? = some row → ∃ origin, collection.ordinalOrigin = some origin ∧
      reader.intField field row = some (index + origin)

omit [DecidableEq Identity] in
theorem Proven.empty : Proven contract reader Collection.empty [] where
  counted := rfl
  identified := List.Forall₂.nil
  distinct := List.nodup_nil
  kept := List.Sublist.slnil
  covered := by simp
  totals := by simp
  origins := by simp [Collection.empty]
  ordinals := by simp

/-- A row that passes the checks leaves what they establish. -/
theorem Proven.addRow
    {received : List Row} {page : PageRows Row Identity} {row : Row}
    {next : Collection Row Identity × PageRows Row Identity}
    (proven : Proven contract reader collection received)
    (pageKept : PageKept reader collection page)
    (added : ParishSoft.addRow contract reader maximum (collection, page) row = .ok next) :
    Proven contract reader next.1 (received ++ [row]) ∧ PageKept reader next.1 next.2 := by
  obtain ⟨identity, isIdentity, added⟩ := except_bind_eq_ok added
  obtain ⟨⟨⟩, unseen, added⟩ := except_bind_eq_ok added
  obtain ⟨expected, isTotal, added⟩ := except_bind_eq_ok added
  obtain ⟨origin, isOrdinal, added⟩ := except_bind_eq_ok added
  have totals : ∀ field, contract.totalField = some field → ∀ other ∈ received ++ [row],
      ∃ total, expected = some total ∧ reader.intField field other = some total := by
    intro field isField other member
    rcases checkTotal_eq_ok isTotal with ⟨noField, _⟩ | ⟨own, total, isOwn, shows, rfl, same⟩
    · rw [noField] at isField
      cases isField
    · rw [isOwn] at isField
      cases isField
      refine ⟨total, rfl, ?_⟩
      rcases List.mem_append.mp member with old | new
      · obtain ⟨declared, isDeclared, showsOther⟩ := proven.totals field isOwn other old
        rw [showsOther, same declared isDeclared]
      · rw [List.mem_singleton.mp new, shows]
  have origins : ∀ shown ∈ origin, shown = 0 ∨ shown = 1 := by
    intro shown isShown
    rcases checkOrdinal_eq_ok isOrdinal with
      ⟨_, rfl⟩ | ⟨_, first, _, _, rfl, isOrigin | ⟨_, small⟩⟩
    · exact proven.origins shown isShown
    · exact proven.origins shown (isOrigin.trans isShown)
    · cases isShown
      exact small
  have ordinals : ∀ field, contract.ordinalField = some field → ∀ (index : Nat) other,
      (received ++ [row])[index]? = some other → ∃ shown, origin = some shown ∧
        reader.intField field other = some (index + shown) := by
    intro field isField index other found
    rcases checkOrdinal_eq_ok isOrdinal with
      ⟨noField, _⟩ | ⟨own, shown, isOwn, shows, rfl, starts⟩
    · rw [noField] at isField
      cases isField
    · rw [isOwn] at isField
      cases isField
      refine ⟨shown, rfl, ?_⟩
      by_cases old : index < received.length
      · rw [List.getElem?_append_left old] at found
        obtain ⟨before, isBefore, showsOther⟩ := proven.ordinals field isOwn index other found
        rcases starts with isOrigin | ⟨noOrigin, _⟩
        · rw [isOrigin] at isBefore
          cases isBefore
          exact showsOther
        · rw [noOrigin] at isBefore
          cases isBefore
      · have inside := (List.getElem?_eq_some_iff.mp found).1
        rw [List.length_append, List.length_singleton] at inside
        have atEnd : index = received.length := by omega
        rw [atEnd, List.getElem?_concat_length] at found
        cases found
        rw [shows, proven.counted, atEnd]
  by_cases repeated : isRepeat page identity row = true
  · rw [if_pos repeated] at added
    cases added
    obtain ⟨kept, isKept, equal⟩ := (Option.any_eq_true _ _).mp repeated
    have keptEntry := pageKept _ (PageRows.mem_of_get? isKept)
    refine ⟨⟨?_, proven.identified, proven.distinct, ?_, ?_, totals, origins, ordinals⟩,
      pageKept⟩
    · simp [proven.counted]
    · exact proven.kept.trans (List.sublist_append_left received [row])
    · intro other member
      rcases List.mem_append.mp member with old | new
      · exact proven.covered other old
      · rw [List.mem_singleton.mp new]
        exact ⟨kept, keptEntry.1, keptEntry.2.trans isIdentity.symm, Or.inr equal⟩
  · rw [if_neg repeated] at added
    cases added
    have fresh : identity ∉ collection.identities := by
      intro seen
      unfold checkIdentity at unseen
      rw [if_pos ⟨seen, by simpa using repeated⟩] at unseen
      split_ifs at unseen
    refine ⟨⟨?_, ?_, ?_, ?_, ?_, totals, origins, ordinals⟩, ?_⟩
    · simp [proven.counted]
    · exact List.rel_append proven.identified
        (List.Forall₂.cons isIdentity List.Forall₂.nil)
    · rw [List.nodup_append]
      refine ⟨proven.distinct, List.nodup_singleton _, ?_⟩
      intro old isOld new isNew equal
      rw [List.mem_singleton.mp isNew] at equal
      exact fresh (equal ▸ isOld)
    · exact proven.kept.append (List.Sublist.refl [row])
    · intro other member
      rcases List.mem_append.mp member with old | new
      · obtain ⟨kept, isKept, same⟩ := proven.covered other old
        exact ⟨kept, List.mem_append_left _ isKept, same⟩
      · rw [List.mem_singleton.mp new]
        exact ⟨row, List.mem_append_right _ List.mem_cons_self, rfl, Or.inl rfl⟩
    · intro entry member
      rcases List.mem_append.mp member with old | new
      · exact ⟨List.mem_append_left _ (pageKept entry old).1, (pageKept entry old).2⟩
      · rw [List.mem_singleton.mp new]
        exact ⟨List.mem_append_right _ List.mem_cons_self, isIdentity⟩

omit [BEq Row] [DecidableEq Identity] in
/-- A total that is declared once stays. -/
theorem checkTotal_keeps
    {row : Row} {expected : Option Int} {total : Int}
    (declared : collection.expectedTotal = some total)
    (checked : checkTotal contract reader maximum collection row = .ok expected) :
    expected = some total := by
  rcases checkTotal_eq_ok checked with ⟨_, rfl⟩ | ⟨_, shown, _, _, rfl, same⟩
  · exact declared
  · rw [same total declared]

/-- A page that passes the checks leaves what they establish. -/
theorem Proven.foldlM
    {received rows : List Row} {page : PageRows Row Identity}
    {next : Collection Row Identity × PageRows Row Identity}
    (proven : Proven contract reader collection received)
    (pageKept : PageKept reader collection page)
    (added : rows.foldlM (ParishSoft.addRow contract reader maximum) (collection, page) =
      .ok next) :
    Proven contract reader next.1 (received ++ rows) ∧
      ∀ total, collection.expectedTotal = some total → next.1.expectedTotal = some total := by
  induction rows generalizing received collection page with
  | nil =>
      cases added
      rw [List.append_nil]
      exact ⟨proven, fun _ declared => declared⟩
  | cons row rows inductionHypothesis =>
      rw [List.foldlM_cons] at added
      obtain ⟨middle, first, rest⟩ := except_bind_eq_ok added
      obtain ⟨provenFirst, pageFirst⟩ := proven.addRow pageKept first
      obtain ⟨provenRest, totalRest⟩ := inductionHypothesis provenFirst pageFirst rest
      rw [List.append_assoc, List.singleton_append] at provenRest
      refine ⟨provenRest, ?_⟩
      intro total declared
      apply totalRest
      obtain ⟨identity, _, first⟩ := except_bind_eq_ok first
      obtain ⟨⟨⟩, _, first⟩ := except_bind_eq_ok first
      obtain ⟨expected, isTotal, first⟩ := except_bind_eq_ok first
      obtain ⟨origin, _, first⟩ := except_bind_eq_ok first
      have kept := checkTotal_keeps declared isTotal
      by_cases repeated : isRepeat page identity row = true
      · rw [if_pos repeated] at first
        cases first
        exact kept
      · rw [if_neg repeated] at first
        cases first
        exact kept

theorem Proven.add
    {received rows : List Row} {next : Collection Row Identity}
    (proven : Proven contract reader collection received)
    (added : collection.add contract reader maximum rows = .ok next) :
    Proven contract reader next (received ++ rows) ∧
      (received ++ rows).length ≤ maximum ∧
      ∀ total, collection.expectedTotal = some total → next.expectedTotal = some total := by
  unfold Collection.add at added
  split_ifs at added with tooMany
  obtain ⟨state, folded, rfl⟩ := except_map_eq_ok added
  have start : PageKept reader collection ([] : PageRows Row Identity) := by
    intro entry member
    cases member
  obtain ⟨provenNext, totals⟩ := proven.foldlM start folded
  refine ⟨provenNext, ?_, totals⟩
  rw [proven.counted] at tooMany
  rw [List.length_append]
  omega

omit [DecidableEq Identity] in
/-- A declared total changes nothing that was established. -/
theorem Proven.withTotal
    {received : List Row} (proven : Proven contract reader collection received) {total : Int}
    (agrees : ∀ declared ∈ collection.expectedTotal, declared = total) :
    Proven contract reader { collection with expectedTotal := some total } received where
  counted := proven.counted
  identified := proven.identified
  distinct := proven.distinct
  kept := proven.kept
  covered := proven.covered
  totals := by
    intro field isField row member
    obtain ⟨shown, isShown, shows⟩ := proven.totals field isField row member
    exact ⟨total, rfl, by rw [shows, agrees shown isShown]⟩
  origins := proven.origins
  ordinals := proven.ordinals

/-! ## Pages in turn -/

section Reading

variable {pageSize maximumRecords maximumPages : Nat}
  {fetch : Nat → Nat → Except ReadFault (Response Row)}

omit [BEq Row] [DecidableEq Identity] in
/-- One accepted answer: its rows, whether it is the last, and the total it declares. -/
def PageAt (contract : PageContract Field) (pageSize maximumRecords : Nat)
    (response : Response Row) (position : Nat) (page : List Row) (done : Bool)
    (declared : Option Int) : Prop :=
  if contract.envelope then
    ∃ total, declared = some total ∧
      envelopeRows response position pageSize maximumRecords = .ok (page, total, done)
  else declared = none ∧ bareRows response pageSize = .ok page ∧ done = page.isEmpty

theorem Proven.nextPage
    {received : List Row} {response : Response Row} {position count : Nat} {done : Bool}
    {next : Collection Row Identity} (proven : Proven contract reader collection received)
    (read : ParishSoft.nextPage contract reader pageSize maximumRecords response position
      collection = .ok (next, count, done)) :
    ∃ page declared, PageAt contract pageSize maximumRecords response position page done
        declared ∧
      Proven contract reader next (received ++ page) ∧
      (received ++ page).length ≤ maximumRecords ∧
      (∀ total, collection.expectedTotal = some total → next.expectedTotal = some total) ∧
      ∀ total ∈ declared, next.expectedTotal = some total := by
  unfold ParishSoft.nextPage at read
  cases envelope : contract.envelope with
  | true =>
      rw [if_pos envelope] at read
      obtain ⟨⟨page, total, last⟩, isPage, read⟩ := except_bind_eq_ok read
      dsimp only at read
      split_ifs at read with changed
      obtain ⟨added, isAdded, read⟩ := except_bind_eq_ok read
      cases read
      have agrees : ∀ declared ∈ collection.expectedTotal, declared = total := by
        intro declared isDeclared
        rw [Option.mem_def.mp isDeclared] at changed
        simpa using changed
      obtain ⟨provenNext, bounded, totals⟩ := (proven.withTotal agrees).add isAdded
      refine ⟨page, some total, ?_, provenNext, bounded, ?_, ?_⟩
      · unfold PageAt
        rw [if_pos envelope]
        exact ⟨total, rfl, isPage⟩
      · intro declared isDeclared
        rw [agrees declared isDeclared]
        exact totals total rfl
      · intro declared isDeclared
        cases isDeclared
        exact totals total rfl
  | false =>
      rw [if_neg (by simp [envelope])] at read
      obtain ⟨page, isPage, read⟩ := except_bind_eq_ok read
      obtain ⟨added, isAdded, read⟩ := except_bind_eq_ok read
      cases read
      obtain ⟨provenNext, bounded, totals⟩ := proven.add isAdded
      refine ⟨page, none, ?_, provenNext, bounded, totals, ?_⟩
      · unfold PageAt
        rw [if_neg (by simp [envelope])]
        exact ⟨rfl, isPage, rfl⟩
      · intro declared isDeclared
        cases isDeclared

/-- The loop reads pages one after another until one is the last. -/
theorem Proven.readLoop
    {left requests position step : Nat} {received rows : List Row}
    (proven : Proven contract reader collection received)
    (read : ParishSoft.readLoop contract reader pageSize maximumRecords fetch left requests
      position step collection = .ok rows) :
    ∃ (pages : List (List Row)) (final : Collection Row Identity),
      0 < pages.length ∧ pages.length ≤ left ∧
      Proven contract reader final (received ++ pages.flatten) ∧
      (received ++ pages.flatten).length ≤ maximumRecords ∧ final.finish = .ok rows ∧
      (∀ total, collection.expectedTotal = some total → final.expectedTotal = some total) ∧
      ∀ (index : Nat) page, pages[index]? = some page → ∃ place response declared,
        fetch (requests + index) place = .ok response ∧
        PageAt contract pageSize maximumRecords response place page
          (decide (index + 1 = pages.length)) declared ∧
        (∀ total ∈ declared, final.expectedTotal = some total) ∧
        (contract.zeroProbe = false → place = position + index * step) := by
  induction left generalizing requests position collection received with
  | zero => cases read
  | succ left inductionHypothesis =>
      rw [ParishSoft.readLoop] at read
      obtain ⟨response, isResponse, read⟩ := except_bind_eq_ok read
      obtain ⟨⟨next, count, done⟩, isPage, read⟩ := except_bind_eq_ok read
      obtain ⟨page, declared, isAnswer, provenNext, bounded, totals, isDeclared⟩ :=
        proven.nextPage isPage
      cases done with
      | true =>
          refine ⟨[page], next, by simp, by simp, by simpa using provenNext, by simpa using bounded,
            read, totals, ?_⟩
          intro index other found
          cases index with
          | zero =>
              cases found
              exact ⟨position, response, declared, isResponse, isAnswer, isDeclared, by simp⟩
          | succ index => cases found
      | false =>
          dsimp only at read
          rw [if_neg Bool.false_ne_true] at read
          obtain ⟨pages, final, some, within, provenFinal, boundedFinal, finished,
            totalsFinal, each⟩ :=
            inductionHypothesis provenNext read
          have flat : received ++ page ++ pages.flatten = received ++ (page :: pages).flatten := by
            simp
          rw [flat] at provenFinal boundedFinal
          refine ⟨page :: pages, final, Nat.succ_pos _, Nat.succ_le_succ within, provenFinal, boundedFinal,
            finished, fun total isTotal => totalsFinal total (totals total isTotal), ?_⟩
          intro index other found
          cases index with
          | zero =>
              cases found
              have notLast : decide (0 + 1 = (page :: pages).length) = false := by
                apply decide_eq_false
                rw [List.length_cons]
                omega
              rw [notLast]
              exact ⟨position, response, declared, isResponse, isAnswer,
                fun total isTotal => totalsFinal total (isDeclared total isTotal), by simp⟩
          | succ index =>
              rw [List.getElem?_cons_succ] at found
              obtain ⟨place, answer, shown, isFetched, isRead, agrees, isPlace⟩ :=
                each index other found
              refine ⟨place, answer, shown, ?_, ?_, agrees, ?_⟩
              · rw [← isFetched]
                congr 1
                omega
              · have last : decide (index + 1 + 1 = (page :: pages).length) =
                    decide (index + 1 = pages.length) := by
                  simp
                rw [last]
                exact isRead
              · intro noProbe
                rw [isPlace noProbe, if_neg (by simp [noProbe]), Nat.succ_mul]
                omega

/-- A probe keeps the first page, or both. -/
theorem probe_proven
    {first second : List Row} {result : ProbeResult Row Identity}
    (probed : probe contract reader pageSize maximumRecords first second = .ok result) :
    ∃ pages : List (List Row), (pages = [first] ∨ pages = [first, second]) ∧
      Proven contract reader result.collection pages.flatten ∧
      pages.flatten.length ≤ maximumRecords := by
  obtain ⟨collection, isFirst, probed⟩ := except_bind_eq_ok probed
  obtain ⟨provenFirst, boundedFirst, _⟩ := Proven.empty.add isFirst
  rw [List.nil_append] at provenFirst boundedFirst
  have onlyFirst : Proven contract reader collection [first].flatten ∧
      [first].flatten.length ≤ maximumRecords := by
    simpa using And.intro provenFirst boundedFirst
  have both : ∀ next, collection.add contract reader maximumRecords second = .ok next →
      Proven contract reader next [first, second].flatten ∧
        [first, second].flatten.length ≤ maximumRecords := by
    intro next isSecond
    obtain ⟨provenSecond, boundedSecond, _⟩ := provenFirst.add isSecond
    simpa using And.intro provenSecond boundedSecond
  by_cases isEmpty : first.isEmpty = true
  · rw [if_pos isEmpty] at probed
    obtain ⟨next, isSecond, probed⟩ := except_bind_eq_ok probed
    cases probed
    exact ⟨[first, second], Or.inr rfl, both next isSecond⟩
  rw [if_neg isEmpty] at probed
  by_cases same : (first == second) = true
  · rw [if_pos same] at probed
    cases probed
    exact ⟨[first], Or.inl rfl, onlyFirst⟩
  rw [if_neg same] at probed
  by_cases moved : probeTotalMoved contract reader collection second = true
  · rw [if_pos moved] at probed
    cases probed
  rw [if_neg moved] at probed
  obtain ⟨firstIds, _, probed⟩ := except_bind_eq_ok probed
  obtain ⟨secondIds, _, probed⟩ := except_bind_eq_ok probed
  split_ifs at probed with repeats overlaps
  · cases probed
    exact ⟨[first], Or.inl rfl, onlyFirst⟩
  · obtain ⟨next, isSecond, probed⟩ := except_bind_eq_ok probed
    cases probed
    exact ⟨[first, second], Or.inr rfl, both next isSecond⟩

/-- What a successful read shows of its rows and of the pages it took them from. -/
structure ProvenRead (contract : PageContract Field) (reader : RowReader Row Field Identity)
    (pageSize maximumRecords maximumPages : Nat)
    (fetch : Nat → Nat → Except ReadFault (Response Row)) (rows : List Row)
    (pages : List (List Row)) : Prop where
  distinct : ∃ identities, identities.Nodup ∧
    List.Forall₂ (fun row identity => reader.identify row = .ok identity) rows identities
  kept : rows.Sublist pages.flatten
  covered : ∀ row ∈ pages.flatten, ∃ kept ∈ rows,
    reader.identify kept = reader.identify row ∧ (kept = row ∨ (kept == row) = true)
  bounded : pages.flatten.length ≤ maximumRecords
  totals : ∀ field, contract.totalField = some field → ∀ row ∈ pages.flatten,
    reader.intField field row = some (pages.flatten.length : Int)
  ordinals : ∀ field, contract.ordinalField = some field → ∃ origin : Int,
    (origin = 0 ∨ origin = 1) ∧ ∀ (index : Nat) row, pages.flatten[index]? = some row →
      reader.intField field row = some (index + origin)
  answers : ∀ page ∈ pages, ∃ request < maximumPages, ∃ position response,
    fetch request position = .ok response ∧ (bareRows response pageSize = .ok page ∨
      ∃ total done,
        envelopeRows response position pageSize maximumRecords = .ok (page, total, done))
  inOrder : contract.zeroProbe = false → 0 < pages.length ∧
    ∀ (index : Nat) page, pages[index]? = some page → ∃ response declared,
      fetch index (index + 1) = .ok response ∧
      PageAt contract pageSize maximumRecords response (index + 1) page
        (decide (index + 1 = pages.length)) declared ∧
      ∀ total ∈ declared, total = pages.flatten.length

omit [DecidableEq Identity] in
/-- What is left to check at the end of a scan. -/
theorem Proven.finish
    {received rows : List Row} (proven : Proven contract reader collection received)
    (finished : collection.finish = .ok rows) :
    rows = collection.rows ∧
      ∀ total, collection.expectedTotal = some total → total = received.length := by
  unfold Collection.finish at finished
  split_ifs at finished with unmet
  cases finished
  refine ⟨rfl, ?_⟩
  intro total isTotal
  rw [isTotal] at unmet
  rw [← proven.counted]
  simpa using unmet

omit [DecidableEq Identity] in
theorem Proven.provenRead
    {rows : List Row} {pages : List (List Row)}
    (proven : Proven contract reader collection pages.flatten)
    (bounded : pages.flatten.length ≤ maximumRecords) (finished : collection.finish = .ok rows)
    (answers : ∀ page ∈ pages, ∃ request < maximumPages, ∃ position response,
      fetch request position = .ok response ∧ (bareRows response pageSize = .ok page ∨
        ∃ total done,
          envelopeRows response position pageSize maximumRecords = .ok (page, total, done)))
    (inOrder : contract.zeroProbe = false → 0 < pages.length ∧
      ∀ (index : Nat) page, pages[index]? = some page → ∃ response declared,
        fetch index (index + 1) = .ok response ∧
        PageAt contract pageSize maximumRecords response (index + 1) page
          (decide (index + 1 = pages.length)) declared ∧
        ∀ total ∈ declared, total = pages.flatten.length) :
    ProvenRead contract reader pageSize maximumRecords maximumPages fetch rows pages := by
  obtain ⟨rfl, met⟩ := proven.finish finished
  refine ⟨⟨collection.identities, proven.distinct, proven.identified⟩, proven.kept,
    proven.covered, bounded, ?_, ?_, answers, inOrder⟩
  · intro field isField row member
    obtain ⟨total, isTotal, shows⟩ := proven.totals field isField row member
    rw [shows, met total isTotal]
  · intro field isField
    cases isOrigin : collection.ordinalOrigin with
    | none =>
        refine ⟨0, Or.inl rfl, ?_⟩
        intro index row found
        obtain ⟨origin, isSome, _⟩ := proven.ordinals field isField index row found
        rw [isOrigin] at isSome
        cases isSome
    | some origin =>
        refine ⟨origin, proven.origins origin isOrigin, ?_⟩
        intro index row found
        obtain ⟨shown, isShown, shows⟩ := proven.ordinals field isField index row found
        rw [isOrigin] at isShown
        cases isShown
        exact shows

omit [BEq Row] [DecidableEq Identity] in
theorem answer_of_pageAt
    {response : Response Row} {position : Nat} {page : List Row} {done : Bool}
    {declared : Option Int}
    (isAnswer : PageAt contract pageSize maximumRecords response position page done declared) :
    bareRows response pageSize = .ok page ∨ ∃ total done,
      envelopeRows response position pageSize maximumRecords = .ok (page, total, done) := by
  unfold PageAt at isAnswer
  split_ifs at isAnswer with envelope
  · obtain ⟨total, _, isPage⟩ := isAnswer
    exact Or.inr ⟨total, done, isPage⟩
  · exact Or.inl isAnswer.2.1

omit [BEq Row] [DecidableEq Identity] in
theorem boundedFetch_eq_ok
    {requests position : Nat} {response : Response Row}
    (fetched : boundedFetch maximumPages fetch requests position = .ok response) :
    requests < maximumPages ∧ fetch requests position = .ok response := by
  unfold boundedFetch at fetched
  split_ifs at fetched with exhausted
  exact ⟨by omega, fetched⟩

/-- A read that succeeds is proven by its pages, whatever the provider answers. -/
theorem readPages_sound
    {rows : List Row}
    (read : readPages contract reader pageSize maximumRecords maximumPages fetch = .ok rows) :
    ∃ pages, ProvenRead contract reader pageSize maximumRecords maximumPages fetch rows
      pages := by
  unfold readPages at read
  split_ifs at read with valid zeroProbe
  · obtain ⟨firstResponse, isFirst, read⟩ := except_bind_eq_ok read
    obtain ⟨first, firstRows, read⟩ := except_bind_eq_ok read
    obtain ⟨secondResponse, isSecond, read⟩ := except_bind_eq_ok read
    obtain ⟨second, secondRows, read⟩ := except_bind_eq_ok read
    obtain ⟨result, probed, read⟩ := except_bind_eq_ok read
    obtain ⟨firstBound, isFirst⟩ := boundedFetch_eq_ok isFirst
    obtain ⟨secondBound, isSecond⟩ := boundedFetch_eq_ok isSecond
    obtain ⟨pages, which, proven, bounded⟩ := probe_proven probed
    have answers : ∀ page ∈ pages, ∃ request < maximumPages, ∃ position response,
        fetch request position = .ok response ∧ (bareRows response pageSize = .ok page ∨
          ∃ total done,
            envelopeRows response position pageSize maximumRecords =
              .ok (page, total, done)) := by
      have atFirst : ∃ request < maximumPages, ∃ position response,
          fetch request position = .ok response ∧ (bareRows response pageSize = .ok first ∨
            ∃ total done, envelopeRows response position pageSize maximumRecords =
              .ok (first, total, done)) :=
        ⟨0, firstBound, 0, firstResponse, isFirst, Or.inl firstRows⟩
      have atSecond : ∃ request < maximumPages, ∃ position response,
          fetch request position = .ok response ∧ (bareRows response pageSize = .ok second ∨
            ∃ total done, envelopeRows response position pageSize maximumRecords =
              .ok (second, total, done)) :=
        ⟨1, secondBound, 1, secondResponse, isSecond, Or.inl secondRows⟩
      intro page member
      rcases which with rfl | rfl
      · rw [List.mem_singleton.mp member]
        exact atFirst
      · rcases List.mem_cons.mp member with rfl | later
        · exact atFirst
        · rw [List.mem_singleton.mp later]
          exact atSecond
    have noOrder : contract.zeroProbe = false → False := by
      rw [zeroProbe]
      exact Bool.noConfusion
    split_ifs at read with done
    · exact ⟨pages, proven.provenRead bounded read answers fun no => (noOrder no).elim⟩
    · obtain ⟨more, final, _, within, provenFinal, boundedFinal, finished, _, each⟩ :=
        proven.readLoop read
      rw [← List.flatten_append] at provenFinal boundedFinal
      refine ⟨pages ++ more, provenFinal.provenRead boundedFinal finished ?_
        fun no => (noOrder no).elim⟩
      intro page member
      rcases List.mem_append.mp member with old | new
      · exact answers page old
      · obtain ⟨index, isPage⟩ := List.mem_iff_getElem?.mp new
        obtain ⟨place, response, declared, isFetched, isAnswer, _, _⟩ := each index page isPage
        have inside := (List.getElem?_eq_some_iff.mp isPage).1
        exact ⟨2 + index, by omega, place, response, isFetched, answer_of_pageAt isAnswer⟩
  · have start : Proven contract reader (Collection.empty : Collection Row Identity) [] :=
      Proven.empty
    obtain ⟨pages, final, some, within, proven, bounded, finished, _, each⟩ :=
      start.readLoop read
    rw [List.nil_append] at proven bounded
    have met := (proven.finish finished).2
    refine ⟨pages, proven.provenRead bounded finished ?_ ?_⟩
    · intro page member
      obtain ⟨index, isPage⟩ := List.mem_iff_getElem?.mp member
      obtain ⟨place, response, declared, isFetched, isAnswer, _, _⟩ := each index page isPage
      have inside := (List.getElem?_eq_some_iff.mp isPage).1
      exact ⟨0 + index, by omega, place, response, isFetched, answer_of_pageAt isAnswer⟩
    · intro noProbe
      refine ⟨some, ?_⟩
      intro index page isPage
      obtain ⟨place, response, declared, isFetched, isAnswer, agrees, isPlace⟩ :=
        each index page isPage
      have isNext : place = index + 1 := by
        rw [isPlace noProbe]
        omega
      rw [isNext, Nat.zero_add] at isFetched
      rw [isNext] at isAnswer
      exact ⟨response, declared, isFetched, isAnswer,
        fun total isTotal => met total (agrees total isTotal)⟩

end Reading

end ParishKit.ParishSoft
