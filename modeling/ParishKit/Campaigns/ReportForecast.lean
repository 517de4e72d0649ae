import ParishKit.Campaigns.ReportPaging

/-!
# The forecast of a report

The next send after an instant, and the next few as a review lists them. Each is
looked up after the due instant of the one before, so of sends that share an
instant only the first is listed.
-/

namespace ParishKit.Campaigns

open ParishKit.Lib

namespace ReportPlan

/-- The date the campaign's clock shows at an instant. -/
def localDate (zone : Zone) (instant : Int) : Int :=
  zone.clock instant / 86400000000

/-- A pause without an end that has begun. -/
def openPause (plan : ReportPlan) (due : Int) : Bool :=
  plan.pauses.any fun range =>
    range.stop.isNone && decide (range.start ≤ due)

/-- The loop of `next_slot`, from the candidate `send`. The outer `none` is a
send that raises; no search needs more steps than there are dates. -/
def nextSlotLoop (plan : ReportPlan) (resolve : Int → Int) (after : Int) :
    Nat → Option Int → Option (Option ScheduleSlot)
  | _, none => some none
  | 0, some _ => none
  | left + 1, some send =>
      let due := plan.due resolve send
      if plan.openPause due then
        some none
      else if after < due then
        (plan.sends resolve send due).bind fun isSend =>
          if isSend then some (some (plan.slot send due))
          else plan.nextSlotLoop resolve after left (plan.next send)
      else
        plan.nextSlotLoop resolve after left (plan.next send)

/-- `next_slot`: from two days before the local date. -/
def nextSlot (plan : ReportPlan) (zone : Zone) (after : Int) :
    Option (Option ScheduleSlot) :=
  let today := localDate zone after
  let from' := today - min (today - dateMin) 2
  plan.nextSlotLoop (resolveLocal zone) after (dateMax - from').toNat
    (plan.next from')

/-- The loop of `upcoming_slots`, which looks up at most `left` more slots. -/
def upcomingLoop (plan : ReportPlan) (zone : Zone) :
    Nat → Int → Option (List ScheduleSlot)
  | 0, _ => some []
  | left + 1, after =>
      (plan.nextSlot zone after).bind fun found =>
        match found with
        | none => some []
        | some slot =>
            (plan.upcomingLoop zone left slot.dueAt).map (slot :: ·)

/-- `upcoming_slots`, of a report. -/
def upcomingSlots (plan : ReportPlan) (zone : Zone) (now : Int) (limit : Nat) :
    Option SchedulePage :=
  (plan.upcomingLoop zone (limit + 1) now).map fun slots =>
    ⟨slots.take limit, none, decide (slots.length ≤ limit)⟩

end ReportPlan

section

variable {values : ReportValues} {start stop : Int} {plan : ReportPlan}
  {zone : Zone}

/-! ## Sends -/

/-- A send that paging can reach. -/
structure ReportPlan.Reached (plan : ReportPlan) (zone : Zone) (send : Int) :
    Prop where
  isDate : dateMin < send ∧ send ≤ dateMax
  candidate : plan.candidate send = true
  sends : plan.sends (resolveLocal zone) send
    (plan.due (resolveLocal zone) send) = some true

/-- Only the last date there is can raise: the day after it has no midnight. -/
theorem sends_exists
    (accepted : scheduleFields values = true)
    (isPlan : ReportPlan.fromValues values start stop = some plan)
    {send : Int} (inside : send - plan.offset < dateMax) :
    ∃ isSend, plan.sends (resolveLocal zone) send
      (plan.due (resolveLocal zone) send) = some isSend := by
  obtain ⟨isSend, sends, _⟩ := sends_of_slotDue accepted isPlan send inside
    (resolveLocal_mono zone (by unfold wall; omega))
  exact ⟨isSend, sends⟩

/-- The slots that exhaustive paging gives by some cutoff are those of the
sends. -/
theorem produces_iff
    (accepted : scheduleFields values = true)
    (isPlan : ReportPlan.fromValues values start stop = some plan)
    (slot : ScheduleSlot) :
    (∃ through limit, 1 ≤ limit ∧ limit ≤ 1000 ∧
        Produces plan (resolveLocal zone) through limit slot) ↔
      ∃ send, plan.Reached zone send ∧
        slot = plan.slot send (plan.due (resolveLocal zone) send) := by
  constructor
  · rintro ⟨through, limit, _, _, produced⟩
    obtain ⟨send, later, isDate, holds, _, sends, isSlot⟩ :=
      produces_spec accepted isPlan produced
    exact ⟨send, ⟨⟨later, isDate⟩, holds, sends⟩, isSlot⟩
  · rintro ⟨send, isReached, rfl⟩
    have offset := offset_cases isPlan
    obtain ⟨later, isDate⟩ := isReached.isDate
    obtain ⟨cursor, paged, isNext⟩ : ∃ cursor,
        Paged plan (resolveLocal zone) (plan.due (resolveLocal zone) send) 1
          cursor ∧ plan.next (plan.start cursor) = some send := by
      refine paged_reaches accepted isPlan isReached.candidate isDate ?_
        Paged.start (Int.le_refl dateMin) later
      intro other _ earlier _
      exact ⟨due_mono zone (Int.le_of_lt earlier),
        sends_exists accepted isPlan (by omega)⟩
    have isPage := page_one isNext (Int.le_refl _) isReached.sends
    exact ⟨_, 1, Nat.le_refl 1, by decide, cursor, _, paged, isPage,
      List.mem_singleton_self _⟩

/-! ## The next slot -/

/-- Once an open pause has begun, no later candidate is a send. -/
theorem sends_of_openPause
    {due later : Int} (begun : plan.openPause due = true) (le : due ≤ later)
    (send : Int) :
    plan.sends (resolveLocal zone) send later = some false := by
  obtain ⟨range, member, isOpen⟩ := List.any_eq_true.mp begun
  rw [Bool.and_eq_true, Option.isNone_iff_eq_none, decide_eq_true_eq] at isOpen
  have isPaused : paused plan.pauses later = true := by
    refine List.any_eq_true.mpr ⟨range, member, ?_⟩
    rw [isOpen.1, Option.all_none, Bool.and_true, decide_eq_true_eq]
    omega
  unfold ReportPlan.sends
  simp only [isPaused, Bool.or_true, if_true]

/-- No candidate between two dates is a send due after an instant. -/
def NoneSent (plan : ReportPlan) (zone : Zone) (after base last : Int) : Prop :=
  ∀ send, base < send → send ≤ last → plan.candidate send = true →
    after < plan.due (resolveLocal zone) send →
    plan.sends (resolveLocal zone) send
      (plan.due (resolveLocal zone) send) = some false

/-- What a search from the candidates after `base` comes to. -/
inductive Searched (plan : ReportPlan) (zone : Zone) (after base : Int) :
    Option (Option ScheduleSlot) → Prop where
  | found {send : Int} (later : base < send) (isDate : send ≤ dateMax)
      (candidate : plan.candidate send = true)
      (due : after < plan.due (resolveLocal zone) send)
      (sends : plan.sends (resolveLocal zone) send
        (plan.due (resolveLocal zone) send) = some true)
      (passed : NoneSent plan zone after base (send - 1)) :
      Searched plan zone after base
        (some (some (plan.slot send (plan.due (resolveLocal zone) send))))
  | ended (passed : NoneSent plan zone after base dateMax) :
      Searched plan zone after base (some none)
  | raised {send : Int} (later : base < send) (isDate : send ≤ dateMax)
      (candidate : plan.candidate send = true)
      (due : after < plan.due (resolveLocal zone) send)
      (sends : plan.sends (resolveLocal zone) send
        (plan.due (resolveLocal zone) send) = none)
      (passed : NoneSent plan zone after base (send - 1)) :
      Searched plan zone after base none

/-- A search that has passed a candidate by has searched from before it. -/
theorem Searched.of_later
    {after base send : Int} {found : Option (Option ScheduleSlot)}
    (passed : NoneSent plan zone after base send)
    (searched : Searched plan zone after send found) (le : base ≤ send) :
    Searched plan zone after base found := by
  have joined : ∀ last, NoneSent plan zone after send last →
      NoneSent plan zone after base last := by
    intro last noneLater other later isLast
    by_cases here : other ≤ send
    · exact passed other later here
    · exact noneLater other (Int.not_le.mp here) isLast
  cases searched with
  | found later isDate candidate due sends noneLater =>
      exact .found (by omega) isDate candidate due sends (joined _ noneLater)
  | ended noneLater => exact .ended (joined _ noneLater)
  | raised later isDate candidate due sends noneLater =>
      exact .raised (by omega) isDate candidate due sends (joined _ noneLater)

theorem nextSlotLoop_searched
    (accepted : scheduleFields values = true)
    (isPlan : ReportPlan.fromValues values start stop = some plan)
    (after : Int) {left : Nat} {base : Int} (enough : dateMax - base ≤ left) :
    Searched plan zone after base
      (plan.nextSlotLoop (resolveLocal zone) after left (plan.next base)) := by
  induction left generalizing base with
  | zero =>
      have isFirst := next_firstAfter accepted isPlan base
      cases isNext : plan.next base with
      | none =>
          refine .ended fun send later isDate => ?_
          omega
      | some send =>
          rw [isNext] at isFirst
          have isDate := isFirst.2.1.2
          have later := isFirst.1
          omega
  | succ left inductionHypothesis =>
      have isFirst := next_firstAfter accepted isPlan base
      cases isNext : plan.next base with
      | none =>
          rw [isNext] at isFirst
          refine .ended fun send later isDate holds => ?_
          exact absurd ⟨holds, isDate⟩ (isFirst send later)
      | some send =>
          rw [isNext] at isFirst
          obtain ⟨later, ⟨isCandidate, isDate⟩, least⟩ := isFirst
          have onlySend : ∀ other, base < other → other ≤ send →
              plan.candidate other = true → other = send := by
            intro other isAfter le holds
            by_contra different
            exact least other isAfter (by omega) ⟨holds, by omega⟩
          have noneBefore : NoneSent plan zone after base (send - 1) := by
            intro other isAfter before holds
            have same := onlySend other isAfter (by omega) holds
            omega
          have onward : (after < plan.due (resolveLocal zone) send →
                plan.sends (resolveLocal zone) send
                  (plan.due (resolveLocal zone) send) = some false) →
              Searched plan zone after base
                (plan.nextSlotLoop (resolveLocal zone) after left
                  (plan.next send)) := by
            intro passed
            refine Searched.of_later ?_ (inductionHypothesis (by omega))
              (Int.le_of_lt later)
            intro other isAfter le holds isDue
            have same := onlySend other isAfter le holds
            subst same
            exact passed isDue
          rw [ReportPlan.nextSlotLoop]
          by_cases isOpen : plan.openPause
              (plan.due (resolveLocal zone) send) = true
          · rw [if_pos isOpen]
            refine .ended fun other isAfter _ holds _ => ?_
            by_cases before : other < send
            · have same := onlySend other isAfter (Int.le_of_lt before) holds
              omega
            · exact sends_of_openPause isOpen
                (due_mono zone (Int.not_lt.mp before)) other
          · rw [if_neg isOpen]
            by_cases isDue : after < plan.due (resolveLocal zone) send
            · rw [if_pos isDue]
              cases sends : plan.sends (resolveLocal zone) send
                  (plan.due (resolveLocal zone) send) with
              | none =>
                  exact .raised later isDate isCandidate isDue sends noneBefore
              | some isSend =>
                  cases isSend with
                  | true =>
                      exact .found later isDate isCandidate isDue sends
                        noneBefore
                  | false => exact onward fun _ => sends
            · rw [if_neg isDue]
              exact onward fun due => absurd due isDue

/-- The last date there is is a candidate whose slot has no next midnight. -/
def RaisesAfter (plan : ReportPlan) (zone : Zone) (after : Int) : Prop :=
  plan.candidate dateMax = true ∧
    plan.sends (resolveLocal zone) dateMax
      (plan.due (resolveLocal zone) dateMax) = none ∧
    after < plan.due (resolveLocal zone) dateMax

/-- No send before the date a search starts from is due after its instant. -/
theorem due_le_of_started
    (accepted : scheduleFields values = true)
    (isPlan : ReportPlan.fromValues values start stop = some plan)
    {after send : Int} (later : dateMin < send)
    (started : send ≤ ReportPlan.localDate zone after -
      min (ReportPlan.localDate zone after - dateMin) 2) :
    plan.due (resolveLocal zone) send ≤ after := by
  have time : plan.time < 86400000000 := by
    rw [(fromValues_eq_some isPlan).1]
    unfold scheduleFields at accepted
    simp only [Bool.and_eq_true, decide_eq_true_eq] at accepted
    exact accepted.1.1.1.1.1.2.2.1
  refine resolveLocal_le ?_
  unfold ReportPlan.localDate at started
  unfold wall
  omega

/-- What `next_slot` finds: the first send due after its instant. -/
inductive NextSlot (plan : ReportPlan) (zone : Zone) (after : Int) :
    Option (Option ScheduleSlot) → Prop where
  | found {send : Int} (reached : plan.Reached zone send)
      (due : after < plan.due (resolveLocal zone) send)
      (first : ∀ other < send, plan.Reached zone other →
        plan.due (resolveLocal zone) other ≤ after) :
      NextSlot plan zone after
        (some (some (plan.slot send (plan.due (resolveLocal zone) send))))
  | ended (past : ∀ send, plan.Reached zone send →
        plan.due (resolveLocal zone) send ≤ after)
      (returns : ¬ RaisesAfter plan zone after) :
      NextSlot plan zone after (some none)
  | raised (past : ∀ send, plan.Reached zone send →
        plan.due (resolveLocal zone) send ≤ after)
      (raises : RaisesAfter plan zone after) : NextSlot plan zone after none

theorem nextSlot_spec
    (accepted : scheduleFields values = true)
    (isPlan : ReportPlan.fromValues values start stop = some plan)
    (after : Int) : NextSlot plan zone after (plan.nextSlot zone after) := by
  have started : ∀ send, dateMin < send →
      after < plan.due (resolveLocal zone) send →
      ReportPlan.localDate zone after -
        min (ReportPlan.localDate zone after - dateMin) 2 < send := by
    intro send later isDue
    by_contra early
    have past := due_le_of_started accepted isPlan later (Int.not_lt.mp early)
    omega
  have past : ∀ last, NoneSent plan zone after
        (ReportPlan.localDate zone after -
          min (ReportPlan.localDate zone after - dateMin) 2) last →
      ∀ send ≤ last, plan.Reached zone send →
        plan.due (resolveLocal zone) send ≤ after := by
    intro last passed send isLast reached
    by_contra isDue
    have isAfter := started send reached.isDate.1 (Int.not_le.mp isDue)
    have notSent := passed send isAfter isLast reached.candidate
      (Int.not_le.mp isDue)
    rw [reached.sends] at notSent
    cases notSent
  have searched : Searched plan zone after
      (ReportPlan.localDate zone after -
        min (ReportPlan.localDate zone after - dateMin) 2)
      (plan.nextSlot zone after) :=
    nextSlotLoop_searched accepted isPlan after (Int.self_le_toNat _)
  generalize plan.nextSlot zone after = result at searched ⊢
  cases searched with
  | @found send later isDate candidate due sends passed =>
      refine .found ⟨⟨?_, isDate⟩, candidate, sends⟩ due ?_
      · omega
      · intro other earlier
        exact past (send - 1) passed other (by omega)
  | ended passed =>
      refine .ended (fun send reached =>
        past dateMax passed send reached.isDate.2 reached) ?_
      rintro ⟨candidate, raises, isDue⟩
      have notSent := passed dateMax
        (started dateMax (by decide) isDue) (Int.le_refl _) candidate isDue
      rw [raises] at notSent
      cases notSent
  | @raised send later isDate candidate due sends passed =>
      have offset := offset_cases isPlan
      have isLast : send = dateMax := by
        by_contra earlier
        have returns : ∃ isSend, plan.sends (resolveLocal zone) send
            (plan.due (resolveLocal zone) send) = some isSend :=
          sends_exists accepted isPlan (by omega)
        obtain ⟨isSend, isSome⟩ := returns
        rw [sends] at isSome
        cases isSome
      subst isLast
      refine .raised (fun other reached => ?_) ⟨candidate, sends, due⟩
      by_cases same : other = dateMax
      · subst same
        have isSent := reached.sends
        rw [sends] at isSent
        cases isSent
      · have isDate := reached.isDate.2
        exact past (dateMax - 1) passed other (by omega) reached

/-! ## The slots that follow an instant -/

/-- The slots of exhaustive paging due after an instant, in order. -/
structure Following (plan : ReportPlan) (zone : Zone) (after : Int)
    (slots : List ScheduleSlot) : Prop where
  ordered : slots.Pairwise fun first second =>
    first.localDate < second.localDate
  all : ∀ slot, slot ∈ slots ↔ (∃ send, plan.Reached zone send ∧
    slot = plan.slot send (plan.due (resolveLocal zone) send)) ∧
      after < slot.dueAt

theorem Following.dueOrdered
    {after : Int} {slots : List ScheduleSlot}
    (following : Following plan zone after slots) :
    slots.Pairwise fun first second => first.dueAt ≤ second.dueAt := by
  refine following.ordered.imp_of_mem ?_
  intro first second isFirst isSecond less
  obtain ⟨⟨send, _, rfl⟩, _⟩ := (following.all first).mp isFirst
  obtain ⟨⟨other, _, rfl⟩, _⟩ := (following.all second).mp isSecond
  change send - plan.offset < other - plan.offset at less
  exact due_mono zone (by omega)

/-- After the first of the slots follow those due later than it. -/
theorem Following.tail
    {after : Int} {slot : ScheduleSlot} {rest : List ScheduleSlot}
    (following : Following plan zone after (slot :: rest)) :
    Following plan zone slot.dueAt
      (rest.filter fun later => slot.dueAt < later.dueAt) := by
  refine ⟨(List.pairwise_cons.mp following.ordered).2.filter _, fun other => ?_⟩
  have isFirst := ((following.all slot).mp List.mem_cons_self).2
  rw [List.mem_filter, decide_eq_true_eq]
  constructor
  · rintro ⟨member, later⟩
    exact ⟨((following.all other).mp (List.mem_cons_of_mem slot member)).1, later⟩
  · rintro ⟨isSlot, later⟩
    have member := (following.all other).mpr ⟨isSlot, by omega⟩
    rcases List.mem_cons.mp member with rfl | isRest
    · omega
    · exact ⟨isRest, later⟩

/-- What is looked up next is the first of the slots that follow. -/
theorem nextSlot_of_following
    (accepted : scheduleFields values = true)
    (isPlan : ReportPlan.fromValues values start stop = some plan)
    {after : Int} {slots : List ScheduleSlot}
    (following : Following plan zone after slots) :
    (∃ slot rest, slots = slot :: rest ∧
        plan.nextSlot zone after = some (some slot)) ∨
      (slots = [] ∧ plan.nextSlot zone after = some none ∧
        ¬ RaisesAfter plan zone after) ∨
      (slots = [] ∧ plan.nextSlot zone after = none ∧
        RaisesAfter plan zone after) := by
  have empty : (∀ send, plan.Reached zone send →
      plan.due (resolveLocal zone) send ≤ after) → slots = [] := by
    intro past
    refine List.eq_nil_iff_forall_not_mem.mpr fun slot member => ?_
    obtain ⟨⟨send, reached, rfl⟩, later⟩ := (following.all slot).mp member
    have isPast := past send reached
    change after < plan.due (resolveLocal zone) send at later
    omega
  have spec : NextSlot plan zone after (plan.nextSlot zone after) :=
    nextSlot_spec accepted isPlan after
  generalize plan.nextSlot zone after = result at spec ⊢
  cases spec with
  | ended past returns => exact Or.inr (Or.inl ⟨empty past, rfl, returns⟩)
  | raised past raises => exact Or.inr (Or.inr ⟨empty past, rfl, raises⟩)
  | @found send reached due first =>
      left
      have member := (following.all (plan.slot send
        (plan.due (resolveLocal zone) send))).mpr ⟨⟨send, reached, rfl⟩, due⟩
      cases slots with
      | nil => cases member
      | cons slot rest =>
          refine ⟨slot, rest, rfl, ?_⟩
          rcases List.mem_cons.mp member with same | isRest
          · rw [same]
          · obtain ⟨⟨other, isReached, rfl⟩, later⟩ :=
              (following.all slot).mp List.mem_cons_self
            have less := (List.pairwise_cons.mp following.ordered).1 _ isRest
            change other - plan.offset < send - plan.offset at less
            have past := first other (by omega) isReached
            change after < plan.due (resolveLocal zone) other at later
            omega

/-! ## Listing -/

/-- No two of the slots to list share an instant, and if more follow, one of
them is due later than all that are listed. -/
def Distinct (limit : Nat) (slots : List ScheduleSlot) : Prop :=
  ((slots.take limit).Pairwise fun first second =>
    first.dueAt < second.dueAt) ∧
  (limit < slots.length → ∃ later ∈ slots.drop limit,
    ∀ slot ∈ slots.take limit, slot.dueAt < later.dueAt)

/-- The listing comes to the last date there is, where it raises. -/
def RunsOut (plan : ReportPlan) (zone : Zone) (after : Int) (limit : Nat)
    (slots : List ScheduleSlot) : Prop :=
  slots.length ≤ limit ∧ RaisesAfter plan zone after ∧
    ∀ slot ∈ slots, slot.dueAt < plan.due (resolveLocal zone) dateMax

/-- A listing is the first of the slots that follow, and one more. -/
def Lists (limit : Nat) (slots : List ScheduleSlot)
    (listed : Option (List ScheduleSlot)) : Prop :=
  ∃ found, listed = some found ∧ found.take limit = slots.take limit ∧
    (found.length ≤ limit ↔ slots.length ≤ limit)

theorem lists_of_empty
    {after : Int} (limit : Nat)
    (looked : plan.nextSlot zone after = some none ∧
        ¬ RaisesAfter plan zone after ∨
      plan.nextSlot zone after = none ∧ RaisesAfter plan zone after) :
    Lists limit [] (plan.upcomingLoop zone (limit + 1) after) ↔
      Distinct limit [] ∧ ¬ RunsOut plan zone after limit [] := by
  rw [ReportPlan.upcomingLoop]
  rcases looked with ⟨ended, returns⟩ | ⟨raised, raises⟩
  · rw [ended]
    have distinct : Distinct limit ([] : List ScheduleSlot) := by
      refine ⟨?_, nofun⟩
      rw [List.take_nil]
      exact List.Pairwise.nil
    have goesOn : ¬ RunsOut plan zone after limit [] :=
      fun runs => returns runs.2.1
    exact ⟨fun _ => ⟨distinct, goesOn⟩, fun _ => ⟨[], rfl, rfl, Iff.rfl⟩⟩
  · rw [raised]
    have runs : RunsOut plan zone after limit [] :=
      ⟨Nat.zero_le _, raises, nofun⟩
    refine ⟨?_, fun ⟨_, goesOn⟩ => absurd runs goesOn⟩
    rintro ⟨found, isFound, _⟩
    cases isFound

/-- A slot before the others is listed before them. -/
theorem lists_cons
    (slot : ScheduleSlot) (limit : Nat) (rest : List ScheduleSlot)
    (listed : Option (List ScheduleSlot)) :
    Lists (limit + 1) (slot :: rest) (listed.map (slot :: ·)) ↔
      Lists limit rest listed := by
  constructor
  · rintro ⟨found, isFound, taken, few⟩
    obtain ⟨others, rfl, rfl⟩ := Option.map_eq_some_iff.mp isFound
    rw [List.take_succ_cons, List.take_succ_cons, List.cons.injEq] at taken
    rw [List.length_cons, List.length_cons, Nat.add_le_add_iff_right,
      Nat.add_le_add_iff_right] at few
    exact ⟨others, rfl, taken.2, few⟩
  · rintro ⟨others, rfl, taken, few⟩
    refine ⟨slot :: others, rfl, ?_, ?_⟩
    · rw [List.take_succ_cons, List.take_succ_cons, taken]
    · rw [List.length_cons, List.length_cons, Nat.add_le_add_iff_right,
        Nat.add_le_add_iff_right, few]

/-- A slot due before the others shares its instant with none. -/
theorem distinct_cons
    {slot : ScheduleSlot} {rest : List ScheduleSlot} (limit : Nat)
    (before : ∀ later ∈ rest, slot.dueAt < later.dueAt) :
    Distinct (limit + 1) (slot :: rest) ↔ Distinct limit rest := by
  unfold Distinct
  rw [List.take_succ_cons, List.drop_succ_cons, List.length_cons,
    Nat.add_lt_add_iff_right, List.pairwise_cons]
  constructor
  · rintro ⟨⟨_, distinct⟩, more⟩
    refine ⟨distinct, fun isMore => ?_⟩
    obtain ⟨later, member, isLater⟩ := more isMore
    exact ⟨later, member, fun other isOther =>
      isLater other (List.mem_cons_of_mem slot isOther)⟩
  · rintro ⟨distinct, more⟩
    refine ⟨⟨fun later member => before later (List.mem_of_mem_take member),
      distinct⟩, fun isMore => ?_⟩
    obtain ⟨later, member, isLater⟩ := more isMore
    refine ⟨later, member, fun other isOther => ?_⟩
    rcases List.mem_cons.mp isOther with rfl | isRest
    · exact before later (List.mem_of_mem_drop member)
    · exact isLater other isRest

theorem runsOut_cons
    {after : Int} {slot : ScheduleSlot} {rest : List ScheduleSlot} (limit : Nat)
    (isFirst : after < slot.dueAt) :
    RunsOut plan zone after (limit + 1) (slot :: rest) ↔
      RunsOut plan zone slot.dueAt limit rest := by
  unfold RunsOut RaisesAfter
  rw [List.length_cons, Nat.add_le_add_iff_right, List.forall_mem_cons]
  constructor
  · rintro ⟨few, ⟨candidate, raises, _⟩, isBefore, others⟩
    exact ⟨few, ⟨candidate, raises, isBefore⟩, others⟩
  · rintro ⟨few, ⟨candidate, raises, isBefore⟩, others⟩
    exact ⟨few, ⟨candidate, raises, by omega⟩, isBefore, others⟩

/-- A second slot that shares the first one's instant is not listed: what is
looked up next is due later. -/
theorem lists_of_shared
    (accepted : scheduleFields values = true)
    (isPlan : ReportPlan.fromValues values start stop = some plan)
    {slot shared : ScheduleSlot} {later : List ScheduleSlot}
    (following : Following plan zone slot.dueAt later)
    (same : shared.dueAt = slot.dueAt) (rest : List ScheduleSlot) (limit : Nat) :
    ¬ Lists (limit + 1) (shared :: rest)
      (plan.upcomingLoop zone (limit + 1 + 1) slot.dueAt) := by
  rintro ⟨found, isFound, taken, _⟩
  rw [ReportPlan.upcomingLoop] at isFound
  rcases nextSlot_of_following accepted isPlan following with
    ⟨next, others, rfl, isNext⟩ | ⟨_, ended, _⟩ | ⟨_, raised, _⟩
  · rw [isNext] at isFound
    obtain ⟨tail, _, rfl⟩ := Option.map_eq_some_iff.mp isFound
    rw [List.take_succ_cons, List.take_succ_cons, List.cons.injEq] at taken
    have isLater := ((following.all next).mp List.mem_cons_self).2
    rw [taken.1, same] at isLater
    omega
  · rw [ended] at isFound
    cases isFound
    cases taken
  · rw [raised] at isFound
    cases isFound

/-- Looking up one slot tells only whether there is one. -/
theorem lists_zero
    (accepted : scheduleFields values = true)
    (isPlan : ReportPlan.fromValues values start stop = some plan)
    {after : Int} {later : List ScheduleSlot}
    (following : Following plan zone after later)
    (shared : ScheduleSlot) (rest : List ScheduleSlot) :
    Lists 0 (shared :: rest) (plan.upcomingLoop zone 1 after) ↔ later ≠ [] := by
  unfold Lists
  rw [ReportPlan.upcomingLoop]
  rcases nextSlot_of_following accepted isPlan following with
    ⟨next, others, rfl, isNext⟩ | ⟨rfl, ended, _⟩ | ⟨rfl, raised, _⟩
  · rw [isNext]
    refine ⟨fun _ => List.cons_ne_nil _ _, fun _ => ⟨[next], rfl, rfl, ?_⟩⟩
    simp
  · rw [ended]
    refine ⟨?_, fun some' => absurd rfl some'⟩
    rintro ⟨found, isFound, _, few⟩
    cases isFound
    simp at few
  · rw [raised]
    refine ⟨?_, fun some' => absurd rfl some'⟩
    rintro ⟨found, isFound, _⟩
    cases isFound

/-- A listing is exact when no two slots share an instant, as far as it looks. -/
theorem lists_iff
    (accepted : scheduleFields values = true)
    (isPlan : ReportPlan.fromValues values start stop = some plan)
    {after : Int} {slots : List ScheduleSlot} (limit : Nat)
    (following : Following plan zone after slots) :
    Lists limit slots (plan.upcomingLoop zone (limit + 1) after) ↔
      Distinct limit slots ∧ ¬ RunsOut plan zone after limit slots := by
  induction limit generalizing after slots with
  | zero =>
      rcases nextSlot_of_following accepted isPlan following with
        ⟨slot, rest, rfl, found⟩ | ⟨rfl, ended⟩ | ⟨rfl, raised⟩
      · rw [ReportPlan.upcomingLoop, found]
        have goesOn : ¬ RunsOut plan zone after 0 (slot :: rest) :=
          fun runs => absurd runs.1 (Nat.not_succ_le_zero _)
        have distinct : Distinct 0 (slot :: rest) :=
          ⟨List.Pairwise.nil, fun _ => ⟨slot, List.mem_cons_self, nofun⟩⟩
        refine ⟨fun _ => ⟨distinct, goesOn⟩, fun _ => ⟨[slot], rfl, rfl, ?_⟩⟩
        simp
      · exact lists_of_empty 0 (Or.inl ended)
      · exact lists_of_empty 0 (Or.inr raised)
  | succ limit inductionHypothesis =>
      rcases nextSlot_of_following accepted isPlan following with
        ⟨slot, rest, rfl, found⟩ | ⟨rfl, ended⟩ | ⟨rfl, raised⟩
      · rw [ReportPlan.upcomingLoop, found, Option.bind_some]
        have listsRest := lists_cons slot limit rest
          (plan.upcomingLoop zone (limit + 1) slot.dueAt)
        have isFirst := ((following.all slot).mp List.mem_cons_self).2
        have orderedAfter := List.pairwise_cons.mp following.dueOrdered
        have others := inductionHypothesis following.tail
        refine listsRest.trans ?_
        by_cases before : ∀ later ∈ rest, slot.dueAt < later.dueAt
        · have isAll : (rest.filter fun later => slot.dueAt < later.dueAt) =
              rest := List.filter_eq_self.mpr fun later member =>
            decide_eq_true (before later member)
          rw [isAll] at others
          rw [others, distinct_cons limit before,
            runsOut_cons limit isFirst]
        · -- The next slot shares the instant of the first, so it is passed over.
          cases rest with
          | nil => exact absurd nofun before
          | cons shared rest =>
              have same : shared.dueAt = slot.dueAt := by
                by_contra different
                have least := orderedAfter.1 shared List.mem_cons_self
                refine before fun later member => ?_
                rcases List.mem_cons.mp member with rfl | isRest
                · omega
                · have grows := (List.pairwise_cons.mp orderedAfter.2).1 later
                    isRest
                  omega
              cases limit with
              | succ limit =>
                  have notListed := lists_of_shared accepted isPlan
                    following.tail same rest limit
                  refine ⟨fun lists => absurd lists notListed, ?_⟩
                  rintro ⟨⟨distinct, _⟩, _⟩
                  rw [List.take_succ_cons, List.take_succ_cons] at distinct
                  have less := (List.pairwise_cons.mp distinct).1 shared
                    List.mem_cons_self
                  omega
              | zero =>
                  have goesOn : ¬ RunsOut plan zone after 1
                      (slot :: shared :: rest) := fun runs =>
                    absurd runs.1 (by simp)
                  rw [lists_zero accepted isPlan following.tail shared rest,
                    Ne, List.filter_eq_nil_iff]
                  simp only [decide_eq_true_eq, not_forall, not_not,
                    exists_prop]
                  constructor
                  · rintro ⟨later, member, isLater⟩
                    refine ⟨⟨List.pairwise_singleton _ _, fun _ =>
                      ⟨later, member, ?_⟩⟩, goesOn⟩
                    rintro other isOther
                    rw [List.mem_singleton.mp isOther]
                    exact isLater
                  · rintro ⟨⟨_, more⟩, _⟩
                    obtain ⟨later, member, isLater⟩ := more (by simp)
                    exact ⟨later, member, isLater slot List.mem_cons_self⟩
      · exact lists_of_empty _ (Or.inl ended)
      · exact lists_of_empty _ (Or.inr raised)

/-- Only finitely many slots follow an instant: each has a date of its own. -/
theorem following_exists
    (plan : ReportPlan) (zone : Zone) (after : Int) :
    ∃ slots, Following plan zone after slots := by
  classical
  let dates := (List.range (dateMax - dateMin).toNat).map
    fun index : Nat => dateMin + 1 + index
  have ordered : dates.Pairwise (· < ·) := by
    refine List.pairwise_map.mpr (List.pairwise_lt_range.imp ?_)
    intro first second less
    omega
  let isFollowing (send : Int) : Prop := plan.Reached zone send ∧
    after < plan.due (resolveLocal zone) send
  refine ⟨(dates.filter fun send => isFollowing send).map fun send =>
    plan.slot send (plan.due (resolveLocal zone) send), ?_, fun slot => ?_⟩
  · refine List.pairwise_map.mpr ((ordered.filter _).imp ?_)
    intro first second less
    change first - plan.offset < second - plan.offset
    omega
  · rw [List.mem_map]
    constructor
    · rintro ⟨send, member, rfl⟩
      rw [List.mem_filter, decide_eq_true_eq] at member
      exact ⟨⟨send, member.2.1, rfl⟩, member.2.2⟩
    · rintro ⟨⟨send, reached, rfl⟩, later⟩
      refine ⟨send, List.mem_filter.mpr
        ⟨List.mem_map.mpr ⟨(send - dateMin - 1).toNat, ?_, ?_⟩,
          decide_eq_true ⟨reached, later⟩⟩, rfl⟩
      · have isDate := reached.isDate
        rw [List.mem_range]
        omega
      · have isDate := reached.isDate
        omega

/-- The slots of exhaustive paging due after `now`, in order. The forecast lists
the first `limit` of them, and knows whether more follow, exactly when no two of
these share an instant, one of those that follow is due later than all of these,
and the search does not come to the last date there is. -/
theorem upcoming_slots_iff
    (accepted : scheduleFields values = true)
    (isPlan : ReportPlan.fromValues values start stop = some plan)
    (zone : Zone) (now : Int) (limit : Nat) :
    ∃ slots : List ScheduleSlot,
      (slots.Pairwise fun first second => first.localDate < second.localDate) ∧
      (∀ slot, slot ∈ slots ↔
        (∃ through pageLimit, 1 ≤ pageLimit ∧ pageLimit ≤ 1000 ∧
          Produces plan (resolveLocal zone) through pageLimit slot) ∧
        now < slot.dueAt) ∧
      ((∃ page, plan.upcomingSlots zone now limit = some page ∧
          page.slots = slots.take limit ∧
          (page.exhausted = true ↔ slots.length ≤ limit)) ↔
        Distinct limit slots ∧ ¬ RunsOut plan zone now limit slots) := by
  obtain ⟨slots, following⟩ := following_exists plan zone now
  refine ⟨slots, following.ordered, fun slot => ?_, ?_⟩
  · rw [produces_iff accepted isPlan]
    exact following.all slot
  · rw [← lists_iff accepted isPlan limit following]
    constructor
    · rintro ⟨page, isPage, isSlots, few⟩
      obtain ⟨found, isFound, rfl⟩ := Option.map_eq_some_iff.mp isPage
      rw [decide_eq_true_eq] at few
      exact ⟨found, isFound, isSlots, few⟩
    · rintro ⟨found, isFound, taken, few⟩
      refine ⟨⟨found.take limit, none, decide (found.length ≤ limit)⟩, ?_,
        taken, ?_⟩
      · rw [ReportPlan.upcomingSlots, isFound]
        rfl
      · rw [decide_eq_true_eq]
        exact few

end

theorem resolveLocal_utc (wallTime : Int) : resolveLocal utc wallTime = wallTime := by
  have isFirst := resolveLocal_firstShown utc wallTime
  refine Zone.FirstShown.unique isFirst ⟨?_, fun earlier less => ?_⟩
  · simp [Zone.clock, clockAt, offsetAt, utc]
  · simpa [Zone.clock, clockAt, offsetAt, utc] using less

/-- A campaign of October 5 and 6, 2026, whose forecast is exact from the day
before. -/
theorem october_forecast_is_exact : ∃ page,
    ReportPlan.upcomingSlots
      ⟨28800000000, .repeats .daily 739894 (some 739895), 0, [], []⟩ utc
      (wall 739893 0) 5 = some page ∧
    ∀ slot ∈ page.slots, wall 739893 0 < slot.dueAt := by
  have plan : ReportPlan.fromValues dailyReport 739894 739895 = some
      ⟨28800000000, .repeats .daily 739894 (some 739895), 0, [], []⟩ := rfl
  obtain ⟨slots, ordered, isSlot, exact'⟩ :=
    upcoming_slots_iff (by decide) plan utc (wall 739893 0) 5
  have isDue : ∀ slot ∈ slots, slot.dueAt = wall slot.localDate 28800000000 := by
    intro slot member
    obtain ⟨_, _, _, _, produced⟩ := ((isSlot slot).mp member).1
    obtain ⟨send, _, _, _, _, _, rfl⟩ := produces_spec (by decide) plan produced
    change resolveLocal utc (wall send 28800000000) =
      wall (send - 0) 28800000000
    rw [resolveLocal_utc, Int.sub_zero]
  have grows : slots.Pairwise fun first second => first.dueAt < second.dueAt := by
    refine ordered.imp_of_mem fun isFirst isSecond less => ?_
    rw [isDue _ isFirst, isDue _ isSecond]
    unfold wall
    omega
  rw [← List.take_append_drop 5 slots] at grows
  obtain ⟨distinct, _, apart⟩ := List.pairwise_append.mp grows
  have more : 5 < slots.length → ∃ later ∈ slots.drop 5,
      ∀ slot ∈ slots.take 5, slot.dueAt < later.dueAt := by
    intro isMore
    obtain ⟨later, member⟩ := List.exists_mem_of_length_pos
      (List.length_drop ▸ Nat.sub_pos_of_lt isMore)
    exact ⟨later, member, fun slot isListed => apart slot isListed later member⟩
  obtain ⟨page, isPage, isListed, _⟩ := exact'.mpr
    ⟨⟨distinct, more⟩, fun runs => absurd runs.2.1.1 (by decide)⟩
  refine ⟨page, isPage, fun slot member => ?_⟩
  rw [isListed] at member
  exact ((isSlot slot).mp (List.mem_of_mem_take member)).2

/-- Samoa's clock in 2011: at the end of December 29 it went on with the 31st. -/
def apia : Zone where
  initial := -36000000000
  changes := [⟨wall 734501 36000000000, 50400000000⟩]
  ordered := ⟨nofun, trivial⟩

/-- A send each Friday and Saturday at midnight, while the campaign runs. -/
def weekendReport : ReportValues where
  rule := .repeats (.weekly [4, 5]) .campaignStart .campaignEnd
  time := 0
  slotBasis := .sendDate
  skipDates := []
  pausedRanges := []

/-- The Friday and the Saturday a clock goes over at once are both sends at the
change, and the forecast lists the Friday only, as if nothing followed it. -/
theorem skipped_friday_hides_saturday :
    ¬ ∀ (values : ReportValues) (start stop : Int) (plan : ReportPlan)
        (zone : Zone) (now : Int) (limit : Nat) (page : SchedulePage),
        scheduleFields values = true →
        ReportPlan.fromValues values start stop = some plan →
        plan.upcomingSlots zone now limit = some page →
        page.exhausted = true →
        ∀ through pageLimit slot,
          Produces plan (resolveLocal zone) through pageLimit slot →
          now < slot.dueAt → slot ∈ page.slots := by
  intro listsAll
  have plan : ReportPlan.fromValues weekendReport 734501 734502 = some
      ⟨0, .repeats (.weekly [4, 5]) 734501 (some 734502), 0, [], []⟩ := rfl
  have listed : ReportPlan.upcomingSlots
      ⟨0, .repeats (.weekly [4, 5]) 734501 (some 734502), 0, [], []⟩ apia
      (wall 734499 0) 5 = some
        ⟨[⟨"2011-12-30".toList, 734501, wall 734501 36000000000⟩], none, true⟩ :=
    rfl
  have paged : Produces
      ⟨0, .repeats (.weekly [4, 5]) 734501 (some 734502), 0, [], []⟩
      (resolveLocal apia) (wall 734510 0) 100
      ⟨"2011-12-31".toList, 734502, wall 734501 36000000000⟩ :=
    ⟨none, ⟨[⟨"2011-12-30".toList, 734501, wall 734501 36000000000⟩,
      ⟨"2011-12-31".toList, 734502, wall 734501 36000000000⟩], some 734502, true⟩,
      Paged.start, rfl, List.mem_cons_of_mem _ List.mem_cons_self⟩
  have hidden := listsAll weekendReport 734501 734502 _ apia _ 5 _ (by decide)
    plan listed rfl _ _ _ paged (by decide)
  have sameDate := congrArg ScheduleSlot.localDate (List.mem_singleton.mp hidden)
  exact absurd sameDate (by decide)

end ParishKit.Campaigns
