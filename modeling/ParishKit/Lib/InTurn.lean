import Mathlib.Data.List.Forall2

/-!
# Requests judged in turn

Each request is judged against the holders so far and may add holders of its own. A
judgement may fail, and then the whole turn does.
-/

namespace ParishKit.Lib

variable {Holder Request Result : Type*}

/-- The results of the requests in order, and the holders at the end. -/
def inTurn (judge : List Holder → Request → Option (Result × List Holder)) :
    List Holder → List Request → Option (List Result × List Holder)
  | holders, [] => some ([], holders)
  | holders, request :: rest => do
      let judged ← judge holders request
      let later ← inTurn judge (holders ++ judged.2) rest
      some (judged.1 :: later.1, later.2)

variable {judge : List Holder → Request → Option (Result × List Holder)}

theorem inTurn_cons_eq_some
    {holders final : List Holder} {request : Request} {rest : List Request}
    {results : List Result}
    (judged : inTurn judge holders (request :: rest) = some (results, final)) :
    ∃ result added later, judge holders request = some (result, added) ∧
      inTurn judge (holders ++ added) rest = some (later, final) ∧
      results = result :: later := by
  rw [inTurn] at judged
  obtain ⟨⟨result, added⟩, first, judged⟩ := Option.bind_eq_some_iff.mp judged
  obtain ⟨⟨later, last⟩, others, judged⟩ := Option.bind_eq_some_iff.mp judged
  cases judged
  exact ⟨result, added, later, first, others, rfl⟩

/-- What holds before any request is judged, and is kept by each judgement, holds of
all requests, their results and the final holders. -/
theorem inTurn_induction
    {Holds : List Request → List Result → List Holder → Prop}
    {holders final : List Holder} {requests : List Request} {results : List Result}
    (judged : inTurn judge holders requests = some (results, final))
    (initial : Holds [] [] holders)
    (preserved : ∀ before earlier held request result added,
      Holds before earlier held → judge held request = some (result, added) →
      Holds (before ++ [request]) (earlier ++ [result]) (held ++ added)) :
    Holds requests results final := by
  suffices general : ∀ rest before earlier held later,
      Holds before earlier held → inTurn judge held rest = some (later, final) →
      Holds (before ++ rest) (earlier ++ later) final by
    simpa using general requests [] [] holders results initial judged
  intro rest
  induction rest with
  | nil =>
      intro before earlier held later holds none
      cases none
      simpa using holds
  | cons request rest inductionHypothesis =>
      intro before earlier held later holds some
      obtain ⟨result, added, others, first, next, rfl⟩ := inTurn_cons_eq_some some
      have kept := inductionHypothesis _ _ _ _
        (preserved before earlier held request result added holds first) next
      simpa using kept

/-- Two judges that agree on corresponding holders, up to what `like` ignores, give
corresponding results. -/
theorem inTurn_related
    {like : Result → Result → Prop} {alike : List Holder → List Holder → Prop}
    {first second final : List Holder} {requests : List Request} {results : List Result}
    (corresponds : alike first second)
    (agree : ∀ held other request result added, alike held other →
      judge held request = some (result, added) →
      ∃ result' added', judge other request = some (result', added') ∧
        like result result' ∧ alike (held ++ added) (other ++ added'))
    (judged : inTurn judge first requests = some (results, final)) :
    ∃ results' final', inTurn judge second requests = some (results', final') ∧
      List.Forall₂ like results results' := by
  induction requests generalizing first second results with
  | nil =>
      cases judged
      exact ⟨[], second, rfl, List.Forall₂.nil⟩
  | cons request rest inductionHypothesis =>
      obtain ⟨result, added, later, atFirst, next, rfl⟩ := inTurn_cons_eq_some judged
      obtain ⟨result', added', atSecond, isLike, stillAlike⟩ :=
        agree first second request result added corresponds atFirst
      obtain ⟨later', final', others, areLike⟩ := inductionHypothesis stillAlike next
      refine ⟨result' :: later', final', ?_, List.Forall₂.cons isLike areLike⟩
      simp [inTurn, atSecond, others]

end ParishKit.Lib
