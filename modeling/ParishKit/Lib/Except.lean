import Mathlib.Data.List.Forall2
import Mathlib.Data.List.ReduceOption

/-!
# Computations that may raise

Inversion rules for `Except` and `Option`: what a successful bind or traversal
went through.
-/

namespace ParishKit.Lib

universe u v

variable {ε : Type u} {α β : Type v}

theorem except_ok_bind (value : α) (next : α → Except ε β) :
    (Except.ok value >>= next) = next value :=
  rfl

theorem except_bind_eq_ok
    {computation : Except ε α} {next : α → Except ε β} {result : β}
    (succeeds : (computation >>= next) = .ok result) :
    ∃ value, computation = .ok value ∧ next value = .ok result := by
  cases computation with
  | error raised => cases succeeds
  | ok value => exact ⟨value, rfl, succeeds⟩

/-- What a failed bind failed in. -/
theorem except_bind_eq_error
    {computation : Except ε α} {next : α → Except ε β} {raised : ε}
    (fails : (computation >>= next) = .error raised) :
    computation = .error raised ∨
      ∃ value, computation = .ok value ∧ next value = .error raised := by
  cases computation with
  | error other =>
      cases fails
      exact Or.inl rfl
  | ok value => exact Or.inr ⟨value, rfl, fails⟩

theorem except_map_eq_ok
    {computation : Except ε α} {function : α → β} {result : β}
    (succeeds : (function <$> computation) = .ok result) :
    ∃ value, computation = .ok value ∧ function value = result := by
  cases computation with
  | error raised => cases succeeds
  | ok value => exact ⟨value, rfl, Except.ok.inj succeeds⟩

/-- A traversal that succeeds ran every element and kept their order. -/
theorem except_mapM_eq_ok
    {run : α → Except ε β} {inputs : List α} {outputs : List β}
    (succeeds : inputs.mapM run = .ok outputs) :
    List.Forall₂ (fun input output => run input = .ok output)
      inputs outputs := by
  induction inputs generalizing outputs with
  | nil =>
      rw [List.mapM_nil] at succeeds
      cases succeeds
      exact List.Forall₂.nil
  | cons head tail inductionHypothesis =>
      rw [List.mapM_cons] at succeeds
      obtain ⟨first, firstRun, remaining⟩ := except_bind_eq_ok succeeds
      obtain ⟨rest, restRun, assembled⟩ := except_bind_eq_ok remaining
      cases assembled
      exact List.Forall₂.cons firstRun (inductionHypothesis restRun)

theorem except_mapM_eq_ok_iff
    {run : α → Except ε β} {inputs : List α} {outputs : List β} :
    inputs.mapM run = .ok outputs ↔
      List.Forall₂ (fun input output => run input = .ok output) inputs outputs := by
  refine ⟨except_mapM_eq_ok, fun each => ?_⟩
  induction each with
  | nil => rfl
  | cons isFirst _ inductionHypothesis =>
      rw [List.mapM_cons, isFirst, inductionHypothesis]
      rfl

/-- A traversal in which every element succeeds is the map of the results. -/
theorem except_mapM_ok_of_forall
    {run : α → Except ε β} {result : α → β} {inputs : List α}
    (succeeds : ∀ input ∈ inputs, run input = .ok (result input)) :
    inputs.mapM run = .ok (inputs.map result) := by
  induction inputs with
  | nil => rfl
  | cons head tail inductionHypothesis =>
      rw [List.mapM_cons, succeeds head List.mem_cons_self,
        inductionHypothesis fun input member =>
          succeeds input (List.mem_cons_of_mem head member)]
      rfl

theorem option_mapM_eq_some
    {run : α → Option β} {inputs : List α} {outputs : List β}
    (succeeds : inputs.mapM run = some outputs) :
    List.Forall₂ (fun input output => run input = some output)
      inputs outputs := by
  induction inputs generalizing outputs with
  | nil =>
      rw [List.mapM_nil] at succeeds
      cases succeeds
      exact List.Forall₂.nil
  | cons head tail inductionHypothesis =>
      rw [List.mapM_cons] at succeeds
      obtain ⟨first, firstRun, remaining⟩ :=
        Option.bind_eq_some_iff.mp succeeds
      obtain ⟨rest, restRun, assembled⟩ :=
        Option.bind_eq_some_iff.mp remaining
      cases assembled
      exact List.Forall₂.cons firstRun (inductionHypothesis restRun)

/-- A traversal of the inputs in another order. -/
theorem option_mapM_perm
    {run : α → Option β} {inputs others : List α} {outputs : List β}
    (perm : inputs.Perm others) (succeeds : inputs.mapM run = some outputs) :
    ∃ permuted, others.mapM run = some permuted ∧ outputs.Perm permuted := by
  induction perm generalizing outputs with
  | nil => exact ⟨outputs, succeeds, List.Perm.refl _⟩
  | cons head _ inductionHypothesis =>
      rw [List.mapM_cons] at succeeds
      obtain ⟨first, firstRun, remaining⟩ := Option.bind_eq_some_iff.mp succeeds
      obtain ⟨rest, restRun, assembled⟩ := Option.bind_eq_some_iff.mp remaining
      cases assembled
      obtain ⟨permuted, permutedRun, isPerm⟩ := inductionHypothesis restRun
      refine ⟨first :: permuted, ?_, isPerm.cons first⟩
      rw [List.mapM_cons, firstRun, permutedRun]
      rfl
  | swap second first tail =>
      rw [List.mapM_cons] at succeeds
      obtain ⟨one, oneRun, remaining⟩ := Option.bind_eq_some_iff.mp succeeds
      obtain ⟨rest, restRun, assembled⟩ := Option.bind_eq_some_iff.mp remaining
      rw [List.mapM_cons] at restRun
      obtain ⟨two, twoRun, tailRemaining⟩ := Option.bind_eq_some_iff.mp restRun
      obtain ⟨last, lastRun, isRest⟩ := Option.bind_eq_some_iff.mp tailRemaining
      cases assembled
      cases isRest
      refine ⟨two :: one :: last, ?_, List.Perm.swap two one last⟩
      rw [List.mapM_cons, twoRun, List.mapM_cons, oneRun, lastRun]
      rfl
  | trans _ _ firstHypothesis secondHypothesis =>
      obtain ⟨middle, middleRun, toMiddle⟩ := firstHypothesis succeeds
      obtain ⟨permuted, permutedRun, fromMiddle⟩ := secondHypothesis middleRun
      exact ⟨permuted, permutedRun, toMiddle.trans fromMiddle⟩

/-- A traversal in which every element succeeds is the map of the results. -/
theorem option_mapM_of_forall
    {run : α → Option β} {result : α → β} {inputs : List α}
    (succeeds : ∀ input ∈ inputs, run input = some (result input)) :
    inputs.mapM run = some (inputs.map result) := by
  induction inputs with
  | nil => rfl
  | cons head tail inductionHypothesis =>
      rw [List.mapM_cons, succeeds head List.mem_cons_self,
        inductionHypothesis fun input member =>
          succeeds input (List.mem_cons_of_mem head member)]
      rfl

/-- A traversal in which every element succeeds with a result that is as wanted. -/
theorem option_mapM_of_exists
    {run : α → Option β} {wanted : α → β → Prop} {inputs : List α}
    (succeeds : ∀ input ∈ inputs, ∃ output,
      run input = some output ∧ wanted input output) :
    ∃ outputs, inputs.mapM run = some outputs ∧
      List.Forall₂ wanted inputs outputs := by
  induction inputs with
  | nil => exact ⟨[], rfl, List.Forall₂.nil⟩
  | cons head tail inductionHypothesis =>
      obtain ⟨first, firstRun, isWanted⟩ := succeeds head List.mem_cons_self
      obtain ⟨rest, restRun, restWanted⟩ := inductionHypothesis fun input member =>
        succeeds input (List.mem_cons_of_mem head member)
      refine ⟨first :: rest, ?_, List.Forall₂.cons isWanted restWanted⟩
      rw [List.mapM_cons, firstRun, restRun]
      rfl

/-- A second traversal that changes every result of a first one. -/
theorem option_mapM_map
    {run again : α → Option β} {change : β → β} {inputs : List α}
    {outputs : List β} (succeeds : inputs.mapM run = some outputs)
    (each : ∀ input ∈ inputs, ∀ output, run input = some output →
      again input = some (change output)) :
    inputs.mapM again = some (outputs.map change) := by
  have related := option_mapM_eq_some succeeds
  clear succeeds
  induction related with
  | nil => rfl
  | @cons head first inputs outputs headRun _ inductionHypothesis =>
      rw [List.mapM_cons, each head List.mem_cons_self first headRun,
        inductionHypothesis fun input member =>
          each input (List.mem_cons_of_mem head member)]
      rfl

section Keyed

variable {γ : Type*} [DecidableEq γ] {run : α → Option (Option β)}
  {key : α → γ} {label : β → γ}

/-- Nothing is produced under a key no input has. -/
theorem filter_reduceOption_of_not_mem
    {inputs : List α} {outputs : List (Option β)} (wanted : γ)
    (each : List.Forall₂ (fun input output => run input = some output)
      inputs outputs)
    (labels : ∀ input produced, run input = some (some produced) →
      label produced = key input)
    (absent : wanted ∉ inputs.map key) :
    outputs.reduceOption.filter (fun produced => label produced = wanted) =
      [] := by
  induction each with
  | nil => rfl
  | @cons input output inputs outputs ran _ inductionHypothesis =>
      rw [List.map_cons, List.mem_cons, not_or] at absent
      cases output with
      | none => exact inductionHypothesis absent.2
      | some produced =>
          have other : ¬ label produced = wanted := by
            rw [labels input produced ran]
            exact Ne.symm absent.1
          rw [List.reduceOption_cons_of_some,
            List.filter_cons_of_neg (by simpa using other)]
          exact inductionHypothesis absent.2

/-- Under the key of an input, exactly what that input produced. -/
theorem filter_reduceOption_of_mem
    {inputs : List α} {outputs : List (Option β)}
    (each : List.Forall₂ (fun input output => run input = some output)
      inputs outputs)
    (keyed : (inputs.map key).Nodup)
    (labels : ∀ input produced, run input = some (some produced) →
      label produced = key input)
    {input : α} {output : Option β} (member : input ∈ inputs)
    (ran : run input = some output) :
    outputs.reduceOption.filter (fun produced => label produced = key input) =
      output.toList := by
  induction each with
  | nil => cases member
  | @cons head first inputs outputs headRan rest inductionHypothesis =>
      rw [List.map_cons, List.nodup_cons] at keyed
      rcases List.mem_cons.mp member with rfl | later
      · have same : first = output := Option.some.inj (headRan.symm.trans ran)
        subst same
        have others := filter_reduceOption_of_not_mem (key _) rest labels
          keyed.1
        cases first with
        | none => exact others
        | some produced =>
            rw [List.reduceOption_cons_of_some,
              List.filter_cons_of_pos (by simpa using labels input produced ran),
              others]
            rfl
      · have different : key input ≠ key head := fun same =>
          keyed.1 (same ▸ List.mem_map_of_mem later)
        cases first with
        | none => exact inductionHypothesis keyed.2 later
        | some produced =>
            have other : ¬ label produced = key input := by
              rw [labels head produced headRan]
              exact Ne.symm different
            rw [List.reduceOption_cons_of_some,
              List.filter_cons_of_neg (by simpa using other)]
            exact inductionHypothesis keyed.2 later

end Keyed

/-- A fold whose steps all leave its start ends where it started. -/
theorem option_foldlM_fixed
    {step : β → α → Option β} {start : β} {inputs : List α}
    (fixed : ∀ input ∈ inputs, step start input = some start) :
    inputs.foldlM step start = some start := by
  induction inputs with
  | nil => rfl
  | cons head tail inductionHypothesis =>
      rw [List.foldlM_cons, fixed head List.mem_cons_self]
      exact inductionHypothesis fun input member =>
        fixed input (List.mem_cons_of_mem head member)

/-- What holds at the start of a fold and is kept by each of its steps holds at its
end. -/
theorem option_foldlM_invariant
    {Inv : β → Prop} {step : β → α → Option β} {start result : β} {inputs : List α}
    (initial : Inv start)
    (preserved : ∀ input ∈ inputs, ∀ state next, Inv state →
      step state input = some next → Inv next)
    (folded : inputs.foldlM step start = some result) : Inv result := by
  induction inputs generalizing start with
  | nil =>
      cases folded
      exact initial
  | cons head tail inductionHypothesis =>
      rw [List.foldlM_cons] at folded
      obtain ⟨next, first, rest⟩ := Option.bind_eq_some_iff.mp folded
      have kept := preserved head List.mem_cons_self start next initial first
      exact inductionHypothesis kept (fun input member =>
        preserved input (List.mem_cons_of_mem head member)) rest

/-- Every output of related lists comes from an input. -/
theorem exists_input_of_forall₂
    {γ δ : Type*} {related : γ → δ → Prop}
    {inputs : List γ} {outputs : List δ} {output : δ}
    (each : List.Forall₂ related inputs outputs) (member : output ∈ outputs) :
    ∃ input ∈ inputs, related input output := by
  induction each with
  | nil => cases member
  | @cons input first inputs outputs firstRelated _ inductionHypothesis =>
      rcases List.mem_cons.mp member with rfl | restMember
      · exact ⟨input, List.mem_cons_self, firstRelated⟩
      · obtain ⟨found, foundMember, foundRelated⟩ :=
          inductionHypothesis restMember
        exact ⟨found, List.mem_cons_of_mem input foundMember, foundRelated⟩

theorem exists_output_of_forall₂
    {γ δ : Type*} {related : γ → δ → Prop}
    {inputs : List γ} {outputs : List δ} {input : γ}
    (each : List.Forall₂ related inputs outputs) (member : input ∈ inputs) :
    ∃ output ∈ outputs, related input output :=
  exists_input_of_forall₂ each.flip member

end ParishKit.Lib
