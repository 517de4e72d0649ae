import Mathlib.Data.List.Induction
import Mathlib.Logic.Relation

/-!
# Runs of partial operations

A system is a partial function from an operation and a state to the next state.
`allowed` restricts which operations a run may take in which state. An
operation that is refused leaves no step.
-/

namespace ParishKit.Lib

open Relation

universe u v

variable {State : Type u} {Op : Type v}

/-- One allowed operation that is not refused. -/
def Step (apply : Op → State → Option State) (allowed : State → Op → Prop)
    (source target : State) : Prop :=
  ∃ op, allowed source op ∧ apply op source = some target

/-- The states reached from `start` by allowed operations in any order. -/
def Reaches (apply : Op → State → Option State) (allowed : State → Op → Prop)
    (start : State) : State → Prop :=
  ReflTransGen (Step apply allowed) start

/-- The state after a list of operations, when none of them is refused. -/
def run (apply : Op → State → Option State) (start : State) (ops : List Op) :
    Option State :=
  ops.foldlM (fun state op => apply op state) start

/-- Every operation is allowed. -/
def anyOp (_state : State) (_op : Op) : Prop :=
  True

variable {apply : Op → State → Option State} {allowed : State → Op → Prop}

theorem Reaches.refl (start : State) : Reaches apply allowed start start :=
  ReflTransGen.refl

theorem Reaches.tail
    {start middle final : State} {op : Op}
    (reached : Reaches apply allowed start middle)
    (permitted : allowed middle op)
    (applied : apply op middle = some final) :
    Reaches apply allowed start final :=
  ReflTransGen.tail reached ⟨op, permitted, applied⟩

/-- What holds at the start and is kept by every allowed operation holds in
every state reached. -/
theorem Reaches.invariant
    {Inv : State → Prop} {start final : State}
    (reached : Reaches apply allowed start final)
    (initial : Inv start)
    (preserved : ∀ source op target, Inv source → allowed source op →
      apply op source = some target → Inv target) :
    Inv final := by
  induction reached with
  | refl => exact initial
  | tail _ lastStep inductionHypothesis =>
      obtain ⟨op, permitted, applied⟩ := lastStep
      exact preserved _ op _ inductionHypothesis permitted applied

/-! ## Explicit operation lists -/

@[simp]
theorem run_nil (start : State) : run apply start [] = some start :=
  rfl

theorem run_cons (start : State) (op : Op) (ops : List Op) :
    run apply start (op :: ops) =
      (apply op start).bind fun next => run apply next ops :=
  rfl

theorem run_append (start : State) (first rest : List Op) :
    run apply start (first ++ rest) =
      (run apply start first).bind fun middle => run apply middle rest := by
  simp [run, List.foldlM_append, Option.bind_eq_bind]

theorem run_concat (start : State) (ops : List Op) (op : Op) :
    run apply start (ops ++ [op]) = (run apply start ops).bind (apply op) := by
  rw [run_append]
  simp [run_cons]

/-- What holds of the empty run and is kept by one more operation holds of every
run. -/
theorem run_invariant
    {Inv : List Op → State → Prop} {start final : State} {ops : List Op}
    (finished : run apply start ops = some final)
    (initial : Inv [] start)
    (preserved : ∀ done source op target, run apply start done = some source →
      Inv done source → apply op source = some target →
      Inv (done ++ [op]) target) :
    Inv ops final := by
  induction ops using List.reverseRecOn generalizing final with
  | nil =>
      cases finished
      exact initial
  | append_singleton done op inductionHypothesis =>
      rw [run_concat] at finished
      obtain ⟨source, before, applied⟩ := Option.bind_eq_some_iff.mp finished
      exact preserved done source op final before
        (inductionHypothesis before) applied

/-- What holds of the start and is kept by every operation holds after a run. -/
theorem run_preserves
    {Inv : State → Prop} {start final : State} {ops : List Op}
    (finished : run apply start ops = some final) (initial : Inv start)
    (preserved : ∀ source op target, Inv source →
      apply op source = some target → Inv target) :
    Inv final := by
  induction ops generalizing start with
  | nil =>
      cases finished
      exact initial
  | cons op ops inductionHypothesis =>
      rw [run_cons] at finished
      obtain ⟨next, applied, rest⟩ := Option.bind_eq_some_iff.mp finished
      exact inductionHypothesis rest (preserved start op next initial applied)

/-- Every operation of the list is allowed where the run takes it. -/
def AllowedRun (apply : Op → State → Option State)
    (allowed : State → Op → Prop) : State → List Op → Prop
  | _, [] => True
  | state, op :: ops =>
      allowed state op ∧
        ∀ next, apply op state = some next → AllowedRun apply allowed next ops

theorem AllowedRun.cons
    {state next : State} {op : Op} {ops : List Op} (permitted : allowed state op)
    (applied : apply op state = some next)
    (rest : AllowedRun apply allowed next ops) :
    AllowedRun apply allowed state (op :: ops) := by
  refine ⟨permitted, fun other reached => ?_⟩
  cases applied.symm.trans reached
  exact rest

/-- Operations that an invariant allows are allowed throughout a run. -/
theorem allowedRun_of_invariant
    (Inv : State → Prop) {start : State} {ops : List Op} (holds : Inv start)
    (permitted : ∀ op ∈ ops, ∀ state, Inv state → allowed state op)
    (preserved : ∀ source op target, Inv source → allowed source op →
      apply op source = some target → Inv target) :
    AllowedRun apply allowed start ops := by
  induction ops generalizing start with
  | nil => trivial
  | cons op ops inductionHypothesis =>
      have first := permitted op List.mem_cons_self start holds
      refine ⟨first, fun next applied => ?_⟩
      exact inductionHypothesis (preserved start op next holds first applied)
        fun later member => permitted later (List.mem_cons_of_mem op member)

theorem reaches_of_run
    {start final : State} {ops : List Op}
    (finished : run apply start ops = some final)
    (permitted : AllowedRun apply allowed start ops) :
    Reaches apply allowed start final := by
  induction ops generalizing start with
  | nil =>
      cases finished
      exact Reaches.refl _
  | cons op ops inductionHypothesis =>
      rw [run_cons] at finished
      obtain ⟨next, applied, rest⟩ := Option.bind_eq_some_iff.mp finished
      exact ReflTransGen.head ⟨op, permitted.1, applied⟩
        (inductionHypothesis rest (permitted.2 next applied))

end ParishKit.Lib
