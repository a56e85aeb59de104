import Mathlib.Data.List.Induction

/-!
# Runs that are remembered

A system is asked for one step after another, and puts what it does before a history of what it has
done, newest first.  Whatever is asked for, it makes one of its moves or passes the request over.

Then laws about runs are laws about the history and the state that it led to, and there are two ways
to them: what a move keeps holds from the start on (`run_induction`), and what one step brings about
holds for as long as the steps behind it keep it (`holds_since`).

## Main results

* `run_induction`, `holds_since`: as above.
* `exists_move_of_history_eq`: every step of a history was a move from a state of its own.
-/

namespace LiveDiagram

/-- A system that makes moves when asked, and remembers them. -/
structure Recorder (State Request Step : Type) where
  step : State → Request → State
  history : State → List Step
  /-- All that one request can do, with the step it adds to the history. -/
  Moves : State → Step → State → Prop
  step_moves : ∀ x a, step x a = x ∨ ∃ y, Moves x y (step x a)
  history_eq : ∀ x y x', Moves x y x' → history x' = y :: history x

namespace Recorder

variable {State Request Step : Type}

/-- The states that requests lead to. -/
def Reachable (R : Recorder State Request Step) (start x : State) : Prop :=
  ∃ schedule : List Request, schedule.foldl R.step start = x

section

variable {R : Recorder State Request Step} {start x : State} {P : State → Prop}

theorem Reachable.refl (R : Recorder State Request Step) (start : State) : R.Reachable start start :=
  ⟨[], rfl⟩

theorem Reachable.foldl (hx : R.Reachable start x) (more : List Request) :
    R.Reachable start (more.foldl R.step x) := by
  obtain ⟨schedule, rfl⟩ := hx
  exact ⟨schedule ++ more, List.foldl_append⟩

/-- What holds at the start and survives every move holds after every schedule.  Both states of a move
are reachable, which it may use. -/
theorem run_induction (hstart : P start)
    (hmove : ∀ x y x', R.Reachable start x → R.Reachable start x' → P x → R.Moves x y x' → P x')
    (hx : R.Reachable start x) : P x := by
  obtain ⟨schedule, rfl⟩ := hx
  induction schedule using List.reverseRecOn with
  | nil => exact hstart
  | append_singleton past a ih =>
      have hpast : R.Reachable start (past.foldl R.step start) := ⟨past, rfl⟩
      have hnext := hpast.foldl [a]
      rw [List.foldl_append]
      rcases R.step_moves (past.foldl R.step start) a with hsame | ⟨y, hy⟩
      · show P (R.step _ a)
        rw [hsame]
        exact ih
      · exact hmove _ y _ hpast hnext ih hy

/-- Every step of a history was a move from a state of its own. -/
theorem exists_move_of_history_eq (hstart : R.history start = []) (hx : R.Reachable start x) {y : Step}
    {after before : List Step} (h : R.history x = after ++ y :: before) :
    ∃ p q, R.Reachable start p ∧ R.Reachable start q ∧ R.Moves p y q ∧ R.history p = before := by
  refine run_induction (P := fun x => ∀ after, R.history x = after ++ y :: before →
    ∃ p q, R.Reachable start p ∧ R.Reachable start q ∧ R.Moves p y q ∧ R.history p = before)
    ?_ ?_ hx after h
  · intro after hnil
    rw [hstart] at hnil
    cases after <;> cases hnil
  · intro x z x' hreach hnext ih hmove after hhist
    rw [R.history_eq x z x' hmove] at hhist
    cases after with
    | nil =>
        cases hhist
        exact ⟨x, x', hreach, hnext, hmove, rfl⟩
    | cons a after => exact ih after (List.cons.inj hhist).2

/-- What a step brings about, and what the steps behind it keep, holds as long as there are only such
steps. -/
theorem holds_since {quiet : Step → Prop} {y : Step} {before : List Step}
    (hstart : R.history start = [])
    (hmark : ∀ p q, R.Reachable start p → R.history p = before → R.Moves p y q → P q)
    (hkeep : ∀ p z q, R.Reachable start p → P p → quiet z → R.Moves p z q → P q)
    (hx : R.Reachable start x) {after : List Step}
    (h : R.history x = after ++ y :: before) (hafter : ∀ z ∈ after, quiet z) : P x := by
  refine run_induction (P := fun x => ∀ after, R.history x = after ++ y :: before →
    (∀ z ∈ after, quiet z) → P x) ?_ ?_ hx after h hafter
  · intro after hnil
    rw [hstart] at hnil
    cases after <;> cases hnil
  · intro x z x' hreach _ ih hmove after hhist hquiet
    rw [R.history_eq x z x' hmove] at hhist
    cases after with
    | nil =>
        cases hhist
        exact hmark x x' hreach rfl hmove
    | cons a after =>
        obtain ⟨rfl, hrest⟩ := List.cons.inj hhist
        exact hkeep x z x' hreach
          (ih after hrest fun w hw => hquiet w (List.mem_cons_of_mem _ hw))
          (hquiet z List.mem_cons_self) hmove

end

end Recorder

end LiveDiagram
