import Resumable.Proofs.Sequences
import Resumable.Scenario.Conduct

namespace Resumable.Scenario

theorem Step.run_withLocals (input : Option (Resumption Artifact)) (ending : Ending)
    (actions : List Action) (p : Procedure) :
    Step.run input ending actions p = (Step.run input ending actions p).bind fun r =>
      .done (p.withLocals r.1.sequence.locals, r.2) := by
  induction actions generalizing p with
  | nil =>
    change Code.bind _ _ = (Code.bind _ _).bind _
    rw [Code.bind_assoc]
    rfl
  | cons action rest ih =>
    change Code.bind _ _ = (Code.bind _ _).bind _
    rw [Code.bind_assoc]
    congr 1
    funext result
    cases result with
    | error fault => rfl
    | ok locals =>
      change Code.bind _ _ = (Code.bind _ _).bind _
      rw [Code.bind_assoc]
      congr 1
      funext _
      exact ih (p.withLocals locals)

def Procedure.play (p : Procedure) (input : Option (Resumption Artifact)) (step : Step)
    (moved : StepSequence Step Artifact) :
    Script (Locals Artifact × Except Fault (Client.Yielded client)) := do
  let p := { p with sequence := moved }
  p.save
  let (q, answer) ← Step.run input step.ending step.actions p
  pure (q.sequence.locals, answer)

theorem Procedure.resume_eq {p : Procedure} (once : p.repeats = false)
    (input : Option (Resumption Artifact)) :
    p.resume input = (p.sequence.resume (p.play input)).bind fun r =>
      .done ({ p with sequence := r.1 }, r.2) := by
  obtain ⟨s, repeats, props, home⟩ := p
  obtain rfl : repeats = false := once
  simp only [Procedure.resume, Procedure.advance, StepSequence.resume, Bool.false_eq_true, if_false]
  cases s.advance with
  | error fault => rfl
  | ok next =>
    obtain ⟨step, moved⟩ := next
    change Code.bind _ _ = (Code.bind (Code.bind _ fun _ => Code.bind _ _) _).bind _
    simp only [Code.bind_assoc]
    congr 1
    funext _
    exact Step.run_withLocals input step.ending step.actions ⟨moved, false, props, home⟩

def Procedure.sequence? (p : Procedure) : Option (StepSequence Step Artifact) :=
  if p.repeats then none else some p.sequence

theorem Procedure.sequence?_eq_some {p : Procedure} {s : StepSequence Step Artifact} :
    p.sequence? = some s ↔ p.repeats = false ∧ p.sequence = s := by
  cases once : p.repeats <;> simp [Procedure.sequence?, once]

def sequencing : Sequencing conduct Step where
  sequence? := Procedure.sequence?
  put p s := { p with sequence := s }
  body := Procedure.play
  sequence_put s' runs :=
    Procedure.sequence?_eq_some.mpr ⟨(Procedure.sequence?_eq_some.mp runs).1, rfl⟩
  code input runs := by
    obtain ⟨once, rfl⟩ := Procedure.sequence?_eq_some.mp runs
    exact Procedure.resume_eq once input

theorem sequencing_ofProgram {program : Program} (once : program.repeats = false) (props : Value)
    (home : Option Nat) : sequencing.At (program.steps.map fun s => (s.label, s)) 0
      (Procedure.ofProgram program props home) :=
  ⟨Nat.zero_le _, _, Procedure.sequence?_eq_some.mpr ⟨once, rfl⟩, rfl, rfl⟩

end Resumable.Scenario
