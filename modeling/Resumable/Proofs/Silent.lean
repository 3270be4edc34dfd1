import Resumable.Proofs.Run

namespace Resumable

variable {K : Client} {α : Type}

namespace Code

def Only (Q : Except Payload α → Prop) : Code K α → Prop
  | done answer => Q (.ok answer)
  | panic payload => Q (.error payload)
  | read next => ∀ memory, (next memory).Only Q
  | write _ next => next.Only Q
  | call _ _ => False

def Ends (Q : Except Payload α → Prop) : Code K α → Prop
  | done answer => Q (.ok answer)
  | panic payload => Q (.error payload)
  | read next => ∀ memory, (next memory).Ends Q
  | write _ next => next.Ends Q
  | call _ next => ∀ answer, (next answer).Ends Q

def Gives (code : Code K α) (result : Except Payload α) : Prop :=
  code.Only (· = result)

variable {Q R : Except Payload α → Prop}

theorem Only.imp {code : Code K α} (h : code.Only Q) (imp : ∀ r, Q r → R r) : code.Only R := by
  induction code with
  | done answer => exact imp _ h
  | panic payload => exact imp _ h
  | read next ih => exact fun memory => ih memory (h memory)
  | write memory next ih => exact ih h
  | call request next => exact h

theorem Ends.imp {code : Code K α} (h : code.Ends Q) (imp : ∀ r, Q r → R r) : code.Ends R := by
  induction code with
  | done answer => exact imp _ h
  | panic payload => exact imp _ h
  | read next ih => exact fun memory => ih memory (h memory)
  | write memory next ih => exact ih h
  | call request next ih => exact fun answer => ih answer (h answer)

theorem Ends.of_forall (h : ∀ r, Q r) (code : Code K α) : code.Ends Q := by
  induction code with
  | done answer => exact h _
  | panic payload => exact h _
  | read next ih => exact ih
  | write memory next ih => exact ih
  | call request next ih => exact ih

theorem Only.ends {code : Code K α} (h : code.Only Q) : code.Ends Q := by
  induction code with
  | done answer => exact h
  | panic payload => exact h
  | read next ih => exact fun memory => ih memory (h memory)
  | write memory next ih => exact ih h
  | call request next => exact h.elim

theorem Only.meet [Nonempty K.Memory] {code : Code K α} (h : code.Only Q) (h' : code.Only R) :
    ∃ r, Q r ∧ R r := by
  induction code with
  | done answer => exact ⟨_, h, h'⟩
  | panic payload => exact ⟨_, h, h'⟩
  | read next ih => exact ih Classical.ofNonempty (h _) (h' _)
  | write memory next ih => exact ih h h'
  | call request next => exact h.elim

end Code

namespace Control

variable {s : Shape}

def Only (control : Control K s) (β : Behaviour K) (Q : Except Payload (s.Answer K) → Prop) :
    Prop :=
  match control with
  | .run code => code.Only Q
  | .call c => (β.code c).Only Q
  | _ => False

variable {β : Behaviour K} {Q R : Except Payload (s.Answer K) → Prop} {control : Control K s}

theorem Only.imp (h : control.Only β Q) (imp : ∀ r, Q r → R r) : control.Only β R := by
  cases control with
  | run code => exact Code.Only.imp h imp
  | call c => exact Code.Only.imp h imp
  | emit => exact h.elim
  | advance => exact h.elim

theorem Only.cases (h : control.Only β Q) (σ : State K) (stack : Stack K s) :
    (∃ r, Q r ∧ control = .run (.ended r)) ∨
      ∃ memory control', Only control' β Q ∧
        (⟨s, σ, control, stack⟩ : Config K).step β =
          .ok ⟨s, { σ with memory := memory }, control', stack⟩ := by
  cases control with
  | run code =>
    cases code with
    | done answer => exact .inl ⟨.ok answer, h, rfl⟩
    | panic payload => exact .inl ⟨.error payload, h, rfl⟩
    | read next => exact .inr ⟨σ.memory, .run (next σ.memory), h σ.memory, rfl⟩
    | write memory next => exact .inr ⟨memory, .run next, h, rfl⟩
    | call request next => exact h.elim
  | call c => exact .inr ⟨σ.memory, .run (β.code c), h, rfl⟩
  | emit => exact h.elim
  | advance => exact h.elim

end Control

namespace Config

variable {β : Behaviour K} {s : Shape}

theorem reaches_ended {Q : Except Payload (s.Answer K) → Prop} {control : Control K s}
    (h : control.Only β Q) (σ : State K) (stack : Stack K s) :
    ∃ memory r, Q r ∧ Reaches β ⟨s, σ, control, stack⟩
      ⟨s, { σ with memory := memory }, .run (.ended r), stack⟩ := by
  have run : ∀ (code : Code K (s.Answer K)) σ, code.Only Q → ∃ memory r, Q r ∧
      Reaches β ⟨s, σ, .run code, stack⟩
        ⟨s, { σ with memory := memory }, .run (.ended r), stack⟩ := by
    intro code
    induction code with
    | done answer => exact fun σ h => ⟨σ.memory, .ok answer, h, .refl⟩
    | panic payload => exact fun σ h => ⟨σ.memory, .error payload, h, .refl⟩
    | read next ih =>
      intro σ h
      obtain ⟨memory, r, hr, reached⟩ := ih σ.memory σ (h σ.memory)
      exact ⟨memory, r, hr, .head rfl reached⟩
    | write memory next ih =>
      intro σ h
      obtain ⟨memory', r, hr, reached⟩ := ih { σ with memory := memory } h
      exact ⟨memory', r, hr, .head rfl reached⟩
    | call request next => exact fun _ h => h.elim
  cases control with
  | run code => exact run code σ h
  | call c =>
    obtain ⟨memory, r, hr, reached⟩ := run (β.code c) σ h
    exact ⟨memory, r, hr, .head rfl reached⟩
  | emit => exact h.elim
  | advance => exact h.elim

end Config

end Resumable
