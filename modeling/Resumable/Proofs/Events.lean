import Resumable.Proofs.Objects
import Resumable.Proofs.Run

namespace Resumable

inductive Event where
  | start
  | ready
  | done
  | rejected (fault : Fault)
  | failed (fault : Fault)
  deriving DecidableEq, Repr

def Signal.event? {A : Type} : Signal A → Option Event
  | .ready => some .ready
  | .forked _ => none
  | .done => some .done
  | .rejected fault => some (.rejected fault)

def paces (n : Nat) : List Event :=
  (List.replicate n [Event.start, Event.ready]).flatten

@[simp]
theorem paces_zero : paces 0 = [] :=
  rfl

theorem paces_succ (n : Nat) : paces (n + 1) = paces n ++ [.start, .ready] := by
  simp [paces, List.replicate_succ']

@[simp]
theorem length_paces (n : Nat) : (paces n).length = 2 * n := by
  induction n with
  | zero => rfl
  | succ n ih => simp [paces_succ, ih]; omega

theorem paces_add (n m : Nat) : paces (n + m) = paces n ++ paces m := by
  simp [paces, ← List.replicate_append_replicate]

variable {K : Client}

def State.status? (σ : State K) (i : InstanceId) : Option Status :=
  (σ.instances[i]?).map (·.status)

/-- The instance has terminated by itself: nobody has stopped it. -/
def Instance.EndedByItself (x : Instance K) : Prop :=
  x.status = .terminated ∧ x.registry.closed = false

namespace Config

def starts (i : InstanceId) : Config K → List Event
  | ⟨_, σ, .advance j, _⟩ => if j = i ∧ σ.status? i = some .paused then [.start] else []
  | _ => []

def tells (i : InstanceId) (before : State K) : Config K → List Event
  | ⟨_, _, .emit (.ofInstance j) signal, _⟩ => if j = i then signal.event?.toList else []
  | ⟨.result, σ, .run (.done (.error fault)), _⟩ =>
    if before.status? i ≠ some .terminated ∧ σ.status? i = some .terminated then [.failed fault]
    else []
  | _ => []

def events (i : InstanceId) (c d : Config K) : List Event :=
  c.starts i ++ d.tells i c.state

def eventsOf (i : InstanceId) (t : List (Config K × Config K)) : List Event :=
  t.flatMap fun (c, d) => c.events i d

variable {i : InstanceId} {before σ : State K} {s w : Shape} {stack : Stack K s}

@[simp]
theorem eventsOf_nil : eventsOf i ([] : List (Config K × Config K)) = [] :=
  rfl

@[simp]
theorem eventsOf_snoc (t : List (Config K × Config K)) (c d : Config K) :
    eventsOf i (t ++ [(c, d)]) = eventsOf i t ++ c.events i d := by
  simp [eventsOf]

@[simp]
theorem tells_call {c : Call K s} : tells i before ⟨s, σ, .call c, stack⟩ = [] :=
  rfl

@[simp]
theorem tells_advance {j : InstanceId} {stack : Stack K .result} :
    tells i before ⟨.result, σ, .advance j, stack⟩ = [] :=
  rfl

@[simp]
theorem tells_emit_free {id : RegistryId} {signal : Signal K.Artifact} {stack : Stack K .unit} :
    tells i before ⟨.unit, σ, .emit (.free id) signal, stack⟩ = [] :=
  rfl

@[simp]
theorem tells_emit {j : InstanceId} {signal : Signal K.Artifact} {stack : Stack K .unit} :
    tells i before ⟨.unit, σ, .emit (.ofInstance j) signal, stack⟩ =
      if j = i then signal.event?.toList else [] :=
  rfl

theorem tells_done_error {fault : Fault} {stack : Stack K .result} :
    tells i before ⟨.result, σ, .run (.done (.error fault)), stack⟩ =
      if before.status? i ≠ some .terminated ∧ σ.status? i = some .terminated then [.failed fault]
      else [] :=
  rfl

theorem tells_run {code : Code K (s.Answer K)} (same : σ.status? i = before.status? i) :
    tells i before ⟨s, σ, .run code, stack⟩ = [] := by
  cases code with
  | done answer =>
    cases s
    case result =>
      cases answer with
      | ok => rfl
      | error fault =>
        rw [tells_done_error]
        simp [same]
    all_goals rfl
  | panic => cases s <;> rfl
  | read => cases s <;> rfl
  | write => cases s <;> rfl
  | call => cases s <;> rfl

end Config

end Resumable
