import Resumable.Proofs.Growth
import Resumable.Proofs.Silent

namespace Resumable

variable {K : Client} {β : Behaviour K} {s w : Shape}

def Observer.IsClient : Observer K → Prop
  | client _ => True
  | host _ => False

structure Registry.Orderly (r : Registry (Observer K)) : Prop where
  shut : r.closed = true → r.entries = []
  headed : (∀ e ∈ r.entries, e.2.IsClient) ∨ ∃ c rest, r.entries = (0, .host c) :: rest ∧
    0 < r.nextId ∧ ∀ e ∈ rest, e.1 ≠ 0 ∧ e.2.IsClient

inductive Lock (K : Client) where
  | mounting
  | forking (history : History K.Artifact)
  | adopting (fresh : InstanceId)

def Lock.Vacates : Lock K → Prop
  | mounting => False
  | forking _ => True
  | adopting _ => True

def Frame.lock? (c : ComponentId) : Frame K s w → Option (Lock K)
  | mounting id _ => if id = c then some .mounting else none
  | forking id h => if id = c then some (.forking h) else none
  | adopting id fresh => if id = c then some (.adopting fresh) else none
  | _ => none

def Frame.replayed? : Frame K s w → Option InstanceId
  | replaying i _ _ => some i
  | _ => none

def Stack.lock? (c : ComponentId) : {s : Shape} → Stack K s → Option (Lock K)
  | _, empty => none
  | _, push frame _ => frame.lock? c

def Stack.locks (c : ComponentId) : {s : Shape} → Stack K s → List (Lock K)
  | _, empty => []
  | _, push frame rest => (frame.lock? c).toList ++ rest.locks c

theorem Frame.lock?_eq_none_iff {c : ComponentId} {frame : Frame K s w} :
    frame.lock? c = none ↔ frame.lockedComponent? ≠ some c := by
  cases frame <;> simp [lock?, lockedComponent?]

theorem Stack.locks_eq_nil_iff {c : ComponentId} {stack : Stack K s} :
    stack.locks c = [] ↔ stack.locksComponent c = false := by
  induction stack with
  | empty => exact ⟨fun _ => rfl, fun _ => rfl⟩
  | push frame rest ih =>
    simp [locks, locksComponent, any, Frame.lock?_eq_none_iff, ih]

namespace State

def current (σ : State K) (c : ComponentId) : Option InstanceId :=
  σ.components[c]?.bind (·.current)

def seat (σ : State K) (c : ComponentId) :
    Option (Option InstanceId × Option K.Inputs × MemoId × Settings) :=
  σ.components[c]?.map fun y => (y.current, y.inputs, y.memo, y.settings)

def Owns (σ : State K) (i : InstanceId) (setter : Setter K.Artifact) : Prop :=
  setter.owner = i ∧
    ∃ x v, σ.instances[i]? = some x ∧ setter.before ++ [.state v] <+: x.history

/-- A setter whose owner tells nobody any more. -/
def Outlived (σ : State K) (setter : Setter K.Artifact) : Prop :=
  ∃ x, σ.instances[setter.owner]? = some x ∧ x.registry.closed = true

end State

def Client.shown? : Except Fault K.Yielded → Option K.Artifact
  | .ok (.complete artifact) => some artifact
  | .ok (.effect (.render artifact)) => some artifact
  | _ => none

/-- A component, with what is known of its factory and of the setters that its procedures pass on:
those that they are fed. A strict host builds in silence, and nobody else stops its instances. -/
structure Host (β : Behaviour K) where
  component : ComponentId
  factory : K.Factory
  expected : K.Inputs → Prop
  built : K.Procedure → Prop
  carried : K.Artifact → Setter K.Artifact → Prop
  kept : K.Procedure → Setter K.Artifact → Prop
  strict : Bool
  empty : ∀ p setter, built p → ¬ kept p setter
  build : ∀ inputs, expected inputs →
    (β.code (.build factory inputs)).Ends fun r => ∀ p, r = .ok p → built p
  silent : strict = true → ∀ inputs, expected inputs →
    (β.code (.build factory inputs)).Only fun r => ∃ p, r = .ok p
  resume : ∀ p input, (β.code (.resume p input)).Ends fun r => ∀ q answer, r = .ok (q, answer) →
    ∀ setter, (kept q setter ∨ ∃ artifact, Client.shown? answer = some artifact ∧
      carried artifact setter) →
    kept p setter ∨ ∃ v, input = some (.cell ⟨v, setter⟩)

namespace Host

variable (H : Host β)

def Keeps (σ : State K) (i : InstanceId) (p : K.Procedure) : Prop :=
  ∀ setter, H.kept p setter → σ.Owns i setter

def Shows (σ : State K) (i : InstanceId) (answer : Except Fault K.Yielded) : Prop :=
  ∀ artifact setter, Client.shown? answer = some artifact → H.carried artifact setter →
    σ.Owns i setter

def Passed (σ : State K) (h : History K.Artifact) : Prop :=
  ∀ artifact setter, .view artifact ∈ h → H.carried artifact setter → σ.Outlived setter

/-- The procedure of a changed instance is the one that it had, or it keeps only what is the
instance's own. -/
def Hands (σ : State K) (i : InstanceId) (f : Instance K → Instance K) : Prop :=
  ∀ x p, σ.instances[i]? = some x → x.Hears H.component → (f x).procedure = some p →
    x.procedure = some p ∨ H.Keeps σ i p

def Carries (locks : List (Lock K)) (σ : State K) (i : InstanceId) (e : Entry K.Artifact) : Prop :=
  ∀ x artifact setter, σ.instances[i]? = some x → x.Hears H.component → e = .view artifact →
    H.carried artifact setter →
    (.adopting i ∈ locks → σ.Outlived setter) ∧ (.adopting i ∉ locks → σ.Owns i setter)

/-- An instance that the component is told by. The first `a` entries of a current instance were
there when it took its place. -/
structure Tenant (a : Nat) (locks : List (Lock K)) (σ : State K) (i : InstanceId)
    (x : Instance K) : Prop where
  memo : ∀ y, σ.components[H.component]? = some y → x.memo = y.memo
  kept : ∀ p, x.procedure = some p → H.Keeps σ i p
  place : .adopting i ∈ locks ∨ (σ.current H.component = some i ∧ a ≤ x.history.length)
  adopted : ∀ (n : Nat) artifact setter, x.history[n]? = some (.view artifact) →
    H.carried artifact setter → .adopting i ∈ locks ∨ n < a → σ.Outlived setter
  own : ∀ (n : Nat) artifact setter, x.history[n]? = some (.view artifact) →
    H.carried artifact setter → .adopting i ∉ locks → a ≤ n → σ.Owns i setter

structure Settled (locks : List (Lock K)) (σ : State K) (y : Component K) : Prop where
  factory : y.factory = H.factory
  expected : ∀ inputs, y.inputs = some inputs → H.expected inputs
  given : y.current ≠ none ∨ (∃ lock ∈ locks, lock.Vacates) → y.inputs ≠ none
  vacant : (∃ lock ∈ locks, lock.Vacates) → y.current = none
  tells : ∀ i, y.current = some i ∨ .adopting i ∈ locks → ∃ x, σ.instances[i]? = some x ∧
    (x.Hears H.component ∨ (H.strict = false ∧ x.registry.closed = true))
  alone : ∀ (c : ComponentId) y', σ.components[c]? = some y' → y'.memo = y.memo → c = H.component

structure StateOk (a : Nat) (locks : List (Lock K)) (σ : State K) : Prop where
  orderly : ∀ (i : InstanceId) x, σ.instances[i]? = some x → x.registry.Orderly
  clients : ∀ r ∈ σ.registries, ∀ o ∈ r.observers, o.IsClient
  made : ∀ (c : ComponentId) y, σ.components[c]? = some y → y.memo < σ.memos.length
  present : ∀ (c : ComponentId) y i, σ.components[c]? = some y → y.current = some i →
    i < σ.instances.length
  single : locks.length ≤ 1
  settled : ∃ y, σ.components[H.component]? = some y ∧ H.Settled locks σ y
  apart : ∀ (c : ComponentId) y (i : InstanceId) x, σ.components[c]? = some y →
    y.current = some i → σ.instances[i]? = some x → x.Hears H.component → c = H.component
  tenant : ∀ (i : InstanceId) x, σ.instances[i]? = some x → x.Hears H.component →
    H.Tenant a locks σ i x

def Takes (σ : State K) : {s w : Shape} → Frame K s w → Except Payload (s.Answer K) → Prop
  | _, _, .stepping i _ => fun r => ∀ p answer, r = .ok (p, answer) →
    ∃ x, σ.instances[i]? = some x ∧ (x.Hears H.component → H.Keeps σ i p ∧ H.Shows σ i answer)
  | _, _, .replaying i _ _ => fun r => ∀ p answer, r = .ok (p, answer) →
    ∃ x, σ.instances[i]? = some x ∧ (x.Hears H.component → H.Keeps σ i p)
  | _, _, .mounting c _ => fun r => ∀ p, r = .ok p → c = H.component → H.built p
  | _, _, .forking c _ => fun r => ∀ p, r = .ok p → c = H.component → H.built p
  | _, _, _ => fun _ => True

def Allowed (σ : State K) : {s : Shape} → Stack K s → Except Payload (s.Answer K) → Prop
  | _, .empty => fun _ => True
  | _, .push frame _ => H.Takes σ frame

def FrameOk (σ : State K) : {s w : Shape} → Frame K s w → Stack K w → Prop
  | _, _, .waiting next => fun rest => ∀ answer, (next answer).Ends (H.Allowed σ rest)
  | _, _, .stepping i _ => fun rest => .adopting i ∉ rest.locks H.component
  | _, _, .emitting _ left _ => fun _ => ∀ o ∈ left, o.IsClient
  | _, _, .replaying i e later => fun rest => ∃ x, σ.instances[i]? = some x ∧
    (x.Hears H.component → .adopting i ∈ rest.locks H.component ∧ H.Passed σ (e :: later))
  | _, _, .entering c inputs => fun _ => c = H.component → H.expected inputs
  | _, _, .mounting c inputs => fun _ => c = H.component → H.expected inputs
  | _, _, .forking c h => fun _ => c = H.component → H.Passed σ h
  | _, _, .adopting c i => fun _ =>
    c ≠ H.component → ∃ x, σ.instances[i]? = some x ∧ ¬ x.Hears H.component
  | _, _, _ => fun _ => True

def Bears : Option (Lock K) → Prop
  | none => True
  | some (.adopting _) => False
  | some _ => H.strict = false

def Open (stack : Stack K s) : Prop :=
  H.Bears (stack.lock? H.component)

/-- A frame may be where it is: nothing but its replay runs above an adoption. -/
def Seated (frame : Frame K s w) (rest : Stack K w) : Prop :=
  H.Open rest ∨ ∃ i, frame.replayed? = some i ∧ rest.lock? H.component = some (.adopting i)

def StackOk (σ : State K) : {s : Shape} → Stack K s → Prop
  | _, .empty => True
  | _, .push frame rest => H.FrameOk σ frame rest ∧ H.Seated frame rest ∧ StackOk σ rest

/-- A history that a setter of one of an instance's slots hands on. -/
def Genuine (x : Instance K) (h : History K.Artifact) : Prop :=
  ∃ before v w, h = before ++ [.state v] ∧ before ++ [.state w] <+: x.history

def ControlOk (σ : State K) : {s : Shape} → Control K s → Stack K s → Prop
  | _, .run code, stack => code.Ends (H.Allowed σ stack)
  | _, .call c, stack => (β.code c).Ends (H.Allowed σ stack)
  | _, .emit (.ofInstance i) (.forked h), _ =>
    ∀ x, σ.instances[i]? = some x → x.Hears H.component → Genuine x h
  | _, _, _ => True

def Topmost (control : Control K s) (stack : Stack K s) : Prop :=
  H.Open stack ∨ (∃ answer, control = .run (.done answer)) ∨
    H.strict = true ∧ control.Only β fun r => ∃ answer, r = .ok answer

structure Inv (a : Nat) (c : Config K) : Prop where
  state : H.StateOk a (c.stack.locks H.component) c.state
  stack : H.StackOk c.state c.stack
  control : H.ControlOk c.state c.control c.stack
  top : H.Topmost c.control c.stack

/-- The number of entries that the current instance had when it took its place, between two
states. -/
def arrives (a : Nat) (before after : State K) : Nat :=
  if after.current H.component = before.current H.component then a
  else (((after.current H.component).bind fun i => after.instances[i]?).map
    (·.history.length)).getD 0

/-- What the client may do, as far as it concerns the component. -/
def Admits : Config K → Prop
  | ⟨_, σ, .run (.call request _), _⟩ =>
    match request with
    | .unsubscribe (.ofInstance i) n =>
      ∀ x, σ.instances[i]? = some x → x.Hears H.component → n ≠ 0
    | .replay i _ => ∀ x, σ.instances[i]? = some x → ¬ x.Hears H.component
    | .fire setter _ => ∀ x, σ.instances[setter.owner]? = some x → x.Hears H.component →
      ∃ v, setter.before ++ [.state v] <+: x.history
    | .terminate i => H.strict = true →
      ∀ x, σ.instances[i]? = some x → ¬ x.Hears H.component
    | .render c inputs => c = H.component → H.expected inputs
    | _ => True
  | ⟨_, _, .run (.panic _), stack⟩ => stack.locks H.component = []
  | _ => True

end Host

end Resumable
