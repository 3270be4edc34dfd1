import Resumable.Machine.Client

namespace Resumable

inductive Shape where
  | unit
  | flag
  | number
  | value
  | result
  | artifact
  | step
  | procedure
  | future
  | progress
  | fault
  | memo
  | registry
  | instanceView
  | componentView
  deriving DecidableEq, Repr

@[reducible]
def Shape.Answer (K : Client) : Shape → Type
  | unit => Unit
  | flag => Bool
  | number => Nat
  | value => Value
  | result => Except Fault Unit
  | artifact => Except Fault K.Artifact
  | step => K.Procedure × Except Fault K.Yielded
  | procedure => K.Procedure
  | future => K.Future
  | progress => Progress K.Future
  | fault => Option Fault
  | memo => Memo
  | registry => Registry Unit
  | instanceView => InstanceView K.Artifact
  | componentView => ComponentView

/-- The places where the client's own code is called. -/
inductive Call (K : Client) : Shape → Type where
  | resume (procedure : K.Procedure) (input : Option (Resumption K.Artifact)) : Call K .step
  | compute (computation : K.Computation) : Call K .value
  | produce (producer : K.Producer) : Call K .future
  | poll (future : K.Future) : Call K .progress
  | notice (observer : K.Observer) (signal : Signal K.Artifact) : Call K .unit
  | build (factory : K.Factory) (inputs : K.Inputs) : Call K .procedure
  | rerender (callback : K.Callback) : Call K .unit

inductive Request (K : Client) : Shape → Type where
  | newMemo : Request K .number
  | memo (id : MemoId) : Request K .memo
  | remember (id : MemoId) (position : Position) (keys : List Value) (value : Value) :
      Request K .unit
  | clearMemo (id : MemoId) : Request K .unit
  | newRegistry : Request K .number
  | registry (id : RegistryId) : Request K .registry
  | subscribe (source : Source) (observer : K.Observer) : Request K .number
  | unsubscribe (source : Source) (id : SubscriptionId) : Request K .flag
  | emit (id : RegistryId) (signal : Signal K.Artifact) : Request K .unit
  | closeRegistry (id : RegistryId) : Request K .unit
  | newInstance (procedure : K.Procedure) (memo : MemoId) (settings : Settings) :
      Request K .number
  | instanceView (id : InstanceId) : Request K .instanceView
  /-- The memo that an instance uses. It stays the same, so it is told even of a locked one. -/
  | instanceMemo (id : InstanceId) : Request K .number
  | proceed (id : InstanceId) : Request K .result
  | replay (id : InstanceId) (history : History K.Artifact) : Request K .result
  | terminate (id : InstanceId) : Request K .unit
  | fire (setter : Setter K.Artifact) (value : Value) : Request K .unit
  | newComponent (factory : K.Factory) (callback : K.Callback) (settings : Settings) :
      Request K .number
  | componentView (id : ComponentId) : Request K .componentView
  | render (id : ComponentId) (inputs : K.Inputs) : Request K .artifact
  | reset (id : ComponentId) : Request K .unit
  | unmount (id : ComponentId) : Request K .unit
  | takeFault (id : ComponentId) : Request K .fault
  /-- Polls tasks until none is ready. -/
  | drain : Request K .unit
  | openGate (gate : String) : Request K .number
  | retain (handle : Handle) : Request K .unit
  | release (handle : Handle) : Request K .unit
  | call {s : Shape} (call : Call K s) : Request K s

/-- Client code that ends with an answer of type `α`. -/
inductive Code (K : Client) (α : Type) : Type where
  | done (answer : α)
  | panic (payload : Payload)
  | read (next : K.Memory → Code K α)
  | write (memory : K.Memory) (next : Code K α)
  | call {s : Shape} (request : Request K s) (next : s.Answer K → Code K α)

namespace Code

variable {K : Client} {α β : Type}

def bind : Code K α → (α → Code K β) → Code K β
  | done answer, k => k answer
  | panic payload, _ => panic payload
  | read next, k => read fun memory => (next memory).bind k
  | write memory next, k => write memory (next.bind k)
  | call request next, k => call request fun answer => (next answer).bind k

instance : Monad (Code K) where
  pure := done
  bind := bind

def ask {s : Shape} (request : Request K s) : Code K (s.Answer K) :=
  call request done

def memory : Code K K.Memory :=
  read done

def update (f : K.Memory → K.Memory) : Code K Unit :=
  read fun memory => write (f memory) (done ())

theorem bind_assoc {γ : Type} (c : Code K α) (f : α → Code K β) (g : β → Code K γ) :
    (c.bind f).bind g = c.bind fun a => (f a).bind g := by
  induction c with
  | done => rfl
  | panic => rfl
  | read next ih => simp only [bind, ih]
  | write memory next ih => simp only [bind, ih]
  | call request next ih => simp only [bind, ih]

theorem bind_done (c : Code K α) : c.bind done = c := by
  induction c with
  | done => rfl
  | panic => rfl
  | read next ih => simp only [bind, ih]
  | write memory next ih => simp only [bind, ih]
  | call request next ih => simp only [bind, ih]

instance : LawfulMonad (Code K) :=
  LawfulMonad.mk' (Code K) bind_done (fun _ _ => rfl) bind_assoc

end Code

/-- What the client's procedures, computations, producers, futures, observers, factories and
callbacks do when they are called. -/
structure Behaviour (K : Client) where
  code {s : Shape} : Call K s → Code K (s.Answer K)

end Resumable
