import Resumable.Proofs.Transition

namespace Resumable

variable {K : Client}

inductive Instance.Change : Instance K → Instance K → Prop
  | turns (x : Instance K) (p : Option K.Procedure) (status : Status) :
    Change x { x with procedure := p, status := status }
  | enters (x : Instance K) (e : Entry K.Artifact) (p : Option K.Procedure) (status : Status) :
    Change x { x with procedure := p, history := x.history ++ [e], status := status }
  | stops (x : Instance K) : Change x x.terminate
  | subscribed (x : Instance K) (o : K.Observer) :
    Change x { x with registry := (x.registry.subscribe (.client o)).2 }
  | unsubscribed (x : Instance K) (n : SubscriptionId) :
    Change x { x with registry := (x.registry.unsubscribe n).2 }

namespace State

inductive Change : State K → State K → Prop
  | apart {σ σ' : State K} (instances : σ'.instances = σ.instances)
    (components : σ'.components = σ.components) : Change σ σ'
  | ofInstance (σ : State K) (i : InstanceId) {f : Instance K → Instance K}
    (changes : ∀ x : Instance K, x.Change (f x)) : Change σ (σ.modifyInstance i f)
  | ofComponent (σ : State K) (k : ComponentId) {f : Component K → Component K}
    (same : ∀ y : Component K, (f y).settings = y.settings) : Change σ (σ.modifyComponent k f)
  | newInstance (σ : State K) (p : K.Procedure) (m : MemoId) (settings : Settings)
    (observers : List (Observer K)) : Change σ (σ.newInstance p m settings observers).2
  | newComponent (σ : State K) (factory : K.Factory) (callback : K.Callback)
    (settings : Settings) : Change σ (σ.newComponent factory callback settings).2

abbrev Changes : State K → State K → Prop :=
  Relation.ReflTransGen Change

variable {σ before : State K}

theorem Change.newMemo (σ : State K) : σ.Change σ.newMemo.2 :=
  .apart rfl rfl

theorem Change.remember (σ : State K) (m : MemoId) (n : Position) (keys : List Value) (v : Value) :
    σ.Change (σ.remember m n keys v) :=
  .apart rfl rfl

theorem Change.record (σ : State K) (i : InstanceId) (e : Entry K.Artifact) :
    σ.Change (σ.modifyInstance i (·.record e)) :=
  .ofInstance σ i fun x => .enters x e x.procedure .paused

theorem Change.subscribe (σ : State K) (source : Source) (o : K.Observer) :
    σ.Change (σ.modifyRegistry source fun r => (r.subscribe (.client o)).2) := by
  cases source with
  | free id => exact .apart rfl rfl
  | ofInstance i => exact .ofInstance σ i fun x => .subscribed x o

theorem Change.unsubscribe (σ : State K) (source : Source) (n : SubscriptionId) :
    σ.Change (σ.modifyRegistry source fun r => (r.unsubscribe n).2) := by
  cases source with
  | free id => exact .apart rfl rfl
  | ofInstance i => exact .ofInstance σ i fun x => .unsubscribed x n

theorem Dismisses.changes {s : Shape} {stack : Stack K s} {k : ComponentId} {y : Component K}
    {σ' : State K} (dismisses : σ.Dismisses stack k y σ') : σ.Changes σ' := by
  cases dismisses with
  | vacant => exact .refl
  | taken =>
    exact (Relation.ReflTransGen.single (.ofInstance σ _ fun x => .stops x)).tail
      (.ofComponent _ k fun _ => rfl)

theorem Replies.changes {s w : Shape} {stack : Stack K s} {request : Request K w} {σ' : State K}
    {answer : w.Answer K} (replies : σ.Replies stack request σ' answer) : σ.Changes σ' := by
  cases replies with
  | newMemo => exact .single (.newMemo σ)
  | remember => exact .single (.remember ..)
  | clearMemo => exact .single (.apart rfl rfl)
  | newRegistry => exact .single (.apart rfl rfl)
  | subscribe source o => exact .single (.subscribe σ source o)
  | unsubscribe source n => exact .single (.unsubscribe σ source n)
  | closeRegistry => exact .single (.apart rfl rfl)
  | newInstance p m settings => exact .single (.newInstance σ p m settings [])
  | terminate => exact .single (.ofInstance σ _ fun x => .stops x)
  | newComponent factory callback settings =>
    exact .single (.newComponent σ factory callback settings)
  | @reset σ' k y _ _ dismisses =>
    exact (dismisses.changes.tail (.newMemo σ')).tail (.ofComponent σ'.newMemo.2 k fun _ => rfl)
  | unmount _ _ dismisses => exact dismisses.changes
  | takeFault => exact .single (.ofComponent σ _ fun _ => rfl)
  | openGate => exact .single (.apart rfl rfl)
  | retain => exact .single (.apart rfl rfl)
  | release => exact .single (.apart rfl rfl)
  | _ => exact .refl

end State

namespace Config

open State

variable {β : Behaviour K} {c d : Config K}

theorem CodeStep.changes (step : CodeStep β c d) : c.state.Changes d.state := by
  cases step with
  | wrote => exact .single (.apart rfl rfl)
  | replied replies => exact replies.changes
  | begun => exact .single (.apart rfl rfl)
  | _ => exact .refl

theorem DriveStep.changes (step : DriveStep c d) : c.state.Changes d.state := by
  cases step with
  | idle => exact .refl
  | completed => exact .single (.ofInstance _ _ fun x => .enters x _ _ _)
  | recorded => exact .single (.ofInstance _ _ fun x => .enters x _ _ _)
  | outdated => exact .single (.remember ..)
  | computed => exact (Relation.ReflTransGen.single (.remember ..)).tail (.record _ _ _)
  | launched => exact .single (.apart rfl rfl)
  | proceeded => exact .refl
  | _ => exact .single (.ofInstance _ _ fun x => .turns x _ _)

theorem ReplayStep.changes (step : ReplayStep c d) : c.state.Changes d.state := by
  cases step with
  | started => exact .single (.ofInstance _ _ fun x => .turns x _ _)
  | diverged => exact .single (.ofInstance _ _ fun x => .turns x _ _)
  | _ => exact .single (.ofInstance _ _ fun x => .enters x _ _ _)

theorem TaskStep.changes (step : TaskStep c d) : c.state.Changes d.state := by
  cases step with
  | settled _ _ _ _ stored =>
    rcases stored with rfl | ⟨keys, -, rfl⟩
    · exact .single (.record _ _ _)
    · exact (Relation.ReflTransGen.single (.remember ..)).tail (.record _ _ _)
  | rejected => exact .single (.ofInstance _ _ fun x => .turns x _ _)
  | postponed => exact .single (.apart rfl rfl)
  | parked => exact .single (.apart rfl rfl)
  | polled => exact .single (.apart rfl rfl)
  | _ => exact .refl

theorem SignalStep.changes (step : SignalStep c d) : c.state.Changes d.state := by
  cases step with
  | forked _ _ _ _ dismisses => exact dismisses.changes
  | rejected => exact .single (.ofComponent _ _ fun _ => rfl)
  | _ => exact .refl

theorem HostStep.changes (step : HostStep c d) : c.state.Changes d.state := by
  cases step with
  | marked => exact .single (.ofComponent _ _ fun _ => rfl)
  | mounted _ _ dismisses =>
    exact ((Relation.ReflTransGen.single (.newInstance ..)).trans dismisses.changes).tail
      (.ofComponent _ _ fun _ => rfl)
  | unmarked => exact .single (.ofComponent _ _ fun _ => rfl)
  | empty => exact .single (.newInstance ..)
  | replaying =>
    exact (Relation.ReflTransGen.single (.newInstance ..)).tail (.ofInstance _ _ fun x => .turns x _ _)
  | adopted => exact .single (.ofComponent _ _ fun _ => rfl)
  | _ => exact .refl

theorem Transition.changes : Transition β c d → c.state.Changes d.state
  | code step => step.changes
  | drive step => step.changes
  | replay step => step.changes
  | task step => step.changes
  | signal step => step.changes
  | host step => step.changes

theorem Follows.changes (follows : Follows β c d) : c.state.Changes d.state :=
  follows.transition.changes

theorem Run.changes {G : Config K → Prop} {t : List (Config K × Config K)} (run : Run β G c t d) :
    c.state.Changes d.state := by
  induction run with
  | refl => exact .refl
  | snoc _ _ follows ih => exact ih.trans follows.changes

end Config

end Resumable
