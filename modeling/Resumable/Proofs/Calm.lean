import Resumable.Proofs.Hearing
import Resumable.Proofs.Settlement

namespace Resumable

variable {K : Client} {s w : Shape} {β : Behaviour K}

def Request.acts : Request K s → Bool
  | proceed _ => true
  | replay _ _ => true
  | terminate _ => true
  | fire _ _ => true
  | render _ _ => true
  | reset _ => true
  | unmount _ => true
  | release _ => true
  | _ => false

def Frame.calm : Frame K s w → Bool
  | waiting _ => true
  | emitting _ _ _ => true
  | hosting _ => true
  | polling _ => true
  | settling _ => true
  | draining => true
  | _ => false

def Stack.Calm : {s : Shape} → Stack K s → Prop
  | _, empty => True
  | _, push frame rest => frame.calm = true ∧ rest.Calm

def Control.Calm : Control K s → Prop
  | advance _ => False
  | emit (.ofInstance _) (.forked _) => False
  | _ => True

structure State.Drifts (σ σ' : State K) : Prop where
  instances (i : InstanceId) (x : Instance K) (found : σ.instances[i]? = some x) :
    ∃ x', σ'.instances[i]? = some x' ∧ x'.status = x.status ∧ x'.history = x.history
  held : σ.held ⊆ σ'.held
  current (k : ComponentId) (y : Component K) (made : σ.components[k]? = some y) :
    ∃ y', σ'.components[k]? = some y' ∧ y'.current = y.current

namespace State.Drifts

variable {σ σ' : State K}

theorem of_same (instances : σ'.instances = σ.instances) (components : σ'.components = σ.components)
    (held : σ'.held = σ.held) : σ.Drifts σ' where
  instances _ x found := ⟨x, instances ▸ found, rfl, rfl⟩
  held := held ▸ List.Subset.refl _
  current _ y made := ⟨y, components ▸ made, rfl⟩

theorem refl (σ : State K) : σ.Drifts σ :=
  of_same rfl rfl rfl

theorem modifyInstance (σ : State K) (i : InstanceId) {f : Instance K → Instance K}
    (same : ∀ x, (f x).status = x.status ∧ (f x).history = x.history) :
    σ.Drifts (σ.modifyInstance i f) where
  instances j x found := by
    rw [instances_modifyInstance, found]
    refine ⟨_, rfl, ?_⟩
    split
    · exact same x
    · exact ⟨rfl, rfl⟩
  held := List.Subset.refl _
  current _ y made := ⟨y, made, rfl⟩

theorem modifyRegistry (σ : State K) (source : Source)
    (f : Registry (Observer K) → Registry (Observer K)) : σ.Drifts (σ.modifyRegistry source f) := by
  cases source with
  | free id => exact .of_same rfl rfl rfl
  | ofInstance i => exact modifyInstance σ i fun _ => ⟨rfl, rfl⟩

theorem modifyComponent (σ : State K) (k : ComponentId) {f : Component K → Component K}
    (same : ∀ y, (f y).current = y.current) : σ.Drifts (σ.modifyComponent k f) where
  instances _ x found := ⟨x, found, rfl, rfl⟩
  held := List.Subset.refl _
  current k' y made := by
    rw [components_modifyComponent, made]
    refine ⟨_, rfl, ?_⟩
    split
    · exact same y
    · rfl

theorem newInstance (σ : State K) (p : K.Procedure) (m : MemoId) (settings : Settings)
    (observers : List (Observer K)) : σ.Drifts (σ.newInstance p m settings observers).2 where
  instances _ x found := by
    have made := (List.getElem?_eq_some_iff.mp found).1
    exact ⟨x, by simp [State.newInstance, List.getElem?_append_left made, found], rfl, rfl⟩
  held := List.Subset.refl _
  current _ y made := ⟨y, made, rfl⟩

theorem newComponent (σ : State K) (factory : K.Factory) (callback : K.Callback)
    (settings : Settings) : σ.Drifts (σ.newComponent factory callback settings).2 where
  instances _ x found := ⟨x, found, rfl, rfl⟩
  held := List.Subset.refl _
  current _ y found := by
    have made := (List.getElem?_eq_some_iff.mp found).1
    exact ⟨y, by simp [State.newComponent, State.newMemo, List.getElem?_append_left made, found],
      rfl⟩

theorem retain (σ : State K) (handle : Handle) : σ.Drifts (σ.retain handle) where
  instances _ x found := ⟨x, found, rfl, rfl⟩
  held := List.subset_cons_self _ _
  current _ y made := ⟨y, made, rfl⟩

end State.Drifts

/-- What became of an await: whose it was, where and under which keys, and how its future ended. -/
structure Settlement where
  owner : InstanceId
  position : Position
  keys : Option (List Value)
  outcome : Except Failure Value

namespace Config

variable {c d : Config K} {t : List (Config K × Config K)} {σ : State K}

def acts : Config K → Bool
  | ⟨_, _, .run (.call request _), _⟩ => request.acts
  | _ => false

structure Calm (c : Config K) : Prop where
  stack : c.stack.Calm
  control : c.control.Calm

def settles? : Config K → Option Settlement
  | ⟨.progress, _, .run (.done (.ready r)), .push (.polling task) _⟩ =>
    some ⟨task.owner, task.position, task.keys, r.mapError .failed⟩
  | ⟨.progress, _, .run (.panic payload), .push (.polling task) _⟩ =>
    some ⟨task.owner, task.position, task.keys, .error (.panicked payload)⟩
  | _ => none

def settlements (t : List (Config K × Config K)) : List Settlement :=
  t.filterMap fun p => p.1.settles?

theorem Completes.settles? {stack : Stack K .unit} {task : Task K} {outcome : Except Failure Value}
    (completes : c.Completes stack task outcome) :
    c.settles? = some ⟨task.owner, task.position, task.keys, outcome⟩ := by
  cases completes <;> rfl

theorem completes_of_settles? {a : Settlement} (settles : c.settles? = some a) :
    ∃ stack task outcome, c.Completes stack task outcome ∧
      a = ⟨task.owner, task.position, task.keys, outcome⟩ := by
  unfold settles? at settles
  split at settles
  · next σ r task stack => exact ⟨stack, task, _, .answered σ r, (Option.some.inj settles).symm⟩
  · next σ payload task stack =>
    exact ⟨stack, task, _, .panicked σ payload, (Option.some.inj settles).symm⟩
  · cases settles

structure Idles (σ : State K) (d : Config K) : Prop where
  drifts : σ.Drifts d.state
  calm : d.Calm
  quiet : ∀ i, d.deed? i = none

section

variable {stack : Stack K .unit} {source : Source} {signal : Signal K.Artifact}
  {observers : List (Observer K)} {k : ComponentId}

theorem idles_call {call : Call K s} {frame : Frame K s w} {rest : Stack K w} {σ' : State K}
    (drifts : σ.Drifts σ') (calm : rest.Calm) (frameCalm : frame.calm = true) :
    Idles σ ⟨s, σ', .call call, .push frame rest⟩ := by
  have quiet : frame.deed? = none := by
    cases frame <;> first | rfl | cases frameCalm
  exact ⟨drifts, ⟨⟨frameCalm, calm⟩, trivial⟩, fun i => by simp [deed?, quiet, ownedBy]⟩

theorem Draining.calm (draining : c.Draining stack) (calm : c.Calm) : stack.Calm := by
  cases draining with
  | asked => exact ⟨rfl, calm.stack⟩
  | again => exact calm.stack.2

theorem Delivering.calm (delivering : c.Delivering source signal observers stack) (calm : c.Calm) :
    stack.Calm := by
  cases delivering with
  | sent => exact calm.stack
  | further => exact calm.stack.2

theorem Reacting.calm (reacting : c.Reacting k signal stack) (calm : c.Calm) : stack.Calm := by
  cases reacting with
  | intro delivering => exact ⟨rfl, delivering.calm calm⟩

theorem Requesting.calm (requesting : c.Requesting k stack) (calm : c.Calm) : stack.Calm := by
  cases requesting with
  | told reacting => exact reacting.calm calm
  | adopted => cases calm.stack.1

/-- Only an instance sends a fork that a component hears, and no instance does so in a calm stretch. -/
theorem Reacting.not_forked {h : History K.Artifact} (reacting : c.Reacting k (.forked h) stack)
    (calm : c.Calm) (heard : c.Heard t) : False := by
  cases reacting with
  | intro delivering =>
    cases delivering with
    | sent σ told =>
      obtain ⟨i, rfl, -⟩ := heard.made k _ (told ▸ List.mem_cons_self ..)
      exact calm.control
    | further => exact heard.left _ _ _ _ .refl k (List.mem_cons_self ..)

end

theorem CodeStep.idles (step : CodeStep β c d) (calm : c.Calm) (refrains : c.acts = false) :
    d.Idles c.state := by
  have waiting : ∀ {s w : Shape} (next : w.Answer K → Code K (s.Answer K)) {stack : Stack K s},
      stack.Calm → (Stack.push (.waiting next) stack).Calm := fun _ _ calm => ⟨rfl, calm⟩
  cases step with
  | entered σ => exact ⟨.refl σ, ⟨calm.stack, trivial⟩, fun _ => rfl⟩
  | read σ => exact ⟨.refl σ, ⟨calm.stack, trivial⟩, fun _ => rfl⟩
  | wrote => exact ⟨.of_same rfl rfl rfl, ⟨calm.stack, trivial⟩, fun _ => rfl⟩
  | @replied s w σ σ' request answer next stack replies =>
    refine ⟨?_, ⟨waiting next calm.stack, trivial⟩, fun _ => rfl⟩
    cases replies with
    | newInstance p m settings => exact .newInstance σ p m settings []
    | newComponent factory callback settings => exact .newComponent σ factory callback settings
    | subscribe source o => exact .modifyRegistry σ source _
    | unsubscribe source n => exact .modifyRegistry σ source _
    | closeRegistry id => exact .modifyRegistry σ (.free id) _
    | takeFault => exact .modifyComponent σ _ fun _ => rfl
    | retain handle => exact .retain σ handle
    | replay => cases refrains
    | terminate => cases refrains
    | fire => cases refrains
    | reset => cases refrains
    | unmount => cases refrains
    | release => cases refrains
    | _ => exact .of_same rfl rfl rfl
  | called σ call next => exact ⟨.refl σ, ⟨waiting next calm.stack, trivial⟩, fun _ => rfl⟩
  | emitted σ id signal next => exact ⟨.refl σ, ⟨waiting next calm.stack, trivial⟩, fun _ => rfl⟩
  | fired => cases refrains
  | driven => cases refrains
  | answered σ => exact ⟨.refl σ, ⟨calm.stack.2, trivial⟩, fun _ => rfl⟩
  | dropped σ => exact ⟨.refl σ, ⟨calm.stack.2, trivial⟩, fun _ => rfl⟩
  | begun => exact ⟨.of_same rfl rfl rfl, ⟨trivial, trivial⟩, fun _ => rfl⟩

theorem TaskStep.idles (step : TaskStep c d) (calm : c.Calm) (unsettled : c.settles? = none) :
    d.Idles c.state := by
  have ends : ∀ {stack task outcome}, ¬ c.Completes stack task outcome :=
    fun completes => by simp [completes.settles?] at unsettled
  cases step with
  | gone completes => exact absurd completes ends
  | ignored completes => exact absurd completes ends
  | settled completes => exact absurd completes ends
  | rejected completes => exact absurd completes ends
  | told σ => exact ⟨.refl σ, ⟨calm.stack.2, trivial⟩, fun _ => rfl⟩
  | spared σ => exact ⟨.refl σ, ⟨calm.stack.2, trivial⟩, fun _ => rfl⟩
  | postponed => exact ⟨.of_same rfl rfl rfl, ⟨calm.stack.2, trivial⟩, fun _ => rfl⟩
  | parked => exact ⟨.of_same rfl rfl rfl, ⟨calm.stack.2, trivial⟩, fun _ => rfl⟩
  | polled draining => exact idles_call (.of_same rfl rfl rfl) ⟨rfl, draining.calm calm⟩ rfl
  | drained => exact ⟨.refl _, ⟨calm.stack.2, trivial⟩, fun _ => rfl⟩

theorem SignalStep.idles (step : SignalStep c d) (calm : c.Calm) (heard : c.Heard t) :
    d.Idles c.state := by
  cases step with
  | delivered delivering => exact ⟨.refl _, ⟨delivering.calm calm, trivial⟩, fun _ => rfl⟩
  | noticed delivering => exact idles_call (.refl _) (delivering.calm calm) rfl
  | unheld delivering => exact ⟨.refl _, ⟨⟨rfl, delivering.calm calm⟩, trivial⟩, fun _ => rfl⟩
  | marked requesting => exact ⟨.refl _, ⟨requesting.calm calm, trivial⟩, fun _ => rfl⟩
  | requested requesting => exact idles_call (.refl _) (requesting.calm calm) rfl
  | bare reacting => exact (reacting.not_forked calm heard).elim
  | forked reacting => exact (reacting.not_forked calm heard).elim
  | rejected reacting =>
    exact idles_call (.modifyComponent _ _ fun _ => rfl) (reacting.calm calm) rfl
  | hosted σ => exact ⟨.refl σ, ⟨calm.stack.2, trivial⟩, fun _ => rfl⟩

/-- In a calm stretch, a step that settles nothing leaves every instance as it stands. -/
theorem Calm.idles (calm : c.Calm) (refrains : c.acts = false) (heard : c.Heard t)
    (unsettled : c.settles? = none) (follows : Follows β c d) : d.Idles c.state := by
  cases follows.transition with
  | code step => exact step.idles calm refrains
  | drive step =>
    -- An instance that advances or has been called is not calm.
    cases step <;> first | exact calm.control.elim | cases calm.stack.1
  | replay step =>
    cases step with
    | started => cases refrains
    | _ => cases calm.stack.1
  | task step => exact step.idles calm unsettled
  | signal step => exact step.idles calm heard
  | host step =>
    cases step with
    | marked => cases refrains
    | _ => cases calm.stack.1

end Config

end Resumable
