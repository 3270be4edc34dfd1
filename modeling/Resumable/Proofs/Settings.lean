import Resumable.Proofs.Changes

namespace Resumable

variable {K : Client}

namespace State

def settings? (σ : State K) : Handle → Option Settings
  | .ofInstance i => (σ.instances[i]?).map (·.settings)
  | .ofComponent k => (σ.components[k]?).map (·.settings)

def Settled (σ σ' : State K) : Prop :=
  ∀ o s, σ.settings? o = some s → σ'.settings? o = some s

end State

namespace State.Settled

variable {σ σ' σ'' : State K}

theorem refl (σ : State K) : σ.Settled σ :=
  fun _ _ => id

theorem trans (h : σ.Settled σ') (h' : σ'.Settled σ'') : σ.Settled σ'' :=
  fun o s given => h' o s (h o s given)

theorem of_same (instances : σ'.instances = σ.instances)
    (components : σ'.components = σ.components) : σ.Settled σ' := by
  rintro (i | k) s given
  · rwa [settings?, instances]
  · rwa [settings?, components]

theorem modifyInstance (i : InstanceId) {f : Instance K → Instance K}
    (same : ∀ x : Instance K, (f x).settings = x.settings) : σ.Settled (σ.modifyInstance i f) := by
  rintro (j | k) s given
  · obtain ⟨x, found, rfl⟩ := Option.map_eq_some_iff.mp given
    rw [settings?, instances_modifyInstance, found]
    simp only [Option.map_some]
    split
    · rw [same]
    · rfl
  · exact given

theorem modifyComponent (k : ComponentId) {f : Component K → Component K}
    (same : ∀ y : Component K, (f y).settings = y.settings) :
    σ.Settled (σ.modifyComponent k f) := by
  rintro (i | j) s given
  · exact given
  · obtain ⟨y, made, rfl⟩ := Option.map_eq_some_iff.mp given
    simp only [settings?, State.modifyComponent, List.getElem?_modify, made, Option.map_eq_map,
      Option.map_some]
    split
    · rw [same]
    · rfl

theorem newInstance (p : K.Procedure) (m : MemoId) (settings : Settings)
    (observers : List (Observer K)) : σ.Settled (σ.newInstance p m settings observers).2 := by
  rintro (j | k) s given
  · obtain ⟨x, found, rfl⟩ := Option.map_eq_some_iff.mp given
    have lt : j < σ.instances.length := (List.getElem?_eq_some_iff.mp found).1
    rw [settings?, instances_newInstance, if_neg (Nat.ne_of_lt lt), found]
    rfl
  · exact given

theorem configures {k : ComponentId} {y : Component K} (p : K.Procedure)
    (observers : List (Observer K)) (made : σ.components[k]? = some y) (τ : State K)
    (settled : (σ.newInstance p y.memo y.settings observers).2.Settled τ) :
    ∃ s, σ.settings? (.ofComponent k) = some s ∧
      τ.settings? (.ofInstance σ.instances.length) = some s := by
  refine ⟨y.settings, by rw [settings?, made]; rfl, settled _ _ ?_⟩
  rw [settings?, instances_newInstance, if_pos rfl]
  rfl

theorem newComponent (factory : K.Factory) (callback : K.Callback) (settings : Settings) :
    σ.Settled (σ.newComponent factory callback settings).2 := by
  rintro (i | k) s given
  · exact given
  · obtain ⟨y, made, rfl⟩ := Option.map_eq_some_iff.mp given
    have lt : k < σ.components.length := (List.getElem?_eq_some_iff.mp made).1
    simp only [settings?, State.newComponent, newMemo, List.getElem?_append, lt, made, if_true,
      Option.map_some]

end State.Settled

theorem Instance.Change.settings {x x' : Instance K} (change : x.Change x') :
    x'.settings = x.settings := by
  cases change <;> rfl

section

variable {σ σ' : State K}

theorem State.Change.settled (change : σ.Change σ') : σ.Settled σ' := by
  cases change with
  | apart instances components => exact .of_same instances components
  | ofInstance i changes => exact .modifyInstance i fun x => (changes x).settings
  | ofComponent k same => exact .modifyComponent k same
  | newInstance p m settings observers => exact .newInstance p m settings observers
  | newComponent factory callback settings => exact .newComponent factory callback settings

theorem State.Changes.settled (changes : σ.Changes σ') : σ.Settled σ' := by
  induction changes with
  | refl => exact .refl σ
  | tail _ change ih => exact ih.trans change.settled

end

namespace Next

variable {σ : State K}

theorem finishMount_configures (stack : Stack K .artifact) (k : ComponentId) (inputs : K.Inputs)
    (p : K.Procedure) : (finishMount σ stack k inputs p).Holds fun d =>
      ∃ s, σ.settings? (.ofComponent k) = some s ∧
        d.state.settings? (.ofInstance σ.instances.length) = some s := by
  intro d step
  cases finishMount_transition stack inputs d step with
  | mounted _ made dismisses =>
    exact State.Settled.configures p [.host k] made _
      (dismisses.changes.settled.trans (.modifyComponent k fun _ => rfl))

theorem finishBuild_configures (stack : Stack K .unit) (k : ComponentId) (h : History K.Artifact)
    (p : K.Procedure) : (finishBuild σ stack k h p).Holds fun d =>
      ∃ s, σ.settings? (.ofComponent k) = some s ∧
        d.state.settings? (.ofInstance σ.instances.length) = some s := by
  intro d step
  cases finishBuild_transition stack h d step with
  | empty _ _ made => exact State.Settled.configures p [.host k] made _ (.refl _)
  | replaying _ _ _ _ made =>
    exact State.Settled.configures p [.host k] made _ (.modifyInstance _ fun _ => rfl)

end Next

namespace Config

variable {β : Behaviour K} {c d : Config K}

theorem Run.settled {G : Config K → Prop} {t : List (Config K × Config K)}
    (run : Run β G c t d) : c.state.Settled d.state :=
  run.changes.settled

end Config

end Resumable
