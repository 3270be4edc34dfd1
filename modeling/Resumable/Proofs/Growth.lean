import Resumable.Proofs.Changes

namespace Resumable

variable {K : Client}

def Instance.Hears (x : Instance K) (c : ComponentId) : Prop :=
  Observer.host c ∈ x.registry.observers

structure Instance.Grows (x x' : Instance K) : Prop where
  memo : x'.memo = x.memo
  history : x.history <+: x'.history
  closed : x.registry.closed = true → x'.registry.closed = true
  hears : ∀ c, x'.Hears c → x.Hears c

def State.Grows (σ σ' : State K) : Prop :=
  ∀ (i : InstanceId) (x : Instance K), σ.instances[i]? = some x →
    ∃ x', σ'.instances[i]? = some x' ∧ x.Grows x'

theorem Instance.Grows.refl (x : Instance K) : x.Grows x :=
  ⟨rfl, List.prefix_refl _, id, fun _ => id⟩

theorem Instance.Grows.trans {x y z : Instance K} (h : x.Grows y) (h' : y.Grows z) :
    x.Grows z where
  memo := h'.memo.trans h.memo
  history := h.history.trans h'.history
  closed shut := h'.closed (h.closed shut)
  hears c told := h.hears c (h'.hears c told)

theorem Registry.of_subscribe (r : Registry (Observer K)) (o : K.Observer) (c : ComponentId)
    (h : .host c ∈ (r.subscribe (.client o)).2.observers) : .host c ∈ r.observers := by
  unfold subscribe observers at h
  split at h
  · exact h
  · simpa [observers] using h

theorem Registry.of_unsubscribe (r : Registry (Observer K)) (n : SubscriptionId) (c : ComponentId)
    (h : .host c ∈ (r.unsubscribe n).2.observers) : .host c ∈ r.observers := by
  obtain ⟨e, mem, same⟩ := List.mem_map.mp h
  exact List.mem_map.mpr ⟨e, (List.mem_filter.mp mem).1, same⟩

theorem Instance.Change.grows {x x' : Instance K} (change : x.Change x') : x.Grows x' := by
  cases change with
  | turns p status => exact ⟨rfl, List.prefix_refl _, id, fun _ => id⟩
  | enters e p status => exact ⟨rfl, List.prefix_append _ _, id, fun _ => id⟩
  | stops => exact ⟨rfl, List.prefix_refl _, fun _ => rfl, fun _ told => by cases told⟩
  | subscribed o => exact ⟨rfl, List.prefix_refl _, id, x.registry.of_subscribe o⟩
  | unsubscribed n => exact ⟨rfl, List.prefix_refl _, id, x.registry.of_unsubscribe n⟩

namespace State.Grows

variable {σ σ' σ'' : State K}

theorem refl (σ : State K) : σ.Grows σ :=
  fun _ x found => ⟨x, found, .refl x⟩

theorem trans (h : σ.Grows σ') (h' : σ'.Grows σ'') : σ.Grows σ'' := by
  intro i x found
  obtain ⟨x', found', grows⟩ := h i x found
  obtain ⟨x'', found'', grows'⟩ := h' i x' found'
  exact ⟨x'', found'', grows.trans grows'⟩

theorem of_instances (h : σ'.instances = σ.instances) : σ.Grows σ' :=
  fun _ x found => ⟨x, h ▸ found, .refl x⟩

theorem modifyInstance (i : InstanceId) {f : Instance K → Instance K}
    (grows : ∀ x : Instance K, x.Grows (f x)) : σ.Grows (σ.modifyInstance i f) := by
  intro j x found
  rw [instances_modifyInstance, found]
  refine ⟨_, rfl, ?_⟩
  split
  · exact grows x
  · exact .refl x

theorem modifyStatus (i : InstanceId) {f : Instance K → Instance K}
    (same : ∀ x, (f x).memo = x.memo ∧ (f x).history = x.history ∧ (f x).registry = x.registry) :
    σ.Grows (σ.modifyInstance i f) := by
  refine .modifyInstance i fun x => ?_
  obtain ⟨memo, history, registry⟩ := same x
  refine ⟨memo, history ▸ List.prefix_refl _, fun shut => by rwa [registry], fun c told => ?_⟩
  rwa [Instance.Hears, registry] at told

theorem record (i : InstanceId) (e : Entry K.Artifact) : σ.Grows (σ.modifyInstance i (·.record e)) :=
  .modifyInstance i fun _ => ⟨rfl, List.prefix_append _ _, id, fun _ => id⟩

theorem terminate (i : InstanceId) : σ.Grows (σ.modifyInstance i (·.terminate)) :=
  .modifyInstance i fun _ => ⟨rfl, List.prefix_refl _, fun _ => rfl, fun _ told => by cases told⟩

theorem dismiss (σ : State K) (c : ComponentId) (i : InstanceId) : σ.Grows (σ.dismiss c i) :=
  (terminate i).trans (.of_instances rfl)

theorem newInstance (p : K.Procedure) (m : MemoId) (settings : Settings)
    (observers : List (Observer K)) : σ.Grows (σ.newInstance p m settings observers).2 := by
  intro j x found
  have lt : j < σ.instances.length := (List.getElem?_eq_some_iff.mp found).1
  exact ⟨x, by rw [instances_newInstance, if_neg (Nat.ne_of_lt lt), found], .refl x⟩

end State.Grows

section

variable {σ σ' : State K}

theorem State.Change.grows (change : σ.Change σ') : σ.Grows σ' := by
  cases change with
  | apart instances components => exact .of_instances instances
  | ofInstance i changes => exact .modifyInstance i fun x => (changes x).grows
  | ofComponent k same => exact .of_instances rfl
  | newInstance p m settings observers => exact .newInstance p m settings observers
  | newComponent factory callback settings => exact .of_instances rfl

theorem State.Changes.grows (changes : σ.Changes σ') : σ.Grows σ' := by
  induction changes with
  | refl => exact .refl σ
  | tail _ change ih => exact ih.trans change.grows

end

namespace Config

variable {β : Behaviour K} {c d : Config K}

theorem Follows.grows (follows : Follows β c d) : c.state.Grows d.state :=
  follows.changes.grows

theorem Run.grows {G : Config K → Prop} {t : List (Config K × Config K)} (run : Run β G c t d) :
    c.state.Grows d.state :=
  run.changes.grows

end Config

end Resumable
