import Resumable.Machine.Step

namespace Resumable

variable {K : Client}

namespace State

variable (σ : State K)

def tasks : List (Task K) :=
  σ.ready ++ σ.parked.map (·.2)

theorem instances_modifyInstance (i j : InstanceId) (f : Instance K → Instance K) :
    (σ.modifyInstance i f).instances[j]? =
      (σ.instances[j]?).map fun x => if i = j then f x else x := by
  simp [modifyInstance, List.getElem?_modify]

@[simp]
theorem instances_modifyInstance_self (i : InstanceId) (f : Instance K → Instance K) :
    (σ.modifyInstance i f).instances[i]? = (σ.instances[i]?).map f := by
  simp [instances_modifyInstance]

theorem instances_modifyInstance_ne {i j : InstanceId} (h : i ≠ j)
    (f : Instance K → Instance K) :
    (σ.modifyInstance i f).instances[j]? = σ.instances[j]? := by
  simp [modifyInstance, List.getElem?_modify_ne, h]

@[simp]
theorem length_modifyInstance (i : InstanceId) (f : Instance K → Instance K) :
    (σ.modifyInstance i f).instances.length = σ.instances.length := by
  simp [modifyInstance]

theorem modifyInstance_modifyInstance (i : InstanceId) (f g : Instance K → Instance K) :
    (σ.modifyInstance i f).modifyInstance i g = σ.modifyInstance i (g ∘ f) := by
  simp [modifyInstance, List.modify_modify_eq]

theorem modifyComponent_modifyComponent (c : ComponentId) (f g : Component K → Component K) :
    (σ.modifyComponent c f).modifyComponent c g = σ.modifyComponent c fun y => g (f y) := by
  simp only [modifyComponent, List.modify_modify_eq]
  rfl

theorem components_modifyComponent (c d : ComponentId) (f : Component K → Component K) :
    (σ.modifyComponent c f).components[d]? =
      (σ.components[d]?).map fun y => if c = d then f y else y := by
  simp [modifyComponent, List.getElem?_modify]

@[simp]
theorem components_modifyComponent_self (c : ComponentId) (f : Component K → Component K) :
    (σ.modifyComponent c f).components[c]? = (σ.components[c]?).map f := by
  simp [components_modifyComponent]

theorem components_modifyComponent_ne {c d : ComponentId} (h : c ≠ d)
    (f : Component K → Component K) :
    (σ.modifyComponent c f).components[d]? = σ.components[d]? := by
  simp [components_modifyComponent, h]

variable {σ} in
theorem of_instances_modifyInstance {i j : InstanceId} {f : Instance K → Instance K}
    {x' : Instance K} (found : (σ.modifyInstance i f).instances[j]? = some x') :
    ∃ x, σ.instances[j]? = some x ∧ (x' = x ∧ i ≠ j ∨ i = j ∧ x' = f x) := by
  rw [instances_modifyInstance] at found
  obtain ⟨x, origin, rfl⟩ := Option.map_eq_some_iff.mp found
  refine ⟨x, origin, ?_⟩
  split
  · next same => exact .inr ⟨same, rfl⟩
  · next other => exact .inl ⟨rfl, other⟩

variable {σ} in
theorem of_components_modifyComponent {c d : ComponentId} {f : Component K → Component K}
    {y' : Component K} (found : (σ.modifyComponent c f).components[d]? = some y') :
    ∃ y, σ.components[d]? = some y ∧ (y' = y ∧ c ≠ d ∨ c = d ∧ y' = f y) := by
  rw [components_modifyComponent] at found
  obtain ⟨y, origin, rfl⟩ := Option.map_eq_some_iff.mp found
  refine ⟨y, origin, ?_⟩
  split
  · next same => exact .inr ⟨same, rfl⟩
  · next other => exact .inl ⟨rfl, other⟩

@[simp]
theorem memo_modifyInstance (i : InstanceId) (f : Instance K → Instance K) (m : MemoId) :
    (σ.modifyInstance i f).memo m = σ.memo m :=
  rfl

theorem memo_newMemo (m : MemoId) : σ.newMemo.2.memo m = σ.memo m := by
  simp only [newMemo, memo, List.getElem?_append]
  split
  · rfl
  · next beyond =>
    rw [List.getElem?_eq_none (Nat.le_of_not_lt beyond)]
    cases m - σ.memos.length <;> rfl

theorem memo_remember_ne {m m' : MemoId} (h : m' ≠ m) (position : Position) (keys : List Value)
    (v : Value) : (σ.remember m' position keys v).memo m = σ.memo m := by
  simp [remember, memo, List.getElem?_modify_ne, h]

theorem memo_remember_self {m : MemoId} (h : m < σ.memos.length) (position : Position)
    (keys : List Value) (v : Value) :
    (σ.remember m position keys v).memo m = (σ.memo m).remember position keys v := by
  simp [remember, memo, h]

theorem memo_clearMemo_ne {m m' : MemoId} (h : m' ≠ m) :
    (σ.clearMemo m').memo m = σ.memo m := by
  simp [clearMemo, memo, List.getElem?_modify_ne, h]

theorem memo_clearMemo_self (m : MemoId) : (σ.clearMemo m).memo m = [] := by
  cases h : σ.memos[m]? <;> simp [clearMemo, memo, h]

theorem instances_newInstance (p : K.Procedure) (m : MemoId) (settings : Settings)
    (observers : List (Observer K)) (j : InstanceId) :
    (σ.newInstance p m settings observers).2.instances[j]? =
      if j = σ.instances.length then
        some { procedure := some p, memo := m, settings := settings,
               registry := observers.foldl (fun r o => (r.subscribe o).2) {} }
      else σ.instances[j]? := by
  rcases Nat.lt_trichotomy j σ.instances.length with h | h | h
  · simp [newInstance, List.getElem?_append, h, Nat.ne_of_lt h]
  · simp [newInstance, h]
  · rw [if_neg (Nat.ne_of_gt h), List.getElem?_eq_none (Nat.le_of_lt h)]
    exact List.getElem?_eq_none (by simpa [newInstance, Nat.succ_le_iff] using h)

@[simp]
theorem newInstance_fst (p : K.Procedure) (m : MemoId) (settings : Settings)
    (observers : List (Observer K)) :
    (σ.newInstance p m settings observers).1 = σ.instances.length :=
  rfl

theorem length_newInstance (p : K.Procedure) (m : MemoId) (settings : Settings)
    (observers : List (Observer K)) :
    (σ.newInstance p m settings observers).2.instances.length = σ.instances.length + 1 := by
  simp [newInstance]

end State

namespace Stack

def All (P : {s w : Shape} → Frame K s w → Prop) : {s : Shape} → Stack K s → Prop
  | _, empty => True
  | _, push frame rest => P frame ∧ rest.All P

variable {P Q : {s w : Shape} → Frame K s w → Prop} {s w : Shape}

@[simp]
theorem all_empty : (empty : Stack K .unit).All P :=
  trivial

@[simp]
theorem all_push {frame : Frame K s w} {rest : Stack K w} :
    (push frame rest).All P ↔ P frame ∧ rest.All P :=
  Iff.rfl

theorem All.imp {stack : Stack K s} (h : stack.All P)
    (imp : ∀ {s w : Shape} (frame : Frame K s w), P frame → Q frame) : stack.All Q := by
  induction stack with
  | empty => trivial
  | push frame rest ih => exact ⟨imp frame h.1, ih h.2⟩

end Stack

end Resumable
