import Resumable.Proofs.Family

namespace Resumable

variable {K : Client} {β : Behaviour K}

theorem Instance.takeBack_of_has {p : K.Procedure} (x : Instance K) (has : x.procedure = some p) :
    x.takeBack p = x := by
  rw [takeBack, ← has]

namespace State.Keeps

variable {σ σ' σ'' : State K}

theorem refl (σ : State K) : σ.Keeps σ :=
  fun _ x found => ⟨x, found, rfl⟩

theorem trans (h : σ.Keeps σ') (h' : σ'.Keeps σ'') : σ.Keeps σ'' := by
  intro i x found
  obtain ⟨x', found', same⟩ := h i x found
  obtain ⟨x'', found'', same'⟩ := h' i x' found'
  exact ⟨x'', found'', same'.trans same⟩

theorem of_instances (h : σ'.instances = σ.instances) : σ.Keeps σ' :=
  fun _ x found => ⟨x, h ▸ found, rfl⟩

theorem modifyInstance (i : InstanceId) {f : Instance K → Instance K}
    (memo : ∀ x, (f x).memo = x.memo) : σ.Keeps (σ.modifyInstance i f) := by
  intro j x found
  rw [instances_modifyInstance, found]
  refine ⟨_, rfl, ?_⟩
  split
  · exact memo x
  · rfl

theorem newInstance (p : K.Procedure) (m : MemoId) (settings : Settings)
    (observers : List (Observer K)) : σ.Keeps (σ.newInstance p m settings observers).2 := by
  intro j x found
  have lt : j < σ.instances.length := (List.getElem?_eq_some_iff.mp found).1
  exact ⟨x, by rw [instances_newInstance, if_neg (Nat.ne_of_lt lt), found], rfl⟩

theorem modifyRegistry (source : Source)
    (f : Registry (Observer K) → Registry (Observer K)) : σ.Keeps (σ.modifyRegistry source f) := by
  cases source with
  | free id => exact .of_instances rfl
  | ofInstance i => exact .modifyInstance i fun _ => rfl

theorem dismiss (σ : State K) (c : ComponentId) (i : InstanceId) : σ.Keeps (σ.dismiss c i) :=
  .modifyInstance i fun _ => rfl

end State.Keeps

namespace Family

variable {M : Meaning β} {F : Family M} {σ σ' : State K} {i j : InstanceId} {x : Instance K}
  {seen seen' : InstanceId → List Event} {replayed replayed' : Option InstanceId}
  {s w : Shape} {stack : Stack K s}

theorem Foreign.mono (foreign : F.Foreign σ i) (keeps : σ.Keeps σ') : F.Foreign σ' i := by
  obtain ⟨x, found, other⟩ := foreign
  obtain ⟨x', found', same⟩ := keeps i x found
  exact ⟨x', found', same ▸ other⟩

theorem Foreign.not_member (foreign : F.Foreign σ i) : ¬ F.Member σ i x := by
  rintro ⟨found, own⟩
  obtain ⟨x', found', other⟩ := foreign
  rw [found] at found'
  cases found'
  exact other own

theorem Foreign.ne (foreign : F.Foreign σ i) (member : F.Member σ j x) : i ≠ j := by
  rintro rfl
  exact foreign.not_member member

theorem member_or_foreign (found : σ.instances[i]? = some x) :
    F.Member σ i x ∨ F.Foreign σ i := by
  by_cases own : x.memo = F.memo
  · exact .inl ⟨found, own⟩
  · exact .inr ⟨x, found, own⟩

theorem Clear.mono (clear : F.Clear σ stack) (keeps : σ.Keeps σ') : F.Clear σ' stack :=
  clear.imp fun _ foreign i worker => (foreign i worker).mono keeps

theorem Clear.push {frame : Frame K s w} {rest : Stack K w} (clear : F.Clear σ rest)
    (foreign : ∀ i, frame.worker? = some i → F.Foreign σ i) :
    F.Clear σ (.push frame rest) :=
  ⟨foreign, clear⟩

theorem Clear.idle {frame : Frame K s w} {rest : Stack K w} (clear : F.Clear σ rest)
    (idle : frame.worker? = none) : F.Clear σ (.push frame rest) :=
  clear.push fun i worker => by rw [idle] at worker; cases worker

theorem Clear.rest {frame : Frame K s w} {rest : Stack K w} (clear : F.Clear σ (.push frame rest)) :
    F.Clear σ rest :=
  clear.2

theorem Clear.top {frame : Frame K s w} {rest : Stack K w} (clear : F.Clear σ (.push frame rest))
    (worker : frame.worker? = some i) : F.Foreign σ i :=
  clear.1 i worker

theorem TaskOk.of_instances {task : Task K} (ok : F.TaskOk σ task)
    (instances : σ'.instances = σ.instances) : F.TaskOk σ' task := by
  cases ok with
  | foreign owner => exact .foreign (owner.mono (.of_instances instances))
  | own owner settled awaits => exact .own ⟨instances ▸ owner.1, owner.2⟩ settled awaits

theorem StateOk.with_memo (ok : F.StateOk seen replayed σ)
    (memo : ∃ added, σ'.memo F.memo = F.stored ++ added ∧ ∀ e ∈ added, F.Backed e)
    (instances : σ'.instances = σ.instances)
    (tasks : ∀ task ∈ σ'.tasks, task ∈ σ.tasks) :
    F.StateOk seen replayed σ' where
  memo := memo
  settings i x member := ok.settings i x ⟨instances ▸ member.1, member.2⟩
  standing i x member := ok.standing i x ⟨instances ▸ member.1, member.2⟩
  tasks task mem := (ok.tasks task (tasks task mem)).of_instances instances

theorem StateOk.of_instances (ok : F.StateOk seen replayed σ)
    (instances : σ'.instances = σ.instances)
    (memo : σ'.memo F.memo = σ.memo F.memo)
    (tasks : ∀ task ∈ σ'.tasks, task ∈ σ.tasks) :
    F.StateOk seen replayed σ' :=
  ok.with_memo (memo ▸ ok.memo) instances tasks

theorem StateOk.of_same (ok : F.StateOk seen replayed σ)
    (instances : σ'.instances = σ.instances) (memo : σ'.memo F.memo = σ.memo F.memo)
    (tasks : σ'.tasks = σ.tasks) :
    F.StateOk seen replayed σ' :=
  ok.of_instances instances memo fun _ mem => tasks ▸ mem

theorem StateOk.add_task (ok : F.StateOk seen replayed σ) {task : Task K} (new : F.TaskOk σ task)
    (instances : σ'.instances = σ.instances) (memo : σ'.memo F.memo = σ.memo F.memo)
    (tasks : ∀ t ∈ σ'.tasks, t ∈ σ.tasks ∨ t = task) : F.StateOk seen replayed σ' where
  memo := memo ▸ ok.memo
  settings i x member := ok.settings i x ⟨instances ▸ member.1, member.2⟩
  standing i x member := ok.standing i x ⟨instances ▸ member.1, member.2⟩
  tasks t mem := by
    rcases tasks t mem with old | rfl
    · exact (ok.tasks t old).of_instances instances
    · exact new.of_instances instances

theorem StateOk.enqueue (ok : F.StateOk seen replayed σ) {task : Task K} (new : F.TaskOk σ task) :
    F.StateOk seen replayed (σ.enqueue task) := by
  refine ok.add_task new rfl rfl fun t mem => ?_
  simp only [State.tasks, State.enqueue, List.mem_append, List.mem_singleton] at mem ⊢
  tauto

theorem StateOk.park (ok : F.StateOk seen replayed σ) {task : Task K} (new : F.TaskOk σ task)
    (gate : String) : F.StateOk seen replayed (σ.park gate task) := by
  refine ok.add_task new rfl rfl fun t mem => ?_
  simp only [State.tasks, State.park, List.mem_append, List.map_append, List.map_cons,
    List.map_nil, List.mem_singleton] at mem ⊢
  tauto

theorem StateOk.openGate (ok : F.StateOk seen replayed σ) (gate : String) :
    F.StateOk seen replayed (σ.openGate gate).2 := by
  refine ok.of_instances rfl rfl fun t mem => ?_
  simp only [State.tasks, State.openGate, List.mem_append, List.mem_map, List.mem_filter] at mem ⊢
  rcases mem with (mem | ⟨a, mem, rfl⟩) | ⟨a, mem, rfl⟩
  · exact .inl mem
  · exact .inr ⟨a, mem.1, rfl⟩
  · exact .inr ⟨a, mem.1, rfl⟩

theorem Standing.of_ne {events : List Event} (standing : F.Standing replayed i events x)
    (same : replayed = some i → replayed' = some i) : F.Standing replayed' i events x := by
  cases standing with
  | paused status procedure course untouched seen =>
    exact .paused status procedure course untouched seen
  | running status course untouched seen => exact .running status course untouched seen
  | ended status ends => exact .ended status ends
  | stopped status closed recorded => exact .stopped status closed recorded
  | fed status chosen course seen => exact .fed status (same chosen) course seen

theorem StateOk.modifyInstance (ok : F.StateOk seen replayed σ) (i : InstanceId)
    {f : Instance K → Instance K} (memo : ∀ x, (f x).memo = x.memo)
    (settings : ∀ x, (f x).settings = x.settings)
    (others : ∀ j, j ≠ i → seen' j = seen j ∧ (replayed = some j → replayed' = some j))
    (own : ∀ x, F.Member σ i x → F.Standing replayed' i (seen' i) (f x) ∧
      ∀ task o, task.owner = i → F.Awaits task o x → F.Awaits task o (f x)) :
    F.StateOk seen' replayed' (σ.modifyInstance i f) := by
  have before : ∀ j x', F.Member (σ.modifyInstance i f) j x' →
      ∃ x, F.Member σ j x ∧ x' = if i = j then f x else x := by
    rintro j x' ⟨found, own⟩
    rw [State.instances_modifyInstance] at found
    obtain ⟨x, there, rfl⟩ := Option.map_eq_some_iff.mp found
    refine ⟨x, ⟨there, ?_⟩, rfl⟩
    split at own
    · rw [← memo x, own]
    · exact own
  refine ⟨ok.memo, fun j x' member => ?_, fun j x' member => ?_, fun task mem => ?_⟩
  · obtain ⟨x, old, rfl⟩ := before j x' member
    split
    · rw [settings, ok.settings j x old]
    · exact ok.settings j x old
  · obtain ⟨x, old, rfl⟩ := before j x' member
    split
    · next same => subst same; exact (own x old).1
    · next other =>
      obtain ⟨same, chosen⟩ := others j (Ne.symm other)
      rw [same]
      exact (ok.standing j x old).of_ne chosen
  · cases ok.tasks task mem with
    | foreign owner => exact .foreign (owner.mono (.modifyInstance i memo))
    | @own x o owner settled awaits =>
      by_cases same : i = task.owner
      · subst same
        refine .own (x := f x) ⟨?_, (memo x).trans owner.2⟩ settled ((own x owner).2 task o rfl awaits)
        rw [State.instances_modifyInstance_self, owner.1, Option.map_some]
      · refine .own (x := x) ⟨?_, owner.2⟩ settled awaits
        rw [State.instances_modifyInstance_ne σ same, owner.1]

theorem StateOk.modify_foreign (ok : F.StateOk seen replayed σ) (foreign : F.Foreign σ i)
    {f : Instance K → Instance K} (memo : ∀ x, (f x).memo = x.memo)
    (settings : ∀ x, (f x).settings = x.settings) :
    F.StateOk seen replayed (σ.modifyInstance i f) :=
  ok.modifyInstance i memo settings (fun _ _ => ⟨rfl, id⟩)
    fun _ member => (foreign.not_member member).elim

theorem StateOk.modify_registry (ok : F.StateOk seen replayed σ) (source : Source)
    {f : Registry (Observer K) → Registry (Observer K)} (closed : ∀ r, (f r).closed = r.closed) :
    F.StateOk seen replayed (σ.modifyRegistry source f) := by
  cases source with
  | free id => exact ok.of_same rfl rfl rfl
  | ofInstance i =>
    refine ok.modifyInstance i (fun _ => rfl) (fun _ => rfl) (fun _ _ => ⟨rfl, id⟩)
      fun x member => ⟨?_, fun task o _ awaits => ?_⟩
    · cases ok.standing i x member with
      | paused status procedure course untouched seen =>
        exact .paused status procedure course untouched seen
      | running status course untouched seen => exact .running status course untouched seen
      | ended status ends => exact .ended status ends
      | stopped status shut recorded => exact .stopped status ((closed _).trans shut) recorded
      | fed status chosen course seen => exact .fed status chosen course seen
    · cases awaits with
      | gone status => exact .gone status
      | past lt => exact .past lt
      | waits status procedure position asks produced missed =>
        exact .waits status procedure position asks produced missed

theorem Standing.recorded (standing : F.Standing replayed i (seen i) x) :
    M.Recorded (F.plan i) i x.history := by
  cases standing with
  | paused _ _ course => exact course.recorded
  | running _ course => exact course.recorded
  | ended _ ends => exact ends.recorded
  | stopped _ _ recorded => exact recorded
  | fed _ _ course => exact course.recorded

theorem StateOk.terminate (ok : F.StateOk seen replayed σ) (i : InstanceId) :
    F.StateOk seen replayed (σ.modifyInstance i (·.terminate)) :=
  ok.modifyInstance i (fun _ => rfl) (fun _ => rfl) (fun _ _ => ⟨rfl, id⟩)
    fun x member => ⟨.stopped rfl rfl (ok.standing i x member).recorded,
      fun _ _ _ _ => .gone rfl⟩

theorem StateOk.choose (ok : F.StateOk seen none σ) : F.StateOk seen replayed σ :=
  ⟨ok.memo, ok.settings, fun i x member => (ok.standing i x member).of_ne (by simp), ok.tasks⟩

theorem StateOk.dismiss (ok : F.StateOk seen replayed σ) (c : ComponentId) (i : InstanceId) :
    F.StateOk seen replayed (σ.dismiss c i) :=
  (ok.terminate i).of_same rfl rfl rfl

theorem StateOk.newInstance (ok : F.StateOk seen none σ) (p : K.Procedure) (m : MemoId)
    (settings : Settings) (observers : List (Observer K))
    (joins : m = F.memo → F.Joins σ p settings ∧
      ((F.plan σ.instances.length).Untouched 0 ∨ replayed = some σ.instances.length)) :
    F.StateOk (fun j => if j = σ.instances.length then [] else seen j) replayed
      (σ.newInstance p m settings observers).2 where
  memo := ok.memo
  settings j x member := by
    rw [Member, State.instances_newInstance] at member
    split at member
    · next fresh =>
      obtain ⟨created, own⟩ := member
      cases created
      exact fresh ▸ (joins own).1.2
    · exact ok.settings j x member
  standing j x member := by
    rw [Member, State.instances_newInstance] at member
    split at member
    · next fresh =>
      obtain ⟨created, own⟩ := member
      cases created
      have course : M.Course (F.plan j) j [] p := by
        rw [(joins own).1.1, fresh]
        exact .start
      rw [if_pos fresh]
      rcases (joins own).2 with untouched | chosen
      · exact .paused rfl rfl course (fresh ▸ untouched) rfl
      · exact .fed rfl (fresh ▸ chosen) course rfl
    · next old =>
      rw [if_neg old]
      exact (ok.standing j x member).of_ne (by simp)
  tasks task mem := by
    cases ok.tasks task mem with
    | foreign owner => exact .foreign (owner.mono (.newInstance p m settings observers))
    | @own x o owner settled awaits =>
      refine .own ⟨?_, owner.2⟩ settled awaits
      have lt := (List.getElem?_eq_some_iff.mp owner.1).1
      rw [State.instances_newInstance, if_neg (Nat.ne_of_lt lt), owner.1]

theorem StateOk.remember (ok : F.StateOk seen replayed σ) {n : Position} {keys : List Value}
    {v : Value} (backed : F.Backed ⟨n, keys, v⟩) :
    F.StateOk seen replayed (σ.remember F.memo n keys v) := by
  refine ok.with_memo ?_ rfl fun _ h => h
  obtain ⟨added, memo, all⟩ := ok.memo
  by_cases made : F.memo < σ.memos.length
  · rw [State.memo_remember_self σ made, memo, Memo.remember]
    split
    · exact ⟨added, rfl, all⟩
    · refine ⟨added ++ [⟨n, keys, v⟩], by simp, fun e mem => ?_⟩
      rcases List.mem_append.mp mem with mem | mem
      · exact all e mem
      · rw [List.mem_singleton.mp mem]
        exact backed
  · refine ⟨added, ?_, all⟩
    rw [← memo]
    simp [State.remember, State.memo, List.getElem?_eq_none (Nat.le_of_not_lt made)]

theorem StateOk.remember_foreign (ok : F.StateOk seen replayed σ) {m : MemoId} (other : m ≠ F.memo)
    (n : Position) (keys : List Value) (v : Value) :
    F.StateOk seen replayed (σ.remember m n keys v) :=
  ok.of_instances rfl (σ.memo_remember_ne other n keys v) fun _ h => h

theorem StateOk.clearMemo (ok : F.StateOk seen replayed σ) (m : MemoId)
    (empty : m = F.memo → F.stored = []) : F.StateOk seen replayed (σ.clearMemo m) := by
  by_cases own : m = F.memo
  · subst own
    refine ok.with_memo ⟨[], ?_, by simp⟩ rfl fun _ h => h
    rw [State.memo_clearMemo_self, empty rfl, List.append_nil]
  · exact ok.of_instances rfl (σ.memo_clearMemo_ne own) fun _ h => h

end Family

section

variable {M : Meaning β} {F : Family M} {σ : State K} {i : InstanceId}
  {seen : InstanceId → List Event} {replayed : Option InstanceId}

namespace Memo

theorem lookup_append (m m' : Memo) (n : Position) (keys : List Value) :
    lookup (m ++ m') n keys = (lookup m n keys).or (lookup m' n keys) := by
  simp only [lookup, List.find?_append]
  cases m.find? (·.answers n keys) <;> rfl

theorem exists_of_lookup {m : Memo} {n : Position} {keys : List Value} {v : Value}
    (found : m.lookup n keys = some v) : ∃ e ∈ m, e.position = n ∧
      Value.sameKeys e.keys keys = true ∧ e.value = v := by
  obtain ⟨e, first, rfl⟩ := Option.map_eq_some_iff.mp found
  have answers := List.find?_some first
  simp only [MemoEntry.answers, Bool.and_eq_true, decide_eq_true_eq] at answers
  exact ⟨e, List.mem_of_find?_eq_some first, answers.1, answers.2, rfl⟩

end Memo

namespace Family

/-- What the memo holds for an effect of the family is what the effect is supplied with. -/
theorem StateOk.supply_of_lookup (ok : F.StateOk seen replayed σ) {π : Plan K}
    (listed : π ∈ F.programs) {h : History K.Artifact}
    {e : Effect K.Artifact K.Producer K.Computation} {q : K.Procedure}
    (asks : M.Asks π i h e q) {keys : List Value} (cached : e.keys? = some keys) {v : Value}
    (found : (σ.memo F.memo).lookup h.length keys = some v) :
    M.supply π.stored h.length e = some (.ok v) := by
  obtain ⟨added, memo, all⟩ := ok.memo
  rw [memo, Memo.lookup_append] at found
  simp only [Meaning.supply, cached, Option.bind_some, F.stores π listed]
  cases first : F.stored.lookup h.length keys with
  | some v' =>
    rw [first, Option.some_or] at found
    cases found
    rfl
  | none =>
    rw [first, Option.none_or] at found
    obtain ⟨entry, mem, position, same, rfl⟩ := Memo.exists_of_lookup found
    obtain ⟨π', listed', j, k, e', q', asks', position', cached', upshot⟩ := all entry mem
    have coherent := F.coherent π' listed' π listed j i k h e' e q' q asks' asks
      (position'.trans position) _ _ cached' cached same
    simp only [← coherent, upshot]

theorem StateOk.missed_of_lookup (ok : F.StateOk seen replayed σ) {n : Position}
    {keys : List Value} (missed : (σ.memo F.memo).lookup n keys = none) :
    F.stored.lookup n keys = none := by
  obtain ⟨added, memo, -⟩ := ok.memo
  rw [memo, Memo.lookup_append, Option.or_eq_none_iff] at missed
  exact missed.1

end Family

end

end Resumable
