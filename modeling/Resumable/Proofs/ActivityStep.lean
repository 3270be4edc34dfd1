import Resumable.Proofs.Transition

namespace Resumable

variable {K : Client} {β : Behaviour K} {s w : Shape} {σ : State K} {i id : InstanceId}
  {lost : Prop} {cut : SubscriptionId → Prop} {memos : MemoId → Memo} {as : Multiset Activity}

theorem ownedBy_self {α : Type} (o : Option α) : ownedBy i (o.map (i, ·)) = o := by
  cases o with
  | none => rfl
  | some a => exact ownedBy_some_self

theorem ownedBy_ne {α : Type} (ne : id ≠ i) (o : Option α) : ownedBy i (o.map (id, ·)) = none := by
  cases o with
  | none => rfl
  | some a => exact ownedBy_some_ne ne

namespace Activity

theorem also_comm (o o' : Option Activity) (as : Multiset Activity) :
    also o (also o' as) = also o' (also o as) := by
  cases o with
  | none => rfl
  | some a =>
    cases o' with
    | none => rfl
    | some a' => exact Multiset.cons_swap ..

theorem also_foldr (i : InstanceId) (o : Option Activity) (tasks : List (Task K)) :
    tasks.foldr (fun task => also (ownedBy i (some task.activity))) (also o as) =
      also o (tasks.foldr (fun task => also (ownedBy i (some task.activity))) as) := by
  induction tasks with
  | nil => rfl
  | cons task tasks ih => rw [List.foldr_cons, ih, also_comm, List.foldr_cons]

end Activity

theorem Stack.underWay_also (stack : Stack K s) (o : Option Activity) :
    stack.underWay i (Activity.also o as) = Activity.also o (stack.underWay i as) := by
  induction stack with
  | empty => rfl
  | push frame rest ih => rw [underWay, ih, Activity.also_comm, underWay]

theorem Activity.mem_also {a : Activity} {o : Option Activity} :
    a ∈ also o as ↔ o = some a ∨ a ∈ as := by
  cases o <;> simp [also, eq_comm]

theorem Frame.locks_iff {frame : Frame K s w} : frame.lockedInstance? = some i ↔
    ∃ a, ownedBy i frame.activity? = some a ∧ a.Locks := by
  cases frame <;> simp [lockedInstance?, activity?, ownedBy, Task.activity, Activity.Locks]

theorem Stack.locksInstance_iff {stack : Stack K s} (others : ∀ a ∈ as, ¬ a.Locks) :
    stack.locksInstance i = true ↔ ∃ a ∈ stack.underWay i as, a.Locks := by
  induction stack with
  | empty =>
    constructor
    · rintro ⟨⟩
    · rintro ⟨a, mem, locks⟩
      exact absurd locks (others a mem)
  | push frame rest ih =>
    have step : (push frame rest).locksInstance i = true ↔
        frame.lockedInstance? = some i ∨ rest.locksInstance i = true := by
      simp [locksInstance, any]
    rw [step, ih, Frame.locks_iff, underWay]
    simp only [Activity.mem_also, or_and_right, exists_or]

theorem State.of_mem_underWay {a : Activity} (mem : a ∈ σ.underWay i) :
    ∃ task ∈ σ.tasks, task.owner = i ∧ a = .producer task.position task.keys := by
  rw [underWay] at mem
  generalize σ.tasks = tasks at mem
  induction tasks with
  | nil => simp at mem
  | cons task tasks ih =>
    rcases Activity.mem_also.mp mem with owned | mem
    · obtain ⟨owner, rfl⟩ := ownedBy_some_eq_some.mp owned
      exact ⟨task, List.mem_cons_self .., owner, rfl⟩
    · obtain ⟨task', mem', found⟩ := ih mem
      exact ⟨task', List.mem_cons_of_mem _ mem', found⟩

theorem State.not_locks {a : Activity} (mem : a ∈ σ.underWay i) : ¬ a.Locks := by
  obtain ⟨task, -, -, rfl⟩ := of_mem_underWay mem
  exact id

theorem Stack.unlocked {stack : Stack K s} (h : stack.locksInstance i = false) :
    ∀ a ∈ stack.underWay i (σ.underWay i), ¬ a.Locks := by
  intro a mem locks
  have locked := (locksInstance_iff fun _ => State.not_locks).mpr ⟨a, mem, locks⟩
  simp [locked] at h

namespace State

theorem underWay_enqueue (task : Task K) : (σ.enqueue task).underWay i =
    Activity.also (ownedBy i (some task.activity)) (σ.underWay i) := by
  simp only [underWay, tasks, enqueue, List.foldr_append]
  rw [List.foldr_cons, List.foldr_nil, Activity.also_foldr]

theorem underWay_park (gate : String) (task : Task K) : (σ.park gate task).underWay i =
    Activity.also (ownedBy i (some task.activity)) (σ.underWay i) := by
  simp only [underWay, tasks, park, List.foldr_append, List.map_append, List.map_cons, List.map_nil,
    List.foldr_cons, List.foldr_nil]
  rw [Activity.also_foldr, Activity.also_foldr]

theorem underWay_openGate (gate : String) : (σ.openGate gate).2.underWay i = σ.underWay i := by
  have split := (List.filter_append_perm (fun e => decide (e.1 = gate)) σ.parked).map (·.2)
  have swap : LeftCommutative fun task : Task K =>
      Activity.also (ownedBy i (some task.activity)) := ⟨fun _ _ => Activity.also_comm _ _⟩
  simp only [underWay, tasks, openGate]
  refine List.Perm.foldr_eq (.trans ?_ (split.append_left σ.ready)) 0
  simp [List.append_assoc]

end State

theorem Stack.underWay_enqueue (stack : Stack K s) (task : Task K) :
    stack.underWay i ((σ.enqueue task).underWay i) =
      Activity.also (ownedBy i (some task.activity)) (stack.underWay i (σ.underWay i)) := by
  rw [State.underWay_enqueue, underWay_also]

namespace Turn

theorem unchanged {o : Option (Instance K)} (absent : o = none → as = 0) :
    Turn lost cut memos o as none o as := by
  cases o with
  | none => rw [absent rfl]; exact .absent
  | some x => exact .stays rfl rfl rfl .same

theorem modify {x : Instance K} {f : Instance K → Instance K} (o o' : Option Activity)
    (deed : Option (Deed K.Artifact)) (found : σ.instances[id]? = some x)
    (absent : σ.instances[i]? = none → Activity.also (ownedBy i (o.map (id, ·))) as = 0)
    (turn : id = i → Turn lost cut memos (some x) (Activity.also o as) deed (some (f x))
      (Activity.also o' as)) :
    Turn lost cut memos σ.instances[i]? (Activity.also (ownedBy i (o.map (id, ·))) as)
      (ownedBy i (deed.map (id, ·))) (σ.modifyInstance id f).instances[i]?
      (Activity.also (ownedBy i (o'.map (id, ·))) as) := by
  by_cases same : id = i
  · subst same
    rw [State.instances_modifyInstance_self, found, ownedBy_self, ownedBy_self, ownedBy_self]
    exact turn rfl
  · rw [ownedBy_ne same] at absent ⊢
    rw [State.instances_modifyInstance_ne _ same, ownedBy_ne same, ownedBy_ne same]
    exact .unchanged absent

theorem keep {x : Instance K} (o o' : Option Activity) (deed : Option (Deed K.Artifact))
    (found : σ.instances[id]? = some x)
    (absent : σ.instances[i]? = none → Activity.also (ownedBy i (o.map (id, ·))) as = 0)
    (turn : id = i → Turn lost cut memos (some x) (Activity.also o as) deed (some x)
      (Activity.also o' as)) :
    Turn lost cut memos σ.instances[i]? (Activity.also (ownedBy i (o.map (id, ·))) as)
      (ownedBy i (deed.map (id, ·))) σ.instances[i]?
      (Activity.also (ownedBy i (o'.map (id, ·))) as) := by
  have same : (σ.modifyInstance id fun x => x).instances[i]? = σ.instances[i]? := by
    rw [State.instances_modifyInstance]
    cases σ.instances[i]? <;> simp
  have turn := modify (f := fun x => x) o o' deed found absent turn
  rwa [same] at turn

theorem newInstance (absent : σ.instances[i]? = none → as = 0) (p : K.Procedure) (m : MemoId)
    (settings : Settings) (observers : List (Observer K)) :
    Turn lost cut memos σ.instances[i]? as none
      (σ.newInstance p m settings observers).2.instances[i]? as := by
  rw [State.instances_newInstance]
  split
  · next fresh =>
    have none : σ.instances[i]? = none := by simp [fresh]
    rw [none, absent none]
    exact .born ⟨rfl, by simp, by simp⟩
  · exact .unchanged absent

end Turn

namespace State

variable {stack : Stack K s} {k : ComponentId} {y : Component K} {σ' : State K}

theorem Dismisses.turn (dismisses : σ.Dismisses stack k y σ')
    (absent : σ.instances[i]? = none → stack.underWay i (σ.underWay i) = 0) :
    Turn lost cut memos σ.instances[i]? (stack.underWay i (σ.underWay i)) none σ'.instances[i]?
      (stack.underWay i (σ'.underWay i)) := by
  cases dismisses with
  | vacant => exact .unchanged absent
  | taken _ unlocked found =>
    exact .modify none none none found absent fun same =>
      .terminated (stack.unlocked (same ▸ unlocked))

theorem Dismisses.turn_newInstance {p : K.Procedure} {m : MemoId} {settings : Settings}
    {observers : List (Observer K)}
    (dismisses : (σ.newInstance p m settings observers).2.Dismisses stack k y σ')
    (absent : σ.instances[i]? = none → stack.underWay i (σ.underWay i) = 0) :
    Turn lost cut memos σ.instances[i]? (stack.underWay i (σ.underWay i)) none σ'.instances[i]?
      (stack.underWay i (σ'.underWay i)) := by
  by_cases fresh : i = σ.instances.length
  · have none : σ.instances[i]? = none := by simp [fresh]
    have made := State.instances_newInstance σ p m settings observers i
    rw [if_pos fresh] at made
    have idle : stack.underWay i (σ'.underWay i) = 0 := by
      cases dismisses <;> exact absent none
    rw [none, absent none, idle]
    cases dismisses with
    | vacant =>
      rw [made]
      exact .born ⟨rfl, by simp, by simp⟩
    | @taken old =>
      -- The component may be said to have had the new instance already, which is then stopped.
      change Turn _ _ _ _ _ _ ((σ.newInstance p m settings observers).2.modifyInstance old
        (·.terminate)).instances[i]? _
      rw [State.instances_modifyInstance, made, Option.map_some]
      refine .born ?_
      split
      · exact ⟨rfl, by simp [Instance.terminate], by simp [Instance.terminate]⟩
      · exact ⟨rfl, by simp, by simp⟩
  · have same : (σ.newInstance p m settings observers).2.instances[i]? = σ.instances[i]? := by
      rw [State.instances_newInstance, if_neg fresh]
    rw [← same] at absent ⊢
    exact dismisses.turn absent

theorem modifyRegistry_turn (source : Source) (f : Registry (Observer K) → Registry (Observer K))
    (later : ∀ r : Registry (Observer K), source = .ofInstance i → r.Later cut (f r))
    (absent : σ.instances[i]? = none → stack.underWay i (σ.underWay i) = 0) :
    Turn lost cut memos σ.instances[i]? (stack.underWay i (σ.underWay i)) none
      (σ.modifyRegistry source f).instances[i]?
      (stack.underWay i ((σ.modifyRegistry source f).underWay i)) := by
  cases source with
  | free id => exact .unchanged absent
  | ofInstance id =>
    change Turn lost cut memos σ.instances[i]? (stack.underWay i (σ.underWay i)) none
      (σ.modifyInstance id _).instances[i]? (stack.underWay i (σ.underWay i))
    rw [State.instances_modifyInstance]
    cases found : σ.instances[i]? with
    | none => exact absent found ▸ .absent
    | some x =>
      by_cases same : id = i
      · subst same
        simp only [Option.map_some, if_pos]
        exact .stays rfl rfl rfl (later _ rfl)
      · simp only [Option.map_some, if_neg same]
        exact .stays rfl rfl rfl .same

theorem Replies.turn {next : w.Answer K → Code K (s.Answer K)} {request : Request K w}
    {answer : w.Answer K} (replies : σ.Replies (.push (.waiting next) stack) request σ' answer)
    (absent : σ.instances[i]? = none → stack.underWay i (σ.underWay i) = 0) :
    Turn lost (Config.Cuts i ⟨s, σ, .run (.call request next), stack⟩) σ.memo σ.instances[i]?
      (stack.underWay i (σ.underWay i)) none σ'.instances[i]? (stack.underWay i (σ'.underWay i)) := by
  cases replies with
  | subscribe source o => exact modifyRegistry_turn source _ (fun _ _ => .subscribed o) absent
  | unsubscribe source n =>
    refine modifyRegistry_turn source _ ?_ absent
    rintro r rfl
    exact .unsubscribed (.unsubscribe σ n next stack)
  | newInstance p m settings => exact .newInstance absent p m settings []
  | terminate unlocked found =>
    exact .modify none none none found absent fun same =>
      .terminated (stack.unlocked (same ▸ unlocked))
  | reset _ _ dismisses => exact dismisses.turn absent
  | unmount _ _ dismisses => exact dismisses.turn absent
  | openGate gate =>
    rw [State.underWay_openGate]
    exact .unchanged absent
  | _ => exact .unchanged absent

end State

namespace Config

variable {c d : Config K} {stack : Stack K .unit}

theorem Completes.underWay_also {task : Task K} {outcome : Except Failure Value}
    (completes : c.Completes stack task outcome) : c.underWay i =
      Activity.also (ownedBy i (some task.activity)) (stack.underWay i (c.state.underWay i)) := by
  cases completes <;> rfl

theorem Draining.underWay (draining : c.Draining stack) :
    c.underWay i = stack.underWay i (c.state.underWay i) := by
  cases draining <;> rfl

theorem Delivering.underWay {source : Source} {signal : Signal K.Artifact}
    {observers : List (Observer K)} (delivering : c.Delivering source signal observers stack) :
    c.underWay i = stack.underWay i (c.state.underWay i) := by
  cases delivering <;> rfl

theorem Reacting.underWay {k : ComponentId} {signal : Signal K.Artifact}
    (reacting : c.Reacting k signal stack) :
    c.underWay i = stack.underWay i (c.state.underWay i) := by
  cases reacting with
  | intro delivering => exact delivering.underWay

theorem Requesting.underWay {k : ComponentId} (requesting : c.Requesting k stack) :
    c.underWay i = stack.underWay i (c.state.underWay i) := by
  cases requesting with
  | told reacting => exact reacting.underWay
  | adopted => rfl

/-- A step is a turn for an instance, if nothing is under way for an instance that is not there. -/
def Turns (i : InstanceId) (c d : Config K) : Prop :=
  (c.state.instances[i]? = none → c.underWay i = 0) →
    Turn (c.Loses i) (c.Cuts i) c.state.memo c.state.instances[i]? (c.underWay i) (d.deed? i)
      d.state.instances[i]? (d.underWay i)

theorem CodeStep.turns (step : CodeStep β c d) : c.Turns i d := by
  intro absent
  cases step with
  | replied replies => exact replies.turn absent
  | @dropped s w σ payload frame rest uncaught =>
    simp only [Config.underWay, Stack.underWay] at absent ⊢
    cases owned : ownedBy i frame.activity? with
    | none =>
      rw [owned] at absent
      exact .unchanged absent
    | some a =>
      rw [owned] at absent
      have activity : frame.activity? = some (i, a) := by
        cases activity : frame.activity? with
        | none => simp [activity, ownedBy] at owned
        | some b =>
          obtain ⟨rfl, rfl⟩ := ownedBy_some_eq_some.mp (activity ▸ owned)
          rfl
      have other : ∀ n keys, a ≠ .producer n keys := by
        rintro n keys rfl
        cases frame with
        | polling => cases uncaught
        | _ => cases activity
      cases found : σ.instances[i]? with
      | none => exact absurd (absent found) Multiset.cons_ne_zero
      | some x => exact .dropped (.dropped σ payload frame rest activity other)
  | _ => exact .unchanged absent

theorem DriveStep.turns (step : DriveStep c d) : c.Turns i d := by
  intro absent
  cases step with
  | idle => exact .unchanged absent
  | refused unlocked found paused reason =>
    exact .modify none none none found absent fun same =>
      .refused paused (Stack.unlocked (same ▸ unlocked))
        (reason.imp_left fun ⟨limit, full, _⟩ => by simp [full])
  | @started σ id x p stack _ found paused room has =>
    exact .modify none (some (.step x.position)) (some .resume) found absent fun _ =>
      .started paused room has
  | overtaken n p answer rest found gone =>
    exact .modify (some (.step n)) none none found absent fun _ => .overtaken gone
  | failed n p fault rest found alive =>
    exact .modify (some (.step n)) none none found absent fun _ => .failed alive
  | completed n p a rest found alive =>
    exact .modify (some (.step n)) none (some (.tell .done)) found absent fun _ =>
      .completed alive a
  | @recorded σ id x n p effect e rest found alive =>
    exact .modify (some (.step n)) none (some (.tell .ready)) found absent fun _ =>
      .recorded alive e
  | @computing σ id x n p computation keys rest found alive missed =>
    exact .modify (some (.step n)) (some (.computation n keys)) none found absent fun _ =>
      .computing alive missed
  | @launching σ id x n p producer keys rest found alive missed =>
    exact .modify (some (.step n)) (some (.launch n keys)) (some (.produce n keys)) found absent
      fun _ => .launching alive missed
  | @stranded σ id x n p producer keys rest found alive =>
    exact .modify (some (.step n)) none none found absent fun _ => .failed alive
  | outdated n keys v rest found gone =>
    exact .keep (some (.computation n keys)) none none found absent fun _ => .outdated gone
  | computed n keys v rest found alive =>
    exact .modify (some (.computation n keys)) none (some (.tell .ready)) found absent fun _ =>
      .computed alive v
  | launched σ id n keys future rest =>
    simp only [Config.underWay, Stack.underWay_enqueue] at absent ⊢
    cases found : σ.instances[id]? with
    | none =>
      by_cases same : id = i
      · subst same
        have gone := absent found
        simp [Stack.underWay, Frame.activity?, ownedBy, Activity.also] at gone
      · simp only [Stack.underWay, Frame.activity?, Task.activity, ownedBy_some_ne same,
          Activity.also] at absent ⊢
        exact .unchanged absent
    | some x =>
      exact .keep (some (.launch n keys)) (some (.producer n keys)) none found absent fun _ => .launched
  | proceeded => exact .unchanged absent

theorem ReplayStep.turns (step : ReplayStep c d) : c.Turns i d := by
  intro absent
  cases step with
  | started e later next stack found fresh paused has =>
    exact .modify none (some .replay) (some .resume) found absent fun _ =>
      .replayStarted paused fresh (by simp [has])
  | diverged e later p answer rest found =>
    exact .modify (some .replay) none none found absent fun _ => .diverged
  | completed a b p rest found =>
    exact .modify (some .replay) none none found absent fun _ => .replayCompleted a
  | @ended σ id x e p effect rest found =>
    exact .modify (some .replay) none none found absent fun _ => .replayEnded e
  | @resumed σ id x e later others p effect rest found =>
    exact .modify (some .replay) (some .replay) (some .resume) found absent fun _ => .replayed e

theorem TaskStep.turns (step : TaskStep c d) : c.Turns i d := by
  intro absent
  cases step with
  | @gone c stack task outcome completes dead =>
    rw [completes.underWay_also] at absent ⊢
    by_cases same : task.owner = i
    · subst same
      obtain ⟨x, found⟩ : ∃ x, c.state.instances[task.owner]? = some x := by
        refine Option.ne_none_iff_exists'.mp fun none => ?_
        have busy := absent none
        simp [Task.activity, ownedBy, Activity.also] at busy
      exact .keep (some (.producer task.position task.keys)) none none found absent fun _ =>
        .dropped (.gone completes rfl dead)
    · have idle : ownedBy i (some task.activity) = none := if_neg same
      simp only [idle, Activity.also] at absent ⊢
      exact .unchanged absent
  | @ignored c stack task outcome x completes found reason =>
    rw [completes.underWay_also] at absent ⊢
    exact .keep (some (.producer task.position task.keys)) none none found absent fun _ =>
      .ignored reason
  | @settled c stack task v x σ completes found running position stored =>
    rw [completes.underWay_also] at absent ⊢
    rcases stored with rfl | ⟨keys, -, rfl⟩
    · exact .modify (some (.producer task.position task.keys)) none (some (.tell .ready)) found
        absent fun _ => .settled running position v
    · exact .modify (some (.producer task.position task.keys)) none (some (.tell .ready)) found
        absent fun _ => .settled running position v
  | @rejected c stack task failure x completes found running position =>
    rw [completes.underWay_also] at absent ⊢
    exact .modify (some (.producer task.position task.keys)) none
      (some (.tell (.rejected (.producer task.position failure)))) found absent fun _ =>
        .rejected running position failure
  | postponed =>
    simp only [Config.underWay, Stack.underWay_enqueue]
    exact .unchanged absent
  | parked =>
    simp only [Config.underWay, State.underWay_park, Stack.underWay_also]
    exact .unchanged absent
  | @polled c stack task later draining ready =>
    have first : c.state.underWay i = Activity.also (ownedBy i (some task.activity))
        (State.underWay i { c.state with ready := later }) := by
      simp only [State.underWay, State.tasks, ready]
      rfl
    rw [draining.underWay, first, Stack.underWay_also] at absent ⊢
    exact .unchanged absent
  | _ => exact .unchanged absent

theorem SignalStep.turns (step : SignalStep c d) : c.Turns i d := by
  intro absent
  cases step with
  | delivered delivering =>
    rw [delivering.underWay] at absent ⊢
    exact .unchanged absent
  | noticed delivering =>
    rw [delivering.underWay] at absent ⊢
    exact .unchanged absent
  | unheld delivering =>
    rw [delivering.underWay] at absent ⊢
    exact .unchanged absent
  | marked requesting =>
    rw [requesting.underWay] at absent ⊢
    exact .unchanged absent
  | requested requesting =>
    rw [requesting.underWay] at absent ⊢
    exact .unchanged absent
  | bare reacting =>
    rw [reacting.underWay] at absent ⊢
    exact .unchanged absent
  | forked reacting _ _ _ dismisses =>
    rw [reacting.underWay] at absent ⊢
    exact dismisses.turn absent
  | rejected reacting =>
    rw [reacting.underWay] at absent ⊢
    exact .unchanged absent
  | hosted => exact .unchanged absent

theorem HostStep.turns (step : HostStep c d) : c.Turns i d := by
  intro absent
  cases step with
  | mounted _ _ dismisses => exact dismisses.turn_newInstance absent
  | @empty σ k y p rest made => exact .newInstance absent p y.memo y.settings [.host k]
  | @replaying σ k y e later p rest made =>
    change Turn _ _ σ.memo σ.instances[i]? (rest.underWay i (σ.underWay i))
      (ownedBy i ((some .resume).map (σ.instances.length, ·)))
      ((σ.newInstance p y.memo y.settings [.host k]).2.modifyInstance σ.instances.length
        (·.lend)).instances[i]?
      (Activity.also (ownedBy i ((some .replay).map (σ.instances.length, ·)))
        (rest.underWay i (σ.underWay i)))
    by_cases fresh : σ.instances.length = i
    · have none : σ.instances[i]? = none := by simp [← fresh]
      rw [none, show rest.underWay i (σ.underWay i) = 0 from absent none, ← fresh, ownedBy_self,
        ownedBy_self, State.instances_modifyInstance_self, State.instances_newInstance, if_pos rfl]
      exact .bornReplaying ⟨rfl, by simp, by simp⟩ rfl
    · rw [ownedBy_ne fresh, ownedBy_ne fresh, State.instances_modifyInstance_ne _ fresh,
        State.instances_newInstance, if_neg (Ne.symm fresh)]
      exact .unchanged absent
  | _ => exact .unchanged absent

/-- Every step is a turn for every instance. -/
theorem Transition.turns : Transition β c d → c.Turns i d
  | code step => step.turns
  | drive step => step.turns
  | replay step => step.turns
  | task step => step.turns
  | signal step => step.turns
  | host step => step.turns

theorem follows_turn (absent : c.state.instances[i]? = none → c.underWay i = 0)
    (follows : Follows β c d) :
    Turn (c.Loses i) (c.Cuts i) c.state.memo c.state.instances[i]? (c.underWay i) (d.deed? i)
      d.state.instances[i]? (d.underWay i) :=
  follows.transition.turns absent

end Config

end Resumable
