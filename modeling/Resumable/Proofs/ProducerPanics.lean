import Resumable.Proofs.Agreement
import Resumable.Proofs.Answers

namespace Resumable

variable {K : Client} {β : Behaviour K} {i : InstanceId} {n : Position}
  {keys : Option (List Value)} {lost : Prop}

def Instance.Stranded (x : Instance K) : Prop :=
  x.status = .running ∧ x.procedure ≠ none ∨ x.status = .terminated ∧ x.registry.closed = true

theorem Turn.stranded {loses : Prop} {cut : SubscriptionId → Prop} {memos : MemoId → Memo}
    {x : Instance K} {o' : Option (Instance K)} {as' : Multiset Activity}
    {deed : Option (Deed K.Artifact)} (turn : Turn loses cut memos (some x) 0 deed o' as')
    (running : x.status = .running) (there : x.procedure ≠ none) :
    ∃ x', o' = some x' ∧ x'.Stranded ∧ x'.history = x.history ∧ as' = 0 ∧ deed = none := by
  have paused : x.status ≠ .paused := by simp [running]
  generalize none : (0 : Multiset Activity) = as at turn
  cases turn with
  | stays status procedure history =>
    exact ⟨_, rfl, .inl ⟨status.trans running, by rwa [procedure]⟩, history, rfl, rfl⟩
  | terminated => exact ⟨_, rfl, .inr ⟨rfl, rfl⟩, rfl, rfl, rfl⟩
  | refused status => exact absurd status paused
  | started status => exact absurd status paused
  | replayStarted status => exact absurd status paused
  | _ => exact absurd none.symm Multiset.cons_ne_zero

namespace Config

variable {c d e : Config K} {t u : List (Config K × Config K)} {G : Config K → Prop} {s : Shape}

def rejections (i : InstanceId) (t : List (Config K × Config K)) : List Fault :=
  (signals i t).filterMap fun
    | .rejected fault => some fault
    | _ => none

@[simp]
theorem rejections_append (t u : List (Config K × Config K)) :
    rejections i (t ++ u) = rejections i t ++ rejections i u := by
  simp [rejections, signals]

theorem rejections_of_silent (silent : ∀ p ∈ t, p.2.deed? i = none) : rejections i t = [] := by
  have none : signals i t = [] :=
    List.filterMap_eq_nil_iff.mpr fun p mem => signal?_eq_none (by simp [silent p mem])
  rw [rejections, none, List.filterMap_nil]

/-- The producer of an instance has given a future, and with it the drive of the instance ends. -/
def Launches (i : InstanceId) (n : Position) (keys : Option (List Value))
    (p : Config K × Config K) : Prop :=
  ∃ σ future rest, p = (⟨.future, σ, .run (.done future), .push (.launching i n keys) rest⟩,
    ⟨.result, σ.enqueue ⟨i, n, keys, future⟩, .run (.done (.ok ())), rest⟩)

theorem Run.begun (run : Run β G c t d) (idle : c.underWay i = 0) {a : Activity}
    (mem : a ∈ d.underWay i) :
    ∃ t₁ p t₂, t = t₁ ++ p :: t₂ ∧ a ∉ p.1.underWay i ∧ ∀ r ∈ p :: t₂, a ∈ r.2.underWay i := by
  induction run with
  | refl =>
    rw [idle] at mem
    exact absurd mem (Multiset.notMem_zero _)
  | @snoc t d e _ _ _ ih =>
    by_cases before : a ∈ d.underWay i
    · obtain ⟨t₁, p, t₂, rfl, fresh, since⟩ := ih before
      refine ⟨t₁, p, t₂ ++ [(d, e)], by simp, fresh, fun r mem' => ?_⟩
      rcases List.mem_append.mp (List.cons_append ▸ mem') with mem' | mem'
      · exact since r mem'
      · rw [List.mem_singleton.mp mem']
        exact mem
    · refine ⟨t, (d, e), [], rfl, before, fun r mem' => ?_⟩
      rw [List.mem_singleton.mp mem']
      exact mem

theorem Stands.misses (stands : c.Stands True i) (follows : Follows β c d)
    (fresh : .launch n keys ∉ c.underWay i) (mem : .launch n keys ∈ d.underWay i) :
    Misses i n keys (c, d) := by
  have turn := follows_turn stands.absent follows
  cases turn.begun mem with
  | before mem => exact absurd mem fresh
  | @launch _ _ x step found missed produces =>
    have alive : x.status ≠ .terminated := by
      intro ended
      have stands' := stands.follows (fun _ => trivial) follows
      rw [found] at turn
      obtain ⟨x', found', ended', -⟩ := turn.final (stands.present x found) ended
      exact ((stands'.present x' found').suits_of_locks mem trivial).alive ended'
    obtain ⟨running, -, position⟩ := (stands.present x found).suits step alive
    exact ⟨produces, x, found, running, position.symm, missed⟩

theorem rests_of_launch {σ : State K} {stack : Stack K s}
    (mem : .launch n keys ∈ stack.underWay i (σ.underWay i)) :
    ∃ rest, (Stack.push (.launching i n keys) rest).Rests stack := by
  induction stack with
  | empty => exact absurd trivial (State.not_locks mem)
  | push frame rest ih =>
    rcases Activity.mem_also.mp mem with own | mem
    · cases frame with
      | launching j m keys' =>
        obtain ⟨rfl, same⟩ := ownedBy_some_eq_some.mp own
        cases same
        exact ⟨rest, .refl⟩
      | stepping => cases (ownedBy_some_eq_some.mp own).2
      | computing => cases (ownedBy_some_eq_some.mp own).2
      | replaying => cases (ownedBy_some_eq_some.mp own).2
      | polling => cases (ownedBy_some_eq_some.mp own).2
      | _ => cases own
    · obtain ⟨rest, rests⟩ := ih mem
      exact ⟨rest, rests.push frame⟩

theorem Stands.launching (stands : c.Stands True i) (follows : Follows β c d)
    (fresh : .producer n keys ∉ c.underWay i) (mem : .producer n keys ∈ d.underWay i) :
    .launch n keys ∈ c.underWay i := by
  cases (follows_turn stands.absent follows).begun mem with
  | before mem => exact absurd mem fresh
  | producer launch => exact launch

theorem Stands.launches (stands : c.Stands True i) (follows : Follows β c d)
    (fresh : .producer n keys ∉ c.underWay i) (mem : .producer n keys ∈ d.underWay i) :
    Launches i n keys (c, d) := by
  obtain ⟨rest, rests⟩ := rests_of_launch (stands.launching follows fresh mem)
  rcases follows.stays rests with rests | ⟨σ, result, rfl⟩
  · have launch' := Stack.mem_underWay rests (i := i) rfl (d.state.underWay i)
    rw [(stands.follows (fun _ => trivial) follows).alone launch' trivial] at mem
    cases Multiset.mem_singleton.mp mem
  · cases result with
    | ok future =>
      cases (step_done (β := β) ..).symm.trans (follows.step_eq (by rintro _ _ ⟨⟩))
      exact ⟨σ, future, rest, rfl⟩
    | error payload =>
      cases (step_panic (β := β) ..).symm.trans (follows.step_eq (by rintro _ _ ⟨⟩))
      exact absurd (Activity.mem_also.mpr (.inr mem)) fresh

variable {memory : K.Memory} {ambient : Bool} {code : Code K Unit} {x : Instance K}

theorem Run.awaited (run : Run β G (start { memory := memory, ambient := ambient } code) t c)
    (mem : .producer n keys ∈ c.underWay i) (found : c.state.instances[i]? = some x)
    (alive : x.status ≠ .terminated) :
    ∃ t₁ p t₂ q t₃, t = t₁ ++ p :: t₂ ++ q :: t₃ ∧ Misses i n keys p ∧ Launches i n keys q ∧
      p.1.state.history i = x.history ∧
      ∀ r ∈ p :: t₂ ++ q :: t₃, ∀ m ks v, ¬ r.1.Brings i m ks v := by
  obtain ⟨t', q, t₃, rfl, fresh, since⟩ := run.begun rfl mem
  obtain ⟨first, guard, follows, later⟩ := run.split rfl
  have stands : q.1.Stands True i := first.stands _
  have launch := stands.launching follows fresh (since q (List.mem_cons_self ..))
  have launches := stands.launches follows fresh (since q (List.mem_cons_self ..))
  obtain ⟨t₁, p, t₂, rfl, fresh', since'⟩ := first.begun rfl launch
  obtain ⟨first', guard', follows', between⟩ := first.split rfl
  have stands' : p.1.Stands True i := first'.stands _
  have misses := stands'.misses follows' fresh' (since' p (List.mem_cons_self ..))
  refine ⟨t₁, p, t₂, q, t₃, rfl, misses, launches, ?_, fun r mem' m ks v brings => ?_⟩
  · obtain ⟨-, y, found', -, length, -⟩ := misses
    have since := Run.append (.snoc .refl guard' follows')
      (between.append (.append (.snoc .refl guard follows) later))
    have stands : c.Stands True i := run.stands _
    obtain ⟨-, -, position⟩ := (stands.present x found).suits mem alive
    obtain ⟨x', found'', grows⟩ := since.grows i y found'
    obtain rfl := Option.some.inj (found''.symm.trans found)
    rw [State.history_of_found found']
    exact grows.history.eq_of_length (length.trans position)
  · obtain ⟨a, under⟩ : ∃ a, a ∈ r.2.underWay i := by
      rcases List.mem_append.mp mem' with mem' | mem'
      · exact ⟨_, since' r mem'⟩
      · exact ⟨_, since r mem'⟩
    obtain ⟨v₁, v₂, split⟩ := List.append_of_mem (List.mem_append_right t₁ mem')
    obtain ⟨before, guard, follows, after⟩ := run.split (by rw [← split]; simp)
    have stands : r.1.Stands True i := before.stands _
    obtain ⟨z, there⟩ : ∃ z, r.1.state.instances[i]? = some z :=
      Option.ne_none_iff_exists'.mp fun none => brings.not_idle follows (stands.absent none)
    refine (brings.apart follows stands there (fun ended => ?_) under).1 rfl
    obtain ⟨x', found', ended', -⟩ := stands.final (fun _ _ _ => trivial)
      (Run.append (.snoc .refl guard follows) after) there ended
    obtain rfl := Option.some.inj (found'.symm.trans found)
    exact alive ended'

theorem Run.unrejected (run : Run β G (start { memory := memory, ambient := ambient } code) t c)
    (found : c.state.instances[i]? = some x) (alive : x.status ≠ .terminated) :
    rejections i t = [] := by
  refine List.filterMap_eq_nil_iff.mpr fun signal mem => ?_
  obtain ⟨r, among, told⟩ := List.mem_filterMap.mp mem
  cases signal with
  | rejected fault =>
    obtain ⟨t₁, t₂, rfl⟩ := List.append_of_mem among
    obtain ⟨before, guard, follows, after⟩ := run.split rfl
    have stands : r.1.Stands True i := before.stands _
    obtain ⟨-, y, -, found', -, -, ended⟩ := stands.mirrors follows told
    obtain ⟨x', found'', ended', -⟩ := (stands.follows (fun _ => trivial) follows).final
      (fun _ _ _ => trivial) after found' ended
    obtain rfl := Option.some.inj (found''.symm.trans found)
    exact absurd ended' alive
  | _ => rfl

/-- What is left of a task whose future has failed, with its await rejected. -/
def rejecting (σ : State K) (stack : Stack K .unit) (task : Task K) (failure : Failure) :
    Config K :=
  ⟨.unit, σ.modifyInstance task.owner (·.fail),
    .emit (.ofInstance task.owner) (.rejected (.producer task.position failure)),
    .push (.settling task.owner) stack⟩

theorem Run.over_of_rejected {stack : Stack K .unit} {task : Task K} {failure : Failure}
    (run : Run β G (start { memory := memory, ambient := ambient } code) t c)
    (completes : c.Completes stack task (.error failure))
    (found : c.state.instances[task.owner]? = some x) (alive : x.status ≠ .terminated)
    (held : c.state.instanceAlive stack task.owner = true)
    (later : Run β G (rejecting c.state stack task failure) u e) :
    ∃ x', e.state.instances[task.owner]? = some x' ∧ x'.status = .terminated ∧
      x'.history = x.history ∧ e.underWay task.owner = 0 ∧
      ∀ p ∈ u, p.2.deed? task.owner = none := by
  have stands : c.Stands True task.owner := run.stands _
  have follows : Follows β c (rejecting c.state stack task failure) :=
    .step (completes.settled stands found held alive)
  have idle : (rejecting c.state stack task failure).underWay task.owner = 0 := by
    have busy := stands.present x found
    rw [completes.underWay] at busy
    exact (busy.of_alive alive).2
  have ended :
      (rejecting c.state stack task failure).state.instances[task.owner]? = some x.fail := by
    rw [rejecting, State.instances_modifyInstance_self, found, Option.map_some]
  obtain ⟨x', found', status, history, fewer, silent⟩ :=
    (stands.follows (fun _ => trivial) follows).final (fun _ _ _ => trivial) later ended rfl
  exact ⟨x', found', status, history, Multiset.le_zero.mp (idle ▸ fewer), silent⟩

theorem Stands.stranded (stands : c.Stands True i) (run : Run β G c u d)
    (found : c.state.instances[i]? = some x) (stranded : x.Stranded) (idle : c.underWay i = 0) :
    ∃ x', d.state.instances[i]? = some x' ∧ x'.Stranded ∧ x'.history = x.history ∧
      d.underWay i = 0 ∧ ∀ p ∈ u, p.2.deed? i = none := by
  induction run with
  | refl => exact ⟨x, found, stranded, rfl, idle, fun _ mem => absurd mem List.not_mem_nil⟩
  | @snoc u d e run _ follows ih =>
    obtain ⟨y, found', stranded', history, idle', silent⟩ := ih
    have stands' : d.Stands True i := stands.run (fun _ _ _ => trivial) run
    obtain ⟨z, found'', grows⟩ := follows.grows i y found'
    have turn := follows_turn stands'.absent follows
    rw [found', idle', found''] at turn
    have next : z.Stranded ∧ z.history = y.history ∧ e.underWay i = 0 ∧ e.deed? i = none := by
      rcases stranded' with ⟨running, there⟩ | ⟨ended, closed⟩
      · obtain ⟨_, ⟨⟩, next⟩ := turn.stranded running there
        exact next
      · obtain ⟨_, ⟨⟩, status, same, fewer, none, -⟩ :=
          turn.final (idle' ▸ stands'.present y found') ended
        exact ⟨.inr ⟨status, grows.closed closed⟩, same, Multiset.le_zero.mp fewer, none⟩
    obtain ⟨stays, same, still, none⟩ := next
    refine ⟨z, found'', stays, same.trans history, still, fun p mem => ?_⟩
    rcases List.mem_append.mp mem with mem | mem
    · exact silent p mem
    · rw [List.mem_singleton.mp mem]
      exact none

theorem running_returns {σ : State K} {stack : Stack K .result}
    (idle : Config.underWay i ⟨.result, σ, .advance i, stack⟩ = 0)
    (found : σ.instances[i]? = some x) (running : x.status = .running)
    (there : x.procedure ≠ none) : Config.step β ⟨.result, σ, .advance i, stack⟩ =
      .ok ⟨.result, σ, .run (.done (.ok ())), stack⟩ := by
  have unlocked : stack.locksInstance i = false :=
    (unlocked_iff (c := ⟨.result, σ, .advance i, stack⟩)).mpr (by simp [idle])
  obtain ⟨p, given⟩ := Option.ne_none_iff_exists'.mp there
  rw [step_advance, Next.startStep, Next.withInstance, unlocked, if_neg Bool.false_ne_true, found]
  simp only [running, given]
  rfl

theorem Completes.panics {stack : Stack K .unit} {task : Task K} {payload : Payload}
    (completes : c.Completes stack task (.error (.panicked payload))) :
    ∃ σ, c = ⟨.progress, σ, .run (.panic payload), .push (.polling task) stack⟩ := by
  generalize panicked : Except.error (Failure.panicked payload) = outcome at completes
  cases completes with
  | answered σ r => cases r <;> cases panicked
  | panicked σ => cases panicked; exact ⟨σ, rfl⟩

theorem not_brings_of_panic {σ : State K} {payload : Payload} {stack : Stack K s} {ks : List Value}
    {v : Value} : ¬ Brings i n ks v ⟨s, σ, .run (.panic payload), stack⟩ := by
  intro brings
  cases brings with
  | settled completes =>
    generalize came : Except.ok v = outcome at completes
    cases completes
    cases came

/-- The future of a producer panics when it is polled: the producer was called for want of an answer
(`p`) and gave the future (`q`), and the instance is rejected now and never again. -/
structure PolledPanic (β : Behaviour K) (t : List (Config K × Config K)) (c : Config K)
    (stack : Stack K .unit) (task : Task K) (payload : Payload) (x : Instance K)
    (t₁ : List (Config K × Config K)) (p : Config K × Config K) (t₂ : List (Config K × Config K))
    (q : Config K × Config K) (t₃ : List (Config K × Config K)) : Prop where
  trail : t = t₁ ++ p :: t₂ ++ q :: t₃
  misses : Misses task.owner task.position task.keys p
  launches : Launches task.owner task.position task.keys q
  history : p.1.state.history task.owner = x.history
  step : c.step β = .ok (rejecting c.state stack task (.panicked payload))
  ended : ∀ u e, Run β (fun _ => True) (rejecting c.state stack task (.panicked payload)) u e →
    ∃ x', e.state.instances[task.owner]? = some x' ∧ x'.status = .terminated ∧
      x'.history = x.history
  idle : ∀ u e, Run β (fun _ => True) (rejecting c.state stack task (.panicked payload)) u e →
    e.underWay task.owner = 0
  once : ∀ u e, Run β (fun _ => True) (rejecting c.state stack task (.panicked payload)) u e →
    rejections task.owner (t ++ (c, rejecting c.state stack task (.panicked payload)) :: u) =
      [.producer task.position (.panicked payload)]
  /-- Nothing is recorded or remembered for the instance from the call on. -/
  unbrought : ∀ u e, Run β (fun _ => True) (rejecting c.state stack task (.panicked payload)) u e →
    ∀ r ∈ p :: t₂ ++ q :: t₃ ++ (c, rejecting c.state stack task (.panicked payload)) :: u,
      ∀ n keys v, ¬ r.1.Brings task.owner n keys v

/-- A producer panics when it is called: the drive panics with it, and the instance is stranded. -/
structure CalledPanic (β : Behaviour K) (t : List (Config K × Config K)) (c : Config K)
    (σ : State K) (rest : Stack K .result) (i : InstanceId) (n : Position)
    (keys : Option (List Value)) (payload : Payload) (x : Instance K) : Prop where
  found : σ.instances[i]? = some x
  running : x.status = .running
  position : x.history.length = n
  misses : ∃ p ∈ t, Misses i n keys p
  step : c.step β = .ok ⟨.result, σ, .run (.panic payload), rest⟩
  unrejected : ∀ u e, Run β (fun _ => True) ⟨.result, σ, .run (.panic payload), rest⟩ u e →
    rejections i (t ++ (c, ⟨.result, σ, .run (.panic payload), rest⟩) :: u) = []
  idle : ∀ u e, Run β (fun _ => True) ⟨.result, σ, .run (.panic payload), rest⟩ u e →
    e.underWay i = 0
  undone : ∀ u e, Run β (fun _ => True) ⟨.result, σ, .run (.panic payload), rest⟩ u e →
    ∀ r ∈ u, r.2.deed? i = none
  /-- It stays running, and a drive of it comes back at once, unless somebody stops it. -/
  stranded : ∀ u e, Run β (fun _ => True) ⟨.result, σ, .run (.panic payload), rest⟩ u e →
    ∃ x', e.state.instances[i]? = some x' ∧ x'.history = x.history ∧
      (x'.status = .running ∧ (∀ τ stack, e = ⟨.result, τ, .advance i, stack⟩ →
          e.step β = .ok ⟨.result, τ, .run (.done (.ok ())), stack⟩) ∨
        x'.status = .terminated ∧ x'.registry.closed = true)

variable {memory : K.Memory} {ambient : Bool} {code : Code K Unit} {t : List (Config K × Config K)}
  {c : Config K} {payload : Payload}

theorem Run.polledPanic {stack : Stack K .unit} {task : Task K} {x : Instance K}
    (run : Run β (fun _ => True) (start { memory := memory, ambient := ambient } code) t c)
    (completes : c.Completes stack task (.error (.panicked payload)))
    (found : c.state.instances[task.owner]? = some x) (alive : x.status ≠ .terminated)
    (held : c.state.instanceAlive stack task.owner = true) :
    ∃ t₁ p t₂ q t₃, PolledPanic β t c stack task payload x t₁ p t₂ q t₃ := by
  have stands : c.Stands True task.owner := stands_start.run (fun _ _ _ => trivial) run
  have mem : .producer task.position task.keys ∈ c.underWay task.owner :=
    completes.underWay ▸ Multiset.mem_cons_self ..
  obtain ⟨t₁, p, t₂, q, t₃, rfl, misses, launches, same, before⟩ := run.awaited mem found alive
  have later {u e} := run.over_of_rejected completes found alive held (u := u) (e := e)
  refine ⟨t₁, p, t₂, q, t₃, rfl, misses, launches, same, completes.settled stands found held alive,
    fun u e run' => ?_, fun u e run' => ?_, fun u e run' => ?_, fun u e run' r mem n keys v brings => ?_⟩
  · obtain ⟨x', found', ended, history, -, -⟩ := later run'
    exact ⟨x', found', ended, history⟩
  · obtain ⟨-, -, -, -, idle, -⟩ := later run'
    exact idle
  · obtain ⟨-, -, -, -, -, silent⟩ := later run'
    rw [rejections_append, run.unrejected found alive, List.nil_append, ← List.singleton_append,
      rejections_append, rejections_of_silent silent, List.append_nil]
    simp [rejections, signals, signal?, deed?, rejecting, Signal.deed?, ownedBy]
  · rcases List.mem_append.mp mem with mem | mem
    · exact before r mem n keys v brings
    · rcases List.mem_cons.mp mem with rfl | mem
      · obtain ⟨σ, rfl⟩ := completes.panics
        exact not_brings_of_panic brings
      · obtain ⟨u₁, u₂, rfl⟩ := List.append_of_mem mem
        obtain ⟨between, -, follows, -⟩ := run'.split rfl
        obtain ⟨-, -, -, -, idle, -⟩ := later between
        exact brings.not_idle follows idle

theorem Run.calledPanic {n : Position} {keys : Option (List Value)} {σ : State K}
    {rest : Stack K .result}
    (run : Run β (fun _ => True) (start { memory := memory, ambient := ambient } code) t
      ⟨.future, σ, .run (.panic payload), .push (.launching i n keys) rest⟩) :
    ∃ x, CalledPanic β t ⟨.future, σ, .run (.panic payload), .push (.launching i n keys) rest⟩ σ rest
      i n keys payload x := by
  have stands : Config.Stands True i
      ⟨.future, σ, .run (.panic payload), .push (.launching i n keys) rest⟩ :=
    stands_start.run (fun _ _ _ => trivial) run
  have launch : .launch n keys ∈ Config.underWay i
      ⟨.future, σ, .run (.panic payload), .push (.launching i n keys) rest⟩ :=
    Stack.mem_underWay .refl rfl _
  obtain ⟨x, found⟩ : ∃ x, σ.instances[i]? = some x :=
    Option.ne_none_iff_exists'.mp fun none =>
      absurd (stands.absent none ▸ launch) (Multiset.notMem_zero _)
  obtain ⟨running, there, position⟩ := (stands.present x found).suits_of_locks launch trivial
  have step :
      Config.step β ⟨.future, σ, .run (.panic payload), .push (.launching i n keys) rest⟩ =
        .ok ⟨.result, σ, .run (.panic payload), rest⟩ := step_panic ..
  have idle : Config.underWay i ⟨.result, σ, .run (.panic payload), rest⟩ = 0 := by
    have alone := stands.alone launch trivial
    simp only [Config.underWay, Stack.underWay, Frame.activity?, ownedBy_some_self] at alone
    exact (Multiset.cons_inj_right _).mp alone
  have stands' := stands.follows (fun _ => trivial) (.step step)
  have later {u e} (run' : Run β (fun _ => True) _ u e) :=
    stands'.stranded run' found (.inl ⟨running, there⟩) idle
  refine ⟨x, found, running, position.symm, ?_, step, fun u e run' => ?_, fun u e run' => ?_,
    fun u e run' => ?_, fun u e run' => ?_⟩
  · exact Stands.missed stands_start (fun _ _ _ => trivial) rfl run launch rfl
  · obtain ⟨-, -, -, -, -, silent⟩ := later run'
    rw [rejections_append, run.unrejected found (by simp [running]), List.nil_append]
    refine rejections_of_silent fun p mem => ?_
    rcases List.mem_cons.mp mem with rfl | mem
    · rfl
    · exact silent p mem
  · obtain ⟨-, -, -, -, idle', -⟩ := later run'
    exact idle'
  · obtain ⟨-, -, -, -, -, silent⟩ := later run'
    exact silent
  · obtain ⟨x', found', stranded, history, idle', -⟩ := later run'
    refine ⟨x', found', history, stranded.imp_left fun inside => ⟨inside.1, ?_⟩⟩
    rintro τ stack rfl
    exact running_returns idle' found' inside.1 inside.2

end Config

open Config in
/-- Along every run from an empty machine, a producer that an instance calls for want of an answer
in its memo panics at one of two points. If its future panics when it is polled, while the instance
lives and is not terminated, the drive has come back in between without a fault; the await leaves
history and memos alone, and the instance is over, with exactly one rejection for the position and
the payload, however the run goes on. If the call itself panics, the drive panics with it, and the
instance is left running with nothing under way: it is not rejected, nothing begins for it any more,
a drive of it comes back at once, and nothing becomes of it but that somebody stops it. -/
theorem producer_panics {memory : K.Memory} {ambient : Bool} {code : Code K Unit}
    {t : List (Config K × Config K)} {c : Config K}
    (run : Run β (fun _ => True) (start { memory := memory, ambient := ambient } code) t c)
    (payload : Payload) :
    (∀ stack task x, c.Completes stack task (.error (.panicked payload)) →
      c.state.instances[task.owner]? = some x → x.status ≠ .terminated →
      c.state.instanceAlive stack task.owner = true →
      ∃ t₁ p t₂ q t₃, PolledPanic β t c stack task payload x t₁ p t₂ q t₃) ∧
    (∀ i n keys σ rest,
      c = ⟨.future, σ, .run (.panic payload), .push (.launching i n keys) rest⟩ →
      ∃ x, CalledPanic β t c σ rest i n keys payload x) := by
  constructor
  · intro stack task x completes found alive held
    exact run.polledPanic completes found alive held
  · rintro i n keys σ rest rfl
    exact run.calledPanic

namespace Sketch

def shaky : Behaviour client where
  code
    | .produce value => if value = .int 0 then .panic (.text "early") else .done value
    | .poll _ => .panic (.text "late")
    | c => behaviour.code c

def shakyCode : Code client Unit :=
  .call .newMemo fun m =>
    .call (.newInstance { moves := [.await (.int 1) none] } m {}) fun i =>
      .call (.newInstance { moves := [.await (.int 0) none] } m {}) fun j =>
        .call (.retain (.ofInstance i)) fun _ =>
          .call (.proceed i) fun _ =>
            .call .drain fun _ =>
              .call (.proceed j) fun _ => .done ()

def late : Config client :=
  Config.after shaky 17 (.start { memory := () } shakyCode)

def early : Config client :=
  Config.after shaky 27 (.start { memory := () } shakyCode)

def parted : Config client :=
  Config.after shaky 2 early

def redriven : Config client :=
  Config.after shaky 1 (.start { parted.state with memory := (), ambient := true }
    (.call (.proceed 1) fun _ => .done ()))

def lateTask : Task client :=
  ⟨0, 0, none, .int 1⟩

def lateStack : Stack client .unit :=
  .push .draining (.push (.waiting fun _ => .call (.proceed 1) fun _ => .done ()) .empty)

/-- The first drawing is rejected once; the second one is left running, and driving it again does
nothing. -/
theorem shaky_panics :
    Config.rejections 0 (Config.trail shaky 17 (.start { memory := () } shakyCode) ++
      [(late, Config.rejecting late.state lateStack lateTask (.panicked (.text "late")))]) =
        [.producer 0 (.panicked (.text "late"))] ∧
    (∃ x, redriven.state.instances[1]? = some x ∧ x.status = .running) ∧
    redriven.underWay 1 = 0 ∧
    ∃ σ stack, redriven.step shaky = .ok ⟨.result, σ, .run (.done (.ok ())), stack⟩ := by
  have polled : Config.Run shaky (fun _ => True) (.start { memory := () } shakyCode) _ late :=
    .walk_all 17 _
  have called : Config.Run shaky (fun _ => True) (.start { memory := () } shakyCode) _ early :=
    .walk_all 27 _
  have completes : late.Completes lateStack lateTask (.error (.panicked (.text "late"))) :=
    .panicked _ _
  obtain ⟨_, _, _, _, _, polledPanic⟩ := (producer_panics polled (.text "late")).1 lateStack lateTask
    _ completes rfl (by decide +kernel) (by decide +kernel)
  obtain ⟨x, calledPanic⟩ := (producer_panics called (.text "early")).2 1 0 none _ _ rfl
  have dropped : Config.Run shaky (fun _ => True) (Config.after shaky 1 early) _ parted :=
    .walk_all 1 _
  have again : Config.Run shaky (fun _ => True) (Config.after shaky 1 early) _ redriven :=
    (dropped.snoc trivial (.next parted.state (.error (.text "early")) () true
      (.call (.proceed 1) fun _ => .done ()))).append (.walk_all 1 _)
  obtain ⟨x', found', -, stranded⟩ := calledPanic.stranded _ _ again
  have stays : redriven.state.status? 1 = some .running := by decide +kernel
  have running' : x'.status = .running := by
    rw [State.status?, found'] at stays
    exact Option.some.inj stays
  obtain ⟨-, returns⟩ := stranded.resolve_right (by simp [running'])
  exact ⟨polledPanic.once [] _ .refl, ⟨x', found', running'⟩, calledPanic.idle _ _ again, _, _,
    returns _ _ rfl⟩

end Sketch

end Resumable
