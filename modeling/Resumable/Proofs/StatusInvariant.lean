import Resumable.Proofs.Condition
import Resumable.Proofs.Sketch

namespace Resumable

variable {K : Client} {β : Behaviour K} {i : InstanceId} {x : Instance K}

/-- What the status of an instance says about its procedure and what is under way for it. -/
structure Instance.Regular (x : Instance K) (as : Multiset Activity) : Prop where
  paused : x.status = .paused → x.procedure ≠ none ∧ as = 0
  running : x.status = .running →
    (x.procedure = none ∧ as = {.step x.position}) ∨
    (x.procedure ≠ none ∧ ∃ keys, as = {.computation x.position keys}) ∨
    (x.procedure ≠ none ∧ ∃ keys, as = {.producer x.position keys})

theorem Instance.Stands.regular {as : Multiset Activity} (h : x.Stands False as)
    (unlocked : ∀ a ∈ as, ¬ a.Locks) : x.Regular as := by
  cases h with
  | idle status procedure =>
    exact ⟨fun _ => ⟨procedure, rfl⟩, fun running => absurd (status.symm.trans running) (by decide)⟩
  | @busy a suits =>
    cases a with
    | step n =>
      obtain ⟨running, taken, rfl⟩ := suits
      exact ⟨fun paused => absurd (paused.symm.trans running) (by decide), fun _ => .inl ⟨taken, rfl⟩⟩
    | computation n keys =>
      obtain ⟨running, there, rfl⟩ := suits
      exact ⟨fun paused => absurd (paused.symm.trans running) (by decide),
        fun _ => .inr (.inl ⟨there, keys, rfl⟩)⟩
    | producer n keys =>
      obtain ⟨running, there, rfl⟩ := suits
      exact ⟨fun paused => absurd (paused.symm.trans running) (by decide),
        fun _ => .inr (.inr ⟨there, keys, rfl⟩)⟩
    | launch n keys => exact absurd trivial (unlocked _ (Multiset.mem_singleton_self _))
    | replay => exact absurd trivial (unlocked _ (Multiset.mem_singleton_self _))
  | broken loses => exact loses.elim
  | ended status => exact ⟨fun paused => absurd (status.symm.trans paused) (by decide),
      fun running => absurd (status.symm.trans running) (by decide)⟩

namespace Config

variable {c : Config K} {s : Shape} {stack : Stack K .result}

/-- An instance is driven for a stack: its next step is to start, or what a step, a computation or
the call of a producer has given is to be taken in. -/
inductive Drives (i : InstanceId) (stack : Stack K .result) : Config K → Prop
  | next (σ : State K) : Drives i stack ⟨.result, σ, .advance i, stack⟩
  | stepped (σ : State K) (n : Position) (answer : Shape.step.Answer K) :
    Drives i stack ⟨.step, σ, .run (.done answer), .push (.stepping i n) stack⟩
  | computed (σ : State K) (n : Position) (keys : List Value) (v : Value) :
    Drives i stack ⟨.value, σ, .run (.done v), .push (.computing i n keys) stack⟩
  | launched (σ : State K) (n : Position) (keys : Option (List Value)) (future : K.Future) :
    Drives i stack ⟨.future, σ, .run (.done future), .push (.launching i n keys) stack⟩

def Returns (β : Behaviour K) (c : Config K) (stack : Stack K .result) (answer : Except Fault Unit)
    (σ : State K) : Prop :=
  c.step β = .ok ⟨.result, σ, .run (.done answer), stack⟩

variable {σ σ' : State K} {n : Position}

theorem procedure_found (stands : (⟨.result, σ, .advance i, stack⟩ : Config K).Stands False i) :
    ¬ Returns β ⟨.result, σ, .advance i, stack⟩ stack (.error (.contract n .procedureMissing)) σ' := by
  refine fun returns => (?_ : (Next.startStep σ stack i).Holds fun d =>
    d ≠ ⟨.result, σ', .run (.done (.error (.contract n .procedureMissing))), stack⟩) _ returns rfl
  refine Next.Holds.withInstance fun x unlocked found => ?_
  have regular := (stands.present x found).regular (unlocked_iff.mp unlocked)
  split
  · exact Next.holds_give.mpr (by rintro ⟨⟩)
  · next status =>
    split
    · exact Next.holds_give.mpr (by rintro ⟨⟩)
    · next missing => exact absurd missing (regular.paused status).1
    · exact Next.holds_call.mpr (by rintro ⟨⟩)
  · exact Next.holds_give.mpr (by rintro ⟨⟩)

theorem replay_outside_step {s : Shape} {next : Shape.result.Answer K → Code K (s.Answer K)}
    {rest : Stack K s} {h : History K.Artifact}
    (stands : (⟨s, σ, .run (.call (.replay i h) next), rest⟩ : Config K).Stands False i) :
    ¬ Returns β ⟨s, σ, .run (.call (.replay i h) next), rest⟩ (.push (.waiting next) rest)
      (.error (.contract n .replayInsideStep)) σ' := by
  refine fun returns => (?_ : (Next.replay σ (.push (.waiting next) rest) i h).Holds fun d =>
    d ≠ ⟨.result, σ', .run (.done (.error (.contract n .replayInsideStep))),
      .push (.waiting next) rest⟩) _ returns rfl
  cases h with
  | nil => exact Next.holds_give.mpr (by rintro ⟨⟩)
  | cons e later =>
    refine Next.Holds.withInstance fun x unlocked found => ?_
    have regular := (stands.present x found).regular (unlocked_iff.mp unlocked)
    split
    · exact Next.holds_give.mpr (by rintro ⟨⟩)
    · next fresh =>
      split
      · next missing => exact absurd missing (regular.paused (by tauto)).1
      · exact Next.holds_call.mpr (by rintro ⟨⟩)

theorem Drives.not_paused (drives : c.Drives i stack) (stands : c.Stands False i)
    (returns : Returns β c stack (.ok ()) σ') (found : σ'.instances[i]? = some x) :
    x.status ≠ .paused := by
  cases drives with
  | next σ =>
    cases Next.startStep_transition stack _ returns with
    | idle _ found' busy =>
      obtain rfl := Option.some.inj (found'.symm.trans found)
      exact busy
  | stepped σ n answer =>
    obtain ⟨p, answer⟩ := answer
    rw [Returns, step_done] at returns
    cases Next.finishStep_transition stack _ returns with
    | overtaken n p answer rest found' gone =>
      rw [State.instances_modifyInstance_self, found'] at found
      obtain rfl := Option.some.inj found
      simp [Instance.takeBack, gone]
  | computed σ n keys v =>
    rw [Returns, step_done] at returns
    cases Next.finishComputation_transition stack keys v _ returns with
    | outdated n keys v rest found' gone =>
      obtain rfl := Option.some.inj (found'.symm.trans found)
      simp [gone]
  | launched σ n keys future =>
    rw [Returns, step_done] at returns
    cases returns
    have stands := stands.present x found
    have under : underWay i ⟨.future, σ, .run (.done future), .push (.launching i n keys) stack⟩ =
        .launch n keys ::ₘ stack.underWay i (σ.underWay i) := by
      simp only [Config.underWay, Stack.underWay, Frame.activity?, ownedBy_some_self, Activity.also]
    rw [under] at stands
    obtain ⟨⟨running, -⟩, -⟩ := stands.of_locks trivial
    simp [running]

theorem Completes.told {rest : Stack K .unit} {task : Task K} {outcome : Except Failure Value}
    (completes : c.Completes rest task outcome) (stands : c.Stands False task.owner)
    (found : c.state.instances[task.owner]? = some x) (alive : x.status ≠ .terminated)
    (held : c.state.instanceAlive rest task.owner = true) :
    ∃ signal σ, c.step β = .ok ⟨.unit, σ, .emit (.ofInstance task.owner) signal,
      .push (.settling task.owner) rest⟩ := by
  have waits := completes.waits stands found alive
  rw [completes.step, Next.settle, if_pos held, Next.withInstance,
    completes.unlocked stands, if_neg Bool.false_ne_true, found]
  simp only [waits, ne_eq, not_true_eq_false, or_self, if_false]
  cases outcome with
  | ok v => exact ⟨_, _, rfl⟩
  | error failure => exact ⟨_, _, rfl⟩

end Config

open Config in
/-- Along every run from an empty machine on which nothing is lost for an instance: while no frame
locks it, a paused instance has its procedure and nothing under way, and a running one either has
lent its procedure to one of its steps, or one of its computations runs, or exactly one of its
producers is on its way, for the position it is at. So a drive never finds the procedure missing, a
replay never meets a step of its instance, a completion is never ignored, and no drive is answered
without a fault that leaves the instance paused. -/
theorem status_invariant {memory : K.Memory} {ambient : Bool} {code : Code K Unit}
    {t : List (Config K × Config K)} {d : Config K}
    (run : Run β (fun c => ¬ c.Loses i) (start { memory := memory, ambient := ambient } code) t d)
    (found : d.state.instances[i]? = some x) :
    (d.stack.locksInstance i = false → x.Regular (d.underWay i)) ∧
    (∀ σ σ' stack n, d = ⟨.result, σ, .advance i, stack⟩ →
      ¬ Returns β d stack (.error (.contract n .procedureMissing)) σ') ∧
    (∀ s σ σ' h (next : Shape.result.Answer K → Code K (s.Answer K)) stack n,
      d = ⟨s, σ, .run (.call (.replay i h) next), stack⟩ →
      ¬ Returns β d (.push (.waiting next) stack) (.error (.contract n .replayInsideStep)) σ') ∧
    (∀ stack task outcome, d.Completes stack task outcome → task.owner = i →
      d.state.instanceAlive stack i = true → x.status ≠ .terminated →
      ∃ signal σ, d.step β = .ok ⟨.unit, σ, .emit (.ofInstance i) signal, .push (.settling i) stack⟩) ∧
    (∀ stack σ x', d.Drives i stack → Returns β d stack (.ok ()) σ → σ.instances[i]? = some x' →
      x'.status ≠ .paused) := by
  have stands : d.Stands False i := stands_start.run (fun _ guard => guard) run
  refine ⟨fun unlocked => ?_, ?_, ?_, ?_, ?_⟩
  · exact (stands.present x found).regular (unlocked_iff.mp unlocked)
  · rintro σ σ' stack n rfl
    exact procedure_found stands
  · rintro s σ σ' h next stack n rfl
    exact replay_outside_step stands
  · rintro stack task outcome completes rfl held alive
    exact completes.told stands found alive held
  · exact fun stack σ x' drives returns found => drives.not_paused stands returns found

namespace Sketch

def keeps (i : InstanceId) : Config client → Bool
  | ⟨_, _, .run (.panic _), _⟩ => false
  | ⟨_, σ, .run (.done _), .push (.polling task) stack⟩ =>
    task.owner ≠ i || σ.instanceAlive stack i
  | _ => true

theorem not_loses_of_keeps {i : InstanceId} (c : Config client) (h : keeps i c = true) :
    ¬ c.Loses i := by
  rintro (_ | ⟨completes, owner, dead⟩)
  · cases h
  · cases completes with
    | answered σ r => simp [keeps, owner, dead] at h
    | panicked => cases h

def waitCode : Code client Unit :=
  .call .newMemo fun m =>
    .call (.newInstance { moves := [.hold (.int 1), .compute (.int 2) [.int 0], .await (.int 3) none,
        .finish] } m {}) fun i =>
      .call (.retain (.ofInstance i)) fun _ =>
        .call (.proceed i) fun _ => .call .drain fun _ => .done ()

def polled : Config client :=
  Config.after behaviour 27 (.start { memory := () } waitCode)

theorem polled_status_invariant : ∃ x, polled.state.instances[0]? = some x ∧
    polled.stack.locksInstance 0 = false ∧ x.Regular (polled.underWay 0) ∧
    x.status = .running ∧ polled.underWay 0 = {.producer 2 none} := by
  have run : Config.Run behaviour (fun c => ¬ c.Loses 0) (.start { memory := () } waitCode)
      (Config.trail behaviour 27 (.start { memory := () } waitCode)) polled :=
    .walk not_loses_of_keeps _ _ (by decide +kernel)
  obtain ⟨regular, -⟩ := status_invariant run (i := 0) rfl
  exact ⟨_, rfl, by decide +kernel, regular (by decide +kernel), by decide +kernel,
    by decide +kernel⟩

end Sketch

end Resumable
