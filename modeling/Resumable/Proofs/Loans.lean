import Resumable.Proofs.Calls
import Resumable.Proofs.Condition

namespace Resumable

variable {K : Client} {s w : Shape} {β : Behaviour K} {i : InstanceId}

def Instance.Lends (x : Instance K) (as : Multiset Activity) : Prop :=
  x.procedure = none → x.status = .terminated ∨
    (x.status = .running ∧ ∃ n, .step n ∈ as) ∨ (x.status = .paused ∧ .replay ∈ as)

section Turn

variable {x x' : Instance K} {as as' : Multiset Activity} {lost loses : Prop}
  {cut : SubscriptionId → Prop} {memos : MemoId → Memo} {o : Option (Instance K)}
  {deed : Option (Deed K.Artifact)}

theorem Instance.Lends.of_some (there : x.procedure ≠ none) : x.Lends as :=
  fun none => absurd none there

theorem Instance.Lends.of_ended (ended : x.status = .terminated) : x.Lends as :=
  fun _ => .inl ended

theorem Instance.Lends.of_cons {n : Position} {keys : Option (List Value)}
    (lends : x.Lends (.producer n keys ::ₘ as)) : x.Lends as := by
  intro none
  rcases lends none with ended | ⟨running, m, mem⟩ | ⟨paused, mem⟩
  · exact .inl ended
  · refine .inr (.inl ⟨running, m, ?_⟩)
    simpa using mem
  · refine .inr (.inr ⟨paused, ?_⟩)
    simpa using mem

theorem Turn.lends (turn : Turn loses cut memos o as deed (some x') as') (whole : ¬ loses)
    (stands : ∀ x, o = some x → x.Stands lost as) (lends : ∀ x, o = some x → x.Lends as) :
    x'.Lends as' := by
  cases turn with
  | born newborn => exact .of_some newborn.procedure
  | bornReplaying _ status => exact fun _ => .inr (.inr ⟨status, Multiset.mem_singleton_self _⟩)
  | @stays x _ _ status procedure =>
    intro none
    rw [status]
    exact lends x rfl (procedure ▸ none)
  | terminated => exact .of_ended rfl
  | dropped loses => exact absurd loses whole
  | refused => exact .of_ended rfl
  | started => exact fun _ => .inr (.inl ⟨rfl, _, Multiset.mem_cons_self ..⟩)
  | overtaken status => exact .of_ended status
  | failed => exact .of_ended rfl
  | completed => exact .of_ended rfl
  | recorded => exact .of_some (Option.some_ne_none _)
  | computing => exact .of_some (Option.some_ne_none _)
  | launching => exact .of_some (Option.some_ne_none _)
  | outdated status => exact .of_ended status
  | computed alive => exact .of_some ((stands _ rfl).of_alive alive).1.2.1
  | launched => exact .of_some ((stands _ rfl).of_locks trivial).1.2.1
  | ignored => exact (lends _ rfl).of_cons
  | settled running => exact .of_some ((stands _ rfl).of_alive (by simp [running])).1.2.1
  | rejected => exact .of_ended rfl
  | replayStarted status => exact fun _ => .inr (.inr ⟨status, Multiset.mem_cons_self ..⟩)
  | replayed => exact fun _ => .inr (.inr ⟨rfl, Multiset.mem_cons_self ..⟩)
  | replayEnded => exact .of_some (Option.some_ne_none _)
  | replayCompleted => exact .of_ended rfl
  | diverged => exact .of_ended rfl

end Turn

theorem Stack.of_mem_underWay {stack : Stack K s} {σ : State K} {a : Activity}
    (mem : a ∈ stack.underWay i (σ.underWay i)) (other : ∀ n keys, a ≠ .producer n keys) :
    ∃ (u v : Shape) (frame : Frame K u v) (rest : Stack K v),
      frame.activity? = some (i, a) ∧ (push frame rest).Rests stack := by
  induction stack with
  | empty =>
    obtain ⟨task, -, -, same⟩ := State.of_mem_underWay mem
    exact absurd same (other task.position task.keys)
  | push frame rest ih =>
    rw [underWay] at mem
    rcases Activity.mem_also.mp mem with owned | mem
    · refine ⟨_, _, frame, rest, ?_, .refl⟩
      cases activity : frame.activity? with
      | none => simp [activity, ownedBy] at owned
      | some b =>
        rw [activity] at owned
        obtain ⟨same, here⟩ := ownedBy_some_eq_some.mp owned
        rw [← same, ← here]
    · obtain ⟨u, v, frame', rest', activity, rests⟩ := ih mem
      exact ⟨u, v, frame', rest', activity, rests.push frame⟩

namespace Config

variable {c d : Config K} {t : List (Config K × Config K)} {G : Config K → Prop}
  {memory : K.Memory} {ambient : Bool} {code : Code K Unit}

/-- Code has panicked. -/
def Panics (c : Config K) : Prop :=
  ∃ payload, c.control = .run (.panic payload)

def Lends (i : InstanceId) (c : Config K) : Prop :=
  ∀ x, c.state.instances[i]? = some x → x.Lends (c.underWay i)

theorem Completes.follows_gone {stack : Stack K .unit} {task : Task K}
    {outcome : Except Failure Value} (completes : c.Completes stack task outcome)
    (dead : c.state.instanceAlive stack task.owner = false) (follows : Follows β c d) :
    d = ⟨.unit, c.state, .run (.done ()), stack⟩ := by
  have step := completes.step_eq follows
  rw [completes.step, Next.settle, if_neg (by simp [dead])] at step
  cases step
  rfl

theorem Lends.follows (lends : c.Lends i) (stands : c.Stands True i) (calm : ¬ c.Panics)
    (follows : Follows β c d) : d.Lends i := by
  intro x found
  by_cases loses : c.Loses i
  · cases loses with
    | dropped σ payload frame rest => exact absurd ⟨payload, rfl⟩ calm
    | gone completes owner dead =>
      subst owner
      rw [completes.follows_gone dead follows] at found ⊢
      have before := lends x found
      rw [completes.underWay] at before
      exact before.of_cons
  · have turn := follows_turn stands.absent follows
    rw [found] at turn
    exact turn.lends loses stands.present lends

theorem Run.lends (calm : ∀ c, G c → ¬ c.Panics)
    (run : Run β G (start { memory := memory, ambient := ambient } code) t c) : c.Lends i := by
  induction run with
  | refl => rintro x ⟨⟩
  | snoc run guard follows ih =>
    exact ih.follows (run.stands i) (calm _ guard) follows

variable {σ : State K} {stack : Stack K s} {x : Instance K}

theorem Lends.inside {control : Control K s} (lends : Lends i ⟨s, σ, control, stack⟩)
    (found : σ.instances[i]? = some x) (running : x.status = .running)
    (lent : x.procedure = none) :
    ∃ n rest, (Stack.push (.stepping i n) rest : Stack K .step).Rests stack := by
  rcases lends x found lent with ended | ⟨-, n, mem⟩ | ⟨paused, -⟩
  · exact absurd (running.symm.trans ended) (by decide)
  · obtain ⟨u, v, frame, rest, activity, rests⟩ := Stack.of_mem_underWay mem (by rintro _ _ ⟨⟩)
    cases frame with
    | stepping j m =>
      cases activity
      exact ⟨n, rest, rests⟩
    | _ => cases activity
  · exact absurd (running.symm.trans paused) (by decide)

theorem Lends.there {control : Control K s} (lends : Lends i ⟨s, σ, control, stack⟩)
    (found : σ.instances[i]? = some x) (paused : x.status = .paused)
    (unlocked : stack.locksInstance i = false) : x.procedure ≠ none := by
  intro lent
  rcases lends x found lent with ended | ⟨running, -⟩ | ⟨-, mem⟩
  · exact absurd (paused.symm.trans ended) (by decide)
  · exact absurd (paused.symm.trans running) (by decide)
  · exact Stack.unlocked unlocked _ mem trivial

end Config

end Resumable
