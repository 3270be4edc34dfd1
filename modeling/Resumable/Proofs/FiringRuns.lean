import Resumable.Proofs.Calls

namespace Resumable

variable {K : Client} {s w : Shape} {β : Behaviour K} {σ τ : State K}

open Config in
def Behaviour.Delivers (β : Behaviour K) (stack : Stack K .unit) (source : Source)
    (signal : Signal K.Artifact) (σ τ : State K) : Prop :=
  ∃ t, Run β (fun c => ∀ υ result, c ≠ ⟨.unit, υ, .run (.ended result), stack⟩)
    ⟨.unit, σ, .emit source signal, stack⟩ t ⟨.unit, τ, .run (.done ()), stack⟩

/-- Code on a stack comes to an answer by reading and writing the memory and by firing setters. -/
inductive Code.Comes (β : Behaviour K) (stack : Stack K s) :
    State K → Code K (s.Answer K) → State K → s.Answer K → Prop
  | done (σ : State K) (answer : s.Answer K) : Comes β stack σ (.done answer) σ answer
  | read {σ τ : State K} {next : K.Memory → Code K (s.Answer K)} {answer : s.Answer K}
    (later : Comes β stack σ (next σ.memory) τ answer) : Comes β stack σ (.read next) τ answer
  | write {σ τ : State K} {memory : K.Memory} {next : Code K (s.Answer K)} {answer : s.Answer K}
    (later : Comes β stack { σ with memory := memory } next τ answer) :
    Comes β stack σ (.write memory next) τ answer
  | unheard {σ τ : State K} {setter : Setter K.Artifact} {v : Value}
    {next : Shape.unit.Answer K → Code K (s.Answer K)} {answer : s.Answer K}
    (gone : σ.sourceAlive (.push (.waiting next) stack) setter.owner = false)
    (later : Comes β stack σ (next ()) τ answer) :
    Comes β stack σ (.call (.fire setter v) next) τ answer
  | fired {σ υ τ : State K} {setter : Setter K.Artifact} {v : Value}
    {next : Shape.unit.Answer K → Code K (s.Answer K)} {answer : s.Answer K}
    (alive : σ.sourceAlive (.push (.waiting next) stack) setter.owner = true)
    (told : β.Delivers (.push (.waiting next) stack) (.ofInstance setter.owner)
      (.forked (setter.forked v)) σ υ)
    (later : Comes β stack υ (next ()) τ answer) :
    Comes β stack σ (.call (.fire setter v) next) τ answer

theorem Code.Only.comes {Q : s.Answer K → Prop} {code : Code K (s.Answer K)}
    (only : code.Only fun r => ∃ answer, r = .ok answer ∧ Q answer) (σ : State K)
    (stack : Stack K s) : ∃ τ answer, Q answer ∧ Code.Comes β stack σ code τ answer := by
  induction code generalizing σ with
  | done answer =>
    obtain ⟨_, ⟨⟩, holds⟩ := only
    exact ⟨σ, answer, holds, .done σ answer⟩
  | panic payload =>
    obtain ⟨_, ⟨⟩, -⟩ := only
  | read next ih =>
    obtain ⟨τ, answer, holds, comes⟩ := ih σ.memory (only σ.memory) σ
    exact ⟨τ, answer, holds, .read comes⟩
  | write memory next ih =>
    obtain ⟨τ, answer, holds, comes⟩ := ih only { σ with memory := memory }
    exact ⟨τ, answer, holds, .write comes⟩
  | call => exact only.elim

namespace Config

variable {c d e : Config K} {t u : List (Config K × Config K)} {G : Config K → Prop}

def DeliversFork (stack : Stack K .unit) (c : Config K) : Prop :=
  ∃ j others h,
    (Stack.push (.emitting (.ofInstance j) others (.forked h)) stack).Rests c.stack

inductive Harmless : Config K × Config K → Prop
  | runs {s : Shape} {c : Config K} {σ : State K} {code : Code K (s.Answer K)}
    {stack : Stack K s} (memos : σ.memos = c.state.memos) : Harmless (c, ⟨s, σ, .run code, stack⟩)
  | resumes {c : Config K} {σ : State K} {p : K.Procedure}
    {input : Option (Resumption K.Artifact)} {stack : Stack K .step}
    (memos : σ.memos = c.state.memos) : Harmless (c, ⟨.step, σ, .call (.resume p input), stack⟩)
  | fires {s : Shape} (σ : State K) (setter : Setter K.Artifact) (v : Value)
    (next : Shape.unit.Answer K → Code K (s.Answer K)) (stack : Stack K s) :
    Harmless (⟨s, σ, .run (.call (.fire setter v) next), stack⟩,
      ⟨.unit, σ, .emit (.ofInstance setter.owner) (.forked (setter.forked v)),
        .push (.waiting next) stack⟩)

theorem DeliversFork.deliver {stack : Stack K .unit} {j : InstanceId} {h : History K.Artifact}
    {observers : List (Observer K)}
    (step : Next.deliver σ stack (.ofInstance j) (.forked h) observers = .ok d) :
    d = ⟨.unit, σ, .run (.done ()), stack⟩ ∨ d.DeliversFork stack :=
  (Next.deliver_rests stack _ _ observers d step).imp_right fun ⟨others, rests⟩ =>
    ⟨j, others, h, rests⟩

theorem DeliversFork.follows {stack : Stack K .unit} (delivers : c.DeliversFork stack) (follows : Follows β c d) :
    d.DeliversFork stack ∨ Harmless (c, d) ∧ ∃ υ result, d = ⟨.unit, υ, .run (.ended result), stack⟩ := by
  obtain ⟨j, others, h, rests⟩ := delivers
  rcases follows.stays rests with rests | ⟨σ, result, rfl⟩
  · exact .inl ⟨j, others, h, rests⟩
  · cases result with
    | ok answer =>
      have step := follows.step_eq (by rintro _ (_ | _) ⟨⟩)
      rw [Code.ended, step_done] at step
      rcases DeliversFork.deliver step with rfl | delivers
      · exact .inr ⟨.runs rfl, σ, .ok (), rfl⟩
      · exact .inl delivers
    | error payload =>
      have step := follows.step_eq (by rintro _ (_ | _) ⟨⟩)
      rw [Code.ended, step_panic] at step
      cases step
      exact .inr ⟨.runs rfl, σ, .error payload, rfl⟩

theorem deliversFork_of_delivery {stack : Stack K .unit} {j : InstanceId} {h : History K.Artifact}
    (run : Run β (fun c => ∀ υ result, c ≠ ⟨.unit, υ, .run (.ended result), stack⟩)
      ⟨.unit, σ, .emit (.ofInstance j) (.forked h), stack⟩ t e) :
    (t = [] ∨ e.DeliversFork stack ∨ ∃ υ result, e = ⟨.unit, υ, .run (.ended result), stack⟩) ∧
      ∀ p ∈ t, stack.Rests p.2.stack ∧ (p.2.DeliversFork stack ∨ Harmless p) := by
  induction run with
  | refl => exact ⟨.inl rfl, fun _ mem => absurd mem List.not_mem_nil⟩
  | @snoc t d e run unfinished follows ih =>
    have here : (e.DeliversFork stack ∨
        Harmless (d, e) ∧ ∃ υ result, e = ⟨.unit, υ, .run (.ended result), stack⟩) := by
      rcases ih.1 with rfl | delivers | ⟨υ, result, rfl⟩
      · rcases run.uncons with ⟨-, rfl⟩ | ⟨_, _, ⟨⟩, -⟩
        have step := follows.step_eq (by rintro _ _ ⟨⟩)
        rw [step_emit] at step
        rcases DeliversFork.deliver step with rfl | delivers
        · exact .inr ⟨.runs rfl, σ, .ok (), rfl⟩
        · exact .inl delivers
      · exact delivers.follows follows
      · exact absurd rfl (unfinished υ result)
    refine ⟨.inr (here.imp_right And.right), fun p mem => ?_⟩
    rcases List.mem_append.mp mem with mem | mem
    · exact ih.2 p mem
    · rw [List.mem_singleton.mp mem]
      rcases here with delivers | ⟨harmless, υ, result, rfl⟩
      · obtain ⟨j, others, h, rests⟩ := delivers
        exact ⟨(Stack.Rests.refl.push _).trans rests, .inl ⟨j, others, h, rests⟩⟩
      · exact ⟨.refl, .inr harmless⟩

/-- A run of code on a stack in which nothing happens on the code's own account, but that its
setters are fired. -/
structure FiringRun (β : Behaviour K) (stack : Stack K s) (c : Config K)
    (t : List (Config K × Config K)) (d : Config K) : Prop where
  run : Run β (fun _ => True) c t d
  within : ∀ p ∈ t, p.2.Within stack
  onlyFires : ∀ p ∈ t, (∃ next, p.2.DeliversFork (.push (.waiting next) stack)) ∨ Harmless p

namespace FiringRun

variable {stack : Stack K s}

theorem refl : FiringRun β stack c [] c :=
  ⟨.refl, fun _ mem => absurd mem List.not_mem_nil, fun _ mem => absurd mem List.not_mem_nil⟩

theorem append (first : FiringRun β stack c t d) (second : FiringRun β stack d u e) :
    FiringRun β stack c (t ++ u) e :=
  ⟨first.run.append second.run, List.forall_mem_append.mpr ⟨first.within, second.within⟩,
    List.forall_mem_append.mpr ⟨first.onlyFires, second.onlyFires⟩⟩

theorem single (step : c.step β = .ok d) (within : d.Within stack) (harmless : Harmless (c, d)) :
    FiringRun β stack c [(c, d)] d :=
  ⟨.snoc .refl trivial (.step step), List.forall_mem_singleton.mpr within,
    List.forall_mem_singleton.mpr (.inr harmless)⟩

end FiringRun

theorem firingRun_of_comes {stack : Stack K s} {code : Code K (s.Answer K)} {answer : s.Answer K}
    (comes : Code.Comes β stack σ code τ answer) :
    ∃ t, FiringRun β stack ⟨s, σ, .run code, stack⟩ t ⟨s, τ, .run (.done answer), stack⟩ := by
  induction comes with
  | done => exact ⟨[], .refl⟩
  | read _ ih =>
    obtain ⟨t, firing⟩ := ih
    exact ⟨_, (FiringRun.single rfl (.running _ _) (.runs rfl)).append firing⟩
  | @write σ τ memory next answer _ ih =>
    obtain ⟨t, firing⟩ := ih
    have wrote : Config.step β ⟨s, σ, .run (.write memory next), stack⟩ =
        .ok ⟨s, { σ with memory := memory }, .run next, stack⟩ := rfl
    exact ⟨_, (FiringRun.single wrote (.running _ _) (.runs rfl)).append firing⟩
  | @unheard σ τ setter v next answer gone _ ih =>
    obtain ⟨t, firing⟩ := ih
    have refused : Config.step β ⟨s, σ, .run (.call (.fire setter v) next), stack⟩ =
        .ok ⟨.unit, σ, .run (.done ()), .push (.waiting next) stack⟩ := by
      rw [step_request, Next.serve, Next.fire, if_neg (by simp [gone])]
      rfl
    have back : Config.step β ⟨.unit, σ, .run (.done ()), .push (.waiting next) stack⟩ =
        .ok ⟨s, σ, .run (next ()), stack⟩ := step_done ..
    exact ⟨_, ((FiringRun.single refused (.above _ _ _ .refl) (.runs rfl)).append
      (FiringRun.single back (.running _ _) (.runs rfl))).append firing⟩
  | @fired σ υ τ setter v next answer alive told _ ih =>
    obtain ⟨t, firing⟩ := ih
    obtain ⟨u, delivered⟩ := told
    have fires : Config.step β ⟨s, σ, .run (.call (.fire setter v) next), stack⟩ =
        .ok ⟨.unit, σ, .emit (.ofInstance setter.owner) (.forked (setter.forked v)),
          .push (.waiting next) stack⟩ := by
      rw [step_request, Next.serve, Next.fire, if_pos alive]
      rfl
    have back : Config.step β ⟨.unit, υ, .run (.done ()), .push (.waiting next) stack⟩ =
        .ok ⟨s, υ, .run (next ()), stack⟩ := step_done ..
    have during := (deliversFork_of_delivery delivered).2
    have telling : FiringRun β stack
        ⟨.unit, σ, .emit (.ofInstance setter.owner) (.forked (setter.forked v)),
          .push (.waiting next) stack⟩ u ⟨.unit, υ, .run (.done ()), .push (.waiting next) stack⟩ :=
      ⟨delivered.imp fun _ _ => trivial, fun p mem => within_of_push (during p mem).1,
        fun p mem => (during p mem).2.imp_left fun delivers => ⟨next, delivers⟩⟩
    exact ⟨_, (((FiringRun.single fires (.above _ _ _ .refl) (.fires σ setter v next stack)).append
      telling).append (FiringRun.single back (.running _ _) (.runs rfl))).append firing⟩

end Config

end Resumable
