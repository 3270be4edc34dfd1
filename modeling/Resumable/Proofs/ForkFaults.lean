import Resumable.Proofs.Firing
import Resumable.Proofs.Requests

namespace Resumable

variable {K : Client} {β : Behaviour K} {d : Config K} {k : ComponentId}

namespace Next

variable {σ : State K}

theorem finishFork_records (stack : Stack K .unit) (i : InstanceId) (fault : Fault) :
    (finishFork σ stack k i (.error fault)).Holds fun d =>
      ∃ τ y, d = ⟨.unit, τ, .run (.done ()), .push (.requesting k) stack⟩ ∧
        τ.components[k]? = some y ∧ y.current = some i ∧ y.fault = some fault := by
  refine Holds.finishFork fun y made => holds_give.mpr
    ⟨_, { y with current := some i, fault := some fault }, rfl, ?_, rfl, rfl⟩
  exact (State.components_modifyComponent_self _ k _).trans (congrArg (Option.map _) made)

theorem review_invokes (stack : Stack K .artifact) (answer : Except Fault K.Artifact) :
    (review σ stack k answer).Holds fun d =>
      d.Invokes k ↔ ∃ j, σ.current k = some j ∧ σ.Paused j := by
  refine Holds.withComponent fun y _ made => ?_
  have current : σ.current k = y.current := by rw [State.current, made, Option.bind_some]
  split
  · next vacant =>
    refine holds_give.mpr ⟨by rintro ⟨⟩, ?_⟩
    rintro ⟨j, has, -⟩
    cases (vacant.symm.trans current.symm).trans has
  · next j has =>
    refine Holds.withInstance fun x _ found => ?_
    have paused : σ.Paused j ↔ x.status = .paused := by
      rw [State.Paused, found, Option.map_some, Option.some_inj]
    split
    · next rests =>
      exact holds_call.mpr ⟨fun _ => ⟨j, current.trans has, paused.mpr rests⟩,
        fun _ => .intro σ y made (.rerendering k answer) rfl stack⟩
    · next rests =>
      refine holds_give.mpr ⟨by rintro ⟨⟩, ?_⟩
      rintro ⟨j', has', paused'⟩
      cases (has.symm.trans current.symm).trans has'
      exact absurd (paused.mp paused') rests

end Next

open Config in
/-- Along every run from an empty machine: a setter of the instance of a living component, to which
the component listens, leads to a fork. A fork whose replay fails records the fault and comes to
request a render, and a fork that requests one invokes the callback iff the last render of the
component that began or was answered was answered; a render that was answered invokes the callback
iff the instance that it leaves is paused. -/
theorem failed_fork_requests {memory : K.Memory} {ambient : Bool} {code : Code K Unit}
    {before after : List (Config K × Config K)} {p : Config K × Config K}
    (run : Run β (fun _ => True) (start { memory := memory, ambient := ambient } code)
      (before ++ p :: after) d) (k : ComponentId) :
    (∀ {s : Shape} (σ : State K) (setter : Setter K.Artifact) (v : Value)
      (next : Shape.unit.Answer K → Code K (s.Answer K)) (stack : Stack K s) (x : Instance K)
      (y : Component K) (others : List (Observer K)) (inputs : K.Inputs),
      p.1 = ⟨s, σ, .run (.call (.fire setter v) next), stack⟩ →
      .ofComponent k ∈ σ.held → σ.components[k]? = some y → y.current = some setter.owner →
      y.inputs = some inputs → σ.instances[setter.owner]? = some x →
      x.registry.observers = .host k :: others →
      stack.locksComponent k = false → stack.locksInstance setter.owner = false →
      Reaches β p.1 ⟨.procedure, σ.dismiss k setter.owner, .call (.build y.factory inputs),
        .push (.forking k (setter.forked v)) (.push (.emitting (.ofInstance setter.owner) others
          (.forked (setter.forked v))) (.push (.waiting next) stack))⟩) ∧
    (∀ σ i fault rest,
      p.1 = ⟨.result, σ, .run (.done (.error fault)), .push (.adopting k i) rest⟩ →
      ∃ τ y, p.2 = ⟨.unit, τ, .run (.done ()), .push (.requesting k) rest⟩ ∧
        τ.components[k]? = some y ∧ y.current = some i ∧ y.fault = some fault) ∧
    (∀ σ rest, p.1 = ⟨.unit, σ, .run (.done ()), .push (.requesting k) rest⟩ →
      (p.2.Invokes k ↔ lastMark? k before ≠ some true)) ∧
    (p.1.Reviews k →
      (p.2.Invokes k ↔ ∃ i, p.1.state.current k = some i ∧ p.1.state.Paused i)) := by
  obtain ⟨ran, -, follows, -⟩ := run.split rfl
  obtain ⟨c, e⟩ := p
  refine ⟨?_, ?_, ?_, ?_⟩
  · rintro s σ setter v next stack x y others inputs rfl held made current given found heard
      unlocked free
    have alive : σ.instanceAlive (.push (.waiting next) stack) setter.owner = true :=
      State.instanceAlive_of_current held made current
    have unlocked' : (Stack.push (.waiting next) stack).locksComponent k = false := unlocked
    refine .head (step_fire stack v next alive) (.single ?_)
    exact (step_forked found heard held unlocked' made current given).trans
      (if_neg (Bool.eq_false_iff.mp free))
  · rintro σ i fault rest rfl
    exact Next.finishFork_records rest i fault e (follows.step_eq (by rintro τ result ⟨⟩))
  · rintro σ rest rfl
    refine (Prompts.invokes (.forked σ rest) follows).trans ?_
    rw [ran.marked k]
    rcases lastMark? k before with _ | _ | _ <;> simp
  · rintro ⟨σ, answer, rest⟩
    exact Next.review_invokes rest answer e (follows.step_eq (by rintro τ result ⟨⟩))

namespace Sketch

def fickle : Behaviour client where
  code
    | .build factory inputs => .call .newMemo fun n =>
      .done (if n = 1 then factory inputs else { moves := [.show] })
    | .resume p input =>
      match (p.fed input).setters with
      | [] => .done (p.resume input)
      | setter :: _ => .call (.fire setter (.int 2)) fun _ => .done (p.resume input)
    | c => behaviour.code c

def fickleCode : Code client Unit :=
  .call (.newComponent (fun _ => { moves := [.hold (.int 1), .show, .finish] }) () {})
    fun k => .call (.retain (.ofComponent k)) fun _ => .call (.render k (.int 0)) fun _ => .done ()

def fickleStart : Config client :=
  .start { memory := (), ambient := true } fickleCode

/-- The setter that the second step fires leads to a fork, whose fault is recorded inside of the
render and not told to the host. -/
theorem fickle_fork_untold :
    (∃ σ call h rest, Config.Reaches fickle (Config.after fickle 18 fickleStart)
      ⟨.procedure, σ, .call call, .push (.forking 0 h) rest⟩) ∧
    (∃ before p, Config.trail fickle 27 fickleStart = before ++ [p] ∧
      ∃ σ fault rest τ y,
        p.1 = ⟨.result, σ, .run (.done (.error fault)), .push (.adopting 0 1) rest⟩ ∧
        p.2 = ⟨.unit, τ, .run (.done ()), .push (.requesting 0) rest⟩ ∧
        τ.components[0]? = some y ∧ y.current = some 1 ∧ y.fault = some fault) ∧
    ∃ before p, Config.trail fickle 28 fickleStart = before ++ [p] ∧
      Config.lastMark? 0 before = some true ∧ ¬ p.2.Invokes 0 := by
  have fires : Config.Run fickle (fun _ => True) fickleStart
      (Config.trail fickle 18 fickleStart ++ [(Config.after fickle 18 fickleStart,
        Config.after fickle 19 fickleStart)]) (Config.after fickle 19 fickleStart) :=
    .walk_all 19 fickleStart
  obtain ⟨leads, -⟩ := failed_fork_requests fires 0
  have ends : Config.Run fickle (fun _ => True) fickleStart
      (Config.trail fickle 26 fickleStart ++ [(Config.after fickle 26 fickleStart,
        Config.after fickle 27 fickleStart)]) (Config.after fickle 27 fickleStart) :=
    .walk_all 27 fickleStart
  obtain ⟨-, records, -⟩ := failed_fork_requests ends 0
  have requests : Config.Run fickle (fun _ => True) fickleStart
      (Config.trail fickle 27 fickleStart ++ [(Config.after fickle 27 fickleStart,
        Config.after fickle 28 fickleStart)]) (Config.after fickle 28 fickleStart) :=
    .walk_all 28 fickleStart
  obtain ⟨-, -, asks, -⟩ := failed_fork_requests requests 0
  have rendering : Config.lastMark? 0 (Config.trail fickle 27 fickleStart) = some true := by
    decide +kernel
  obtain ⟨τ, y, arrives, recorded⟩ := records _ _ _ _ rfl
  exact ⟨⟨_, _, _, _, leads _ _ _ _ _ _ _ _ _ rfl (List.mem_singleton_self _) rfl rfl rfl rfl rfl
      rfl rfl⟩,
    ⟨Config.trail fickle 26 fickleStart, _, rfl, _, _, _, τ, y, rfl, arrives, recorded⟩,
    _, _, rfl, rendering, fun invokes => (asks _ _ rfl).mp invokes rendering⟩

end Sketch

end Resumable
