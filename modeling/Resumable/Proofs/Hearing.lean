import Resumable.Proofs.Succession

namespace Resumable

variable {K : Client} {β : Behaviour K} {k : ComponentId} {i j : InstanceId} {s w : Shape}
  {σ : State K}

theorem Stack.Over.emitting {base : Stack K w} {stack : Stack K s} (stacked : base.Over stack)
    {source : Source} {others : List (Observer K)} {signal : Signal K.Artifact}
    {rest : Stack K .unit} (rests : (Stack.push (.emitting source others signal) rest).Rests stack) :
    (Stack.push (.emitting source others signal) rest).Rests base := by
  induction stacked with
  | refl => exact rests
  | push _ plain ih =>
    cases rests with
    | refl => cases plain.quiet
    | push rests => exact ih rests

theorem Stack.usesComponent_of_locks {stack : Stack K s} (locked : stack.locks k ≠ []) :
    stack.usesComponent k = true := by
  induction stack with
  | empty => exact absurd rfl locked
  | push frame rest ih =>
    simp only [usesComponent, any, Bool.or_eq_true, decide_eq_true_eq] at ih ⊢
    cases lock : frame.lock? k with
    | none =>
      rw [locks_push lock] at locked
      exact .inr (ih locked)
    | some held =>
      left
      cases frame with
      | mounting => exact congrArg some (Option.ite_none_right_eq_some.mp lock).1
      | forking => exact congrArg some (Option.ite_none_right_eq_some.mp lock).1
      | adopting => exact congrArg some (Option.ite_none_right_eq_some.mp lock).1
      | _ => cases lock

namespace Next

variable {y : Component K} {h : History K.Artifact}

theorem fork_stops (stack : Stack K .unit) (made : σ.components[k]? = some y)
    (current : y.current = some i) (given : y.inputs ≠ none) :
    (fork σ stack k h).Holds fun d => ∃ x, d.state.instances[i]? = some x ∧ x.Stopped := by
  refine Holds.withComponent fun y' _ made' => ?_
  obtain rfl : y = y' := Option.some.inj (made.symm.trans made')
  split
  · next none => exact absurd none given
  · refine Holds.dismissing (fun vacant => ?_) fun old x held _ found => ?_
    · rw [current] at vacant
      cases vacant
    · obtain rfl : i = old := Option.some.inj (current.symm.trans held)
      refine holds_call.mpr ⟨x.terminate, ?_, rfl, rfl, rfl⟩
      change (σ.modifyInstance i (·.terminate)).instances[i]? = _
      rw [State.instances_modifyInstance_self, found]
      rfl

theorem fork_builds (stack : Stack K .unit) {inputs : K.Inputs} (made : σ.components[k]? = some y)
    (given : y.inputs = some inputs) : (fork σ stack k h).Holds fun d => ∃ τ,
      d = ⟨.procedure, τ, .call (.build y.factory inputs), .push (.forking k h) stack⟩ := by
  refine Holds.withComponent fun y' _ made' => ?_
  obtain rfl : y = y' := Option.some.inj (made.symm.trans made')
  split
  · next none => cases given.symm.trans none
  · next inputs' given' =>
    obtain rfl : inputs = inputs' := Option.some.inj (given.symm.trans given')
    exact Holds.dismissing (fun _ => holds_call.mpr ⟨_, rfl⟩)
      fun old x _ _ _ => holds_call.mpr ⟨_, rfl⟩

end Next

namespace Config

variable {c d e : Config K} {t u : List (Config K × Config K)} {G : Config K → Prop}
  {memory : K.Memory} {ambient : Bool} {code : Code K Unit}

/-- A component that had been dropped with its instance is there again. -/
def Revives (k : ComponentId) (p : Config K × Config K) : Prop :=
  p.1.state.current k ≠ none ∧ p.1.state.componentAlive p.1.stack k = false ∧
    p.2.state.componentAlive p.2.stack k = true

structure Heard (t : List (Config K × Config K)) (c : Config K) : Prop where
  first : ∀ k source, ¬ c.state.HearsLater k source
  made : ∀ k source, c.state.Observes k source →
    ∃ i, source = .ofInstance i ∧ ∃ q ∈ t, q.1.Provides k i
  left : ∀ source others signal (rest : Stack K .unit),
    (Stack.push (.emitting source others signal) rest).Rests c.stack → ∀ k, .host k ∉ others

theorem On.emitting {base : Stack K w} (on : d.On base) {source : Source}
    {others : List (Observer K)} {signal : Signal K.Artifact} {rest : Stack K .unit}
    (rests : (Stack.push (.emitting source others signal) rest).Rests d.stack) :
    (Stack.push (.emitting source others signal) rest).Rests base := by
  cases on with
  | idle stacked => exact stacked.emitting rests
  | call stacked _ quiet =>
    cases rests with
    | refl => cases quiet
    | push rests => exact stacked.emitting rests

theorem Heard.beneath (heard : c.Heard t) {base : Stack K w} (beneath : c.Beneath base)
    {source : Source} {others : List (Observer K)} {signal : Signal K.Artifact}
    {rest : Stack K .unit}
    (rests : (Stack.push (.emitting source others signal) rest).Rests base) :
    .host k ∉ others := by
  cases beneath with
  | same => exact heard.left _ _ _ _ rests k
  | asked σ request next stack =>
    cases rests with
    | push rests => exact heard.left _ _ _ _ rests k
  | left => exact heard.left _ _ _ _ (rests.push _) k
  | mounted => exact heard.left _ _ _ _ (rests.push _) k
  | built =>
    cases rests with
    | push rests => exact heard.left _ _ _ _ (rests.push _) k
  | adopted => exact heard.left _ _ _ _ (rests.push _) k
  | told σ source signal stack observers =>
    cases rests with
    | refl =>
      have first := heard.first k source
      rwa [State.HearsLater, observers] at first
    | push rests => exact heard.left _ _ _ _ rests k
  | passed σ source signal o others stack =>
    cases rests with
    | refl => exact fun mem => heard.left _ _ _ _ .refl k (List.mem_cons_of_mem o mem)
    | push rests => exact heard.left _ _ _ _ (rests.push _) k

theorem Heard.follows (heard : c.Heard t) (follows : Follows β c d) : d.Heard (t ++ [(c, d)]) where
  first k source hearsLater := heard.first k source (follows_hearsLater follows hearsLater)
  made k source observes := by
    rcases follows_observes follows observes with before | ⟨i, rfl, provides⟩
    · obtain ⟨i, same, q, mem, provides⟩ := heard.made k source before
      exact ⟨i, same, q, List.mem_append_left _ mem, provides⟩
    · exact ⟨i, rfl, (c, d), List.mem_append_right _ (List.mem_singleton_self _), provides⟩
  left source others signal rest rests k := by
    cases follows_transit follows with
    | entered => exact heard.left _ _ _ _ rests k
    | read => exact heard.left _ _ _ _ rests k
    | wrote => exact heard.left _ _ _ _ rests k
    | answered => exact heard.left _ _ _ _ (rests.push _) k
    | dropped => exact heard.left _ _ _ _ (rests.push _) k
    | acted beneath passage => exact heard.beneath beneath (passage.stack.emitting rests)

theorem Run.heard (run : Run β G (start { memory := memory, ambient := ambient } code) t c) :
    c.Heard t := by
  induction run with
  | refl =>
    refine ⟨?_, ?_, ?_⟩
    · rintro k (id | id) <;> rintro ⟨⟩
    · rintro k (id | id) <;> rintro ⟨⟩
    · rintro source others signal rest ⟨⟩
  | snoc _ _ follows ih => exact ih.follows follows

theorem Heard.tells (heard : c.Heard t) {signal : Signal K.Artifact} (tells : c.Tells k signal) :
    ∃ σ source others stack, c = ⟨.unit, σ, .emit source signal, stack⟩ ∧
      (σ.registry source).observers = .host k :: others ∧ σ.componentAlive stack k = true := by
  cases tells with
  | first σ observers alive => exact ⟨σ, _, _, _, rfl, observers, alive⟩
  | later => exact absurd (List.mem_cons_self ..) (heard.left _ _ _ _ .refl k)

theorem Heard.head (heard : c.Heard t) {source : Source} (observes : c.state.Observes k source) :
    ∃ others, (c.state.registry source).observers = .host k :: others := by
  have first := heard.first k source
  rw [State.HearsLater] at first
  rw [State.Observes] at observes
  cases observers : (c.state.registry source).observers with
  | nil => simp [observers] at observes
  | cons o others =>
    rw [observers] at observes first
    obtain rfl | mem := List.mem_cons.mp observes
    · exact ⟨others, rfl⟩
    · exact absurd mem first

theorem observes_iff {x : Instance K} (found : σ.instances[j]? = some x) :
    σ.Observes k (.ofInstance j) ↔ x.Hears k := by
  rw [State.Observes, State.registry, found]
  exact Iff.rfl

theorem not_observes_of_stopped {x : Instance K} (found : σ.instances[j]? = some x)
    (stopped : x.Stopped) : ¬ σ.Observes k (.ofInstance j) := by
  rw [observes_iff found, Instance.Hears, Registry.observers, stopped.entries]
  exact List.not_mem_nil

theorem Run.serves (run : Run β (fun c => ¬ c.Abandons k)
      (start { memory := memory, ambient := ambient } code) t c)
    (observes : c.state.Observes k (.ofInstance j)) : c.Serves k j := by
  obtain ⟨_, ⟨⟩, q, mem, provides⟩ := run.heard.made k _ observes
  by_contra none
  obtain ⟨x, found, stopped⟩ := run.succession.replaced q mem j provides none
  exact not_observes_of_stopped found stopped observes

theorem Serves.alive (serves : c.Serves k j)
    (dead : c.state.componentAlive c.stack k = false) : c.state.current k = some j := by
  refine serves.resolve_right fun adopting => ?_
  have uses : c.stack.usesComponent k = true :=
    Stack.usesComponent_of_locks (List.ne_nil_of_mem adopting)
  rw [State.componentAlive, uses, Bool.or_true] at dead
  cases dead

theorem Run.heard_before (first : Run β (fun c => ¬ c.Abandons k)
      (start { memory := memory, ambient := ambient } code) t c)
    (later : Run β (fun c => ¬ c.Abandons k) c u d) {x : Instance K}
    (found : c.state.instances[j]? = some x) (dropped : ∀ p ∈ u, ¬ Revives k p)
    (observes : d.state.Observes k (.ofInstance j))
    (alive : d.state.componentAlive d.stack k = true) :
    c.state.Observes k (.ofInstance j) ∧ c.state.componentAlive c.stack k = true := by
  induction later with
  | refl => exact ⟨observes, alive⟩
  | @snoc u d e later _ follows ih =>
    obtain ⟨x', found', -⟩ := later.grows j x found
    obtain ⟨x'', found'', grows⟩ := follows.grows j x' found'
    have observes' : d.state.Observes k (.ofInstance j) :=
      (observes_iff found').mpr (grows.hears k ((observes_iff found'').mp observes))
    refine ih (fun p mem => dropped p (List.mem_append_left _ mem)) observes' ?_
    by_contra dead
    have dead' := Bool.eq_false_iff.mpr dead
    have current := ((first.append later).serves observes').alive dead'
    exact dropped (d, e) (List.mem_append_right _ (List.mem_singleton_self _))
      ⟨by simp [current], dead', alive⟩

theorem Stands.stays_stopped (stands : c.Stands True j) (run : Run β G c t d) {x : Instance K}
    (found : c.state.instances[j]? = some x) (stopped : x.Stopped) :
    ∃ x', d.state.instances[j]? = some x' ∧ x'.Stopped := by
  induction run with
  | refl => exact ⟨x, found, stopped⟩
  | snoc run _ follows ih =>
    obtain ⟨y, found', stopped'⟩ := ih
    exact (stands.run (fun _ _ _ => trivial) run).stopped follows found' stopped'

variable {h : History K.Artifact} {stack : Stack K .unit}

theorem Run.told_fork
    (run : Run β (fun c => ¬ c.Abandons k) (start { memory := memory, ambient := ambient } code) t
      ⟨.unit, σ, .emit (.ofInstance j) (.forked h), stack⟩)
    (observes : σ.Observes k (.ofInstance j)) (alive : σ.componentAlive stack k = true)
    (follows : Follows β ⟨.unit, σ, .emit (.ofInstance j) (.forked h), stack⟩ d) :
    ∃ y inputs, σ.components[k]? = some y ∧ y.current = some j ∧ y.inputs = some inputs ∧
      Built β k y.factory inputs j t ∧ ∃ others,
        Next.fork σ (.push (.emitting (.ofInstance j) others (.forked h)) stack) k h = .ok d := by
  obtain ⟨others, observers⟩ := run.heard.head observes
  have alive' : σ.componentAlive
      (.push (.emitting (.ofInstance j) others (.forked h)) stack) k = true := alive
  have step := follows.step_eq (by rintro τ result ⟨⟩)
  rw [step_emit, observers] at step
  simp only [Next.deliver, Next.react, alive', if_true] at step
  have serves := run.serves observes
  obtain ⟨place, inputs, x, found, given, built, -⟩ := run.succession.serves _ serves
  obtain ⟨y, made, rfl⟩ := Option.map_eq_some_iff.mp found
  rcases serves with current | adopting
  · rw [State.current, made] at current
    exact ⟨y, inputs, made, current, given, built, others, step⟩
  -- While a fork of the component is in its replay, another one is blocked.
  · have locked : stack.locksComponent k ≠ false := fun free =>
      absurd (Stack.locks_eq_nil_iff.mpr free ▸ adopting) List.not_mem_nil
    exact (Next.Holds.withComponent (P := fun _ => False)
      (fun _ unlocked _ => absurd unlocked locked) d step).elim

theorem Run.fire_stops {setter : Setter K.Artifact} {v : Value}
    {next : Shape.unit.Answer K → Code K (s.Answer K)} {stack : Stack K s}
    (run : Run β (fun c => ¬ c.Abandons k) (start { memory := memory, ambient := ambient } code) t
      ⟨s, σ, .run (.call (.fire setter v) next), stack⟩)
    (observes : σ.Observes k (.ofInstance setter.owner)) (alive : σ.componentAlive stack k = true)
    (living : σ.instanceAlive (.push (.waiting next) stack) setter.owner = true)
    (fires : Follows β ⟨s, σ, .run (.call (.fire setter v) next), stack⟩ d)
    (hears : Follows β d e) : ∃ x, e.state.instances[setter.owner]? = some x ∧ x.Stopped := by
  obtain rfl := Except.ok.inj ((step_fire stack v next living).symm.trans
    (fires.step_eq (by rintro τ (payload | ⟨⟩) ⟨⟩)))
  obtain ⟨y, inputs, made, current, given, -, others, fork⟩ :=
    (run.snoc (by rintro ⟨⟩) fires).told_fork observes alive hears
  exact Next.fork_stops _ made current (by simp [given]) e fork

theorem Follows.fired
    (follows : Follows β c ⟨.unit, σ, .emit (.ofInstance j) (.forked h), stack⟩) :
    ∃ (s : Shape) (setter : Setter K.Artifact) (v : Value)
      (next : Shape.unit.Answer K → Code K (s.Answer K)) (rest : Stack K s),
      c = ⟨s, σ, .run (.call (.fire setter v) next), rest⟩ ∧ stack = .push (.waiting next) rest ∧
      setter.owner = j ∧ setter.forked v = h := by
  have triggers : c.Triggers (.forked j h) := follows_trigger follows rfl
  cases triggers with
  | told tells begins => cases begins
  | fired τ setter v next rest =>
    have step := follows.step_eq (by rintro τ (payload | ⟨⟩) ⟨⟩)
    rw [step_request, Next.serve, Next.fire] at step
    split at step
    · cases step
      exact ⟨_, setter, v, next, rest, rfl, rfl, rfl, rfl⟩
    · cases step

end Config

end Resumable
