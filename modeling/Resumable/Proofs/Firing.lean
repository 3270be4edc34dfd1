import Resumable.Proofs.HostingRun

namespace Resumable

variable {K : Client} {β : Behaviour K} {s w : Shape} {σ : State K} {i : InstanceId}
  {c : ComponentId} {x : Instance K} {y : Component K} {h : History K.Artifact}

inductive Behaviour.TakesOver (β : Behaviour K) (i : InstanceId) : History K.Artifact →
    K.Procedure → Option (Resumption K.Artifact) → History K.Artifact → Prop
  | nil {h : History K.Artifact} {p : K.Procedure} {input : Option (Resumption K.Artifact)} :
      TakesOver β i h p input []
  | cons {h later : History K.Artifact} {e : Entry K.Artifact} {p q : K.Procedure}
      {input : Option (Resumption K.Artifact)}
      {effect : Effect K.Artifact K.Producer K.Computation}
      (gives : (β.code (.resume p input)).Gives (.ok (q, .ok (.effect effect))))
      (records : e.recordedBy effect.kind = true)
      (rest : TakesOver β i (h ++ [e]) q (Resumption.fed? i h e) later) :
      TakesOver β i h p input (e :: later)

namespace State

theorem instanceAlive_of_current {stack : Stack K s} (held : .ofComponent c ∈ σ.held)
    (made : σ.components[c]? = some y) (has : y.current = some i) :
    σ.instanceAlive stack i = true := by
  have lt := (List.getElem?_eq_some_iff.mp made).1
  have mem : (y, c) ∈ σ.components.zipIdx :=
    List.mem_zipIdx_iff_getElem?.mpr made
  simp only [instanceAlive, Bool.or_eq_true, List.any_eq_true]
  refine .inr ⟨(y, c), mem, ?_⟩
  simp [has, componentAlive, held]

end State

theorem Next.finishBuild_cons (made : σ.components[c]? = some y) (stack : Stack K .unit)
    (p : K.Procedure) (e : Entry K.Artifact) (later : History K.Artifact) :
    Next.finishBuild σ stack c (e :: later) p =
      if (Stack.push (.adopting c σ.instances.length) stack).locksInstance σ.instances.length then
        .error .blocked
      else Next.call
        ((σ.newInstance p y.memo y.settings [.host c]).2.modifyInstance σ.instances.length (·.lend))
        (.replaying σ.instances.length e later) (.push (.adopting c σ.instances.length) stack)
        (.resume p none) := by
  have born := (State.instances_newInstance σ p y.memo y.settings [.host c]
    σ.instances.length).trans (if_pos rfl)
  simp only [Next.finishBuild, made, Next.replay, Next.withInstance, State.newInstance_fst, born]
  rfl

namespace Config

theorem step_forked {stack : Stack K .unit} {rest : List (Observer K)} {inputs : K.Inputs}
    (found : σ.instances[i]? = some x) (told : x.registry.observers = .host c :: rest)
    (held : .ofComponent c ∈ σ.held) (unlocked : stack.locksComponent c = false)
    (made : σ.components[c]? = some y) (has : y.current = some i) (given : y.inputs = some inputs) :
    step β ⟨.unit, σ, .emit (.ofInstance i) (.forked h), stack⟩ =
      if stack.locksInstance i then .error .blocked
      else Next.call (σ.dismiss c i) (.forking c h)
        (.push (.emitting (.ofInstance i) rest (.forked h)) stack) (.build y.factory inputs) := by
  have alive : σ.componentAlive (.push (.emitting (.ofInstance i) rest (.forked h)) stack :
      Stack K .unit) c = true := by
    simp [State.componentAlive, held]
  have unlocked' : (Stack.push (.emitting (.ofInstance i) rest (.forked h)) stack :
      Stack K .unit).locksComponent c = false := by
    simpa [Stack.locksComponent, Stack.any, Frame.lockedComponent?] using unlocked
  have registry : (σ.registry (.ofInstance i)).observers = .host c :: rest := by
    simp [State.registry, found, told]
  rw [step_emit, registry]
  simp only [Next.deliver, Next.react, alive, if_true, Next.fork, Next.withComponent, unlocked',
    made, given, Next.dismissing, has, Next.withInstance, found, Bool.false_eq_true, if_false]
  rfl

theorem reaches_of_fire_deaf (stack : Stack K w) {setter : Setter K.Artifact} (v : Value)
    (next : Shape.unit.Answer K → Code K (w.Answer K))
    (deaf : (σ.registry (.ofInstance setter.owner)).observers = []) :
    Reaches β ⟨w, σ, .run (.call (.fire setter v) next), stack⟩
      ⟨w, σ, .run (next ()), stack⟩ := by
  have answered : Reaches β ⟨.unit, σ, .run (.done ()), .push (.waiting next) stack⟩
      ⟨w, σ, .run (next ()), stack⟩ := .single rfl
  cases alive : σ.sourceAlive (.push (.waiting next) stack) setter.owner with
  | false =>
    refine .head ?_ answered
    simp [step_request, Next.serve, Next.fire, alive, Next.give, Next.run]
  | true =>
    have first : step β ⟨w, σ, .run (.call (.fire setter v) next), stack⟩ =
        .ok ⟨.unit, σ, .emit (.ofInstance setter.owner) (.forked (setter.forked v)),
          .push (.waiting next) stack⟩ := by
      simp [step_request, Next.serve, Next.fire, alive, Next.emit]
    refine .head first (.head ?_ answered)
    rw [step_emit, deaf]
    rfl

theorem step_fire (stack : Stack K w) {setter : Setter K.Artifact} (v : Value)
    (next : Shape.unit.Answer K → Code K (w.Answer K))
    (alive : σ.instanceAlive (.push (.waiting next) stack) setter.owner = true) :
    step β ⟨w, σ, .run (.call (.fire setter v) next), stack⟩ =
      .ok ⟨.unit, σ, .emit (.ofInstance setter.owner) (.forked (setter.forked v)),
        .push (.waiting next) stack⟩ := by
  simp [step_request, Next.serve, Next.fire, State.sourceAlive, alive, Next.emit]

structure TakenOver (σ σ' : State K) (i : InstanceId) (x x' : Instance K)
    (h : History K.Artifact) : Prop where
  components : σ'.components = σ.components
  others : ∀ j, j ≠ i → σ'.instances[j]? = σ.instances[j]?
  found : σ'.instances[i]? = some x'
  history : x'.history = h
  registry : x'.registry = x.registry
  status : x'.status = .paused

theorem takesOver_reaches (stack : Stack K .result) {p : K.Procedure}
    {input : Option (Resumption K.Artifact)} {k : History K.Artifact}
    (takes : β.TakesOver i h p input k) :
    ∀ (σ : State K) (x : Instance K) (e : Entry K.Artifact) (later : History K.Artifact),
      k = e :: later → σ.instances[i]? = some x → x.history = h →
      ∃ σ' x', Reaches β ⟨.step, σ, .call (.resume p input), .push (.replaying i e later) stack⟩
          ⟨.result, σ', .run (.done (.ok ())), stack⟩ ∧ TakenOver σ σ' i x x' (h ++ e :: later) := by
  induction takes with
  | nil => rintro σ x e later ⟨⟩
  | @cons h k' e p q input effect gives records rest ih =>
    rintro σ x _ _ ⟨rfl, rfl⟩ found begun
    have silent : (Control.call (.resume p input) : Control K .step).Only β
      (· = .ok (q, .ok (.effect effect))) := gives
    obtain ⟨memory, r, rfl, reached⟩ := reaches_ended silent σ (.push (.replaying i e k') stack)
    have found' : ({ σ with memory := memory } : State K).instances[i]? = some x := found
    have recorded : (State.modifyInstance { σ with memory := memory } i (·.record e)).instances[i]? =
        some (x.record e) := by
      rw [State.instances_modifyInstance_self, found']
      rfl
    cases k' with
    | nil =>
      refine ⟨State.modifyInstance { σ with memory := memory } i
        (fun x => (x.record e).takeBack q), (x.record e).takeBack q, reached.tail ?_, rfl, ?_, ?_,
        ?_, rfl, rfl⟩
      · rw [Code.ended, step_done]
        simp only [Next.resume, Next.finishReplayed, found', records, if_true,
          State.modifyInstance_modifyInstance]
        rfl
      · exact fun j other => State.instances_modifyInstance_ne _ (Ne.symm other) _
      · rw [State.instances_modifyInstance_self, found']
        rfl
      · simp [Instance.takeBack, Instance.record, begun]
    | cons e' k' =>
      obtain ⟨σ', x', further, taken⟩ := ih _ (x.record e) e' k' rfl recorded (by
        simp [Instance.record, begun])
      refine ⟨σ', x', (reached.tail ?_).trans further, taken.components, fun j other => ?_,
        taken.found, ?_, taken.registry, taken.status⟩
      · rw [Code.ended, step_done]
        simp only [Next.resume, Next.finishReplayed, found', records, if_true, begun]
        rfl
      · rw [taken.others j other, State.instances_modifyInstance_ne _ (Ne.symm other)]
      · rw [taken.history, List.append_assoc]
        rfl

theorem requestRender_ok (made : σ.components[c]? = some y) (stack : Stack K .unit) :
    ∃ d, Next.requestRender σ stack c = .ok d ∧ d.state = σ := by
  simp only [Next.requestRender, made]
  split
  · exact ⟨_, rfl, rfl⟩
  · exact ⟨_, rfl, rfl⟩

theorem forking_reaches {stack : Stack K .unit} {factory : K.Factory} {inputs : K.Inputs}
    {p : K.Procedure}
    (made : σ.components[c]? = some y)
    (unlocked : stack.locksInstance σ.instances.length = false)
    (built : (β.code (.build factory inputs)).Gives (.ok p))
    (takes : β.TakesOver σ.instances.length [] p none h) (nonempty : h ≠ []) :
    ∃ d x, Reaches β ⟨.procedure, σ, .call (.build factory inputs), .push (.forking c h) stack⟩ d ∧
      d.state.current c = some σ.instances.length ∧
      d.state.instances[σ.instances.length]? = some x ∧ x.history = h ∧ x.status = .paused ∧
      x.Hears c ∧ ∀ j < σ.instances.length, d.state.instances[j]? = σ.instances[j]? := by
  have silent : (Control.call (.build factory inputs) : Control K .procedure).Only β (· = .ok p) :=
    built
  obtain ⟨memory, r, rfl, reached⟩ := reaches_ended silent σ (.push (.forking c h) stack)
  cases h with
  | nil => exact absurd rfl nonempty
  | cons e later =>
    let τ := (State.newInstance { σ with memory := memory } p y.memo y.settings [.host c]).2
    let fresh : Instance K := {
      procedure := some p, memo := y.memo, settings := y.settings
      registry := (({} : Registry (Observer K)).subscribe (.host c)).2 }
    have born : τ.instances[σ.instances.length]? = some fresh :=
      (State.instances_newInstance _ p y.memo y.settings _ _).trans (if_pos rfl)
    have older : ∀ j < σ.instances.length, τ.instances[j]? = σ.instances[j]? := fun j lt =>
      (State.instances_newInstance _ p y.memo y.settings _ j).trans (if_neg (Nat.ne_of_lt lt))
    have lent : (τ.modifyInstance σ.instances.length (·.lend)).instances[σ.instances.length]? =
        some fresh.lend := by
      rw [State.instances_modifyInstance_self, born]
      rfl
    have made' : ({ σ with memory := memory } : State K).components[c]? = some y := made
    have unlocked' : (Stack.push (.adopting c σ.instances.length) stack : Stack K .result).locksInstance
        σ.instances.length = false := by
      simpa [Stack.locksInstance, Stack.any, Frame.lockedInstance?] using unlocked
    have begun : step β ⟨.procedure, { σ with memory := memory }, .run (.done p),
        .push (.forking c (e :: later)) stack⟩ =
          .ok ⟨.step, τ.modifyInstance σ.instances.length (·.lend), .call (.resume p none),
            .push (.replaying σ.instances.length e later)
              (.push (.adopting c σ.instances.length) stack)⟩ := by
      rw [step_done]
      exact (Next.finishBuild_cons made' stack p e later).trans
        (if_neg (Bool.eq_false_iff.mp unlocked'))
    obtain ⟨σ', x, further, taken⟩ := takesOver_reaches (.push (.adopting c σ.instances.length) stack)
      takes _ fresh.lend e later rfl lent rfl
    have still : σ'.components[c]? = some y := by
      rw [taken.components]
      exact made
    have placed : (σ'.modifyComponent c ({ · with current := some σ.instances.length })).components[
        c]? = some { y with current := some σ.instances.length } := by
      rw [State.components_modifyComponent_self, still]
      rfl
    obtain ⟨d, asked, same⟩ := requestRender_ok placed stack
    have put : step β ⟨.result, σ', .run (.done (.ok ())), .push (.adopting c σ.instances.length) stack⟩ =
        .ok ⟨.unit, σ'.modifyComponent c ({ · with current := some σ.instances.length }),
          .run (.done ()), .push (.requesting c) stack⟩ := by
      rw [step_done]
      simp only [Next.resume, Next.finishFork, still]
      rfl
    refine ⟨d, x, (reached.tail begun).trans ((further.tail put).tail ?_), ?_, ?_, taken.history,
      taken.status, ?_, fun j lt => ?_⟩
    · rw [step_done]
      exact asked
    · rw [same, State.current, placed]
      rfl
    · rw [same]
      exact taken.found
    · rw [Instance.Hears, taken.registry]
      exact List.mem_singleton_self (Observer.host c)
    · rw [same]
      exact (taken.others j (Nat.ne_of_lt lt)).trans
        ((State.instances_modifyInstance_ne τ (Nat.ne_of_gt lt) _).trans (older j lt))

end Config

end Resumable
