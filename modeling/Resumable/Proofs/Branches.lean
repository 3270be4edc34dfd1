import Resumable.Proofs.Objects
import Resumable.Proofs.Run

namespace Resumable

variable {K : Client}

/-- What an effect has recorded at once, with what a memo holds under its keys. -/
inductive Effect.Records {A P C : Type} (held : List Value → Option Value) :
    Effect A P C → Entry A → Prop
  | render (a : A) : Records held (.render a) (.view a)
  | hold (initial : Value) : Records held (.hold initial) (.state initial)
  | compute (computation : C) {keys : List Value} {v : Value} (hit : held keys = some v) :
    Records held (.compute computation keys) (.yielded v)
  | await (producer : P) {keys : List Value} {v : Value} (hit : held keys = some v) :
    Records held (.await producer (some keys)) (.yielded v)

namespace Next.Holds

variable {P : Config K → Prop} {σ : State K}

section

variable {stack : Stack K .result} {i : InstanceId} {n : Position} {p : K.Procedure}
  {answer : Except Fault K.Yielded}

theorem startStep
    (idle : ∀ x answer, stack.locksInstance i = false → σ.instances[i]? = some x →
      x.status ≠ .paused → (give σ stack answer).Holds P)
    (refused : ∀ x fault, stack.locksInstance i = false → σ.instances[i]? = some x →
      x.status = .paused →
      (∃ limit, x.exhausted? = some limit ∧ fault = .historyLimit limit) ∨ x.procedure = none →
      (give (σ.modifyInstance i (·.fail)) stack (.error fault)).Holds P)
    (started : ∀ x p, stack.locksInstance i = false → σ.instances[i]? = some x →
      x.status = .paused → x.exhausted? = none → x.procedure = some p →
      (call (σ.modifyInstance i ({ ·.lend with status := .running })) (.stepping i x.position) stack
        (.resume p (Resumption.next? i x.history))).Holds P) :
    (startStep σ stack i).Holds P := by
  refine withInstance fun x unlocked found => ?_
  split
  · next running _ => exact idle x _ unlocked found (by simp [running])
  · next paused =>
    split
    · next limit full => exact refused x _ unlocked found paused (.inl ⟨limit, full, rfl⟩)
    · next missing => exact refused x _ unlocked found paused (.inr missing)
    · next room there => exact started x _ unlocked found paused room there
  · next busy _ => exact idle x _ unlocked found busy

theorem interpret {x : Instance K} {effect : Effect K.Artifact K.Producer K.Computation}
    (recorded : ∀ e, effect.Records ((σ.memo x.memo).lookup n) e → (record σ stack i e).Holds P)
    (computing : ∀ c keys, effect = .compute c keys → (σ.memo x.memo).lookup n keys = none →
      (call σ (.computing i n keys) stack (.compute c)).Holds P)
    (launching : ∀ p keys, effect = .await p keys →
      keys.bind ((σ.memo x.memo).lookup n) = none →
      (call σ (.launching i n keys) stack (.produce p)).Holds P)
    (stranded : ∀ p keys, effect = .await p keys →
      keys.bind ((σ.memo x.memo).lookup n) = none →
      (x.settings.runtime || σ.ambient || stack.onTask) = false →
      (give (σ.modifyInstance i (·.fail)) stack (.error (.noRuntime n))).Holds P) :
    (interpret σ stack i x n effect).Holds P := by
  cases effect with
  | render a => exact recorded _ (.render a)
  | hold initial => exact recorded _ (.hold initial)
  | compute c keys =>
    simp only [Next.interpret]
    split
    · next hit => exact recorded _ (.compute c hit)
    · next missed => exact computing c keys rfl missed
  | await p keys =>
    simp only [Next.interpret]
    split
    · next hit =>
      obtain ⟨keys, rfl, hit⟩ := Option.bind_eq_some_iff.mp hit
      exact recorded _ (.await p hit)
    · next missed =>
      split
      · exact launching p keys rfl missed
      · next alone => exact stranded p keys rfl missed (by simpa using alone)

theorem finishStep
    (overtaken : ∀ x, σ.instances[i]? = some x → x.status = .terminated →
      (give (σ.modifyInstance i (·.takeBack p)) stack (.ok ())).Holds P)
    (failed : ∀ x fault, σ.instances[i]? = some x → x.status ≠ .terminated →
      answer = .error fault → (give ((σ.modifyInstance i (·.takeBack p)).modifyInstance i (·.fail))
        stack (.error (fault.stamp n))).Holds P)
    (completed : ∀ x a, σ.instances[i]? = some x → x.status ≠ .terminated →
      answer = .ok (.complete a) →
      (emit ((σ.modifyInstance i (·.takeBack p)).modifyInstance i (·.complete a))
        (.push (.proceeding i) stack) (.ofInstance i) .done).Holds P)
    (effect : ∀ x e, σ.instances[i]? = some x → x.status ≠ .terminated →
      answer = .ok (.effect e) →
      (Next.interpret (σ.modifyInstance i (·.takeBack p)) stack i (x.takeBack p) n e).Holds P) :
    (finishStep σ stack i n p answer).Holds P := by
  simp only [Next.finishStep, State.instances_modifyInstance_self]
  split
  · exact holds_error
  · next x' found' =>
    obtain ⟨x, found, rfl⟩ := Option.map_eq_some_iff.mp found'
    split
    · next gone => exact overtaken x found gone
    · next alive =>
      split
      · exact failed x _ found alive rfl
      · exact completed x _ found alive rfl
      · exact effect x _ found alive rfl

theorem finishComputation {keys : List Value} {v : Value}
    (outdated : ∀ x, σ.instances[i]? = some x → x.status = .terminated →
      (give (σ.remember x.memo n keys v) stack (.ok ())).Holds P)
    (recorded : ∀ x, σ.instances[i]? = some x → x.status ≠ .terminated →
      (record (σ.remember x.memo n keys v) stack i (.yielded v)).Holds P) :
    (finishComputation σ stack i n keys v).Holds P := by
  simp only [Next.finishComputation]
  split
  · exact holds_error
  · next x found =>
    split
    · next gone => exact outdated x found gone
    · next alive => exact recorded x found alive

theorem replay {h : History K.Artifact} (answered : ∀ answer, (give σ stack answer).Holds P)
    (started : ∀ x p e later, stack.locksInstance i = false → σ.instances[i]? = some x →
      x.history = [] → x.status = .paused → x.procedure = some p → h = e :: later →
      (call (σ.modifyInstance i (·.lend)) (.replaying i e later) stack (.resume p none)).Holds P) :
    (replay σ stack i h).Holds P := by
  cases h with
  | nil => exact answered _
  | cons e later =>
    refine withInstance fun x unlocked found => ?_
    split
    · exact answered _
    · next fresh =>
      simp only [ne_eq, not_or, Decidable.not_not] at fresh
      split
      · exact answered _
      · next p there => exact started x p e later unlocked found fresh.1 fresh.2 there rfl

theorem finishReplayed {e : Entry K.Artifact} {later : History K.Artifact}
    (diverged : ∀ x d, σ.instances[i]? = some x →
      (give (σ.modifyInstance i fun x => (x.takeBack p).fail) stack
        (.error (.diverged x.position d))).Holds P)
    (completed : ∀ x a b, σ.instances[i]? = some x → answer = .ok (.complete b) → e = .view a →
      later = [] → (give (σ.modifyInstance i fun x => (x.takeBack p).complete a) stack
        (.ok ())).Holds P)
    (ended : ∀ x f, σ.instances[i]? = some x → answer = .ok (.effect f) →
      e.recordedBy f.kind = true → later = [] →
      (give ((σ.modifyInstance i (·.record e)).modifyInstance i (·.takeBack p)) stack
        (.ok ())).Holds P)
    (resumed : ∀ x f next others, σ.instances[i]? = some x → answer = .ok (.effect f) →
      e.recordedBy f.kind = true → later = next :: others →
      (call (σ.modifyInstance i (·.record e)) (.replaying i next others) stack
        (.resume p (Resumption.fed? i x.history e))).Holds P) :
    (finishReplayed σ stack i e later p answer).Holds P := by
  simp only [Next.finishReplayed]
  split
  · exact holds_error
  · next x found =>
    split
    · exact diverged x _ found
    · split
      · next b _ _ a => exact completed x a b found rfl rfl rfl
      · exact diverged x _ found
    · next f =>
      split
      · next fits =>
        split
        · exact ended x f found rfl fits rfl
        · next next others => exact resumed x f next others found rfl fits rfl
      · exact diverged x _ found

end

section

variable {stack : Stack K .unit} {k : ComponentId}

theorem settle {task : Task K} {outcome : Except Failure Value}
    (gone : σ.instanceAlive stack task.owner = false → (give σ stack ()).Holds P)
    (ignored : ∀ x, σ.instances[task.owner]? = some x →
      x.status ≠ .running ∨ x.position ≠ task.position → (give σ stack ()).Holds P)
    (settled : ∀ x v σ', σ.instances[task.owner]? = some x → x.status = .running →
      x.position = task.position → outcome = .ok v →
      (σ' = σ ∨ ∃ keys, task.keys = some keys ∧ σ' = σ.remember x.memo task.position keys v) →
      (emit (σ'.modifyInstance task.owner (·.record (.yielded v)))
        (.push (.settling task.owner) stack) (.ofInstance task.owner) .ready).Holds P)
    (rejected : ∀ x failure, σ.instances[task.owner]? = some x → x.status = .running →
      x.position = task.position → outcome = .error failure →
      (emit (σ.modifyInstance task.owner (·.fail)) (.push (.settling task.owner) stack)
        (.ofInstance task.owner) (.rejected (.producer task.position failure))).Holds P) :
    (settle σ stack task outcome).Holds P := by
  simp only [Next.settle]
  split
  · refine withInstance fun x _ found => ?_
    split
    · next reason => exact ignored x found reason
    · next waits =>
      simp only [ne_eq, not_or, Decidable.not_not] at waits
      split
      · next v =>
        split
        · next keys cached =>
          exact settled x v _ found waits.1 waits.2 rfl (.inr ⟨keys, cached, rfl⟩)
        · exact settled x v _ found waits.1 waits.2 rfl (.inl rfl)
      · next failure => exact rejected x failure found waits.1 waits.2 rfl
  · next dead => exact gone (by simpa using dead)

theorem requestRender
    (marked : ∀ y, σ.components[k]? = some y → y.rendering = true → (give σ stack ()).Holds P)
    (asked : ∀ y, σ.components[k]? = some y → y.rendering = false →
      (call σ (.hosting k) stack (.rerender y.callback)).Holds P) :
    (requestRender σ stack k).Holds P := by
  simp only [Next.requestRender]
  split
  · exact holds_error
  · next y made =>
    split
    · next rendering => exact marked y made rendering
    · next rendering => exact asked y made (by simpa using rendering)

theorem react {signal : Signal K.Artifact}
    (unheld : σ.componentAlive stack k = false → (give σ stack ()).Holds P)
    (requests : σ.componentAlive stack k = true → signal = .ready ∨ signal = .done →
      (Next.requestRender σ stack k).Holds P)
    (forks : ∀ h, σ.componentAlive stack k = true → signal = .forked h →
      (fork σ stack k h).Holds P)
    (rejects : ∀ y fault, σ.componentAlive stack k = true → σ.components[k]? = some y →
      signal = .rejected fault →
      (call (σ.modifyComponent k ({ · with fault := some fault })) (.hosting k) stack
        (.rerender y.callback)).Holds P) :
    (react σ stack k signal).Holds P := by
  simp only [Next.react]
  split
  · next alive =>
    split
    · exact requests alive (.inl rfl)
    · exact requests alive (.inr rfl)
    · next h => exact forks h alive rfl
    · next fault =>
      split
      · exact holds_error
      · next y made => exact rejects y fault alive made rfl
  · next dead => exact unheld (by simpa using dead)

end

theorem finishFork {stack : Stack K .unit} {k : ComponentId} {i : InstanceId}
    {result : Except Fault Unit}
    (put : ∀ y, σ.components[k]? = some y →
      (give (σ.modifyComponent k (·.adopt i result)) (.push (.requesting k) stack) ()).Holds P) :
    (finishFork σ stack k i result).Holds P := by
  simp only [Next.finishFork]
  split
  · exact holds_error
  · next y made => exact put y made

theorem render {stack : Stack K .artifact} {k : ComponentId} {inputs : K.Inputs}
    (marked : ∀ y, σ.components[k]? = some y →
      (give (σ.modifyComponent k ({ · with rendering := true })) (.push (.entering k inputs) stack)
        ()).Holds P) :
    (render σ stack k inputs).Holds P := by
  simp only [Next.render]
  split
  · exact holds_error
  · next y made => exact marked y made

theorem finishRender {stack : Stack K .artifact} {k : ComponentId} {i : InstanceId}
    {result : Except Fault Unit}
    (cleared : ∀ x y, σ.instances[i]? = some x → σ.components[k]? = some y →
      (give (σ.modifyComponent k ({ · with rendering := false })) (.push (.reviewing k) stack)
        (result.map fun _ => x.artifact)).Holds P) :
    (finishRender σ stack k i result).Holds P := by
  refine withInstance fun x _ found => ?_
  split
  · exact holds_error
  · next y made => exact cleared x y found made

theorem review {stack : Stack K .artifact} {k : ComponentId} {answer : Except Fault K.Artifact}
    (done : ∀ y, σ.components[k]? = some y →
      (∀ i x, y.current = some i → σ.instances[i]? = some x → x.status ≠ .paused) →
      (give σ stack answer).Holds P)
    (again : ∀ y i x, σ.components[k]? = some y → y.current = some i → σ.instances[i]? = some x →
      x.status = .paused → (call σ (.rerendering k answer) stack (.rerender y.callback)).Holds P) :
    (review σ stack k answer).Holds P := by
  refine withComponent fun y _ made => ?_
  split
  · next none =>
    refine done y made fun i x has _ => ?_
    rw [none] at has
    cases has
  · next current some =>
    refine withInstance fun x _ found => ?_
    split
    · next paused => exact again y current x made some found paused
    · next awake =>
      refine done y made fun i x' has found' => ?_
      cases some.symm.trans has
      cases found.symm.trans found'
      exact awake

end Next.Holds

end Resumable
