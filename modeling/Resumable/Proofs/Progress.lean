import Resumable.Proofs.Transparency

namespace Resumable

variable {K : Client} {β : Behaviour K} {M : Meaning β} {s w : Shape}

def Meaning.Calm (M : Meaning β) : Prop :=
  ∀ p o, M.produced p = some o → (β.code (.produce p)).Only fun r => ∃ future, r = .ok future

def Observer.Silent (β : Behaviour K) : Observer K → Prop
  | .client o => ∀ signal, (β.code (.notice o signal)).Only (· = .ok ())
  | .host _ => False

def State.Rests (σ : State K) (i : InstanceId) (x : Instance K) : Prop :=
  x.status = .terminated ∨ x.status = .running ∧
    ∃ task ∈ σ.ready, task.owner = i ∧ task.position = x.history.length

namespace Meaning

variable {π : Plan K} {i j : InstanceId} {h k : History K.Artifact} {es : List Event}
  {r : Except Payload (K.Procedure × Except Fault K.Yielded)}

theorem Ends.answered [Nonempty K.Memory] (sound : M.Sound)
    (deterministic : M.procedures π.start π.start) (ends : M.Ends π true j k es)
    (answers : M.Answers π i h r) :
    (∃ e, M.Yields π h.length r e) ∨ ∃ event, M.Last π h.length r event := by
  have alike : ∀ {l r'}, M.Answers π j l r' → l.length = h.length → M.ResultAlike r' r :=
    fun answers' length =>
      (answers'.alike sound deterministic answers length (Plan.Agree.refl π _)).2
  obtain ⟨p, course, room, -⟩ := answers
  have within := ends.length_le sound deterministic course.recorded
  by_cases before : h.length < k.length
  · obtain ⟨r', answers', yields⟩ := ends.recorded.answered before
    have length : (k.take h.length).length = h.length := List.length_take_of_le (by omega)
    exact .inl ⟨_, yields.transfer (alike answers' length)⟩
  · have length : k.length = h.length := by omega
    cases ends with
    | completed answers' =>
      have le := answers'.course_le sound deterministic course
      rw [← length, List.length_append, List.length_singleton] at le
      omega
    | stopped answers' last =>
      rw [length] at last
      have results := alike answers' length
      cases last with
      | failed =>
        cases results
        exact .inr ⟨_, .failed _ _⟩
      | rejected supply =>
        cases results with
        | yielded _ effects =>
          rw [effects.supply_eq] at supply
          cases effects with
          | await => exact .inr ⟨_, .rejected supply⟩
    | exhausted _ limited reached =>
      have := room _ limited
      omega
    | stranded _ _ unattended => cases unattended

end Meaning

namespace Config

variable {G : Config K → Prop} {c d e : Config K} {σ : State K} {stack : Stack K s}

abbrev Goes (β : Behaviour K) (G : Config K → Prop) : Config K → Config K → Prop :=
  Relation.ReflTransGen fun c d => G c ∧ c.step β = .ok d

theorem Goes.of_step (guard : G c) (step : c.step β = .ok d) (later : Goes β G d e) : Goes β G c e :=
  .head ⟨guard, step⟩ later

theorem Goes.run (goes : Goes β G c d) : ∃ t, Run β G c t d := by
  induction goes with
  | refl => exact ⟨[], .refl⟩
  | tail _ last ih =>
    obtain ⟨t, run⟩ := ih
    exact ⟨_, run.snoc last.1 (.step last.2)⟩

theorem silent_goes (σ : State K) (stack : Stack K s) {Q : Except Payload (s.Answer K) → Prop}
    {control : Control K s} (only : control.Only β Q) (guard : ∀ memory control', Control.Only control' β Q →
      G ⟨s, { σ with memory := memory }, control', stack⟩) :
    ∃ memory r, Q r ∧ Goes β G ⟨s, σ, control, stack⟩
      ⟨s, { σ with memory := memory }, .run (.ended r), stack⟩ := by
  have run : ∀ (code : Code K (s.Answer K)) memory, code.Only Q → ∃ memory' r, Q r ∧
      Goes β G ⟨s, { σ with memory := memory }, .run code, stack⟩
        ⟨s, { σ with memory := memory' }, .run (.ended r), stack⟩ := by
    intro code
    induction code with
    | done answer => exact fun memory h => ⟨memory, .ok answer, h, .refl⟩
    | panic payload => exact fun memory h => ⟨memory, .error payload, h, .refl⟩
    | read next ih =>
      intro memory h
      obtain ⟨memory', r, ended, goes⟩ := ih memory memory (h memory)
      exact ⟨memory', r, ended, .of_step (guard memory (.run (.read next)) h) rfl goes⟩
    | write memory' next ih =>
      intro memory h
      obtain ⟨memory'', r, ended, goes⟩ := ih memory' h
      exact ⟨memory'', r, ended, .of_step (guard memory (.run (.write memory' next)) h) rfl goes⟩
    | call request next => exact fun _ h => h.elim
  cases control with
  | run code => exact run code σ.memory only
  | call c =>
    obtain ⟨memory, r, ended, goes⟩ := run (β.code c) σ.memory only
    exact ⟨memory, r, ended, .of_step (guard σ.memory (.call c) only) rfl goes⟩
  | emit => exact only.elim
  | advance => exact only.elim

end Config

namespace Family

open Config

variable {F : Family M} {σ : State K} {i : InstanceId} {x : Instance K} {c d : Config K}
  {seen : InstanceId → List Event} {base : Stack K .result} {stack : Stack K s}

theorem Inv.goes (sound : M.Sound) (inv : F.Inv seen c) (goes : Goes β F.Admits c d) :
    ∃ seen', F.Inv seen' d := by
  obtain ⟨t, run⟩ := Config.Goes.run goes
  obtain ⟨seen', inv', -⟩ := inv.run sound run
  exact ⟨seen', inv'⟩

theorem Clear.unlocked (clear : F.Clear σ stack) (member : F.Member σ i x) :
    stack.locksInstance i = false := by
  induction stack with
  | empty => rfl
  | push frame rest ih =>
    refine Bool.or_eq_false_iff.mpr ⟨decide_eq_false fun locked => ?_, ih clear.rest⟩
    have worker : frame.worker? = some i := by
      cases frame <;> cases locked <;> rfl
    exact (clear.top worker).not_member member

theorem Inv.of_advance (inv : F.Inv seen ⟨.result, σ, .advance i, base⟩) :
    F.StateOk seen none σ ∧ F.Clear σ base := by
  cases inv with
  | quiet ok clear => exact ⟨ok, clear⟩

theorem admits_of_only {control : Control K s} {Q : Except Payload (s.Answer K) → Prop}
    (only : control.Only β Q) (ambient : F.attended = true → σ.ambient = true)
    (ended : ∀ answer, F.Permits ⟨s, σ, .run (.done answer), stack⟩) :
    F.Admits ⟨s, σ, control, stack⟩ := by
  refine ⟨ambient, ?_⟩
  cases control with
  | run code =>
    cases code with
    | done answer => exact ended answer
    | call => exact only.elim
    | _ => trivial
  | _ => trivial

theorem told_goes {signal : Signal K.Artifact} {left : List (Observer K)}
    (silent : ∀ o ∈ left, o.Silent β) (admits : F.Admits c)
    (ambient : F.attended = true → σ.ambient = true)
    (step : c.step β = Next.deliver σ (.push (.proceeding i) base) (.ofInstance i) signal left) :
    ∃ memory, Goes β F.Admits c ⟨.result, { σ with memory := memory }, .advance i, base⟩ := by
  induction left generalizing c σ with
  | nil => exact ⟨σ.memory, .of_step admits step (.of_step ⟨ambient, trivial⟩ rfl .refl)⟩
  | cons o left ih =>
    have heard := silent o (List.mem_cons_self ..)
    cases o with
    | host => exact heard.elim
    | client o =>
      have only : (Control.call (.notice o signal) : Control K .unit).Only β (· = .ok ()) :=
        heard signal
      obtain ⟨memory, _, rfl, goes⟩ := silent_goes (G := F.Admits) σ
        (.push (.emitting (.ofInstance i) left signal) (.push (.proceeding i) base)) only
        fun memory _ only' => admits_of_only only' ambient fun _ => trivial
      obtain ⟨memory', later⟩ := ih (fun o mem => silent o (List.mem_cons_of_mem _ mem))
        (σ := { σ with memory := memory }) (c := ⟨.unit, { σ with memory := memory }, .run (.done ()),
          .push (.emitting (.ofInstance i) left signal) (.push (.proceeding i) base)⟩)
        ⟨ambient, trivial⟩ ambient (step_done ..)
      exact ⟨memory', .of_step admits step (goes.trans later)⟩

/-- A drive comes to an answer, and its instance to rest, with the observers that it had. -/
def ComesToRest (F : Family M) (i : InstanceId) (base : Stack K .result)
    (registry : Registry (Observer K)) (c : Config K) : Prop :=
  ∃ τ r z, Goes β F.Admits c ⟨.result, τ, .run (.done r), base⟩ ∧ τ.instances[i]? = some z ∧
    z.registry = registry ∧ τ.Rests i z

variable {registry : Registry (Observer K)} {n : Nat}

theorem ComesToRest.of_goes (goes : Goes β F.Admits c d) (rests : F.ComesToRest i base registry d) :
    F.ComesToRest i base registry c := by
  obtain ⟨τ, r, z, later, found, same, rest⟩ := rests
  exact ⟨τ, r, z, goes.trans later, found, same, rest⟩

theorem ComesToRest.of_step (admits : F.Admits c) (step : c.step β = .ok d)
    (rests : F.ComesToRest i base registry d) : F.ComesToRest i base registry c :=
  .of_goes (.of_step admits step .refl) rests

def Continues (F : Family M) (i : InstanceId) (base : Stack K .result)
    (registry : Registry (Observer K)) (n : Nat) : Prop :=
  ∀ seen σ x, F.Inv seen ⟨.result, σ, .advance i, base⟩ → F.Member σ i x → σ.ambient = true →
    x.registry = registry → x.status ≠ .running → (x.status = .paused → n ≤ x.history.length) →
    F.ComesToRest i base registry ⟨.result, σ, .advance i, base⟩

section Steps

variable (sound : M.Sound) (silent : ∀ o ∈ registry.observers, o.Silent β)
  (continues : F.Continues i base registry n)

include sound silent continues

theorem emitted_rests {signal : Signal K.Artifact}
    (inv : F.Inv seen ⟨.unit, σ, .emit (.ofInstance i) signal, .push (.proceeding i) base⟩)
    (member : F.Member σ i x) (ambient : σ.ambient = true) (same : x.registry = registry)
    (idle : x.status ≠ .running) (longer : x.status = .paused → n ≤ x.history.length) :
    F.ComesToRest i base registry
      ⟨.unit, σ, .emit (.ofInstance i) signal, .push (.proceeding i) base⟩ := by
  have observers : (σ.registry (.ofInstance i)).observers = registry.observers := by
    simp [State.registry, member.1, same]
  have step := step_emit (β := β) σ (.ofInstance i) signal (.push (.proceeding i) base)
  rw [observers] at step
  have admits : F.Admits ⟨.unit, σ, .emit (.ofInstance i) signal, .push (.proceeding i) base⟩ :=
    ⟨fun _ => ambient, trivial⟩
  obtain ⟨memory, goes⟩ := told_goes silent admits (fun _ => ambient) step
  obtain ⟨seen', inv'⟩ := inv.goes sound goes
  exact .of_goes goes (continues seen' _ x inv' member ambient same idle longer)

theorem recorded_rests (inv : F.Inv seen c) (admits : F.Admits c) {e : Entry K.Artifact}
    (step : c.step β = Next.record σ base i e) (member : F.Member σ i x)
    (ambient : σ.ambient = true) (same : x.registry = registry) (room : n ≤ x.history.length + 1) :
    F.ComesToRest i base registry c := by
  obtain ⟨seen', inv'⟩ := inv.goes sound (.of_step admits step .refl)
  have recorded : F.Member (σ.modifyInstance i (·.record e)) i (x.record e) :=
    ⟨by rw [State.instances_modifyInstance_self, member.1]; rfl, member.2⟩
  refine .of_step admits step
    (emitted_rests sound silent continues inv' recorded ambient same (by simp [Instance.record]) ?_)
  exact fun _ => by simpa [Instance.record] using room

variable (deterministic : M.procedures (F.plan i).start (F.plan i).start) {j : InstanceId}
  {h : History K.Artifact} {es : List Event} (ends : M.Ends (F.plan i) true j h es)

include deterministic ends

theorem computed_rests {control : Control K .value} {keys : List Value} {m : Position}
    (inv : F.Inv seen ⟨.value, σ, control, .push (.computing i m keys) base⟩)
    (member : F.Member σ i x) (ambient : σ.ambient = true) (same : x.registry = registry)
    (room : n ≤ x.history.length + 1) :
    F.ComesToRest i base registry ⟨.value, σ, control, .push (.computing i m keys) base⟩ := by
  have : Nonempty K.Memory := ⟨σ.memory⟩
  cases inv with
  | quiet ok clear => exact ((clear.top rfl).not_member member).elim
  | @computing _ _ _ _ x' computation _ _ _ ok clear member' status procedure asks computed missed gives =>
    obtain rfl := member'.unique member.1
    have supply : ∃ v, M.supply (F.plan i).stored x.history.length (.compute computation keys) =
        some (.ok v) := by
      rcases ends.answered sound deterministic asks with ⟨e, yields⟩ | ⟨event, last⟩
      · cases yields with
        | effect records =>
          cases records with
          | supplied supply => exact ⟨_, supply⟩
      · cases last
    obtain ⟨v, supply⟩ := supply
    simp only [Meaning.supply, Effect.keys?, Option.bind_some, F.stores _ (F.listed i), missed,
      Meaning.upshot, computed, Option.some_inj] at supply
    subst supply
    obtain ⟨memory, r, answered, goes⟩ := silent_goes (G := F.Admits) σ
        (.push (.computing i x.history.length keys) base) gives
      fun memory _ only' => admits_of_only only' (fun _ => ambient) fun _ => trivial
    cases r with
    | error payload => cases answered
    | ok v' =>
      cases answered
      obtain ⟨seen', inv'⟩ := Inv.goes sound (.computing ok clear member' status procedure asks
        computed missed gives) goes
      refine .of_goes goes (recorded_rests sound silent continues inv' ⟨fun _ => ambient, trivial⟩
        (e := .yielded v) (σ := State.remember { σ with memory := memory } x.memo x.history.length keys v) (x := x) ?_
        member ambient same room)
      rw [Code.ended, step_done]
      simp [Next.resume, Next.finishComputation, member.1, status]

theorem interpreted_rests (calm : M.Calm) (inv : F.Inv seen c) (admits : F.Admits c)
    {e : Effect K.Artifact K.Producer K.Computation} {q : K.Procedure}
    (asks : M.Asks (F.plan i) i x.history e q)
    (step : c.step β = Next.interpret σ base i x x.history.length e) (member : F.Member σ i x)
    (ambient : σ.ambient = true) (same : x.registry = registry) (status : x.status = .running)
    (room : n ≤ x.history.length + 1) : F.ComesToRest i base registry c := by
  have records : ∀ {entry}, c.step β = Next.record σ base i entry → F.ComesToRest i base registry c :=
    fun step => recorded_rests sound silent continues inv admits step member ambient same room
  cases e with
  | render artifact => exact records step
  | hold initial => exact records step
  | compute computation keys =>
    simp only [Next.interpret] at step
    cases found : (σ.memo x.memo).lookup x.history.length keys with
    | some v =>
      rw [found] at step
      exact records step
    | none =>
      rw [found] at step
      obtain ⟨seen', inv'⟩ := inv.goes sound (.of_step admits step .refl)
      exact .of_step admits step (computed_rests sound silent continues deterministic ends inv' member
        ambient same room)
  | await producer keys =>
    simp only [Next.interpret, ambient, Bool.or_true, Bool.true_or, if_true] at step
    cases found : keys.bind ((σ.memo x.memo).lookup x.history.length) with
    | some v =>
      rw [found] at step
      exact records step
    | none =>
      rw [found] at step
      have : Nonempty K.Memory := ⟨σ.memory⟩
      cases asks.meant sound (F.deterministic _ (F.listed i)) with
      | await _ produced =>
        have only : (Control.call (.produce producer) : Control K .future).Only β _ :=
          calm producer _ produced
        obtain ⟨memory, _, ⟨future, rfl⟩, goes⟩ := silent_goes (G := F.Admits) σ
          (.push (.launching i x.history.length keys) base) only
          fun memory _ only' => admits_of_only only' (fun _ => ambient) fun _ => trivial
        have launched : F.Admits ⟨.future, { σ with memory := memory }, .run (.done future),
            .push (.launching i x.history.length keys) base⟩ := ⟨fun _ => ambient, trivial⟩
        refine .of_step admits step (.of_goes goes (.of_step launched (step_done ..) ?_))
        exact ⟨_, _, x, .refl, member.1, same, .inr ⟨status, _,
          List.mem_append_right _ (List.mem_singleton_self _), rfl, rfl⟩⟩

theorem answered_rests (calm : M.Calm) {q : K.Procedure} {answer : Except Fault K.Yielded}
    (inv : F.Inv seen ⟨.step, σ, .run (.done (q, answer)), .push (.stepping i x.history.length) base⟩)
    (member : F.Member σ i x) (ambient : σ.ambient = true) (same : x.registry = registry)
    (status : x.status = .running) (room : n ≤ x.history.length + 1)
    (answers : M.Answers (F.plan i) i x.history (.ok (q, answer))) :
    F.ComesToRest i base registry
      ⟨.step, σ, .run (.done (q, answer)), .push (.stepping i x.history.length) base⟩ := by
  have modified : ∀ f : Instance K → Instance K, (f x).memo = x.memo →
      F.Member (σ.modifyInstance i f) i (f x) := fun f memo =>
    ⟨by rw [State.instances_modifyInstance_self, member.1]; rfl, memo.trans member.2⟩
  have admits : F.Admits ⟨.step, σ, .run (.done (q, answer)),
      .push (.stepping i x.history.length) base⟩ := ⟨fun _ => ambient, trivial⟩
  have taken : (State.modifyInstance σ i (·.takeBack q)).instances[i]? = some (x.takeBack q) :=
    (modified (·.takeBack q) rfl).1
  have alive : (x.takeBack q).status ≠ .terminated := by simp [Instance.takeBack, status]
  have step := step_done (β := β) σ (q, answer) (.stepping i x.history.length) base
  simp only [Next.resume, Next.finishStep, taken, alive, if_false, State.modifyInstance_modifyInstance]
    at step
  cases answer with
  | error fault =>
    exact .of_step admits step ⟨_, _, _, .refl, (modified (fun y => (y.takeBack q).fail) rfl).1, same,
      .inl rfl⟩
  | ok yielded =>
    cases yielded with
    | complete artifact =>
      obtain ⟨seen', inv'⟩ := inv.goes sound (.of_step admits step .refl)
      exact .of_step admits step (emitted_rests sound silent continues inv'
        (modified (fun y => (y.takeBack q).complete artifact) rfl) ambient same (by rintro ⟨⟩)
        (by rintro ⟨⟩))
    | effect e =>
      exact interpreted_rests sound silent continues deterministic ends calm inv admits
        (x := x.takeBack q) answers step (modified (·.takeBack q) rfl) ambient same status room

theorem stepped_rests (calm : M.Calm) {control : Control K .step} {m : Position}
    (inv : F.Inv seen ⟨.step, σ, control, .push (.stepping i m) base⟩) (member : F.Member σ i x)
    (ambient : σ.ambient = true) (same : x.registry = registry) (room : n ≤ x.history.length + 1) :
    F.ComesToRest i base registry ⟨.step, σ, control, .push (.stepping i m) base⟩ := by
  have : Nonempty K.Memory := ⟨σ.memory⟩
  cases inv with
  | quiet ok clear => exact ((clear.top rfl).not_member member).elim
  | @stepping _ _ _ _ x' r ok clear member' status lent answers gives =>
    obtain rfl := member'.unique member.1
    obtain ⟨memory, r, rfl, goes⟩ := silent_goes (G := F.Admits) σ
        (.push (.stepping i x.history.length) base) gives
      fun memory _ only' => admits_of_only only' (fun _ => ambient) fun _ => trivial
    obtain ⟨seen', inv'⟩ := Inv.goes sound (.stepping ok clear member' status lent answers gives) goes
    refine .of_goes goes ?_
    have alive : x.status ≠ .terminated := by simp [status]
    cases r with
    | error payload =>
      rcases ends.answered sound deterministic answers with ⟨e, yields⟩ | ⟨event, last⟩
      · cases yields
      · cases last
    | ok answer =>
      obtain ⟨q, answer⟩ := answer
      exact answered_rests sound silent continues deterministic ends calm inv' member ambient same
        status room answers

omit continues in
theorem drive_rests (calm : M.Calm) : F.Continues i base registry n := by
  induction left : h.length + 1 - n using Nat.strongRecOn generalizing n with
  | ind left less =>
    intro seen σ x inv member ambient same idle longer
    have : Nonempty K.Memory := ⟨σ.memory⟩
    have admits : F.Admits ⟨.result, σ, .advance i, base⟩ := ⟨fun _ => ambient, trivial⟩
    obtain ⟨ok, clear⟩ := inv.of_advance
    have unlocked := clear.unlocked member
    have step := step_advance (β := β) σ i base
    simp only [Next.startStep, Next.withInstance, unlocked, member.1, Bool.false_eq_true, if_false]
      at step
    cases status : x.status with
    | running => exact absurd status idle
    | terminated =>
      rw [status] at step
      exact .of_step admits step ⟨σ, _, x, .refl, member.1, same, .inl status⟩
    | paused =>
      cases ok.standing i x member with
      | running status' => rw [status] at status'; cases status'
      | ended status' => rw [status] at status'; cases status'
      | stopped status' => rw [status] at status'; cases status'
      | fed _ chosen => cases chosen
      | @paused p _ procedure course untouched told =>
        have modified : ∀ f : Instance K → Instance K, (f x).memo = x.memo →
            F.Member (σ.modifyInstance i f) i (f x) := fun f memo =>
          ⟨by rw [State.instances_modifyInstance_self, member.1]; rfl, memo.trans member.2⟩
        rw [status, procedure] at step
        cases full : x.exhausted? with
        | some limit =>
          rw [full] at step
          exact .of_step admits step ⟨_, _, _, .refl, (modified (·.fail) rfl).1, same, .inl rfl⟩
        | none =>
          rw [full] at step
          obtain ⟨seen', inv'⟩ := inv.goes sound (.of_step admits step .refl)
          have within := ends.length_le sound deterministic course.recorded
          have least := longer status
          have further : F.Continues i base registry (x.history.length + 1) :=
            less (h.length + 1 - (x.history.length + 1)) (by omega) rfl
          exact .of_step admits step (stepped_rests sound silent further deterministic ends calm inv'
            (modified ({ ·.lend with status := .running }) rfl) ambient same (Nat.le_refl _))

end Steps

end Family

end Resumable
