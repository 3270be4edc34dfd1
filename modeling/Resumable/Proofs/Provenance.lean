import Resumable.Proofs.Answers

namespace Resumable

variable {K : Client} {β : Behaviour K} {i : InstanceId}

namespace Config

variable {c d : Config K} {t : List (Config K × Config K)} {G : Config K → Prop} {n : Position}
  {keys : Option (List Value)} {memory : K.Memory} {ambient : Bool} {code : Code K Unit}

theorem entries_eq (c : Config K) (i : InstanceId) : c.entries i = (c.state.history i).length := by
  simp only [entries, State.history]
  cases c.state.instances[i]? <;> rfl

theorem entries_of_found {x : Instance K} (found : c.state.instances[i]? = some x) :
    c.entries i = x.history.length := by
  rw [entries_eq, State.history_of_found found]

theorem Run.history_prefix (run : Run β G c t d) (i : InstanceId) :
    c.state.history i <+: d.state.history i := by
  induction run with
  | refl => exact List.prefix_rfl
  | snoc _ _ follows ih =>
    rcases follows_history follows i with same | ⟨e, -, appended⟩
    · rwa [same]
    · exact appended ▸ ih.trans (List.prefix_append _ [e])

theorem Run.placed (run : Run β G (start { memory := memory, ambient := ambient } code) t c)
    {a : Activity} (mem : a ∈ c.underWay i) :
    (∀ n, a.position? = some n → n = c.entries i) ∧ (resumedAt i t).length = c.entries i + 1 := by
  cases found : c.state.instances[i]? with
  | none =>
    have stands : c.Stands True i := run.stands _
    rw [stands.absent found] at mem
    exact absurd mem (Multiset.notMem_zero a)
  | some x =>
    have paced := (run.paced i).present x found
    rw [entries_eq, State.history_of_found found]
    exact ⟨fun n position => paced.placed a mem n position,
      paced.busy fun none => absurd (none ▸ mem) (Multiset.notMem_zero a)⟩

/-- The procedure of an instance has answered to a resumption. -/
inductive Answers (i : InstanceId) (answer : Except Fault K.Yielded) : Config K → Prop
  | made (σ : State K) (p : K.Procedure) (frame : Frame K .step .result) (rest : Stack K .result)
    (own : frame.resumed? = some i) :
    Answers i answer ⟨.step, σ, .run (.done (p, answer)), .push frame rest⟩

theorem Yields.answers {effect : Effect K.Artifact K.Producer K.Computation}
    (yields : c.Yields i n effect) : c.Answers i (.ok (.effect effect)) := by
  cases yields with
  | step σ p rest => exact .made σ p _ rest rfl

theorem Yields.underWay {effect : Effect K.Artifact K.Producer K.Computation}
    (yields : c.Yields i n effect) : .step n ∈ c.underWay i := by
  cases yields with
  | step σ p rest => exact Stack.mem_underWay .refl rfl _

theorem Asks.of_produce (produces : d.deed? i = some (.produce n keys)) :
    ∃ producer, d.Asks i n (.await producer keys) := by
  obtain ⟨s, σ, control, stack⟩ := d
  cases control with
  | call call =>
    cases stack with
    | empty => cases produces
    | push frame rest =>
      cases frame with
      | launching j m keys' =>
        obtain ⟨rfl, same⟩ := Option.ite_none_right_eq_some.mp produces
        cases same
        cases call with
        | produce producer => exact ⟨producer, .await σ producer keys rest⟩
      | stepping j m => cases (Option.ite_none_right_eq_some.mp produces).2
      | replaying j e later => cases (Option.ite_none_right_eq_some.mp produces).2
      | _ => cases produces
  | emit source signal =>
    cases source with
    | free => cases produces
    | ofInstance j =>
      cases signal with
      | forked => cases produces
      | _ => cases (Option.ite_none_right_eq_some.mp produces).2
  | _ => cases produces

/-- Every entry of an instance meets what its procedure answered when there were as many entries
before it, and what it awaits is what a step has answered with. -/
structure Attributed (i : InstanceId) (t : List (Config K × Config K)) (c : Config K) : Prop where
  entries : ∀ n e, (c.state.history i)[n]? = some e →
    ∃ q ∈ t, ∃ answer, q.1.Answers i answer ∧ q.1.entries i = n ∧ e.Meets answer
  awaits : ∀ n keys, .launch n keys ∈ c.underWay i ∨ .producer n keys ∈ c.underWay i →
    ∃ q ∈ t, ∃ producer, q.1.Yields i n (.await producer keys)

theorem Run.computed {σ : State K} {keys : List Value} {v : Value} {rest : Stack K .result}
    {τ : State K} (run : Run β G (start τ code) t
      ⟨.value, σ, .run (.done v), .push (.computing i n keys) rest⟩) :
    ∃ computation, ∃ q ∈ t, q.1.Yields i n (.compute computation keys) := by
  obtain ⟨call, before, υ, e, after, -, rfl, -, -, first⟩ := run.called rfl
  cases call with
  | compute computation =>
    generalize called : (⟨.value, υ, .call (.compute computation), .push (.computing i n keys) rest⟩ :
      Config K) = d at first
    cases first with
    | refl => cases called
    | snoc _ _ follows =>
      subst called
      exact ⟨computation, _, List.mem_append_left _ (List.mem_append_right _ (List.mem_singleton_self _)),
        follows_asks follows (.compute υ computation keys rest)⟩

theorem Enters.meets (run : Run β G (start { memory := memory, ambient := ambient } code) t c)
    (attributed : c.Attributed i t) {e : Entry K.Artifact} (enters : c.Enters i e) (d : Config K) :
    ∃ q ∈ t ++ [(c, d)], ∃ answer,
      q.1.Answers i answer ∧ q.1.entries i = c.entries i ∧ e.Meets answer := by
  have last : (c, d) ∈ t ++ [(c, d)] := List.mem_append_right t (List.mem_singleton_self _)
  -- What was asked for a position before is still under way for it.
  have asked : ∀ {q : Config K × Config K} {n : Position}
      {effect : Effect K.Artifact K.Producer K.Computation}, q ∈ t → q.1.Yields i n effect →
      q.1.entries i = n := by
    intro q n effect mem yields
    obtain ⟨u, v, rfl⟩ := List.append_of_mem mem
    exact ((run.split rfl).1.placed yields.underWay).1 n rfl |>.symm
  cases enters with
  | recorded yields found records =>
    exact ⟨_, last, _, yields.answers, rfl, .effect records.recordedBy⟩
  | completed σ n p a rest => exact ⟨_, last, _, .made σ p _ rest rfl, rfl, .complete a a⟩
  | computed σ n keys v rest =>
    obtain ⟨computation, q, mem, yields⟩ := run.computed
    have here := (run.placed (Stack.mem_underWay .refl rfl _)).1 n rfl
    exact ⟨q, List.mem_append_left _ mem, _, yields.answers, (asked mem yields).trans here,
      .effect rfl⟩
  | @settled _ stack task v completes owner =>
    subst owner
    have mem : .producer task.position task.keys ∈ c.underWay task.owner :=
      completes.underWay ▸ Multiset.mem_cons_self ..
    obtain ⟨q, before, producer, yields⟩ := attributed.awaits _ _ (.inr mem)
    have here := (run.placed mem).1 task.position rfl
    exact ⟨q, List.mem_append_left _ before, _, yields.answers, (asked before yields).trans here,
      .effect rfl⟩
  | replayed σ later p rest fits => exact ⟨_, last, _, .made σ p _ rest rfl, rfl, .effect fits⟩
  | replayCompleted σ a b p rest => exact ⟨_, last, _, .made σ p _ rest rfl, rfl, .complete a b⟩

theorem Attributed.follows
    (run : Run β G (start { memory := memory, ambient := ambient } code) t c)
    (attributed : c.Attributed i t) (follows : Follows β c d) : d.Attributed i (t ++ [(c, d)]) where
  entries n e at' := by
    have before : ∀ e, (c.state.history i)[n]? = some e → ∃ q ∈ t ++ [(c, d)], ∃ answer,
        q.1.Answers i answer ∧ q.1.entries i = n ∧ e.Meets answer := by
      intro e at'
      obtain ⟨q, mem, found⟩ := attributed.entries n e at'
      exact ⟨q, List.mem_append_left _ mem, found⟩
    rcases follows_history follows i with same | ⟨f, enters, appended⟩
    · exact before e (same ▸ at')
    · rw [appended] at at'
      rcases Nat.lt_or_ge n (c.state.history i).length with within | beyond
      · exact before e (by rwa [List.getElem?_append_left within] at at')
      · have below := (List.getElem?_eq_some_iff.mp at').1
        obtain rfl : n = (c.state.history i).length := by
          rw [List.length_append, List.length_singleton] at below
          omega
        obtain rfl : f = e := by simpa using at'
        obtain ⟨q, mem, answer, answers, position, meets⟩ := enters.meets run attributed d
        exact ⟨q, mem, answer, answers, position.trans (c.entries_eq i), meets⟩
  awaits n keys mem := by
    have stands : c.Stands True i := run.stands _
    have turn := follows_turn stands.absent follows
    have before : .launch n keys ∈ c.underWay i ∨ .producer n keys ∈ c.underWay i →
        ∃ q ∈ t ++ [(c, d)], ∃ producer, q.1.Yields i n (.await producer keys) := by
      intro mem
      obtain ⟨q, mem, found⟩ := attributed.awaits n keys mem
      exact ⟨q, List.mem_append_left _ mem, found⟩
    rcases mem with mem | mem
    · cases turn.begun mem with
      | before mem => exact before (.inl mem)
      | launch _ _ _ produces =>
        obtain ⟨producer, asks⟩ := Asks.of_produce produces
        exact ⟨(c, d), List.mem_append_right _ (List.mem_singleton_self _), producer,
          follows_asks follows asks⟩
    · cases turn.begun mem with
      | before mem => exact before (.inr mem)
      | producer launch => exact before (.inl launch)

theorem Run.attributed (run : Run β G (start { memory := memory, ambient := ambient } code) t c)
    (i : InstanceId) : c.Attributed i t := by
  induction run with
  | refl =>
    refine ⟨fun n e at' => ?_, fun n keys mem => ?_⟩
    · simp [start, State.history] at at'
    · exact absurd mem (by simp [start, Config.underWay, Stack.underWay, State.underWay, State.tasks])
  | snoc run _ follows ih => exact ih.follows run follows

end Config

end Resumable
