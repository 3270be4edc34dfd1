import Resumable.Procedure.StepSequence
import Resumable.Proofs.Feeding

namespace Resumable

variable {K : Client} {β : Behaviour K} {i : InstanceId} {Step : Type}

namespace StepSequence

variable {s : StepSequence Step K.Artifact} {label : String} {step : Step}
  {run : Step → StepSequence Step K.Artifact → Code K (Locals K.Artifact × Except Fault K.Yielded)}

theorem resume_of_some (found : s.steps[s.cursor]? = some (label, step)) :
    s.resume run = (run step { s with cursor := s.cursor + 1 }).bind fun r =>
      .done ({ s with cursor := s.cursor + 1, locals := r.1 }, r.2) := by
  simp only [resume, advance, found]
  rfl

theorem resume_of_none (ended : s.steps[s.cursor]? = none) :
    s.resume run = .done (s, .error (.contract 0 (.exhausted s.size))) := by
  simp only [resume, advance, ended]
  rfl

end StepSequence

/-- Procedures of a client that run step sequences: resumed, such a procedure runs the step under the
cursor and goes on with what that leaves of its sequence. -/
structure Sequencing (β : Behaviour K) (Step : Type) where
  sequence? : K.Procedure → Option (StepSequence Step K.Artifact)
  put : K.Procedure → StepSequence Step K.Artifact → K.Procedure
  body : K.Procedure → Option (Resumption K.Artifact) → Step → StepSequence Step K.Artifact →
    Code K (Locals K.Artifact × Except Fault K.Yielded)
  sequence_put : ∀ {p s} s', sequence? p = some s → sequence? (put p s') = some s'
  code : ∀ {p s} input, sequence? p = some s → β.code (.resume p input) =
    (s.resume (body p input)).bind fun r => .done (put p r.1, r.2)

namespace Sequencing

variable (S : Sequencing β Step) (steps : List (String × Step))

def At (n : Nat) (p : K.Procedure) : Prop :=
  n ≤ steps.length ∧ ∃ s, S.sequence? p = some s ∧ s.steps = steps ∧ s.cursor = n

inductive Runs (n : Nat) (p : K.Procedure) (input : Option (Resumption K.Artifact)) :
    Shape.step.Answer K → Prop
  | ran {label : String} {step : Step} {moved : StepSequence Step K.Artifact}
    {locals : Locals K.Artifact} {q : K.Procedure} {answer : Except Fault K.Yielded}
    (at' : steps[n]? = some (label, step))
    (leaves : (S.body p input step moved).Leaves (.done (locals, answer)))
    (past : moved.steps = steps ∧ moved.cursor = n + 1)
    (later : S.At steps (n + 1) q) : Runs n p input (q, answer)
  | exhausted {q : K.Procedure} (ended : n = steps.length) (later : S.At steps n q) :
    Runs n p input (q, .error (.contract 0 (.exhausted n)))

variable {S steps} {n : Nat} {p q : K.Procedure} {input : Option (Resumption K.Artifact)}
  {answer : Except Fault K.Yielded}

theorem Runs.at (runs : S.Runs steps n p input (q, answer)) :
    S.At steps n q ∨ S.At steps (n + 1) q := by
  cases runs with
  | ran _ _ _ later => exact .inr later
  | exhausted _ later => exact .inl later

theorem Runs.at_of_ok {yielded : K.Yielded} (runs : S.Runs steps n p input (q, .ok yielded)) :
    S.At steps (n + 1) q := by
  cases runs with
  | ran _ _ _ later => exact later

theorem At.code_exhausted (at' : S.At steps n p) (ended : n = steps.length)
    (input : Option (Resumption K.Artifact)) :
    ∃ q, S.At steps n q ∧
      β.code (.resume p input) = .done (q, .error (.contract 0 (.exhausted n))) := by
  obtain ⟨-, s, sequence, rfl, rfl⟩ := at'
  have none : s.steps[s.cursor]? = none := List.getElem?_eq_none (ended ▸ le_refl _)
  refine ⟨S.put p s, ⟨ended ▸ le_refl _, s, S.sequence_put s sequence, rfl, rfl⟩, ?_⟩
  rw [S.code input sequence, StepSequence.resume_of_none none, ended]
  rfl

theorem At.runs (at' : S.At steps n p)
    (leaves : (β.code (.resume p input)).Leaves (.done (q, answer))) :
    S.Runs steps n p input (q, answer) := by
  obtain ⟨-, s, sequence, rfl, rfl⟩ := id at'
  cases found : s.steps[s.cursor]? with
  | none =>
    have ended : s.cursor = s.steps.length :=
      Nat.le_antisymm at'.1 (List.getElem?_eq_none_iff.mp found)
    obtain ⟨q', later, code⟩ := at'.code_exhausted ended input
    rw [code] at leaves
    cases leaves.of_done
    exact .exhausted ended later
  | some entry =>
    obtain ⟨label, step⟩ := entry
    rw [S.code input sequence, StepSequence.resume_of_some found] at leaves
    obtain ⟨r, leaves, same⟩ := leaves.done_of_bind
    obtain ⟨r', leaves', rfl⟩ := leaves.done_of_bind
    cases same
    have within := (List.getElem?_eq_some_iff.mp found).1
    exact .ran found leaves' ⟨rfl, rfl⟩ ⟨within, _, S.sequence_put _ sequence, rfl, rfl⟩

end Sequencing

inductive Instance.Leads (x : Instance K) : Nat → Prop
  | even (idle : x.status ≠ .running) : Leads x x.history.length
  | ahead (begun : x.status ≠ .paused) : Leads x (x.history.length + 1)

section Feeding

variable {S : Sequencing β Step} {steps : List (String × Step)} {p : K.Procedure}

theorem Behaviour.Feeds.at {h : History K.Artifact} (feeds : β.Feeds (S.At steps 0) i h p) :
    S.At steps h.length p := by
  induction feeds with
  | made start => exact start
  | fed _ leaves meets ih =>
    rw [List.length_append, List.length_singleton]
    cases meets with
    | effect => exact (ih.runs leaves).at_of_ok
    | complete => exact (ih.runs leaves).at_of_ok

theorem Instance.Fed.leads {x : Instance K} (fed : x.Fed β (S.At steps 0) i p) :
    ∃ n, S.At steps n p ∧ x.Leads n := by
  cases fed with
  | even idle feeds => exact ⟨_, feeds.at, .even idle⟩
  | ahead begun feeds leaves yields =>
    have runs := feeds.at.runs leaves
    by_cases running : x.status = .running
    · cases yields running .unit with
      | effect => exact ⟨_, runs.at_of_ok, .ahead begun⟩
    · rcases runs.at with at' | at'
      · exact ⟨_, at', .even running⟩
      · exact ⟨_, at', .ahead begun⟩

end Feeding

namespace Config

variable {S : Sequencing β Step} {steps : List (String × Step)} {c d : Config K}
  {t : List (Config K × Config K)} {G : Config K → Prop} {memory : K.Memory} {ambient : Bool}
  {code : Code K Unit} {p : K.Procedure} {x : Instance K} {lost : Prop}

def Starts (S : Sequencing β Step) (steps : List (String × Step)) (i : InstanceId)
    (t : List (Config K × Config K)) : Prop :=
  ∀ q ∈ t, ∀ p, q.1.Makes i p → S.At steps 0 p

/-- The procedure that an instance has, or that is resumed for it, is a sequence of some steps with
its cursor where the history ends, or past it. -/
structure Sequenced (S : Sequencing β Step) (steps : List (String × Step)) (i : InstanceId)
    (c : Config K) : Prop where
  stored : ∀ x p, c.state.instances[i]? = some x → x.procedure = some p →
    ∃ n, S.At steps n p ∧ x.Leads n
  handed : ∀ p, c.Hands i p → S.At steps (c.entries i) p

variable {p₀ : K.Procedure} {input : Option (Resumption K.Artifact)} {σ : State K} {n : Position}
  {answer : Except Fault K.Yielded} {rest : Stack K .result}

theorem Run.sequenced (run : Run β G (start { memory := memory, ambient := ambient } code) t c)
    (starts : Starts S steps i t) : c.Sequenced S steps i := by
  have fedHistory : c.FedHistory β (S.At steps 0) i :=
    run.fedHistory fun q mem p makes _ => starts q mem p makes
  exact ⟨fun x p found has => (fedHistory.stored x p found has).leads,
    fun p hands => c.entries_eq i ▸ (fedHistory.handed p hands).at⟩

theorem Run.runs {frame : Frame K .step .result}
    (run : Run β G (start { memory := memory, ambient := ambient } code) t
      ⟨.step, σ, .run (.done (p, answer)), .push frame rest⟩) (own : frame.resumed? = some i)
    (starts : Starts S steps i t) :
    ∃ x p₀ input, σ.instances[i]? = some x ∧
      Resumed β i t x.history frame rest (p, answer) p₀ input ∧
      S.Runs steps x.history.length p₀ input (p, answer) := by
  obtain ⟨x, p₀, input, found, resumed⟩ := run.resumed own
  obtain ⟨before, τ, d, after, rfl, -, history, -⟩ := resumed.called
  have called := (run.split rfl).1.sequenced fun q mem => starts q (List.mem_append_left _ mem)
  have at' := called.handed p₀ (hands_of_resumed own p₀ input)
  rw [entries_eq, history] at at'
  exact ⟨x, p₀, input, found, resumed, at'.runs resumed.leaves⟩

theorem Run.resumed_alive (run : Run β G (start { memory := memory, ambient := ambient } code) t c)
    (hands : c.Hands i p) (found : c.state.instances[i]? = some x) : x.status ≠ .terminated := by
  cases run with
  | refl => cases hands
  | @snoc t b _ run guard follows =>
    have stands : b.Stands True i := run.stands _
    have turn := follows_turn stands.absent follows
    rw [found] at turn
    exact turn.resumes_alive hands.deed?

theorem Run.exhausted (run : Run β G (start { memory := memory, ambient := ambient } code) t
      ⟨.step, σ, .call (.resume p input), .push (.stepping i n) rest⟩)
    (starts : Starts S steps i t) (ended : (σ.history i).length = steps.length) :
    ∃ σ' x', Reaches β ⟨.step, σ, .call (.resume p input), .push (.stepping i n) rest⟩
      ⟨.result, σ', .run (.done (.error (.contract steps.length (.exhausted steps.length)))), rest⟩ ∧
      σ'.instances[i]? = some x' ∧ x'.status = .terminated := by
  have hands : Hands i p ⟨.step, σ, .call (.resume p input), .push (.stepping i n) rest⟩ :=
    .step σ input n rest
  have at' := (run.sequenced starts).handed p hands
  rw [entries_eq, ended] at at'
  obtain ⟨q, -, code⟩ := at'.code_exhausted rfl input
  obtain ⟨x, -, found, position, -⟩ := run.fits
  have alive : x.status ≠ .terminated := run.resumed_alive hands found
  have alive : (x.takeBack q).status ≠ .terminated := alive
  obtain rfl : n = steps.length := by
    rw [← position, ← ended, State.history_of_found found]
    rfl
  refine ⟨(σ.modifyInstance i (·.takeBack q)).modifyInstance i (·.fail), (x.takeBack q).fail,
    .head rfl (.single ?_), ?_, rfl⟩
  · rw [code, step_done]
    simp only [Next.resume, Next.finishStep, State.instances_modifyInstance_self, found,
      Option.map_some, if_neg alive]
    rfl
  · simp [State.instances_modifyInstance_self, found]

theorem Run.exhausted_replay {e : Entry K.Artifact} {later : History K.Artifact}
    (run : Run β G (start { memory := memory, ambient := ambient } code) t
      ⟨.step, σ, .call (.resume p input), .push (.replaying i e later) rest⟩)
    (starts : Starts S steps i t) (ended : (σ.history i).length = steps.length) :
    ∃ σ' x', Reaches β ⟨.step, σ, .call (.resume p input), .push (.replaying i e later) rest⟩
      ⟨.result, σ', .run (.done (.error (.diverged steps.length
        (.stepFailed (Fault.contract 0 (.exhausted steps.length)).message)))), rest⟩ ∧
      σ'.instances[i]? = some x' ∧ x'.status = .terminated := by
  have at' := (run.sequenced starts).handed p (.replay σ input e later rest)
  rw [entries_eq, ended] at at'
  obtain ⟨q, -, code⟩ := at'.code_exhausted rfl input
  obtain ⟨x, -, found, -⟩ := run.fits
  have position : x.position = steps.length := by
    rw [← ended, State.history_of_found found]
    rfl
  refine ⟨σ.modifyInstance i fun x => (x.takeBack q).fail, (x.takeBack q).fail,
    .head rfl (.single ?_), ?_, rfl⟩
  · rw [code, step_done]
    simp only [Next.resume, Next.finishReplayed, found, position]
    rfl
  · simp [State.instances_modifyInstance_self, found]

end Config

end Resumable
