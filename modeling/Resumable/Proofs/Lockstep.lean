import Resumable.Proofs.Sequences

namespace Resumable

variable {K : Client} {β : Behaviour K} {i : InstanceId} {Step : Type}

namespace Config

variable {c d : Config K} {t : List (Config K × Config K)} {G : Config K → Prop} {memory : K.Memory}
  {ambient : Bool} {code : Code K Unit}

def Refuses (fault : Fault) : Config K → Prop
  | ⟨.result, _, .run (.done (.error f)), _⟩ => f = fault
  | _ => False

/-- How the procedure and the history of an instance stand to each other at the end of a run, and
through the step that follows. -/
structure Lockstep (β : Behaviour K) (i : InstanceId) (t : List (Config K × Config K))
    (c : Config K) : Prop where
  once : resumedAt i t = List.range (resumedAt i t).length
  pace : c.entries i ≤ (resumedAt i t).length ∧ (resumedAt i t).length ≤ c.entries i + 1
  fed : ∀ σ p input (frame : Frame K .step .result) rest,
    c = ⟨.step, σ, .call (.resume p input), .push frame rest⟩ → frame.resumed? = some i →
    Resumption.Fed i (σ.history i) input ∧ (resumedAt i t).length = c.entries i + 1
  interpreted : ∀ σ n p answer rest,
    c = ⟨.step, σ, .run (.done (p, answer)), .push (.stepping i n) rest⟩ →
    n = c.entries i ∧ ∃ x p₀ input, σ.instances[i]? = some x ∧
      Resumed β i t x.history (.stepping i n) rest (p, answer) p₀ input ∧
      ∀ d, Follows β c d →
        (x.status = .terminated →
          d = ⟨.result, σ.modifyInstance i (·.takeBack p), .run (.done (.ok ())), rest⟩) ∧
        (x.status ≠ .terminated →
          Interprets i n (σ.modifyInstance i (·.takeBack p)) (x.takeBack p) rest answer d)
  replayed : ∀ σ e later p answer rest,
    c = ⟨.step, σ, .run (.done (p, answer)), .push (.replaying i e later) rest⟩ →
    ∃ x p₀ input, σ.instances[i]? = some x ∧
      Resumed β i t x.history (.replaying i e later) rest (p, answer) p₀ input ∧
      ∀ d, Follows β c d → Replays i (c.entries i) σ e later p rest answer d
  stored : ∀ n keys v, c.Brings i n keys v → n = c.entries i ∧ (resumedAt i t).length = n + 1
  recorded : ∀ d, Follows β c d → d.state.history i = c.state.history i ∨
    ∃ e, c.Enters i e ∧ d.state.history i = c.state.history i ++ [e] ∧
      (resumedAt i t).length = c.entries i + 1
  answered : ∀ n e, (c.state.history i)[n]? = some e →
    ∃ q ∈ t, ∃ answer, q.1.Answers i answer ∧ q.1.entries i = n ∧ e.Meets answer
  refused : ∀ σ stack d fault, c = ⟨.result, σ, .advance i, stack⟩ → Follows β c d →
    d.Refuses fault → (∃ breach, fault = .contract (c.entries i) breach) ∨
      ∃ limit, fault = .historyLimit limit
  unfit : ∀ s σ h (next : Shape.result.Answer K → Code K (s.Answer K)) stack d fault,
    c = ⟨s, σ, .run (.call (.replay i h) next), stack⟩ → Follows β c d → d.Refuses fault →
    ∃ breach, fault = .contract (c.entries i) breach
  rejected : ∀ d n failure, Follows β c d →
    d.deed? i = some (.tell (.rejected (.producer n failure))) →
    n = c.entries i ∧ (resumedAt i t).length = n + 1

/-- How a step sequence and the history of its instance stand to each other. -/
structure SequenceLockstep (β : Behaviour K) (S : Sequencing β Step) (steps : List (String × Step))
    (i : InstanceId) (c : Config K) : Prop where
  within : c.entries i ≤ steps.length
  stored : ∀ p, c.state.Stores i p → S.At steps (c.entries i) p ∨ S.At steps (c.entries i + 1) p
  handed : ∀ p, c.Hands i p → S.At steps (c.entries i) p
  produced : ∀ n e, (c.state.history i)[n]? = some e → ∃ label step p input moved locals answer,
    steps[n]? = some (label, step) ∧ Resumption.Fed i ((c.state.history i).take n) input ∧
    moved.steps = steps ∧ moved.cursor = n + 1 ∧
    (S.body p input step moved).Leaves (.done (locals, answer)) ∧ e.Meets answer
  exhausted : ∀ σ p input n rest,
    c = ⟨.step, σ, .call (.resume p input), .push (.stepping i n) rest⟩ →
    c.entries i = steps.length → ∃ σ' x', Reaches β c ⟨.result, σ',
      .run (.done (.error (.contract steps.length (.exhausted steps.length)))), rest⟩ ∧
      σ'.instances[i]? = some x' ∧ x'.status = .terminated
  exhaustedReplay : ∀ σ p input e later rest,
    c = ⟨.step, σ, .call (.resume p input), .push (.replaying i e later) rest⟩ →
    c.entries i = steps.length → ∃ σ' x', Reaches β c ⟨.result, σ',
      .run (.done (.error (.diverged steps.length
        (.stepFailed (Fault.contract 0 (.exhausted steps.length)).message)))), rest⟩ ∧
      σ'.instances[i]? = some x' ∧ x'.status = .terminated

theorem Enters.activity {e : Entry K.Artifact} (enters : c.Enters i e) : ∃ a, a ∈ c.underWay i := by
  cases enters with
  | recorded yields => exact ⟨_, yields.underWay⟩
  | settled completes owner =>
    subst owner
    exact ⟨_, completes.underWay ▸ Multiset.mem_cons_self ..⟩
  | _ => exact ⟨_, Stack.mem_underWay .refl rfl _⟩

theorem Brings.activity {n : Position} {keys : List Value} {v : Value} (brings : c.Brings i n keys v) :
    ∃ a ∈ c.underWay i, a.position? = some n := by
  cases brings with
  | computed σ stack => exact ⟨_, Stack.mem_underWay .refl rfl _, rfl⟩
  | settled completes owner position =>
    subst owner position
    exact ⟨_, completes.underWay ▸ Multiset.mem_cons_self .., rfl⟩

end Config

namespace Next

variable {σ : State K}

theorem startStep_refuses (stack : Stack K .result) (i : InstanceId) :
    (startStep σ stack i).Holds fun d => ∀ fault, d.Refuses fault →
      (∃ breach, fault = .contract (σ.history i).length breach) ∨
        ∃ limit, fault = .historyLimit limit := by
  refine Holds.withInstance fun x _ found => ?_
  rw [State.history_of_found found]
  split
  · exact holds_give.mpr fun fault same => .inl ⟨_, same.symm⟩
  · split
    · exact holds_give.mpr fun fault same => .inr ⟨_, same.symm⟩
    · exact holds_give.mpr fun fault same => .inl ⟨_, same.symm⟩
    · exact holds_call.mpr fun fault none => none.elim
  · exact holds_give.mpr fun fault none => none.elim

theorem replay_refuses (stack : Stack K .result) (i : InstanceId) (h : History K.Artifact) :
    (replay σ stack i h).Holds fun d => ∀ fault, d.Refuses fault →
      ∃ breach, fault = .contract (σ.history i).length breach := by
  cases h with
  | nil => exact holds_give.mpr fun fault none => none.elim
  | cons e later =>
    refine Holds.withInstance fun x _ found => ?_
    rw [State.history_of_found found]
    split
    · exact holds_give.mpr fun fault same => ⟨_, same.symm⟩
    · next fresh =>
      simp only [ne_eq, not_or, Decidable.not_not] at fresh
      split
      · rw [fresh.1]
        exact holds_give.mpr fun fault same => ⟨_, same.symm⟩
      · exact holds_call.mpr fun fault none => none.elim

end Next

namespace Config

variable {c d : Config K} {t : List (Config K × Config K)} {G : Config K → Prop} {memory : K.Memory}
  {ambient : Bool} {code : Code K Unit}

theorem Run.rejected (run : Run β G (start { memory := memory, ambient := ambient } code) t c)
    (follows : Follows β c d) {n : Position} {failure : Failure}
    (told : d.deed? i = some (.tell (.rejected (.producer n failure)))) :
    n = c.entries i ∧ (resumedAt i t).length = n + 1 := by
  cases follows_signal follows told with
  | @rejected _ stack task _ completes owner =>
    subst owner
    have mem : .producer task.position task.keys ∈ c.underWay task.owner :=
      completes.underWay ▸ Multiset.mem_cons_self ..
    obtain ⟨placed, count⟩ := run.placed mem
    have position := placed task.position rfl
    exact ⟨position, position ▸ count⟩

theorem Run.interpreted {σ : State K} {n : Position} {p : K.Procedure}
    {answer : Except Fault K.Yielded} {rest : Stack K .result}
    (run : Run β G (start { memory := memory, ambient := ambient } code) t
      ⟨.step, σ, .run (.done (p, answer)), .push (.stepping i n) rest⟩) :
    n = (σ.history i).length ∧ ∃ x p₀ input, σ.instances[i]? = some x ∧
      Resumed β i t x.history (.stepping i n) rest (p, answer) p₀ input ∧
      ∀ d, Follows β ⟨.step, σ, .run (.done (p, answer)), .push (.stepping i n) rest⟩ d →
        (x.status = .terminated →
          d = ⟨.result, σ.modifyInstance i (·.takeBack p), .run (.done (.ok ())), rest⟩) ∧
        (x.status ≠ .terminated →
          Interprets i n (σ.modifyInstance i (·.takeBack p)) (x.takeBack p) rest answer d) := by
  have own : (Frame.stepping i n : Frame K .step .result).resumed? = some i := rfl
  obtain ⟨x, p₀, input, found, resumed⟩ := run.resumed own
  have position := (run.placed (Stack.mem_underWay .refl rfl _)).1 n rfl
  refine ⟨position.trans (entries_eq _ i), x, p₀, input, found, resumed, fun d follows => ?_⟩
  have step := follows.step_eq (by rintro _ _ ⟨⟩)
  refine ⟨fun ended => ?_, fun alive => ?_⟩
  · rw [overtaken_returns found ended] at step
    exact (Except.ok.inj step).symm
  · rw [step_done] at step
    exact Next.finishStep_interprets n found alive d step

theorem Run.replayed {σ : State K} {e : Entry K.Artifact} {later : History K.Artifact}
    {p : K.Procedure} {answer : Except Fault K.Yielded} {rest : Stack K .result}
    (run : Run β G (start { memory := memory, ambient := ambient } code) t
      ⟨.step, σ, .run (.done (p, answer)), .push (.replaying i e later) rest⟩) :
    ∃ x p₀ input, σ.instances[i]? = some x ∧
      Resumed β i t x.history (.replaying i e later) rest (p, answer) p₀ input ∧
      ∀ d, Follows β ⟨.step, σ, .run (.done (p, answer)), .push (.replaying i e later) rest⟩ d →
        Replays i (σ.history i).length σ e later p rest answer d := by
  have own : (Frame.replaying i e later : Frame K .step .result).resumed? = some i := rfl
  obtain ⟨x, p₀, input, found, resumed⟩ := run.resumed own
  refine ⟨x, p₀, input, found, resumed, fun d follows => ?_⟩
  have step := follows.step_eq (by rintro _ _ ⟨⟩)
  rw [step_done] at step
  rw [State.history_of_found found]
  exact Next.finishReplayed_replays e later found d step

theorem Enters.count (run : Run β G (start { memory := memory, ambient := ambient } code) t c)
    {e : Entry K.Artifact} (enters : c.Enters i e) :
    (resumedAt i t).length = c.entries i + 1 := by
  obtain ⟨a, mem⟩ := enters.activity
  exact (run.placed mem).2

theorem Run.lockstep (run : Run β G (start { memory := memory, ambient := ambient } code) t c)
    (i : InstanceId) : Lockstep β i t c where
  once := (run.paced i).order
  pace := by
    rw [entries_eq]
    cases found : c.state.instances[i]? with
    | none => simp [(run.paced i).absent found, State.history, found]
    | some x =>
      have paced := (run.paced i).present x found
      rw [State.history_of_found found]
      exact ⟨paced.least, paced.most⟩
  fed := by
    rintro σ p input frame rest rfl own
    obtain ⟨_, _, _, same, fed, count⟩ := run.fed own
    cases same
    exact ⟨fed, count.trans (by rw [entries_eq])⟩
  interpreted := by
    rintro σ n p answer rest rfl
    rw [entries_eq]
    exact run.interpreted
  replayed := by
    rintro σ e later p answer rest rfl
    rw [entries_eq]
    exact run.replayed
  stored n keys v brings := by
    obtain ⟨a, mem, position⟩ := brings.activity
    obtain ⟨placed, count⟩ := run.placed mem
    exact ⟨placed n position, placed n position ▸ count⟩
  recorded d follows := by
    rcases follows_history follows i with same | ⟨e, enters, appended⟩
    · exact .inl same
    · exact .inr ⟨e, enters, appended, enters.count run⟩
  answered := (run.attributed i).entries
  refused := by
    rintro σ stack d fault rfl follows refuses
    rw [entries_eq]
    exact Next.startStep_refuses stack i d (follows.step_eq (by rintro _ _ ⟨⟩)) fault refuses
  unfit := by
    rintro s σ h next stack d fault rfl follows refuses
    rw [entries_eq]
    exact Next.replay_refuses _ i h d (follows.step_eq (by rintro _ (_ | _) ⟨⟩)) fault refuses
  rejected d n failure follows told := run.rejected follows told

variable {S : Sequencing β Step} {steps : List (String × Step)}

theorem Run.produced (run : Run β G (start { memory := memory, ambient := ambient } code) t c)
    (starts : Starts S steps i t) {n : Nat} {e : Entry K.Artifact}
    (at' : (c.state.history i)[n]? = some e) : ∃ label step p input moved locals answer,
      steps[n]? = some (label, step) ∧ Resumption.Fed i ((c.state.history i).take n) input ∧
      moved.steps = steps ∧ moved.cursor = n + 1 ∧
      (S.body p input step moved).Leaves (.done (locals, answer)) ∧ e.Meets answer := by
  obtain ⟨q, mem, answer, answers, position, meets⟩ := (run.attributed i).entries n e at'
  obtain ⟨u, v, rfl⟩ := List.append_of_mem mem
  obtain ⟨before, guard, follows, after⟩ := run.split rfl
  have grown := (Run.history_prefix (.snoc .refl guard follows) i).trans (after.history_prefix i)
  rw [entries_eq] at position
  have beginning : (c.state.history i).take n = q.1.state.history i :=
    position ▸ (List.prefix_iff_eq_take.mp grown).symm
  obtain ⟨q₁, q₂⟩ := q
  cases answers with
  | made σ p frame rest own =>
    obtain ⟨x, p₀, input, found, resumed, runs⟩ := before.runs own
      fun q mem => starts q (List.mem_append_left _ mem)
    have length : x.history.length = n := by rw [← State.history_of_found found, position]
    rw [length] at runs
    cases runs with
    | @ran label step moved locals _ _ at' leaves past =>
      refine ⟨label, step, p₀, input, moved, locals, answer, at', ?_, past.1, past.2, leaves, meets⟩
      rw [beginning, State.history_of_found found]
      exact resumed.fed
    | exhausted => cases meets

theorem Run.sequenceLockstep
    (run : Run β G (start { memory := memory, ambient := ambient } code) t c)
    (starts : Starts S steps i t) : SequenceLockstep β S steps i c where
  within := by
    rw [entries_eq]
    by_contra beyond
    have there : steps.length < (c.state.history i).length := Nat.lt_of_not_le beyond
    obtain ⟨label, step, _, _, _, _, _, at', -⟩ :=
      run.produced starts (List.getElem?_eq_getElem there)
    simp at at'
  stored p stores := by
    obtain ⟨x, found, has⟩ := stores
    obtain ⟨n, at', leads⟩ := (run.sequenced starts).stored x p found has
    rw [entries_of_found found]
    cases leads with
    | even => exact .inl at'
    | ahead => exact .inr at'
  handed := (run.sequenced starts).handed
  produced n e at' := run.produced starts at'
  exhausted := by
    rintro σ p input n rest rfl ended
    rw [entries_eq] at ended
    exact run.exhausted starts ended
  exhaustedReplay := by
    rintro σ p input e later rest rfl ended
    rw [entries_eq] at ended
    exact run.exhausted_replay starts ended

end Config

open Config in
/-- Along every run from an empty machine, with whatever panics and however nested, the procedure of
an instance and its history go in lockstep: each position is resumed once at most, and the
resumption whose answer is interpreted for position `n` is the one after `n` others. It is fed what
entry `n - 1` calls for, and `n` is the position of every lookup and of every value that is stored
for it, of every breach and rejection that the machine raises for it, and the index of the entry that
it gives rise to. If the instance is made of a fresh step sequence, entry `n` comes from step `n`, the
cursor of the sequence is the number of entries or one more, and a sequence that is resumed when
every step has its entry fails at the number of its steps. -/
theorem procedure_history_lockstep {memory : K.Memory} {ambient : Bool} {code : Code K Unit}
    {t : List (Config K × Config K)} {c : Config K}
    (run : Run β (fun _ => True) (start { memory := memory, ambient := ambient } code) t c) :
    (∀ i, Lockstep β i t c) ∧
    (∀ d m, Follows β c d → d.state.memo m = c.state.memo m ∨ c.ClientWrites m ∨
      ∃ i n keys v, c.Brings i n keys v ∧ n = c.entries i ∧ (resumedAt i t).length = n + 1 ∧
        d.state.memo m = (c.state.memo m).remember n keys v) ∧
    ∀ (Step : Type) (S : Sequencing β Step) (steps : List (String × Step)) (i : InstanceId),
      Starts S steps i t → SequenceLockstep β S steps i c := by
  refine ⟨run.lockstep, fun d m follows => ?_, fun Step S steps i => run.sequenceLockstep⟩
  rcases follows_memo follows m with same | clientWrites | ⟨i, n, keys, v, x, brings, -, -, stored⟩
  · exact .inl same
  · exact .inr (.inl clientWrites)
  · obtain ⟨position, count⟩ := (run.lockstep i).stored n keys v brings
    exact .inr (.inr ⟨i, n, keys, v, brings, position, count, stored⟩)

namespace Sketch

abbrev etudes : Client :=
  { client with
    Procedure := StepSequence Move Picture
    Factory := Value → StepSequence Move Picture }

def Move.play (move : Move) (s : StepSequence Move Picture) :
    Code etudes (Locals Picture × Except Fault (Client.Yielded client)) :=
  .done (s.locals, Drawing.answer { moves := [] } move)

def playing : Behaviour etudes where
  code
    | .resume s _ => s.resume Move.play
    | .compute value => .done value
    | .produce value => .done value
    | .poll value => .done (.ready (.ok value))
    | .notice _ _ => .done ()
    | .build factory inputs => .done (factory inputs)
    | .rerender _ => .done ()

def played : Sequencing playing Move where
  sequence? := some
  put _ s := s
  body _ _ := Move.play
  sequence_put _ _ := rfl
  code {p s} input same := by
    cases same
    exact (Code.bind_done _).symm

def etude : List (String × Move) :=
  [("slot", .hold (.int 1)), ("sum", .compute (.int 2) [.int 0])]

def etudeCode : Code etudes Unit :=
  .call .newMemo fun m =>
    .call (.newInstance { steps := etude } m {}) fun i =>
      .call (.retain (.ofInstance i)) fun _ =>
        .call (.proceed i) fun _ => .done ()

def encore : Config etudes :=
  Config.after playing 20 (.start { memory := () } etudeCode)

def opens : Config etudes → Bool
  | ⟨_, _, .run (.call (.newInstance s _ _) _), _⟩ => s.steps = etude && s.cursor = 0
  | ⟨_, _, .run (.done _), .push (.mounting _ _) _⟩ => false
  | ⟨_, _, .run (.done _), .push (.forking _ _) _⟩ => false
  | _ => true

theorem at_of_opens {c : Config etudes} (h : opens c = true) {i : InstanceId}
    {s : StepSequence Move Picture} (makes : c.Makes i s) : played.At etude 0 s := by
  cases makes with
  | client σ next m settings next' stack =>
    obtain ⟨steps, cursor⟩ : s.steps = etude ∧ s.cursor = 0 := by simpa [opens] using h
    exact ⟨Nat.zero_le _, s, rfl, steps, cursor⟩
  | host founds next => cases founds <;> cases h

theorem third_resumption_exhausted :
    Config.resumedAt 0 (Config.trail playing 20 (.start { memory := () } etudeCode)) = [0, 1, 2] ∧
    encore.entries 0 = 2 ∧ (∀ s, encore.Hands 0 s → played.At etude 2 s) ∧
    ∃ σ stack, Config.Reaches playing encore
      ⟨.result, σ, .run (.done (.error (.contract 2 (.exhausted 2)))), stack⟩ := by
  have run : Config.Run playing (fun _ => True) (.start { memory := () } etudeCode)
      (Config.trail playing 20 (.start { memory := () } etudeCode)) encore :=
    .walk_all 20 _
  obtain ⟨lockstep, -, sequences⟩ := procedure_history_lockstep run
  have opened : ((Config.trail playing 20 (.start { memory := () } etudeCode)).all
      fun q => opens q.1) = true := by decide +kernel
  have starts : Config.Starts played etude 0
      (Config.trail playing 20 (.start { memory := () } etudeCode)) :=
    fun q mem s makes => at_of_opens (List.all_eq_true.mp opened q mem) makes
  have sequence := sequences Move played etude 0 starts
  have entries : encore.entries 0 = 2 := by decide +kernel
  have count : (Config.resumedAt 0
      (Config.trail playing 20 (.start { memory := () } etudeCode))).length = 3 := by decide +kernel
  refine ⟨?_, entries, ?_, ?_⟩
  · rw [(lockstep 0).once, count]
    rfl
  · exact entries ▸ sequence.handed
  · obtain ⟨σ, x, reaches, -⟩ := sequence.exhausted _ _ _ _ _ rfl entries
    exact ⟨σ, _, reaches⟩

end Sketch

end Resumable
