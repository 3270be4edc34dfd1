import Resumable.Proofs.Errands
import Resumable.Proofs.Lockstep

namespace Resumable

variable {K : Client} {s w : Shape} {β : Behaviour K} {i : InstanceId} {σ : State K}

def Activity.OfResumption : Activity → Prop
  | step _ => True
  | replay => True
  | _ => False

theorem Frame.ofResumption {frame : Frame K s w} (own : frame.resumed? = some i) :
    ∃ a : Activity, frame.activity? = some (i, a) ∧ a.OfResumption := by
  cases frame with
  | stepping j n =>
    cases own
    exact ⟨_, rfl, trivial⟩
  | replaying j e later =>
    cases own
    exact ⟨_, rfl, trivial⟩
  | _ => cases own

theorem Turn.kept {loses : Prop} {cut : SubscriptionId → Prop} {memos : MemoId → Memo}
    {x x' : Instance K} {as as' : Multiset Activity} {deed : Option (Deed K.Artifact)} {a : Activity}
    (turn : Turn loses cut memos (some x) as deed (some x') as') (alone : as = {a})
    (own : a.OfResumption) (still : a ∈ as') (quiet : deed ≠ some .resume) :
    x'.history = x.history ∧ deed = none ∧ as' = {a} := by
  have sole : ∀ {b : Activity} {bs : Multiset Activity}, b ::ₘ bs = {a} → b = a ∧ a ∉ bs := by
    intro b bs same
    obtain ⟨rfl, rfl⟩ := (Multiset.singleton_eq_cons_iff _).mp same.symm
    exact ⟨rfl, Multiset.notMem_zero _⟩
  cases turn with
  | stays _ _ history => exact ⟨history, rfl, alone⟩
  | terminated => exact ⟨rfl, rfl, alone⟩
  | refused => exact ⟨rfl, rfl, alone⟩
  | started => exact absurd rfl quiet
  | replayStarted => exact absurd rfl quiet
  | replayed => exact absurd rfl quiet
  | computing =>
    rcases Multiset.mem_cons.mp still with rfl | mem
    · exact own.elim
    · exact absurd mem (sole alone).2
  | launching =>
    rcases Multiset.mem_cons.mp still with rfl | mem
    · exact own.elim
    · exact absurd mem (sole alone).2
  | launched =>
    rcases Multiset.mem_cons.mp still with rfl | mem
    · exact own.elim
    · exact absurd mem (sole alone).2
  | _ => exact absurd still (sole alone).2

/-- The fault that an errand ends with, by what its last step has answered behind a number of entries:
a breach is put at that position, and every other fault of a drive is passed on as it is. -/
inductive Refusal {A P C : Type} (n : Position) :
    Errand → Option (Except Fault (Yielded A P C)) → Fault → Prop
  | full {limit : Nat} (exceeded : limit ≤ n) : Refusal n .drive none (.historyLimit limit)
  | broken (m : Position) (breach : Breach) :
    Refusal n .drive (some (.error (.contract m breach))) (.contract n breach)
  | reported {fault : Fault} (other : ∀ m breach, fault ≠ .contract m breach) :
    Refusal n .drive (some (.error fault)) fault
  | stranded (producer : P) (keys : Option (List Value)) :
    Refusal n .drive (some (.ok (.effect (.await producer keys)))) (.noRuntime n)
  | diverged (answer : Except Fault (Yielded A P C)) (divergence : Divergence) :
    Refusal n .replay (some answer) (.diverged n divergence)

theorem Refusal.stamped {A P C : Type} (n : Position) (fault : Fault) :
    Refusal (A := A) (P := P) (C := C) n .drive (some (.error fault)) (fault.stamp n) := by
  cases fault with
  | contract m breach => exact .broken m breach
  | _ => exact .reported (by rintro _ _ ⟨⟩)

namespace Config

variable {c d e : Config K} {t u : List (Config K × Config K)} {G : Config K → Prop}
  {memory : K.Memory} {ambient : Bool} {code : Code K Unit} {base : Stack K .result}
  {errand : Errand} {x : Instance K} {a : Activity} {answer : Except Fault K.Yielded} {τ : State K}
  {fault : Fault} {n : Position}

/-- Nothing comes of an instance when one configuration follows another: it gets no entry, no producer
is called for it, and it signals nothing. A memo is changed only by a client's request or by another
instance. -/
structure Ineffective (i : InstanceId) (q : Config K × Config K) : Prop where
  history : q.2.state.history i = q.1.state.history i
  unproduced : ∀ n keys, q.2.deed? i ≠ some (.produce n keys)
  untold : ∀ signal, q.2.deed? i ≠ some (.tell signal)
  memos : ∀ m, q.2.state.memo m = q.1.state.memo m ∨ q.1.ClientWrites m ∨
    ∃ j n keys v, j ≠ i ∧ q.1.Brings j n keys v

/-- The step that an errand ends with: it does not start, or the procedure is resumed, and while its
code is under way it comes to its answer. -/
inductive Attempt (β : Behaviour K) (i : InstanceId) (base : Stack K .result) :
    Errand → Option (Except Fault K.Yielded) → List (Config K × Config K) → Prop
  | unstarted (σ : State K) (d : Config K) :
    Attempt β i base .drive none [(⟨.result, σ, .advance i, base⟩, d)]
  | answered {errand : Errand} {frame : Frame K .step .result} {σ τ : State K}
    {p q : K.Procedure} {input : Option (Resumption K.Artifact)} {answer : Except Fault K.Yielded}
    {mid : List (Config K × Config K)} (entered d : Config K)
    (own : frame.errand? = some (errand, i)) (resumed : frame.resumed? = some i)
    (leaves : (β.code (.resume p input)).Leaves (.done (q, answer)))
    (within : ∀ r ∈ mid, r.2.Within (.push frame base)) :
    Attempt β i base errand (some answer)
      ((⟨.step, σ, .call (.resume p input), .push frame base⟩, entered) :: mid ++
        [(⟨.step, τ, .run (.done (q, answer)), .push frame base⟩, d)])

theorem Interprets.refusal
    (interprets : Interprets i n σ x base answer ⟨.result, τ, .run (.done (.error fault)), base⟩) :
    τ = σ.modifyInstance i (·.fail) ∧ Refusal n .drive (some answer) fault := by
  cases interprets with
  | failed fault => exact ⟨rfl, .stamped n fault⟩
  | stranded => exact ⟨rfl, .stranded _ _⟩

theorem Replays.refusal {e : Entry K.Artifact} {later : History K.Artifact} {p : K.Procedure}
    (replays : Replays i n σ e later p base answer
      ⟨.result, τ, .run (.done (.error fault)), base⟩) :
    τ = σ.modifyInstance i (fun x => (x.takeBack p).fail) ∧
      Refusal n .replay (some answer) fault := by
  cases replays with
  | failed fault => exact ⟨rfl, .diverged _ _⟩
  | diverged yielded divergence => exact ⟨rfl, .diverged _ _⟩

theorem Brings.other {j : InstanceId} {keys : List Value} {v : Value}
    (brings : c.Brings j n keys v) (alone : c.underWay i = {a}) (own : a.OfResumption) : j ≠ i := by
  rintro rfl
  cases brings with
  | computed σ stack =>
    have mem : .computation n keys ∈ Config.underWay j
        ⟨.value, σ, .run (.done v), .push (.computing j n keys) stack⟩ :=
      Stack.mem_underWay .refl rfl _
    rw [alone] at mem
    rw [← Multiset.mem_singleton.mp mem] at own
    exact own.elim
  | settled completes owner =>
    subst owner
    have mem : .producer _ _ ∈ c.underWay _ := completes.underWay ▸ Multiset.mem_cons_self ..
    rw [alone] at mem
    rw [← Multiset.mem_singleton.mp mem] at own
    exact own.elim

theorem Run.ineffective {frame : Frame K s w} {rest : Stack K w} (own : frame.resumed? = some i)
    (run : Run β G c t d) (stands : c.Stands True i) (alone : c.underWay i = {a})
    (ofResumption : a.OfResumption) (activity : frame.activity? = some (i, a))
    (within : ∀ q ∈ t, q.2.Within (.push frame rest)) {x : Instance K}
    (found : c.state.instances[i]? = some x) :
    d.underWay i = {a} ∧ ∀ q ∈ t, Ineffective i q := by
  induction run with
  | refl => exact ⟨alone, fun _ mem => absurd mem List.not_mem_nil⟩
  | @snoc t d e run guard follows ih =>
    obtain ⟨before, all⟩ := ih fun q mem => within q (List.mem_append_left _ mem)
    have inside := within (d, e) (List.mem_append_right _ (List.mem_singleton_self _))
    have stands' : d.Stands True i := stands.run (fun _ _ _ => trivial) run
    obtain ⟨y, found', -⟩ := run.grows i x found
    obtain ⟨z, found'', -⟩ := follows.grows i y found'
    have turn := follows_turn stands'.absent follows
    rw [found', found''] at turn
    have quiet : e.deed? i ≠ some .resume := fun resumed => inside.not_resumes own
      (stands'.follows (fun _ => trivial) follows) found'' (turn.resumes_alive resumed) resumed
    have still : a ∈ e.underWay i := Stack.mem_underWay inside.rests activity _
    obtain ⟨history, deed, after⟩ := turn.kept before ofResumption still quiet
    refine ⟨after, fun q mem => ?_⟩
    rcases List.mem_append.mp mem with mem | mem
    · exact all q mem
    · rw [List.mem_singleton.mp mem]
      refine ⟨?_, by simp [deed], by simp [deed], fun m => ?_⟩
      · rw [State.history_of_found found', State.history_of_found found'', history]
      · rcases follows_memo follows m with same | clientWrites | ⟨j, n, keys, v, -, brings, -⟩
        · exact .inl same
        · exact .inr (.inl clientWrites)
        · exact .inr (.inr ⟨j, n, keys, v, brings.other before ofResumption, brings⟩)

theorem Run.since_begun {F : Stack K s} {H : Config K → Prop}
    {before after : List (Config K × Config K)} {q : Config K × Config K}
    (run : Run β G c t d) (call : Run β H d u e)
    (outside : ¬ d.Within F) (parts : t ++ u = before ++ q :: after)
    (inside : ∀ r ∈ q :: after, r.2.Within F) : ∃ first, u = first ++ q :: after := by
  rcases List.append_eq_append_iff.mp parts with ⟨first, -, rest⟩ | ⟨last, rfl, rest⟩
  · exact ⟨first, rest⟩
  · rcases List.eq_nil_or_concat' last with rfl | ⟨earlier, r, rfl⟩
    · exact ⟨[], rest.symm⟩
    · have mem : r ∈ q :: after := by simp [rest]
      obtain ⟨-, -, -, ended⟩ := run.split (u := before ++ earlier) (p := r) (v := []) (by simp)
      rcases ended.uncons with ⟨-, rfl⟩ | ⟨-, -, ⟨⟩, -⟩
      exact absurd (inside r mem) outside

theorem Undertakes.outside {frame : Frame K s .result} (undertakes : c.Undertakes i errand base) :
    ¬ c.Within (.push frame base) := by
  intro within
  have deeper : base.depth + 1 ≤ c.stack.depth := within.rests.depth_le
  have level : c.stack.depth ≤ base.depth := by
    cases undertakes with
    | drive => exact le_refl _
    | replay σ h next stack => exact Nat.le_succ stack.depth
    | fork => exact le_refl _
  omega

theorem Run.alone {frame : Frame K .step .result} {p : K.Procedure}
    {input : Option (Resumption K.Artifact)}
    (run : Run β G (start { memory := memory, ambient := ambient } code) t
      ⟨.step, σ, .call (.resume p input), .push frame base⟩)
    (resumed : frame.resumed? = some i) (activity : frame.activity? = some (i, a)) :
    (∃ x, σ.instances[i]? = some x) ∧
      Config.underWay i ⟨.step, σ, .call (.resume p input), .push frame base⟩ = {a} := by
  obtain ⟨-, x, -, found, -⟩ := run.fits.resumed resumed
  have mem : a ∈ Config.underWay i ⟨.step, σ, .call (.resume p input), .push frame base⟩ :=
    Stack.mem_underWay .refl activity _
  obtain ⟨others, under⟩ := Multiset.exists_cons_of_mem mem
  have standing := (run.stands i).present x found
  rw [under] at standing
  rw [under, (standing.of_alive (run.resumed_alive (hands_of_resumed resumed p input) found)).2]
  exact ⟨⟨x, found⟩, rfl⟩

theorem Run.attempt {frame : Frame K .step .result} {p : K.Procedure}
    (run : Run β (fun _ => True) (start { memory := memory, ambient := ambient } code) t c)
    (undertakes : c.Undertakes i errand base)
    (call : Run β (fun _ => True) c u ⟨.step, σ, .run (.done (p, answer)), .push frame base⟩)
    (own : frame.errand? = some (errand, i)) (resumed : frame.resumed? = some i) (d : Config K) :
    ∃ first failing, u ++ [(⟨.step, σ, .run (.done (p, answer)), .push frame base⟩, d)] =
        first ++ (failing ++ [(⟨.step, σ, .run (.done (p, answer)), .push frame base⟩, d)]) ∧
      Attempt β i base errand (some answer)
        (failing ++ [(⟨.step, σ, .run (.done (p, answer)), .push frame base⟩, d)]) ∧
      ∀ q ∈ failing, Ineffective i q := by
  have whole := run.append call
  obtain ⟨x, q, before, υ, e, mid, -, leaves, parts, within, -, first⟩ := whole.resuming resumed
  obtain ⟨-, -, entered, since⟩ := whole.split parts
  obtain rfl := follows_call entered
  obtain ⟨earlier, rfl⟩ := run.since_begun call undertakes.outside parts (by
    intro r mem
    rcases List.mem_cons.mp mem with rfl | mem
    · exact .running _ _
    · exact within r mem)
  refine ⟨earlier, _ :: mid, List.append_assoc .., .answered _ d own resumed leaves.leaves within, ?_⟩
  obtain ⟨a, activity, ofResumption⟩ := Frame.ofResumption resumed
  obtain ⟨⟨y, found⟩, alone⟩ := first.alone resumed activity
  have stands := first.stands i
  have later := since.ineffective resumed (stands.follows (fun _ => trivial) entered) alone ofResumption
    activity within found
  intro r mem
  rcases List.mem_cons.mp mem with rfl | mem
  · exact ⟨rfl, by rintro _ _ ⟨⟩, by rintro _ ⟨⟩, fun _ => .inl rfl⟩
  · exact later.2 r mem

theorem ineffective_of_ended (base : Stack K .result) {f : Instance K → Instance K}
    (found : σ.instances[i]? = some x) (status : (f x).status = .terminated)
    (history : ∀ y, (f y).history = y.history)
    (control : Control K s) (stack : Stack K s) (result : Except Fault Unit) :
    (∃ y, (σ.modifyInstance i f).instances[i]? = some y ∧ y.status = .terminated) ∧
      (σ.modifyInstance i f).history i = σ.history i ∧
      Ineffective i (⟨s, σ, control, stack⟩,
        ⟨.result, σ.modifyInstance i f, .run (.done result), base⟩) := by
  have kept : (σ.modifyInstance i f).history i = σ.history i :=
    State.history_modifyInstance i history i
  refine ⟨⟨f x, ?_, status⟩, kept, kept, by rintro _ _ ⟨⟩, by rintro _ ⟨⟩, fun m => .inl rfl⟩
  rw [State.instances_modifyInstance_self, found]
  rfl

theorem Run.refusal {frame : Frame K .step .result} {p : K.Procedure}
    (run : Run β G (start { memory := memory, ambient := ambient } code) t
      ⟨.step, σ, .run (.done (p, answer)), .push frame base⟩)
    (own : frame.errand? = some (errand, i)) (resumed : frame.resumed? = some i)
    (follows : Follows β ⟨.step, σ, .run (.done (p, answer)), .push frame base⟩
      ⟨.result, τ, .run (.done (.error fault)), base⟩) :
    (∃ x, τ.instances[i]? = some x ∧ x.status = .terminated) ∧
      Refusal (τ.history i).length errand (some answer) fault ∧
      Ineffective i (⟨.step, σ, .run (.done (p, answer)), .push frame base⟩,
        ⟨.result, τ, .run (.done (.error fault)), base⟩) := by
  cases frame with
  | stepping j n =>
    cases own
    obtain ⟨position, x, p₀, input, found, -, interprets⟩ := run.interpreted
    obtain ⟨overtaken, interprets⟩ := interprets _ follows
    have alive : x.status ≠ .terminated := fun ended => by cases overtaken ended
    obtain ⟨same, refusal⟩ := (interprets alive).refusal
    rw [State.modifyInstance_modifyInstance] at same
    obtain ⟨ended, kept, ineffective⟩ := ineffective_of_ended base found
      (f := (·.fail) ∘ (·.takeBack p)) rfl (fun _ => rfl) (.run (.done (p, answer)))
      (.push (.stepping i n) base) (.error fault)
    subst same
    exact ⟨ended, by rwa [kept, ← position], ineffective⟩
  | replaying j e later =>
    cases own
    obtain ⟨x, p₀, input, found, -, replays⟩ := run.replayed
    obtain ⟨same, refusal⟩ := (replays _ follows).refusal
    obtain ⟨ended, kept, ineffective⟩ := ineffective_of_ended base found
      (f := fun x => (x.takeBack p).fail) rfl (fun _ => rfl) (.run (.done (p, answer)))
      (.push (.replaying i e later) base) (.error fault)
    subst same
    exact ⟨ended, by rwa [kept], ineffective⟩
  | _ => cases resumed

theorem Run.declines {H : Config K → Prop} {above : Stack K .result}
    (run : Run β G (start { memory := memory, ambient := ambient } code) t d)
    (found : d.state.instances[i]? = some x) (ended : x.status = .terminated)
    (later : Run β H d u ⟨.result, σ, .advance i, above⟩) :
    step β ⟨.result, σ, .advance i, above⟩ = .ok ⟨.result, σ, .run (.done (.ok ())), above⟩ := by
  have stands := run.stands i
  obtain ⟨y, found', ended', -⟩ := stands.final (fun _ _ _ => trivial) later found ended
  have standing := (stands.run (fun _ _ _ => trivial) later).present y found'
  have unlocked : above.locksInstance i = false :=
    unlocked_iff.mpr fun a mem locks => (standing.suits_of_locks mem locks).alive ended'
  rw [step_advance, Next.startStep, Next.withInstance, if_neg (by simp [unlocked])]
  simp only [show σ.instances[i]? = some y from found', ended']
  rfl

inductive Refused (i : InstanceId) (base : Stack K .result) (x : Instance K) :
    Errand → Fault → Prop
  | inside {n : Position} {rest : Stack K .result}
    (inside : (Stack.push (.stepping i n) rest : Stack K .step).Rests base) :
    Refused i base x .drive (.contract x.history.length .proceedInsideStep)
  | unfit (reason : x.history ≠ [] ∨ x.status ≠ .paused) :
    Refused i base x .replay (.contract x.history.length .replayNotFresh)

/-- An errand has ended its instance, for what its last step has answered. -/
structure Ends (β : Behaviour K) (i : InstanceId) (errand : Errand) (base : Stack K .result)
    (fault : Fault) (u : List (Config K × Config K)) (τ : State K) : Prop where
  ended : ∃ x, τ.instances[i]? = some x ∧ x.status = .terminated
  last : ∃ first failing answer, u = first ++ failing ∧ Attempt β i base errand answer failing ∧
    Refusal (τ.history i).length errand answer fault ∧ ∀ q ∈ failing, Ineffective i q

theorem ends_of_full {limit : Nat} (found : σ.instances[i]? = some x)
    (full : x.exhausted? = some limit) (u : List (Config K × Config K)) :
    Ends β i .drive base (.historyLimit limit)
      (u ++ [(⟨.result, σ, .advance i, base⟩, ⟨.result, σ.modifyInstance i (·.fail),
        .run (.done (.error (.historyLimit limit))), base⟩)]) (σ.modifyInstance i (·.fail)) := by
  obtain ⟨ended, kept, ineffective⟩ := ineffective_of_ended base found (f := (·.fail)) rfl (fun _ => rfl)
    (.advance i) base (.error (.historyLimit limit))
  have exceeded : limit ≤ x.position := by
    simpa using (Option.filter_eq_some_iff.mp full).2
  refine ⟨ended, u, _, none, rfl, .unstarted σ _, ?_, ?_⟩
  · rw [kept, State.history_of_found found]
    exact .full exceeded
  · exact List.forall_mem_singleton.mpr ineffective

theorem Run.ends {frame : Frame K .step .result} {p : K.Procedure}
    (run : Run β (fun _ => True) (start { memory := memory, ambient := ambient } code) t c)
    (undertakes : c.Undertakes i errand base)
    (call : Run β (fun _ => True) c u ⟨.step, σ, .run (.done (p, answer)), .push frame base⟩)
    (own : frame.errand? = some (errand, i)) (resumed : frame.resumed? = some i)
    (follows : Follows β ⟨.step, σ, .run (.done (p, answer)), .push frame base⟩
      ⟨.result, τ, .run (.done (.error fault)), base⟩) :
    Ends β i errand base fault (u ++ [(⟨.step, σ, .run (.done (p, answer)), .push frame base⟩,
      ⟨.result, τ, .run (.done (.error fault)), base⟩)]) τ := by
  obtain ⟨ended, refusal, ineffective⟩ := (run.append call).refusal own resumed follows
  obtain ⟨first, failing, parts, attempt, all⟩ := run.attempt undertakes call own resumed
    ⟨.result, τ, .run (.done (.error fault)), base⟩
  refine ⟨ended, first, _, some answer, parts, attempt, refusal, ?_⟩
  intro q mem
  rcases List.mem_append.mp mem with mem | mem
  · exact all q mem
  · rw [List.mem_singleton.mp mem]
    exact ineffective

theorem Run.unanswered (call : Run β (fun c => ¬ c.Panics ∧ ¬ c.Answered base) c u d)
    (waits : ¬ d.Answered base) : ∀ q ∈ u, ¬ q.2.Answered base := by
  induction call with
  | refl => exact fun _ mem => absurd mem List.not_mem_nil
  | snoc _ guard _ ih =>
    intro q mem
    rcases List.mem_append.mp mem with mem | mem
    · exact ih guard.2 q mem
    · rw [List.mem_singleton.mp mem]
      exact waits

theorem Run.not_inside {rest : Stack K .result} (stands : c.Stands True i)
    (undertakes : c.Undertakes i .drive base)
    (inside : (Stack.push (.stepping i n) rest).Rests base)
    (call : Run β (fun c => ¬ c.Panics ∧ ¬ c.Answered base) c u d) (waits : ¬ d.Answered base) :
    u = [] ∧ d = c := by
  cases undertakes
  rcases call.uncons with none | ⟨e, v, rfl, first, -⟩
  · exact none
  · exact absurd (inside_answers stands inside first)
      (call.unanswered waits (_, e) (List.mem_cons_self ..))

/-- An errand that is answered with a fault was refused, or it has ended its instance. -/
theorem Run.refused_or_ends
    (run : Run β (fun c => ¬ c.Panics) (start { memory := memory, ambient := ambient } code) t c)
    (undertakes : c.Undertakes i errand base)
    (call : Run β (fun c => ¬ c.Panics ∧ ¬ c.Answered base) c u d)
    (faults : d = ⟨.result, τ, .run (.done (.error fault)), base⟩) :
    (u = [(c, d)] ∧ τ = c.state ∧
      ∃ x, c.state.instances[i]? = some x ∧ Refused i base x errand fault) ∨
    Ends β i errand base fault u τ := by
  cases call with
  | refl =>
    subst faults
    cases undertakes
  | @snoc v q _ call guard follows =>
    subst faults
    have lends : q.Lends i :=
      (run.append (call.imp fun c guard => guard.1)).lends fun c calm => calm
    rcases run.pursued undertakes call with ⟨rfl, rfl⟩ | pursues | answered
    · cases errand with
      | drive =>
        cases undertakes
        obtain ⟨x, found, ⟨rfl, ⟨n, rest, inside⟩, rfl⟩ | ⟨limit, full, rfl, rfl⟩⟩ :=
          advance_fault lends follows
        · exact .inl ⟨rfl, rfl, x, found, .inside inside⟩
        · exact .inr (ends_of_full found full [])
      | replay =>
        rcases undertakes.replays lends follows with pursues | ⟨-, refused⟩
        · exact absurd ⟨τ, _, rfl⟩ pursues.not_answered
        · obtain ⟨same, x, found, reason, rfl⟩ := refused τ fault rfl
          exact .inl ⟨rfl, same, x, found, .unfit reason⟩
    · rcases pursues.of_fault guard.1 follows with ⟨rfl, σ, rfl⟩ | ⟨frame, σ, answer, rfl, own, resumed⟩
      · obtain ⟨x, found, ⟨rfl, ⟨n, rest, inside⟩, rfl⟩ | ⟨limit, full, rfl, rfl⟩⟩ :=
          advance_fault lends follows
        · obtain ⟨rfl, rfl⟩ := Run.not_inside (run.stands i) undertakes inside call guard.2
          exact .inl ⟨rfl, rfl, x, found, .inside inside⟩
        · exact .inr (ends_of_full found full v)
      · exact .inr ((run.imp fun _ _ => trivial).ends undertakes (call.imp fun _ _ => trivial) own
          resumed follows)
    · exact absurd answered guard.2

end Config

open Config in
/-- Errors are atomic or fatal. In a run without a panic, let an instance be driven, by a client or by
a component, or let it replay a history, and let that be answered with a fault. Either it was driven
from inside its own step, or was to replay though it was not fresh and paused: then the fault is a
breach at the position behind its entries and nothing has changed. Or the instance is terminated,
the fault is what its last step has come to, a breach again at the position behind the entries and
every other fault that a driven step reports as it is, and nothing came of that step for the instance,
its signals, its producers and the memos but what the step's own code has asked for. From then on
every drive of the instance is answered at once, in the same state and without a fault. -/
theorem errors_are_atomic_or_fatal {memory : K.Memory} {ambient : Bool} {code : Code K Unit}
    {t u : List (Config K × Config K)} {c d : Config K} {errand : Errand} {base : Stack K .result}
    {τ : State K} {fault : Fault}
    (run : Run β (fun c => ¬ c.Panics) (start { memory := memory, ambient := ambient } code) t c)
    (undertakes : c.Undertakes i errand base)
    (call : Run β (fun c => ¬ c.Panics ∧ ¬ c.Answered base) c u d)
    (faults : d = ⟨.result, τ, .run (.done (.error fault)), base⟩) :
    (u = [(c, d)] ∧ τ = c.state ∧
      ∃ x, c.state.instances[i]? = some x ∧ Refused i base x errand fault) ∨
    Ends β i errand base fault u τ ∧
      ∀ (G : Config K → Prop) w υ above, Run β G d w ⟨.result, υ, .advance i, above⟩ →
        step β ⟨.result, υ, .advance i, above⟩ =
          .ok ⟨.result, υ, .run (.done (.ok ())), above⟩ := by
  refine (run.refused_or_ends undertakes call faults).imp_right fun ends => ⟨ends, ?_⟩
  intro G w υ above later
  subst faults
  obtain ⟨x, found, ended⟩ := ends.ended
  have whole := (run.imp (H := fun _ => True) fun _ _ => trivial).append
    (call.imp fun _ _ => trivial)
  exact whole.declines found ended later

namespace Sketch

def breachCode : Code client Unit :=
  .call .newMemo fun m =>
    .call (.newInstance { moves := [.hold (.int 1), .fail (.contract 9 .valueMissing)] } m {})
      fun i => .call (.proceed i) fun _ => .call (.proceed i) fun _ =>
        .call (.replay i [.state (.int 1)]) fun _ => .done ()

def breached (n : Nat) : Config client :=
  Config.after behaviour n (.start { memory := () } breachCode)

def composed : Config client → Bool
  | ⟨_, _, .run (.panic _), _⟩ => false
  | _ => true

theorem not_panics_of_composed (c : Config client) (h : composed c = true) : ¬ c.Panics := by
  obtain ⟨s, σ, control, stack⟩ := c
  rintro ⟨payload, same⟩
  dsimp only at same
  subst same
  cases h

theorem unanswered_of_pending {base : Stack client .result} (c : Config client)
    (h : (composed c && pending base.depth c) = true) : ¬ c.Panics ∧ ¬ c.Answered base := by
  rw [Bool.and_eq_true] at h
  refine ⟨not_panics_of_composed c h.1, ?_⟩
  rintro ⟨σ, answer, rfl⟩
  simp [pending] at h

theorem breach_run (n : Nat)
    (checked : ((Config.trail behaviour n (.start { memory := () } breachCode)).all fun p =>
      composed p.1) = true) :
    Config.Run behaviour (fun c => ¬ c.Panics) (.start { memory := () } breachCode)
      (Config.trail behaviour n (.start { memory := () } breachCode)) (breached n) :=
  .walk not_panics_of_composed n _ checked

theorem breach_is_fatal :
    (∃ x, (breached 13).state.instances[0]? = some x ∧ x.status = .terminated) ∧
    (∃ above, Config.step behaviour (breached 15) =
      .ok ⟨.result, (breached 15).state, .run (.done (.ok ())), above⟩) ∧
    (breached 18).state = (breached 17).state := by
  obtain ⟨once, -⟩ | ⟨ends, declines⟩ :=
    errors_are_atomic_or_fatal (breach_run 5 (by decide +kernel)) (.drive _ _)
      (.walk unanswered_of_pending 8 (breached 5) (by decide +kernel)) rfl
  · exact absurd (congrArg List.length once) (by decide +kernel)
  · refine ⟨ends.ended, ⟨_, declines (fun _ => True) _ _ _ (.walk_all 2 _)⟩, ?_⟩
    obtain ⟨-, same, -⟩ | ⟨again, -⟩ :=
      errors_are_atomic_or_fatal (breach_run 17 (by decide +kernel)) (.replay _ _ _ _)
        (.walk unanswered_of_pending 1 (breached 17) (by decide +kernel)) rfl
    · exact same
    · obtain ⟨_, _, _, _, _, refusal, _⟩ := again.last
      cases refusal

end Sketch

end Resumable
