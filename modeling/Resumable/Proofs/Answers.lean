import Resumable.Proofs.Resumptions

namespace Resumable

variable {K : Client} {β : Behaviour K} {s w : Shape} {i : InstanceId} {lost : Prop}

inductive Resumption.Fed {A : Type} (owner : Nat) : History A → Option (Resumption A) → Prop
  | start : Fed owner [] none
  | view (h : History A) (a : A) : Fed owner (h ++ [.view a]) none
  | yielded (h : History A) (v : Value) : Fed owner (h ++ [.yielded v]) (some (.value v))
  | state (h : History A) (v : Value) :
    Fed owner (h ++ [.state v]) (some (.cell ⟨v, ⟨owner, h⟩⟩))

theorem Resumption.fed_next? {A : Type} (owner : Nat) (h : History A) :
    Fed owner h (next? owner h) := by
  rcases List.eq_nil_or_concat' h with rfl | ⟨h, e, rfl⟩
  · exact .start
  · rw [next?_push]
    cases e with
    | view a => exact .view h a
    | yielded v => exact .yielded h v
    | state v => exact .state h v

def Frame.resumed? : Frame K s w → Option InstanceId
  | stepping i _ => some i
  | replaying i _ _ => some i
  | _ => none

theorem Frame.calls_of_resumed {frame : Frame K s w} (own : frame.resumed? = some i) :
    frame.calls = true := by
  cases frame <;> first | rfl | cases own

theorem Frame.activity_of_resumed {frame : Frame K s w} (own : frame.resumed? = some i) :
    ∃ a, frame.activity? = some (i, a) := by
  cases frame <;> cases own <;> exact ⟨_, rfl⟩

theorem Frame.resumed_of_deed {frame : Frame K s w}
    (deed : ownedBy i frame.deed? = some (.resume : Deed K.Artifact)) :
    frame.resumed? = some i := by
  cases frame with
  | stepping j n => exact congrArg some (ownedBy_some_eq_some.mp deed).1
  | replaying j e later => exact congrArg some (ownedBy_some_eq_some.mp deed).1
  | launching j n keys => cases (ownedBy_some_eq_some.mp deed).2
  | _ => cases deed

theorem Frame.Fits.resumed {σ : State K} {frame : Frame K s w} {rest : Stack K w} {call : Call K s}
    (fits : frame.Fits σ rest call) (own : frame.resumed? = some i) :
    ∃ (same : Shape.step = s) (x : Instance K) (p : K.Procedure), σ.instances[i]? = some x ∧
      call = same ▸ .resume p (Resumption.next? i x.history) := by
  cases frame with
  | stepping j n =>
    cases own
    obtain ⟨x, p, found, -, same⟩ := fits
    exact ⟨rfl, x, p, found, same⟩
  | replaying j e later =>
    cases own
    obtain ⟨x, p, found, same⟩ := fits
    exact ⟨rfl, x, p, found, same⟩
  | _ => cases own

theorem Stack.mem_underWay {frame : Frame K s w} {rest : Stack K w} {u : Shape} {stack : Stack K u}
    {a : Activity} (rests : (push frame rest).Rests stack) (own : frame.activity? = some (i, a))
    (as : Multiset Activity) : a ∈ stack.underWay i as := by
  induction rests with
  | refl =>
    rw [underWay, own]
    exact Activity.mem_also.mpr (.inl (if_pos rfl))
  | push _ top ih =>
    rw [underWay]
    exact Activity.mem_also.mpr (.inr ih)

section Turn

variable {loses : Prop} {cut : SubscriptionId → Prop} {memos : MemoId → Memo} {x x' : Instance K}
  {o : Option (Instance K)} {as as' : Multiset Activity} {deed : Option (Deed K.Artifact)}

theorem Turn.resumes_alive (turn : Turn loses cut memos o as deed (some x') as')
    (resumed : deed = some .resume) : x'.status ≠ .terminated := by
  cases turn with
  | bornReplaying _ status => exact fun ended => absurd (status.symm.trans ended) (by decide)
  | started => rintro ⟨⟩
  | replayStarted status => exact fun ended => absurd (status.symm.trans ended) (by decide)
  | replayed => rintro ⟨⟩
  | _ => cases resumed

theorem Turn.history_kept (turn : Turn loses cut memos (some x) as deed (some x') as')
    (stands : x.Stands lost as) (still : as' ≠ 0) (quiet : deed ≠ some .resume) :
    x'.history = x.history := by
  cases turn with
  | stays _ _ history => exact history
  | completed alive => exact absurd (stands.of_alive alive).2 still
  | recorded alive => exact absurd (stands.of_alive alive).2 still
  | computed alive => exact absurd (stands.of_alive alive).2 still
  | settled running => exact absurd (stands.of_alive (by simp [running])).2 still
  | replayed => exact absurd rfl quiet
  | replayEnded => exact absurd (stands.of_locks trivial).2 still
  | replayCompleted => exact absurd (stands.of_locks trivial).2 still
  | _ => rfl

end Turn

namespace Config

variable {c d : Config K} {t : List (Config K × Config K)} {G : Config K → Prop}

theorem Within.not_resumes {frame : Frame K s w} {rest : Stack K w}
    (within : d.Within (.push frame rest)) (own : frame.resumed? = some i)
    (stands : d.Stands lost i) {x : Instance K} (found : d.state.instances[i]? = some x)
    (alive : x.status ≠ .terminated) : d.deed? i ≠ some .resume := by
  obtain ⟨a, activity⟩ := Frame.activity_of_resumed own
  intro resumed
  cases within with
  | running => cases resumed
  | above σ control top rests =>
    cases control with
    | call call =>
      obtain ⟨b, activity'⟩ := Frame.activity_of_resumed (Frame.resumed_of_deed resumed)
      have stands := stands.present x found
      simp only [Config.underWay, Stack.underWay, activity', ownedBy_some_self] at stands
      have mem := Stack.mem_underWay rests activity (σ.underWay i)
      rw [(stands.of_alive alive).2] at mem
      exact Multiset.notMem_zero _ mem
    | emit source signal =>
      cases source with
      | free => cases resumed
      | ofInstance j =>
        cases signal with
        | forked => cases resumed
        | _ => cases (ownedBy_some_eq_some.mp resumed).2
    | _ => cases resumed

theorem Within.history {frame : Frame K s w} {rest : Stack K w} (run : Run β G c t d)
    (stands : c.Stands True i) (own : frame.resumed? = some i)
    (within : ∀ p ∈ t, p.2.Within (.push frame rest)) {x : Instance K}
    (found : c.state.instances[i]? = some x) :
    ∃ x', d.state.instances[i]? = some x' ∧ x'.history = x.history := by
  induction run with
  | refl => exact ⟨x, found, rfl⟩
  | @snoc t d e run guard follows ih =>
    obtain ⟨y, found', same⟩ := ih fun p mem => within p (List.mem_append_left _ mem)
    obtain ⟨z, found'', -⟩ := follows.grows i y found'
    have before : d.Stands True i := stands.run (fun _ _ _ => trivial) run
    have after : e.Stands True i := before.follows (fun _ => trivial) follows
    have inside := within (d, e) (List.mem_append_right _ (List.mem_singleton_self _))
    have turn := follows_turn before.absent follows
    rw [found', found''] at turn
    obtain ⟨a, activity⟩ := Frame.activity_of_resumed own
    have still : e.underWay i ≠ 0 := fun none =>
      absurd (none ▸ Stack.mem_underWay inside.rests activity _) (Multiset.notMem_zero a)
    have quiet : e.deed? i ≠ some .resume := fun resumed =>
      inside.not_resumes own after found'' (turn.resumes_alive resumed) resumed
    exact ⟨z, found'', (turn.history_kept (before.present y found') still quiet).trans same⟩

theorem follows_call {σ : State K} {call : Call K s} {stack : Stack K s}
    (follows : Follows β ⟨s, σ, .call call, stack⟩ d) : d = ⟨s, σ, .run (β.code call), stack⟩ :=
  (Except.ok.inj (follows.step_eq (by rintro _ _ ⟨⟩))).symm

theorem underWay_ne_zero {frame : Frame K s w} {rest : Stack K w} (own : frame.resumed? = some i)
    {σ : State K} {control : Control K s} :
    Config.underWay i ⟨s, σ, control, .push frame rest⟩ ≠ 0 := by
  obtain ⟨a, activity⟩ := Frame.activity_of_resumed own
  exact fun none => absurd (none ▸ Stack.mem_underWay .refl activity _) (Multiset.notMem_zero a)

structure Resumed (β : Behaviour K) (i : InstanceId) (t : List (Config K × Config K))
    (h : History K.Artifact) (frame : Frame K .step .result) (rest : Stack K .result)
    (answer : Shape.step.Answer K) (p : K.Procedure) (input : Option (Resumption K.Artifact)) :
    Prop where
  fed : Resumption.Fed i h input
  leaves : (β.code (.resume p input)).Leaves (.done answer)
  called : ∃ before τ d after,
    t = before ++ (⟨.step, τ, .call (.resume p input), .push frame rest⟩, d) :: after ∧
    (∀ q ∈ after, q.2.Within (.push frame rest)) ∧ τ.history i = h ∧
    (resumedAt i before).length = h.length + 1
  last : (resumedAt i t).length = h.length + 1

variable {memory : K.Memory} {ambient : Bool} {code : Code K Unit}

/-- Code that runs above a frame that resumes a procedure is left of that resumption, which was fed
what the last entry calls for; the history has stayed since. -/
theorem Run.resuming {σ : State K} {frame : Frame K .step .result} {rest : Stack K .result}
    {code' : Code K (Shape.step.Answer K)}
    (run : Run β G (start { memory := memory, ambient := ambient } code) t
      ⟨.step, σ, .run code', .push frame rest⟩) (own : frame.resumed? = some i) :
    ∃ x p before τ d after, σ.instances[i]? = some x ∧
      (β.code (.resume p (Resumption.next? i x.history))).LeavesBy
        (Ran t (.push frame rest)) code' ∧
      t = before ++ (⟨.step, τ, .call (.resume p (Resumption.next? i x.history)),
        .push frame rest⟩, d) :: after ∧
      (∀ q ∈ after, q.2.Within (.push frame rest)) ∧ τ.history i = x.history ∧
      Run β G (start { memory := memory, ambient := ambient } code) before
        ⟨.step, τ, .call (.resume p (Resumption.next? i x.history)), .push frame rest⟩ := by
  obtain ⟨call, before, τ, d, after, leaves, rfl, within, first⟩ :=
    run.running (Frame.calls_of_resumed own)
  obtain ⟨_, y, p, origin, rfl⟩ := first.fits.resumed own
  obtain ⟨-, -, follows, since⟩ := run.split rfl
  have stands : Stands True i ⟨.step, τ, .call (.resume p (Resumption.next? i y.history)),
      .push frame rest⟩ := first.stands _
  have entered := follows_call follows
  obtain ⟨x, found, same⟩ := Within.history since (stands.follows (fun _ => trivial) follows) own
    within (x := y) (by rw [entered]; exact origin)
  rw [← same] at leaves first ⊢
  exact ⟨x, p, before, τ, d, after, found, leaves, rfl, within,
    (State.history_of_found origin).trans same.symm, first⟩

theorem Run.resumed {σ : State K} {frame : Frame K .step .result} {rest : Stack K .result}
    {answer : Shape.step.Answer K}
    (run : Run β G (start { memory := memory, ambient := ambient } code) t
      ⟨.step, σ, .run (.done answer), .push frame rest⟩) (own : frame.resumed? = some i) :
    ∃ x p input, σ.instances[i]? = some x ∧
      Resumed β i t x.history frame rest answer p input := by
  obtain ⟨x, p, before, τ, d, after, found, leaves, rfl, within, same, first⟩ := run.resuming own
  obtain ⟨_, y, -, origin, -⟩ := first.fits.resumed own
  have countFirst := ((first.paced i).present y origin).busy (underWay_ne_zero own)
  have countLast := ((run.paced i).present x found).busy (underWay_ne_zero own)
  rw [State.history_of_found origin] at same
  refine ⟨x, p, _, found, Resumption.fed_next? i x.history, leaves.leaves,
    ⟨before, τ, d, after, rfl, within, ?_, ?_⟩, countLast⟩
  · rw [State.history_of_found origin, same]
  · rw [countFirst, same]

/-- A procedure is fed what the last entry calls for, and there have been as many resumptions before
as there are entries. -/
theorem Run.fed {σ : State K} {frame : Frame K s w} {rest : Stack K w} {call : Call K s}
    (run : Run β G (start { memory := memory, ambient := ambient } code) t
      ⟨s, σ, .call call, .push frame rest⟩) (own : frame.resumed? = some i) :
    ∃ (same : Shape.step = s) (p : K.Procedure) (input : Option (Resumption K.Artifact)),
      call = same ▸ .resume p input ∧ Resumption.Fed i (σ.history i) input ∧
      (resumedAt i t).length = (σ.history i).length + 1 := by
  obtain ⟨same, x, p, found, shape⟩ := run.fits.resumed own
  rw [State.history_of_found found]
  exact ⟨same, p, _, shape, Resumption.fed_next? i x.history,
    ((run.paced i).present x found).busy (underWay_ne_zero own)⟩

end Config

inductive Entry.Meets {A P C : Type} : Entry A → Except Fault (Yielded A P C) → Prop
  | effect {e : Entry A} {effect : Effect A P C} (fits : e.recordedBy effect.kind = true) :
    Meets e (.ok (.effect effect))
  | complete (a b : A) : Meets (.view a) (.ok (.complete b))

theorem Effect.Records.recordedBy {A P C : Type} {held : List Value → Option Value}
    {effect : Effect A P C} {e : Entry A} (records : effect.Records held e) :
    e.recordedBy effect.kind = true := by
  cases records <;> rfl

namespace Config

/-- What the answer of a step leads to for an instance that is there: every lookup, call and fault is
for the given position. -/
inductive Interprets (i : InstanceId) (n : Position) (σ : State K) (x : Instance K)
    (rest : Stack K .result) : Except Fault K.Yielded → Config K → Prop
  | failed (fault : Fault) : Interprets i n σ x rest (.error fault)
      ⟨.result, σ.modifyInstance i (·.fail), .run (.done (.error (fault.stamp n))), rest⟩
  | completed (a : K.Artifact) : Interprets i n σ x rest (.ok (.complete a))
      ⟨.unit, σ.modifyInstance i (·.complete a), .emit (.ofInstance i) .done,
        .push (.proceeding i) rest⟩
  | recorded {effect : Effect K.Artifact K.Producer K.Computation} {e : Entry K.Artifact}
    (records : effect.Records ((σ.memo x.memo).lookup n) e) :
    Interprets i n σ x rest (.ok (.effect effect))
      ⟨.unit, σ.modifyInstance i (·.record e), .emit (.ofInstance i) .ready,
        .push (.proceeding i) rest⟩
  | computing {computation : K.Computation} {keys : List Value}
    (missed : (σ.memo x.memo).lookup n keys = none) :
    Interprets i n σ x rest (.ok (.effect (.compute computation keys)))
      ⟨.value, σ, .call (.compute computation), .push (.computing i n keys) rest⟩
  | launching {producer : K.Producer} {keys : Option (List Value)}
    (missed : keys.bind ((σ.memo x.memo).lookup n) = none) :
    Interprets i n σ x rest (.ok (.effect (.await producer keys)))
      ⟨.future, σ, .call (.produce producer), .push (.launching i n keys) rest⟩
  | stranded {producer : K.Producer} {keys : Option (List Value)}
    (missed : keys.bind ((σ.memo x.memo).lookup n) = none) :
    Interprets i n σ x rest (.ok (.effect (.await producer keys)))
      ⟨.result, σ.modifyInstance i (·.fail), .run (.done (.error (.noRuntime n))), rest⟩

inductive Replays (i : InstanceId) (n : Position) (σ : State K) (e : Entry K.Artifact)
    (later : History K.Artifact) (p : K.Procedure) (rest : Stack K .result) :
    Except Fault K.Yielded → Config K → Prop
  | failed (fault : Fault) : Replays i n σ e later p rest (.error fault)
      ⟨.result, σ.modifyInstance i fun x => (x.takeBack p).fail,
        .run (.done (.error (.diverged n (.stepFailed fault.message)))), rest⟩
  | diverged (yielded : K.Yielded) (divergence : Divergence) :
    Replays i n σ e later p rest (.ok yielded)
      ⟨.result, σ.modifyInstance i fun x => (x.takeBack p).fail,
        .run (.done (.error (.diverged n divergence))), rest⟩
  | completed {a : K.Artifact} (b : K.Artifact) (entry : e = .view a) (last : later = []) :
    Replays i n σ e later p rest (.ok (.complete b))
      ⟨.result, σ.modifyInstance i fun x => (x.takeBack p).complete a, .run (.done (.ok ())), rest⟩
  | ended {effect : Effect K.Artifact K.Producer K.Computation}
    (fits : e.recordedBy effect.kind = true) (last : later = []) :
    Replays i n σ e later p rest (.ok (.effect effect))
      ⟨.result, (σ.modifyInstance i (·.record e)).modifyInstance i (·.takeBack p),
        .run (.done (.ok ())), rest⟩
  | resumed {effect : Effect K.Artifact K.Producer K.Computation}
    (fits : e.recordedBy effect.kind = true) {next : Entry K.Artifact} {others : History K.Artifact}
    (more : later = next :: others) (input : Option (Resumption K.Artifact)) :
    Replays i n σ e later p rest (.ok (.effect effect))
      ⟨.step, σ.modifyInstance i (·.record e), .call (.resume p input),
        .push (.replaying i next others) rest⟩

end Config

namespace Next

variable {σ : State K} {x : Instance K} {rest : Stack K .result} {p : K.Procedure}
  {answer : Except Fault K.Yielded}

theorem interpret_interprets (n : Position)
    (effect : Effect K.Artifact K.Producer K.Computation) :
    (interpret σ rest i x n effect).Holds
      (Config.Interprets i n σ x rest (.ok (.effect effect))) := by
  refine Holds.interpret ?recorded ?computing ?launching ?stranded
  case recorded => exact fun _ records => holds_emit.mpr (.recorded records)
  case computing =>
    rintro computation keys rfl missed
    exact holds_call.mpr (.computing missed)
  case launching =>
    rintro producer keys rfl missed
    exact holds_call.mpr (.launching missed)
  case stranded =>
    rintro producer keys rfl missed -
    exact holds_give.mpr (.stranded missed)

theorem finishStep_interprets (n : Position) (found : σ.instances[i]? = some x)
    (alive : x.status ≠ .terminated) : (finishStep σ rest i n p answer).Holds
      (Config.Interprets i n (σ.modifyInstance i (·.takeBack p)) (x.takeBack p) rest answer) := by
  have alive' : (x.takeBack p).status ≠ .terminated := alive
  simp only [finishStep, State.instances_modifyInstance_self, found, Option.map_some, if_neg alive']
  cases answer with
  | error fault => exact holds_give.mpr (.failed fault)
  | ok yielded =>
    cases yielded with
    | complete a => exact holds_emit.mpr (.completed a)
    | effect effect => exact interpret_interprets n effect

theorem finishReplayed_replays (e : Entry K.Artifact) (later : History K.Artifact)
    (found : σ.instances[i]? = some x) : (finishReplayed σ rest i e later p answer).Holds
      (Config.Replays i x.history.length σ e later p rest answer) := by
  simp only [finishReplayed, found]
  cases answer with
  | error fault => exact holds_give.mpr (.failed fault)
  | ok yielded =>
    cases yielded with
    | complete b =>
      dsimp only
      split
      · next a => exact holds_give.mpr (.completed b rfl rfl)
      · exact holds_give.mpr (.diverged _ _)
    | effect effect =>
      dsimp only
      split
      · next fits =>
        split
        · exact holds_give.mpr (.ended fits rfl)
        · exact holds_call.mpr (.resumed fits rfl _)
      · exact holds_give.mpr (.diverged _ _)

end Next

end Resumable
