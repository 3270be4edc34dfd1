import Resumable.Proofs.HostingTurns
import Mathlib.Data.List.Basic

namespace Resumable

variable {K : Client} {β : Behaviour K} {s w : Shape} {σ σ' before : State K} {i : InstanceId}

def Shape.Plain : Shape → Prop
  | step => False
  | procedure => False
  | _ => True

theorem State.current_of_seat {c : ComponentId} (same : σ'.seat c = σ.seat c) :
    σ'.current c = σ.current c := by
  have eq : ∀ τ : State K, τ.current c = (τ.seat c).bind (·.1) := by
    intro τ
    simp only [current, seat]
    cases τ.components[c]? <;> rfl
  rw [eq, eq, same]

namespace Host

variable {H : Host β} {a : Nat} {stack : Stack K s}

theorem Takes.grows {frame : Frame K s w} {r : Except Payload (s.Answer K)}
    (takes : H.Takes σ frame r) (grows : σ.Grows σ') : H.Takes σ' frame r := by
  cases frame with
  | stepping i n =>
    intro p answer eq
    obtain ⟨x, found, keeps⟩ := takes p answer eq
    obtain ⟨x', found', later⟩ := grows i x found
    refine ⟨x', found', fun hears => ?_⟩
    obtain ⟨kept, shown⟩ := keeps (later.hears _ hears)
    exact ⟨kept.grows grows, shown.grows grows⟩
  | replaying i e later =>
    intro p answer eq
    obtain ⟨x, found, keeps⟩ := takes p answer eq
    obtain ⟨x', found', later⟩ := grows i x found
    exact ⟨x', found', fun hears => (keeps (later.hears _ hears)).grows grows⟩
  | mounting => exact takes
  | forking => exact takes
  | _ => trivial

theorem Allowed.grows {r : Except Payload (s.Answer K)} (allowed : H.Allowed σ stack r)
    (grows : σ.Grows σ') : H.Allowed σ' stack r := by
  cases stack with
  | empty => trivial
  | push frame rest => exact Takes.grows allowed grows

theorem allowed_of_plain (plain : s.Plain) (r : Except Payload (s.Answer K)) :
    H.Allowed σ stack r := by
  cases stack with
  | empty => trivial
  | push frame rest =>
    cases frame with
    | stepping => exact plain.elim
    | replaying => exact plain.elim
    | mounting => exact plain.elim
    | forking => exact plain.elim
    | _ => trivial

theorem FrameOk.grows {frame : Frame K s w} {rest : Stack K w} (ok : H.FrameOk σ frame rest)
    (grows : σ.Grows σ') : H.FrameOk σ' frame rest := by
  cases frame with
  | waiting next => exact fun answer => (ok answer).imp fun r allowed => allowed.grows grows
  | stepping => exact ok
  | emitting => exact ok
  | entering => exact ok
  | mounting => exact ok
  | replaying i e later =>
    obtain ⟨x, found, passed⟩ := ok
    obtain ⟨x', found', grown⟩ := grows i x found
    refine ⟨x', found', fun hears => ?_⟩
    obtain ⟨adopting, passed⟩ := passed (grown.hears _ hears)
    exact ⟨adopting, passed.grows grows⟩
  | forking c h => exact fun same => (ok same).grows grows
  | adopting c i =>
    intro other
    obtain ⟨x, found, deaf⟩ := ok other
    obtain ⟨x', found', later⟩ := grows i x found
    exact ⟨x', found', fun hears => deaf (later.hears _ hears)⟩
  | _ => trivial

theorem StackOk.grows (ok : H.StackOk σ stack) (grows : σ.Grows σ') : H.StackOk σ' stack := by
  induction stack with
  | empty => trivial
  | push frame rest ih => exact ⟨ok.1.grows grows, ok.2.1, ih ok.2.2⟩

theorem Seated.free {frame : Frame K s w} {rest : Stack K w} (seated : H.Seated frame rest)
    (other : frame.replayed? = none) : H.Open rest := by
  rcases seated with free | ⟨i, replayed, -⟩
  · exact free
  · rw [other] at replayed
    cases replayed

theorem StackOk.unlocked (ok : H.StackOk σ stack) (free : H.Open stack)
    (single : (stack.locks H.component).length ≤ 1) (unlocked : stack.locksInstance i = false) :
    .adopting i ∉ stack.locks H.component := by
  induction stack with
  | empty => exact List.not_mem_nil
  | @push s w frame rest ih =>
    intro mem
    simp only [Stack.locks, List.mem_append, List.length_append] at mem single
    simp only [Stack.locksInstance, Stack.any, Bool.or_eq_false_iff, decide_eq_false_iff_not] at unlocked
    rcases mem with here | below
    · rw [Option.mem_toList] at here
      simp only [Open, Stack.lock?, here, Bears] at free
    · rcases ok.2.1 with free' | ⟨j, replayed, lock⟩
      · exact ih ok.2.2 free' (by omega) unlocked.2 below
      · have same : i = j := by
          cases rest with
          | empty => cases below
          | push frame' rest' =>
            simp only [Stack.lock?] at lock
            simp only [Stack.locks, lock, Option.toList_some, List.singleton_append,
              List.length_cons] at single
            have none : rest'.locks H.component = [] := List.length_eq_zero_iff.mp (by omega)
            simp only [Stack.locks, lock, none, Option.toList_some, List.append_nil,
              List.mem_singleton, Lock.adopting.injEq] at below
            exact below
        subst same
        cases frame with
        | replaying j e later =>
          cases replayed
          exact unlocked.1 rfl
        | _ => cases replayed

/-- What is known in a state of the stack that the next configuration is built on. -/
structure At (H : Host β) (a : Nat) (locks : List (Lock K)) (before σ : State K)
    (stack : Stack K s) : Prop where
  ok : H.StateOk a locks σ
  fits : H.StackOk σ stack
  free : H.Open stack
  seat : σ.seat H.component = before.seat H.component
  locked : stack.locks H.component = locks

structure Stays (H : Host β) (a : Nat) (locks : List (Lock K)) (before : State K) (d : Config K) :
    Prop where
  inv : H.Inv a d
  seat : d.state.seat H.component = before.seat H.component
  locks : d.stack.locks H.component = locks

abbrev Upon (H : Host β) (a : Nat) (c : Config K) (stack : Stack K s) : Prop :=
  H.At a (c.stack.locks H.component) c.state c.state stack

section

variable {locks : List (Lock K)} {c d : Config K}

theorem Inv.upon (inv : H.Inv a c) (acts : ¬ c.control.Only β fun _ => True) :
    H.Upon a c c.stack := by
  refine ⟨inv.state, inv.stack, ?_, rfl, rfl⟩
  rcases inv.top with free | ⟨answer, done⟩ | ⟨-, only⟩
  · exact free
  · exact absurd (done ▸ trivial) acts
  · exact absurd (Control.Only.imp only fun _ _ => trivial) acts

theorem Inv.below {frame : Frame K s w} {rest : Stack K w} {control : Control K s}
    (inv : H.Inv a ⟨s, σ, control, .push frame rest⟩) (settled : frame.replayed? = none)
    (lock : frame.lock? H.component = none) : H.Upon a ⟨s, σ, control, .push frame rest⟩ rest where
  ok := inv.state
  fits := inv.stack.2.2
  free := inv.stack.2.1.free settled
  seat := rfl
  locked := by rw [Stack.locks, lock]; rfl

namespace At

theorem change (at' : H.At a locks before σ stack) (ok : H.StateOk a locks σ')
    (grows : σ.Grows σ') (seat : σ'.seat H.component = σ.seat H.component) :
    H.At a locks before σ' stack :=
  ⟨ok, at'.fits.grows grows, at'.free, seat.trans at'.seat, at'.locked⟩

theorem of_same (at' : H.At a locks before σ stack) (instances : σ'.instances = σ.instances)
    (components : σ'.components = σ.components) (registries : σ'.registries = σ.registries)
    (memos : σ'.memos.length = σ.memos.length) : H.At a locks before σ' stack := by
  refine at'.change (at'.ok.of_same instances components registries memos) (.of_instances instances) ?_
  rw [State.seat, components, State.seat]

theorem remember (at' : H.At a locks before σ stack) (m : MemoId) (n : Position)
    (keys : List Value) (v : Value) : H.At a locks before (σ.remember m n keys v) stack :=
  at'.of_same rfl rfl rfl (by simp [State.remember])

theorem modifyStatus (at' : H.At a locks before σ stack) {f : Instance K → Instance K}
    (same : ∀ x, (f x).memo = x.memo ∧ (f x).history = x.history ∧ (f x).registry = x.registry)
    (kept : H.Hands σ i f) :
    H.At a locks before (σ.modifyInstance i f) stack :=
  at'.change (at'.ok.modifyStatus same kept) (.modifyStatus i same) rfl

theorem modifyComponent (at' : H.At a locks before σ stack) (k : ComponentId)
    {f : Component K → Component K}
    (same : ∀ y, (f y).factory = y.factory ∧ (f y).inputs = y.inputs ∧
      (f y).current = y.current ∧ (f y).memo = y.memo)
    (settings : ∀ y, (f y).settings = y.settings) :
    H.At a locks before (σ.modifyComponent k f) stack := by
  refine at'.change (at'.ok.modifyComponent same) (.of_instances rfl) ?_
  rw [State.seat, State.components_modifyComponent, State.seat, Option.map_map]
  congr 1
  funext y
  obtain ⟨-, inputs, current, memo⟩ := same y
  simp only [Function.comp_apply]
  split
  · rw [inputs, current, memo, settings]
  · rfl

theorem push (at' : H.At a locks before σ stack) {f : Frame K w s}
    (ok : H.FrameOk σ f stack) (lock : f.lock? H.component = none) :
    H.At a locks before σ (.push f stack) where
  ok := at'.ok
  fits := ⟨ok, .inl at'.free, at'.fits⟩
  free := by
    rw [Open, Stack.lock?, lock]
    trivial
  seat := at'.seat
  locked := by
    rw [Stack.locks, lock]
    exact at'.locked

theorem stays (at' : H.At a locks before σ stack) {control : Control K s}
    (ok : H.ControlOk σ control stack) : H.Stays a locks before ⟨s, σ, control, stack⟩ where
  inv := ⟨at'.locked ▸ at'.ok, at'.fits, ok, .inl at'.free⟩
  seat := at'.seat
  locks := at'.locked

theorem answer (at' : H.At a locks before σ stack) {answer : s.Answer K} (plain : s.Plain) :
    H.Stays a locks before ⟨s, σ, .run (.done answer), stack⟩ :=
  at'.stays (allowed_of_plain plain _)

theorem stays_push (at' : H.At a locks before σ stack) {frame : Frame K w s} {control : Control K w}
    (frameOk : H.FrameOk σ frame stack) (lock : frame.lock? H.component = none)
    (ok : H.ControlOk σ control (.push frame stack)) :
    H.Stays a locks before ⟨w, σ, control, .push frame stack⟩ :=
  (at'.push frameOk lock).stays ok

theorem call (at' : H.At a locks before σ stack) {frame : Frame K w s} {c : Call K w}
    (ok : H.FrameOk σ frame stack) (lock : frame.lock? H.component = none)
    (takes : ∀ r, H.Takes σ frame r) :
    H.Stays a locks before ⟨w, σ, .call c, .push frame stack⟩ :=
  at'.stays_push ok lock (Code.Ends.of_forall takes _)

section

variable {f : Instance K → Instance K}

theorem answer_modify {answer : s.Answer K} (at' : H.At a locks before σ stack)
    (same : ∀ x, (f x).memo = x.memo ∧ (f x).history = x.history ∧ (f x).registry = x.registry)
    (kept : H.Hands σ i f) (plain : s.Plain) :
    H.Stays a locks before ⟨s, σ.modifyInstance i f, .run (.done answer), stack⟩ :=
  (at'.modifyStatus same kept).answer plain

theorem call_modify {frame : Frame K w s} {c : Call K w} (at' : H.At a locks before σ stack)
    (same : ∀ x, (f x).memo = x.memo ∧ (f x).history = x.history ∧ (f x).registry = x.registry)
    (kept : H.Hands σ i f)
    (ok : ∀ τ, H.FrameOk τ frame stack) (lock : frame.lock? H.component = none)
    (takes : ∀ τ r, H.Takes τ frame r) :
    H.Stays a locks before ⟨w, σ.modifyInstance i f, .call c, .push frame stack⟩ :=
  (at'.modifyStatus same kept).call (ok _) lock (takes _)

/-- An instance tells that it has one entry more. -/
theorem emit_append {signal : Signal K.Artifact} {frame : Frame K .unit w} {stack : Stack K w}
    (at' : H.At a locks before σ stack) {e : Entry K.Artifact}
    (frameOk : ∀ σ, H.FrameOk σ frame stack) (lock : frame.lock? H.component = none)
    (plain : ∀ h, signal ≠ .forked h)
    (same : ∀ x, (f x).memo = x.memo ∧ (f x).history = x.history ++ [e] ∧
      (f x).registry = x.registry)
    (taken : H.Hands σ i f)
    (shown : H.Carries locks σ i e) :
    H.Stays a locks before
      ⟨.unit, σ.modifyInstance i f, .emit (.ofInstance i) signal, .push frame stack⟩ := by
  have grows : ∀ x : Instance K, x.Grows (f x) := by
    intro x
    obtain ⟨memo, history, registry⟩ := same x
    refine ⟨memo, history ▸ List.prefix_append _ _, fun shut => by rwa [registry], fun c told => ?_⟩
    rwa [Instance.Hears, registry] at told
  have kept := at'.change (at'.ok.push same taken shown) (.modifyInstance i grows) rfl
  refine kept.stays_push (frameOk _) lock ?_
  cases signal with
  | forked h => exact absurd rfl (plain h)
  | _ => trivial

end

end At

end

theorem owns_of_fed {x : Instance K} {h : History K.Artifact} {e : Entry K.Artifact} {v : Value}
    {setter : Setter K.Artifact} (found : σ.instances[i]? = some x)
    (begins : h ++ [e] <+: x.history)
    (fed : Resumption.fed? i h e = some (.cell ⟨v, setter⟩)) : σ.Owns i setter := by
  cases e with
  | yielded v => cases fed
  | view a => cases fed
  | state v =>
    cases fed
    exact ⟨rfl, x, v, found, begins⟩

theorem owns_of_next {x : Instance K} {v : Value} {setter : Setter K.Artifact}
    (found : σ.instances[i]? = some x)
    (fed : Resumption.next? i x.history = some (.cell ⟨v, setter⟩)) : σ.Owns i setter := by
  rcases List.eq_nil_or_concat' x.history with none | ⟨h, e, eq⟩
  · rw [none] at fed
    cases fed
  · rw [eq, Resumption.next?_push] at fed
    exact owns_of_fed found (eq ▸ List.prefix_refl _) fed

theorem takes_resume {x : Instance K} {p : K.Procedure} {input : Option (Resumption K.Artifact)}
    (found : σ.instances[i]? = some x) (kept : x.Hears H.component → H.Keeps σ i p)
    (fed : ∀ v setter, input = some (.cell ⟨v, setter⟩) → σ.Owns i setter) (n : Position) :
    (β.code (.resume p input)).Ends (H.Takes σ (.stepping i n)) := by
  refine (H.resume p input).imp fun r law q answer eq => ⟨x, found, fun hears => ?_⟩
  have owns : ∀ setter, (H.kept q setter ∨ ∃ artifact, Client.shown? answer = some artifact ∧
      H.carried artifact setter) → σ.Owns i setter := by
    intro setter passes
    rcases law q answer eq setter passes with old | ⟨v, input⟩
    · exact kept hears setter old
    · exact fed v setter input
  exact ⟨fun setter passes => owns setter (.inl passes),
    fun artifact setter shown carried => owns setter (.inr ⟨artifact, shown, carried⟩)⟩

section

variable {c d : Config K} {n : Position} {p : K.Procedure} {answer : Except Fault K.Yielded}
  {rest : Stack K .result}

theorem Inv.answered
    (inv : H.Inv a ⟨.step, σ, .run (.done (p, answer)), .push (.stepping i n) rest⟩) {x : Instance K}
    (found : σ.instances[i]? = some x) (hears : x.Hears H.component) :
    H.Keeps σ i p ∧ H.Shows σ i answer := by
  obtain ⟨z, found', passes⟩ := inv.control p answer rfl
  cases Option.some.inj (found.symm.trans found')
  exact passes hears

theorem Inv.hands
    (inv : H.Inv a ⟨.step, σ, .run (.done (p, answer)), .push (.stepping i n) rest⟩)
    {f : Instance K → Instance K} (taken : ∀ x, (f x).procedure = some p) : H.Hands σ i f :=
  fun x _ found hears has =>
    .inr (Option.some.inj ((taken x).symm.trans has) ▸ (inv.answered found hears).1)

theorem Inv.carries {e : Entry K.Artifact}
    (inv : H.Inv a ⟨.step, σ, .run (.done (p, answer)), .push (.stepping i n) rest⟩)
    (shown : ∀ artifact, e = .view artifact → Client.shown? answer = some artifact) :
    H.Carries (rest.locks H.component) σ i e :=
  fun _ artifact setter found hears same carried =>
    ⟨fun adopting => absurd adopting inv.stack.1,
      fun _ => (inv.answered found hears).2 artifact setter (shown artifact same) carried⟩

theorem drive_stays (step : Config.DriveStep c d) (inv : H.Inv a c) :
    H.Stays a (c.stack.locks H.component) c.state d := by
  cases step with
  | idle => exact (inv.upon id).answer trivial
  | refused =>
    exact (inv.upon id).answer_modify (fun _ => ⟨rfl, rfl, rfl⟩) (fun _ _ _ _ => .inl) trivial
  | @started σ i x p stack unlocked found paused room has =>
    have at' := inv.upon id
    have lent := at'.modifyStatus (i := i) (f := ({ ·.lend with status := .running }))
      (fun _ => ⟨rfl, rfl, rfl⟩) fun _ _ _ _ none => by cases none
    have found' : (σ.modifyInstance i ({ ·.lend with status := .running })).instances[i]? =
        some { x.lend with status := .running } := by
      rw [State.instances_modifyInstance_self, found]
      rfl
    refine lent.stays_push (at'.fits.unlocked at'.free at'.ok.single unlocked) rfl ?_
    refine takes_resume found' (fun hears => ?_) (fun v setter fed => ?_) x.position
    · exact ((at'.ok.tenant i x found hears).kept p has).grows
        (.modifyStatus i fun _ => ⟨rfl, rfl, rfl⟩)
    · exact owns_of_next found' fed
  | overtaken =>
    exact (inv.below rfl rfl).answer_modify (fun _ => ⟨rfl, rfl, rfl⟩) (inv.hands fun _ => rfl)
      trivial
  | failed =>
    exact (inv.below rfl rfl).answer_modify (fun _ => ⟨rfl, rfl, rfl⟩) (inv.hands fun _ => rfl)
      trivial
  | completed n p artifact =>
    have shown : H.Carries _ _ _ (.view artifact) := inv.carries fun _ same => by cases same; rfl
    exact (inv.below rfl rfl).emit_append (fun _ => trivial) rfl nofun (fun _ => ⟨rfl, rfl, rfl⟩)
      (inv.hands fun _ => rfl) shown
  | recorded p rest found alive records =>
    refine (inv.below rfl rfl).emit_append (fun _ => trivial) rfl nofun (fun _ => ⟨rfl, rfl, rfl⟩)
      (inv.hands fun _ => rfl) (inv.carries fun artifact same => ?_)
    subst same
    cases records
    rfl
  | computing =>
    exact (inv.below rfl rfl).call_modify (fun _ => ⟨rfl, rfl, rfl⟩) (inv.hands fun _ => rfl)
      (fun _ => trivial) rfl fun _ _ => trivial
  | launching =>
    exact (inv.below rfl rfl).call_modify (fun _ => ⟨rfl, rfl, rfl⟩) (inv.hands fun _ => rfl)
      (fun _ => trivial) rfl fun _ _ => trivial
  | stranded =>
    exact (inv.below rfl rfl).answer_modify (fun _ => ⟨rfl, rfl, rfl⟩) (inv.hands fun _ => rfl)
      trivial
  | outdated => exact ((inv.below rfl rfl).remember ..).answer trivial
  | computed =>
    exact ((inv.below rfl rfl).remember ..).emit_append (fun _ => trivial) rfl nofun
      (fun _ => ⟨rfl, rfl, rfl⟩) (fun _ _ _ _ => .inl) nofun
  | launched =>
    refine At.answer ?_ trivial
    exact (inv.below rfl rfl).of_same rfl rfl rfl rfl
  | proceeded => exact (inv.below rfl rfl).stays trivial

end

section

variable {x : Instance K} {e : Entry K.Artifact} {later : History K.Artifact}
  {p : K.Procedure} {stack : Stack K .result}

theorem StackOk.replaying {input : Option (Resumption K.Artifact)} (fits : H.StackOk σ stack)
    (ok : H.StateOk a (stack.locks H.component) σ) (seated : H.Seated (.replaying i e later) stack)
    (seat : σ.seat H.component = before.seat H.component) (found : σ.instances[i]? = some x)
    (passed : x.Hears H.component →
      .adopting i ∈ stack.locks H.component ∧ H.Passed σ (e :: later))
    (kept : x.Hears H.component → H.Keeps σ i p)
    (fed : ∀ v setter, input = some (.cell ⟨v, setter⟩) → σ.Owns i setter) :
    H.Stays a (stack.locks H.component) before
      ⟨.step, σ, .call (.resume p input), .push (.replaying i e later) stack⟩ := by
  refine ⟨⟨ok, ⟨⟨x, found, passed⟩, seated, fits⟩, ?_, .inl trivial⟩, seat, rfl⟩
  refine (takes_resume (H := H) found kept fed 0).imp fun r takes q answer eq => ?_
  obtain ⟨x, found, keeps⟩ := takes q answer eq
  exact ⟨x, found, fun hears => (keeps hears).1⟩

theorem StackOk.replay (fits : H.StackOk σ stack) (ok : H.StateOk a (stack.locks H.component) σ)
    (seated : H.Seated (.replaying i e later) stack)
    (seat : σ.seat H.component = before.seat H.component) (found : σ.instances[i]? = some x)
    (has : x.procedure = some p) (passed : x.Hears H.component →
      .adopting i ∈ stack.locks H.component ∧ H.Passed σ (e :: later)) :
    H.Stays a (stack.locks H.component) before
      ⟨.step, σ.modifyInstance i (·.lend), .call (.resume p none),
        .push (.replaying i e later) stack⟩ := by
  have grows : σ.Grows (σ.modifyInstance i (·.lend)) := .modifyStatus i fun _ => ⟨rfl, rfl, rfl⟩
  have lent : (σ.modifyInstance i (·.lend)).instances[i]? = some x.lend := by
    rw [State.instances_modifyInstance_self, found]
    rfl
  refine (fits.grows grows).replaying
    (ok.modifyStatus (fun _ => ⟨rfl, rfl, rfl⟩) fun _ _ _ _ none => by cases none) seated seat lent
    (fun hears => ?_) (fun hears => ?_) nofun
  · exact (passed hears).imp_right fun passed => passed.grows grows
  · exact ((ok.tenant i x found hears).kept p has).grows grows

theorem StackOk.replayed {answer : Except Fault Unit} (fits : H.StackOk σ stack)
    (ok : H.StateOk a (stack.locks H.component) σ)
    (seat : σ.seat H.component = before.seat H.component) :
    H.Stays a (stack.locks H.component) before ⟨.result, σ, .run (.done answer), stack⟩ := by
  have allowed : H.Allowed σ stack (.ok answer) :=
    allowed_of_plain (s := .result) trivial (.ok answer)
  exact ⟨⟨ok, fits, allowed, .inr (.inl ⟨answer, rfl⟩)⟩, seat, rfl⟩

end

section

variable {c d : Config K} {e : Entry K.Artifact} {later : History K.Artifact} {p : K.Procedure}
  {answer : Except Fault K.Yielded} {rest : Stack K .result} {x : Instance K}

theorem Inv.replays
    (inv : H.Inv a ⟨.step, σ, .run (.done (p, answer)), .push (.replaying i e later) rest⟩)
    (found : σ.instances[i]? = some x) (hears : x.Hears H.component) :
    .adopting i ∈ rest.locks H.component ∧ H.Passed σ (e :: later) ∧ H.Keeps σ i p := by
  obtain ⟨y, found', passed⟩ := inv.stack.1
  obtain ⟨z, found'', keeps⟩ := inv.control p answer rfl
  cases Option.some.inj (found.symm.trans found')
  cases Option.some.inj (found.symm.trans found'')
  exact ⟨(passed hears).1, (passed hears).2, keeps hears⟩

/-- An entry is taken over as it is, so that it carries what it carried. -/
theorem Inv.takesOver
    (inv : H.Inv a ⟨.step, σ, .run (.done (p, answer)), .push (.replaying i e later) rest⟩)
    {f : Instance K → Instance K}
    (same : ∀ x, (f x).memo = x.memo ∧ (f x).history = x.history ++ [e] ∧
      (f x).registry = x.registry)
    (taken : ∀ x q, (f x).procedure = some q → x.procedure = some q ∨ p = q) :
    H.StateOk a (rest.locks H.component) (σ.modifyInstance i f) := by
  refine inv.state.push same (fun x q found hears has => ?_)
    fun x artifact setter found hears view carried => ?_
  · rcases taken x q has with old | rfl
    · exact .inl old
    · exact .inr (inv.replays found hears).2.2
  · obtain ⟨adopting, passed, -⟩ := inv.replays found hears
    exact ⟨fun _ => passed artifact setter (view ▸ .head _) carried,
      fun settled => absurd adopting settled⟩

theorem replay_stays (step : Config.ReplayStep c d) (inv : H.Inv a c) (admits : H.Admits c) :
    H.Stays a (c.stack.locks H.component) c.state d := by
  have grows := step.changes.grows
  cases step with
  | started e later next stack found fresh paused has =>
    have asked := (inv.upon id).push (f := .waiting next) inv.control rfl
    exact asked.fits.replay asked.ok (.inl asked.free) rfl found has
      fun hears => absurd hears (admits _ found)
  | diverged e later p answer rest found =>
    refine StackOk.replayed (inv.stack.2.2.grows grows)
      (inv.state.modifyStatus (fun _ => ⟨rfl, rfl, rfl⟩) fun x q found hears same => ?_) rfl
    exact .inr (Option.some.inj same ▸ (inv.replays found hears).2.2)
  | completed a b p rest found =>
    exact StackOk.replayed (inv.stack.2.2.grows grows)
      (inv.takesOver (fun _ => ⟨rfl, rfl, rfl⟩) fun _ _ same => .inr (Option.some.inj same)) rfl
  | ended p rest found fits =>
    exact StackOk.replayed (inv.stack.2.2.grows grows)
      (inv.takesOver (fun _ => ⟨rfl, rfl, rfl⟩) fun _ _ same => .inr (Option.some.inj same)) rfl
  | @resumed σ i x e next others p effect rest found =>
    have recorded : (σ.modifyInstance i (·.record e)).instances[i]? = some (x.record e) := by
      rw [State.instances_modifyInstance_self, found]
      rfl
    refine (inv.stack.2.2.grows grows).replaying
      (inv.takesOver (fun _ => ⟨rfl, rfl, rfl⟩) fun _ _ => .inl) inv.stack.2.1 rfl recorded
      (fun hears => ?_) (fun hears => (inv.replays found hears).2.2.grows grows)
      fun v setter fed => owns_of_fed recorded (List.prefix_refl _) fed
    obtain ⟨adopting, passed, -⟩ := inv.replays found hears
    exact ⟨adopting, fun artifact setter mem carried =>
      (passed artifact setter (.tail _ mem) carried).grows grows⟩

end

end Host

namespace Config

variable {H : Host β} {a : Nat} {c : Config K} {stack : Stack K .unit}

theorem Completes.upon {task : Task K} {outcome : Except Failure Value}
    (completes : c.Completes stack task outcome) (inv : H.Inv a c) : H.Upon a c stack := by
  cases completes with
  | answered => exact inv.below rfl rfl
  | panicked => exact inv.below rfl rfl

theorem Draining.upon (draining : c.Draining stack) (inv : H.Inv a c) : H.Upon a c stack := by
  cases draining with
  | asked => exact (inv.upon id).push (f := .waiting _) inv.control rfl
  | again => exact inv.below rfl rfl

end Config

namespace Host

variable {H : Host β} {a : Nat} {c d : Config K}

theorem task_stays (step : Config.TaskStep c d) (inv : H.Inv a c) :
    H.Stays a (c.stack.locks H.component) c.state d := by
  cases step with
  | gone completes => exact (completes.upon inv).answer trivial
  | ignored completes => exact (completes.upon inv).answer trivial
  | settled completes found running position stored =>
    have at' := completes.upon inv
    rcases stored with rfl | ⟨keys, -, rfl⟩
    · exact at'.emit_append (fun _ => trivial) rfl nofun (fun _ => ⟨rfl, rfl, rfl⟩)
        (fun _ _ _ _ => .inl) nofun
    · exact (at'.remember ..).emit_append (fun _ => trivial) rfl nofun (fun _ => ⟨rfl, rfl, rfl⟩)
        (fun _ _ _ _ => .inl) nofun
  | rejected completes =>
    refine At.stays_push ?_ trivial rfl trivial
    exact (completes.upon inv).modifyStatus (fun _ => ⟨rfl, rfl, rfl⟩) fun _ _ _ _ => .inl
  | told => exact (inv.below rfl rfl).answer trivial
  | spared => exact (inv.below rfl rfl).answer trivial
  | postponed =>
    refine At.answer ?_ trivial
    exact (inv.below rfl rfl).of_same rfl rfl rfl rfl
  | parked =>
    refine At.answer ?_ trivial
    exact (inv.below rfl rfl).of_same rfl rfl rfl rfl
  | @polled c stack task later draining ready =>
    have less : H.At a (c.stack.locks H.component) c.state { c.state with ready := later } stack :=
      (draining.upon inv).of_same rfl rfl rfl rfl
    exact (less.push (f := .draining) trivial rfl).call trivial rfl fun _ => trivial
  | drained => exact (inv.below rfl rfl).answer trivial

end Host

end Resumable
