import Resumable.Proofs.Hearing
import Resumable.Proofs.Program
import Resumable.Proofs.Transparency

namespace Resumable

variable {K : Client} {β : Behaviour K} {s w : Shape} {σ : State K}

theorem Config.follows_silent {Q : Except Payload (s.Answer K) → Prop} {control : Control K s}
    {frame : Frame K s w} {rest : Stack K w} {d : Config K} (only : control.Only β Q)
    (calm : ∀ payload, ¬ Q (.error payload))
    (follows : Follows β ⟨s, σ, control, .push frame rest⟩ d) :
    (∃ answer, Q (.ok answer) ∧ control = .run (.done answer)) ∨
      (∀ answer, control ≠ .run (.done answer)) ∧ ∃ memory control', control'.Only β Q ∧
        d = ⟨s, { σ with memory := memory }, control', .push frame rest⟩ := by
  cases follows with
  | step h =>
    cases control with
    | emit => exact only.elim
    | advance => exact only.elim
    | call c => exact .inr ⟨by rintro _ ⟨⟩, σ.memory, .run (β.code c), only, (Except.ok.inj h).symm⟩
    | run code =>
      cases code with
      | done answer => exact .inl ⟨answer, only, rfl⟩
      | panic payload => exact absurd only (calm payload)
      | read next =>
        exact .inr ⟨by rintro _ ⟨⟩, σ.memory, .run (next σ.memory), only σ.memory,
          (Except.ok.inj h).symm⟩
      | write memory next =>
        exact .inr ⟨by rintro _ ⟨⟩, memory, .run next, only, (Except.ok.inj h).symm⟩
      | call request next => exact only.elim

namespace Program

variable {M : Meaning β} (P : Program M)

/-- How far a fork or a mount of the component has come, when some slots have been filled and a
history was handed on last. -/
inductive Phase (slots : InstanceId → Slots) (firings : List (Position × Value))
    (kept : History K.Artifact) : Config K → Prop
  | calm {c : Config K} (alone : c.stack.locks P.component = []) (idle : P.forked? c = none)
      (vacant : c.state.current P.component = none → firings = [] ∧ kept = [])
      (has : ∀ i x, c.state.current P.component = some i → c.state.instances[i]? = some x →
        slots i = .fired firings ∧ kept <+: x.history) :
      Phase slots firings kept c
  | mounting {σ : State K} {control : Control K .procedure} {rest : Stack K .artifact}
      {inputs : K.Inputs} (alone : rest.locks P.component = [])
      (vacant : σ.current P.component = none) (unfilled : firings = [] ∧ kept = [])
      (gives : control.Only β (· = .ok P.start)) :
      Phase slots firings kept
        ⟨.procedure, σ, control, .push (.mounting P.component inputs) rest⟩
  | handing {σ : State K} {stack : Stack K .unit} {i : InstanceId} {x : Instance K}
      {setter : Setter K.Artifact} {v w : Value} {before : List (Position × Value)}
      (alone : stack.locks P.component = []) (current : σ.current P.component = some i)
      (found : σ.instances[i]? = some x) (assigned : slots i = .fired before)
      (slot : setter.before ++ [.state w] <+: x.history)
      (filled : firings = before ++ [(setter.position, v)])
      (cut : kept = setter.before ++ [.state v]) :
      Phase slots firings kept ⟨.unit, σ, .emit (.ofInstance i) (.forked kept), stack⟩
  | forking {σ : State K} {control : Control K .procedure} {rest : Stack K .unit} {j : InstanceId}
      (alone : rest.locks P.component = []) (nonempty : kept ≠ [])
      (recorded : M.Recorded (P.plan firings) j kept) (gives : control.Only β (· = .ok P.start)) :
      Phase slots firings kept
        ⟨.procedure, σ, control, .push (.forking P.component kept) rest⟩
  | replaying {σ : State K} {control : Control K .step} {rest : Stack K .unit} {i : InstanceId}
      {x : Instance K} {e : Entry K.Artifact} {later : History K.Artifact}
      (alone : rest.locks P.component = []) (member : (P.family slots).Member σ i x)
      (assigned : slots i = .fired firings) (whole : x.history ++ e :: later = kept) :
      Phase slots firings kept
        ⟨.step, σ, control, .push (.replaying i e later) (.push (.adopting P.component i) rest)⟩
  | adopting {σ : State K} {rest : Stack K .unit} {i : InstanceId} {x : Instance K}
      (alone : rest.locks P.component = []) (found : σ.instances[i]? = some x)
      (assigned : slots i = .fired firings) (whole : x.history = kept) :
      Phase slots firings kept
        ⟨.result, σ, .run (.done (.ok ())), .push (.adopting P.component i) rest⟩

structure Base (slots : InstanceId → Slots) (firings : List (Position × Value))
    (kept : History K.Artifact) (c : Config K) : Prop where
  hosted : ∃ a, P.host.Inv a c
  family : ∃ seen, (P.family slots).Inv seen c
  home : P.Home c.state
  measured : kept.length = keptBy firings

structure Along (slots : InstanceId → Slots) (firings : List (Position × Value))
    (kept : History K.Artifact) (c : Config K) : Prop extends P.Base slots firings kept c where
  phase : P.Phase slots firings kept c

variable {P} {slots : InstanceId → Slots} {firings : List (Position × Value)}
  {kept : History K.Artifact} {a : Nat} {c d : Config K} {i : InstanceId} {x : Instance K}

theorem Base.assign (base : P.Base slots firings kept c) {slots' : InstanceId → Slots}
    (same : ∀ i < c.state.instances.length, slots' i = slots i) :
    P.Base slots' firings kept c := by
  obtain ⟨hosted, ⟨seen, family⟩, home, measured⟩ := base
  exact ⟨hosted, ⟨seen, family.assign same⟩, home, measured⟩

theorem Base.follows (sound : M.Sound) (base : P.Base slots firings kept c)
    (admits : P.host.Admits c) (admits' : (P.family slots).Admits c)
    (follows : Config.Follows β c d) (home : P.Home d.state) : P.Base slots firings kept d := by
  obtain ⟨⟨a, hosted⟩, ⟨seen, family⟩, -, measured⟩ := base
  obtain ⟨seen', family', -⟩ := family.follows sound admits' follows
  exact ⟨⟨_, hosted.follows admits follows⟩, ⟨seen', family'⟩, home, measured⟩

theorem Base.silent (sound : M.Sound) {Q : Except Payload (s.Answer K) → Prop}
    {control control' : Control K s} {frame : Frame K s w} {rest : Stack K w} {memory : K.Memory}
    (base : P.Base slots firings kept ⟨s, σ, control, .push frame rest⟩)
    (only : control.Only β Q) (calm : ∀ payload, ¬ Q (.error payload))
    (unfinished : ∀ answer, control ≠ .run (.done answer))
    (follows : Config.Follows β ⟨s, σ, control, .push frame rest⟩
      ⟨s, { σ with memory := memory }, control', .push frame rest⟩) :
    P.Base slots firings kept ⟨s, { σ with memory := memory }, control', .push frame rest⟩ :=
  base.follows sound (hosted_of_only only calm _) (family_of_only only unfinished _) follows
    (base.home.of_components rfl)

theorem Base.recorded (base : P.Base slots firings kept c)
    (current : c.state.current P.component = some i) (found : c.state.instances[i]? = some x)
    {before : List (Position × Value)} (assigned : slots i = .fired before) :
    M.Recorded (P.plan before) i x.history ∧ x.memo = P.memo := by
  obtain ⟨⟨a, hosted⟩, ⟨seen, family⟩, home, -⟩ := base
  obtain ⟨x', found', hears⟩ := current_hears hosted.state current
  cases found.symm.trans found'
  have memo := memo_of_hears hosted.state home found hears
  obtain ⟨_, standing⟩ := family.standing ⟨found, memo⟩
  have plan : (P.family slots).plan i = P.plan before :=
    congrArg (Plan.slotted P.start P.settings) assigned
  exact ⟨plan ▸ standing.recorded, memo⟩

theorem forked?_eq_some {h : History K.Artifact} (eq : P.forked? c = some h) :
    ∃ σ i stack, c = ⟨.unit, σ, .emit (.ofInstance i) (.forked h), stack⟩ ∧
      σ.current P.component = some i := by
  simp only [forked?] at eq
  split at eq
  · next σ i h' stack =>
    split at eq
    · next current =>
      cases eq
      exact ⟨σ, i, stack, rfl, current⟩
    · cases eq
  · cases eq

theorem fired?_eq_some {setter : Setter K.Artifact} {v : Value}
    (eq : P.fired? c = some (setter, v)) :
    ∃ s σ next stack, c = ⟨s, σ, .run (.call (.fire setter v) next), stack⟩ ∧
      σ.current P.component = some setter.owner := by
  simp only [fired?] at eq
  split at eq
  · next σ setter' v' next stack =>
    split at eq
    · next current =>
      cases eq
      exact ⟨_, σ, next, stack, rfl, current⟩
    · cases eq
  · cases eq

theorem idle_of_follows (follows : Config.Follows β c d) (none : P.fired? c = none) :
    P.forked? d = .none := by
  cases forked : P.forked? d with
  | none => rfl
  | some h =>
    obtain ⟨σ, i, stack, rfl, current⟩ := forked?_eq_some forked
    obtain ⟨s, setter, v, next, rest, rfl, -, rfl, -⟩ := follows.fired
    simp [fired?, current] at none

theorem fired?_of_frame {control : Control K s} {frame : Frame K s w} {rest : Stack K w}
    {Q : Except Payload (s.Answer K) → Prop} (only : control.Only β Q) :
    P.fired? ⟨s, σ, control, .push frame rest⟩ = none := by
  cases control with
  | run code =>
    cases code with
    | call => exact only.elim
    | _ => rfl
  | _ => rfl

theorem mounted_follows (sound : M.Sound) {rest : Stack K .artifact} {inputs : K.Inputs}
    (base : P.Base slots firings kept
      ⟨.procedure, σ, .run (.done P.start), .push (.mounting P.component inputs) rest⟩)
    (alone : rest.locks P.component = []) (vacant : σ.current P.component = none)
    (unfilled : firings = [] ∧ kept = [])
    (follows : Config.Follows β
      ⟨.procedure, σ, .run (.done P.start), .push (.mounting P.component inputs) rest⟩ d) :
    ∃ slots', P.Along slots' firings kept d := by
  obtain ⟨y, made, memo, settings⟩ := base.home
  obtain ⟨rfl, rfl⟩ := unfilled
  have none : y.current = none := by rwa [State.current_eq made] at vacant
  let slots' := Function.update slots σ.instances.length .empty
  have own : slots' σ.instances.length = .empty := Function.update_self ..
  have admits : (P.family slots').Admits
      ⟨.procedure, σ, .run (.done P.start), .push (.mounting P.component inputs) rest⟩ := by
    refine admits_of_permits fun z made' _ => ?_
    cases made.symm.trans made'
    exact ⟨⟨rfl, settings⟩, fun n _ => congrFun own n⟩
  have assigned : P.Base slots' [] [] _ := base.assign fun i lt =>
    Function.update_of_ne (Nat.ne_of_lt lt) _ _
  have h := follows.step_eq (by rintro _ _ ⟨⟩)
  rw [Config.step_done] at h
  simp only [Next.resume, Next.finishMount, made, Next.dismissing, none] at h
  cases h
  have made' : (σ.newInstance P.start y.memo y.settings [.host P.component]).2.components[
      P.component]? = some y := made
  have placed := (State.components_modifyComponent_self _ P.component
    ({ · with current := some σ.instances.length, inputs := some inputs })).trans
      (congrArg _ made')
  have current := State.current_eq placed
  refine ⟨slots', assigned.follows sound trivial admits follows ⟨_, placed, memo, settings⟩,
    .calm alone (idle_of_follows follows rfl) (fun gone => ?_) fun i x current' _ => ?_⟩
  · cases current.symm.trans gone
  · cases current.symm.trans current'
    exact ⟨own, List.nil_prefix⟩

theorem built_follows (sound : M.Sound) {rest : Stack K .unit} {j : InstanceId}
    (base : P.Base slots firings kept
      ⟨.procedure, σ, .run (.done P.start), .push (.forking P.component kept) rest⟩)
    (alone : rest.locks P.component = []) (nonempty : kept ≠ [])
    (recorded : M.Recorded (P.plan firings) j kept)
    (follows : Config.Follows β
      ⟨.procedure, σ, .run (.done P.start), .push (.forking P.component kept) rest⟩ d) :
    ∃ slots', P.Along slots' firings kept d := by
  obtain ⟨y, made, memo, settings⟩ := base.home
  let slots' := Function.update slots σ.instances.length (.fired firings)
  have own : slots' σ.instances.length = .fired firings := Function.update_self ..
  have plan : (P.family slots').plan σ.instances.length = P.plan firings :=
    congrArg (Plan.slotted P.start P.settings) own
  have admits : (P.family slots').Admits
      ⟨.procedure, σ, .run (.done P.start), .push (.forking P.component kept) rest⟩ := by
    refine admits_of_permits fun z made' _ => ?_
    cases made.symm.trans made'
    refine ⟨⟨rfl, settings⟩, rfl, ?_, j, ?_⟩
    · rw [plan, base.measured]
      exact Plan.untouched_fired P.start P.settings firings
    · rw [plan]
      exact recorded
  have assigned : P.Base slots' firings kept _ := base.assign fun i lt =>
    Function.update_of_ne (Nat.ne_of_lt lt) _ _
  have h := follows.step_eq (by rintro _ _ ⟨⟩)
  rw [Config.step_done] at h
  cases kept with
  | nil => exact absurd rfl nonempty
  | cons e later =>
    rw [Next.resume, Next.finishBuild_cons made] at h
    split at h
    · cases h
    · cases h
      have born := (State.instances_newInstance σ P.start y.memo y.settings
        [.host P.component] σ.instances.length).trans (if_pos rfl)
      have lent := (State.instances_modifyInstance_self _ σ.instances.length (·.lend)).trans
        (congrArg _ born)
      exact ⟨slots', assigned.follows sound trivial admits follows ⟨y, made, memo, settings⟩,
        .replaying alone ⟨lent, memo⟩ own rfl⟩

theorem replayed_follows (sound : M.Sound) {control : Control K .step} {rest : Stack K .unit}
    {e : Entry K.Artifact} {later : History K.Artifact}
    (base : P.Base slots firings kept
      ⟨.step, σ, control, .push (.replaying i e later) (.push (.adopting P.component i) rest)⟩)
    (alone : rest.locks P.component = []) (member : (P.family slots).Member σ i x)
    (assigned : slots i = .fired firings) (whole : x.history ++ e :: later = kept)
    (follows : Config.Follows β
      ⟨.step, σ, control, .push (.replaying i e later) (.push (.adopting P.component i) rest)⟩ d) :
    P.fired? ⟨.step, σ, control, .push (.replaying i e later) (.push (.adopting P.component i) rest)⟩ =
      none ∧ P.Along slots firings kept d := by
  have : Nonempty K.Memory := ⟨σ.memory⟩
  obtain ⟨seen, family⟩ := base.family
  cases family with
  | quiet ok clear => exact ((clear.top rfl).not_member member).elim
  | @replaying _ _ _ _ y _ _ r allowed ok clear member' status lawful answers gives =>
    obtain rfl := member'.unique member.1
    refine ⟨fired?_of_frame gives, ?_⟩
    -- The procedure cannot panic here, since the plan has recorded the entry.
    have calm : ∀ payload, ¬ .error payload = r := by
      rintro payload rfl
      cases lawful.yields sound answers
    rcases Config.follows_silent gives calm follows with
      ⟨⟨p, answer⟩, rfl, rfl⟩ | ⟨unfinished, memory, control', gives', rfl⟩
    · have h := follows.step_eq (by rintro _ _ ⟨⟩)
      rw [Config.step_done] at h
      rcases Family.finishReplayed_cases sound (.push (.adopting P.component i) rest) ok member'
        status lawful answers with ⟨rfl, f, settles, eq⟩ | ⟨next, left, _, rfl, -, -, eq⟩
      · cases eq.symm.trans h
        have found := (State.instances_modifyInstance_self σ i f).trans (congrArg _ member.1)
        exact ⟨base.follows sound trivial (admits_of_permits trivial) follows
            (base.home.of_components rfl),
          .adopting alone found assigned (settles.history.trans whole)⟩
      · cases eq.symm.trans h
        have found := (State.instances_modifyInstance_self σ i (·.record e)).trans
          (congrArg _ member.1)
        refine ⟨base.follows sound trivial (admits_of_permits trivial) follows
            (base.home.of_components rfl),
          .replaying alone ⟨found, member.2⟩ assigned ?_⟩
        rw [← whole]
        simp [Instance.record]
    · exact ⟨base.silent sound gives calm unfinished follows,
        .replaying alone member assigned whole⟩

theorem adopted_follows (sound : M.Sound) {rest : Stack K .unit}
    (base : P.Base slots firings kept
      ⟨.result, σ, .run (.done (.ok ())), .push (.adopting P.component i) rest⟩)
    (alone : rest.locks P.component = []) (found : σ.instances[i]? = some x)
    (assigned : slots i = .fired firings) (whole : x.history = kept)
    (follows : Config.Follows β
      ⟨.result, σ, .run (.done (.ok ())), .push (.adopting P.component i) rest⟩ d) :
    P.Along slots firings kept d := by
  obtain ⟨y, made, memo, settings⟩ := base.home
  have placed : (σ.modifyComponent P.component (·.adopt i (.ok ()))).components[P.component]? =
      some { y with current := some i } := by
    rw [State.components_modifyComponent_self, made]
    rfl
  have current := State.current_eq placed
  have h := follows.step_eq (by rintro _ _ ⟨⟩)
  rw [Config.step_done] at h
  simp only [Next.resume, Next.finishFork, made] at h
  cases h
  refine ⟨base.follows sound trivial (admits_of_permits trivial) follows ?_,
    .calm alone (idle_of_follows follows rfl) ?_ ?_⟩
  · exact ⟨_, placed, memo, settings⟩
  · exact fun gone => by cases current.symm.trans gone
  · intro j z current' found'
    cases current.symm.trans current'
    cases found.symm.trans found'
    exact ⟨assigned, whole ▸ List.prefix_refl _⟩

theorem fired_follows (sound : M.Sound) {setter : Setter K.Artifact} {v : Value} {stack : Stack K s}
    {next : Shape.unit.Answer K → Code K (s.Answer K)}
    (base : P.Base slots firings kept ⟨s, σ, .run (.call (.fire setter v) next), stack⟩)
    (drives : P.Drives ⟨s, σ, .run (.call (.fire setter v) next), stack⟩)
    (alone : stack.locks P.component = [])
    (has : ∀ i x, σ.current P.component = some i → σ.instances[i]? = some x →
      slots i = .fired firings ∧ kept <+: x.history)
    (current : σ.current P.component = some setter.owner)
    (follows : Config.Follows β ⟨s, σ, .run (.call (.fire setter v) next), stack⟩ d) :
    P.forked? d = some (setter.before ++ [.state v]) ∧
      P.Along slots (firings ++ [(setter.position, v)]) (setter.before ++ [.state v]) d := by
  obtain ⟨⟨a, hosted⟩, family, home, -⟩ := base
  have ok : P.host.StateOk a [] σ := alone ▸ hosted.state
  obtain ⟨x, w, found, slot⟩ := drives.permits current
  obtain ⟨y, made, -⟩ := ok.settled
  have placed : y.current = some setter.owner := by rwa [State.current_eq made] at current
  have step := Config.step_fire (β := β) stack v next
    (State.instanceAlive_of_current drives.held made placed)
  cases (follows.step_eq (by rintro _ (_ | _) ⟨⟩)).symm.trans step
  have measured : (setter.before ++ [Entry.state v]).length =
      keptBy (firings ++ [(setter.position, v)]) := by
    simp [Setter.position]
  have admits := drives.permits.hosted ok home alone
  have admits' : (P.family slots).Admits _ := drives.permits.family ok home alone
  refine ⟨if_pos current, Base.follows sound ⟨⟨a, hosted⟩, family, home, measured⟩ admits admits'
    follows home, ?_⟩
  exact .handing alone current found (has _ x current found).1 slot rfl rfl

theorem handed_follows (sound : M.Sound) {stack : Stack K .unit} {setter : Setter K.Artifact}
    {v w : Value} {before : List (Position × Value)}
    (base : P.Base slots (before ++ [(setter.position, v)]) (setter.before ++ [.state v])
      ⟨.unit, σ, .emit (.ofInstance i) (.forked (setter.before ++ [.state v])), stack⟩)
    (held : .ofComponent P.component ∈ σ.held) (alone : stack.locks P.component = [])
    (current : σ.current P.component = some i) (found : σ.instances[i]? = some x)
    (assigned : slots i = .fired before) (slot : setter.before ++ [.state w] <+: x.history)
    (follows : Config.Follows β
      ⟨.unit, σ, .emit (.ofInstance i) (.forked (setter.before ++ [.state v])), stack⟩ d) :
    P.Along slots (before ++ [(setter.position, v)]) (setter.before ++ [.state v]) d := by
  have : Nonempty K.Memory := ⟨σ.memory⟩
  obtain ⟨recorded, -⟩ := base.recorded current found assigned
  obtain ⟨there, cut⟩ := setter.slot_of_prefix slot
  have filled := recorded.fill sound P.deterministic (v := v) there
  rw [← Slots.fired_snoc, cut] at filled
  obtain ⟨a, hosted⟩ := base.hosted
  have ok : P.host.StateOk a [] σ := alone ▸ hosted.state
  obtain ⟨y, made, settled⟩ := ok.settled
  have placed : y.current = some i := by rwa [State.current_eq made] at current
  obtain ⟨inputs, given⟩ := Option.ne_none_iff_exists'.mp
    (settled.given (.inl fun none => by simp [placed] at none))
  obtain ⟨x', found', hears⟩ := current_hears ok current
  cases found.symm.trans found'
  obtain ⟨rest, entries, -⟩ := (ok.orderly i x found).hears hears
  have told : x.registry.observers = .host P.component :: rest.map (·.2) := by
    simp [Registry.observers, entries]
  have step := follows.step_eq (by rintro _ _ ⟨⟩)
  rw [Config.step_forked found told held (Stack.locks_eq_nil_iff.mp alone) made placed given] at step
  split at step
  · cases step
  · cases step
    have built : (β.code (.build y.factory inputs)).Gives (.ok P.start) := by
      rw [settled.factory, settled.expected inputs given]
      exact P.build
    exact ⟨base.follows sound trivial (admits_of_permits trivial) follows
        ((base.home.of_components rfl).modify fun _ => ⟨rfl, rfl⟩),
      .forking alone (by simp) filled built⟩

theorem enter_follows (sound : M.Sound) {rest : Stack K .artifact}
    (base : P.Base slots firings kept
      ⟨.unit, σ, .run (.done ()), .push (.entering P.component P.inputs) rest⟩)
    (alone : rest.locks P.component = []) (none : σ.current P.component = none)
    (unfilled : firings = [] ∧ kept = [])
    (follows : Config.Follows β
      ⟨.unit, σ, .run (.done ()), .push (.entering P.component P.inputs) rest⟩ d) :
    P.Along slots firings kept d := by
  obtain ⟨a, hosted⟩ := base.hosted
  obtain ⟨y, made, settled⟩ := hosted.state.settled
  have vacant : y.current = .none := by rwa [State.current_eq made] at none
  have unlocked : rest.locksComponent P.component = false := Stack.locks_eq_nil_iff.mp alone
  have h := follows.step_eq (by rintro _ (_ | _) ⟨⟩)
  rw [Config.step_done] at h
  simp only [Next.resume, Next.enter, Next.withComponent, unlocked, made, vacant,
    Bool.false_eq_true, if_false] at h
  cases h
  refine ⟨base.follows sound trivial (admits_of_permits trivial) follows base.home,
    .mounting alone none unfilled ?_⟩
  rw [settled.factory]
  exact P.build

theorem vacant_of_remounts (unchanged : K.sameInputs P.inputs P.inputs = true)
    {locks : List (Lock K)} (ok : P.host.StateOk a locks σ)
    (remounts : P.host.Remounts σ P.component P.inputs) : σ.current P.component = none := by
  obtain ⟨y, made, settled⟩ := ok.settled
  rw [State.current_eq made]
  by_contra has
  obtain ⟨inputs, given⟩ := Option.ne_none_iff_exists'.mp (settled.given (.inl has))
  obtain rfl := settled.expected inputs given
  have changed := (remounts.2 y made).resolve_left has _ given
  rw [unchanged] at changed
  cases changed

theorem calm_follows (sound : M.Sound) (unchanged : K.sameInputs P.inputs P.inputs = true)
    (base : P.Base slots firings kept c) (drives : P.Drives c)
    (alone : c.stack.locks P.component = []) (idle : P.forked? c = none)
    (vacant : c.state.current P.component = none → firings = [] ∧ kept = [])
    (has : ∀ i x, c.state.current P.component = some i → c.state.instances[i]? = some x →
      slots i = .fired firings ∧ kept <+: x.history) (none : P.fired? c = none)
    (follows : Config.Follows β c d) : P.Along slots firings kept d := by
  obtain ⟨a, hosted⟩ := base.hosted
  have ok : P.host.StateOk a [] c.state := alone ▸ hosted.state
  have admits := drives.permits.hosted ok base.home alone
  have admits' : (P.family slots).Admits c := drives.permits.family ok base.home alone
  have along := base.follows sound admits admits' follows
  have idle' := idle_of_follows follows none
  cases follows with
  | next σ result memory ambient code =>
    exact ⟨along (base.home.of_components rfl), .calm rfl idle' vacant has⟩
  | step h =>
    rcases hosted.leads admits (Config.transition_of_step h) with stays | ⟨turns, -⟩
    · have same := State.current_of_seat stays.seat
      refine ⟨along (base.home.of_seat stays.seat),
        .calm (stays.locks.trans alone) idle' (fun gone => vacant (same.symm.trans gone)) ?_⟩
      intro i x' current found'
      have current := same.symm.trans current
      obtain ⟨x, found, -⟩ := current_hears ok current
      obtain ⟨x'', found'', later⟩ := Config.Follows.grows (.step h) i x found
      cases found'.symm.trans found''
      obtain ⟨assigned, begins⟩ := has i x current found
      exact ⟨assigned, begins.trans later.history⟩
    · obtain ⟨s, σ, control, stack⟩ := c
      cases control with
      | call => exact turns.elim
      | advance => exact turns.elim
      | emit source signal =>
        cases source with
        | free => exact turns.elim
        | ofInstance i =>
          cases signal with
          | forked h' =>
            obtain ⟨x, found, hears⟩ := turns
            simp [forked?, current_of_hears ok found hears] at idle
          | _ => exact turns.elim
      | run code =>
        cases code with
        | done answer =>
          obtain ⟨-, fits, -⟩ := hosted
          cases stack with
          | empty => exact absurd alone turns
          | push frame rest =>
            cases frame with
            | entering id inputs =>
              obtain ⟨rfl, turns⟩ := turns
              obtain rfl := fits.1 rfl
              have gone := vacant_of_remounts unchanged ok ⟨rfl, turns⟩
              exact enter_follows sound base alone gone (vacant gone) (.step h)
            | waiting next =>
              simp only [Host.Turns] at turns
              exact absurd alone turns
            | suspended control =>
              simp only [Host.Turns] at turns
              exact absurd alone turns
            | _ => exact absurd alone turns
        | call request next =>
          cases request with
          | reset id => exact absurd turns drives.permits
          | unmount id => exact absurd turns drives.permits
          | _ => exact turns.elim
        | _ => exact turns.elim

theorem Along.follows (sound : M.Sound) (unchanged : K.sameInputs P.inputs P.inputs = true)
    (along : P.Along slots firings kept c) (drives : P.Drives c) (follows : Config.Follows β c d) :
    (∃ slots', P.Along slots' (firings ++
        ((P.fired? c).map fun (setter, v) => (setter.position, v)).toList)
      (((P.fired? c).map fun (setter, v) => setter.before ++ [.state v]).getD kept) d) ∧
    ∀ setter v, P.fired? c = some (setter, v) → P.forked? d = some (setter.before ++ [.state v]) := by
  obtain ⟨base, phase⟩ := along
  have quiet : P.fired? c = none → (∃ slots', P.Along slots' firings kept d) →
      (∃ slots', P.Along slots' (firings ++
          ((P.fired? c).map fun (setter, v) => (setter.position, v)).toList)
        (((P.fired? c).map fun (setter, v) => setter.before ++ [.state v]).getD kept) d) ∧
      ∀ setter v, P.fired? c = some (setter, v) →
        P.forked? d = some (setter.before ++ [.state v]) := by
    intro none along
    simpa [none] using along
  have calm : ∀ payload, ¬ Except.error payload = (.ok P.start : Except Payload K.Procedure) := by
    simp
  cases phase with
  | calm alone idle vacant has =>
    cases fired : P.fired? c with
    | none =>
      have along := calm_follows sound unchanged base drives alone idle vacant has fired follows
      exact fired ▸ quiet fired ⟨slots, along⟩
    | some firing =>
      obtain ⟨setter, v⟩ := firing
      obtain ⟨s, σ, next, stack, rfl, current⟩ := fired?_eq_some fired
      obtain ⟨forked, along⟩ := fired_follows sound base drives alone has current follows
      exact ⟨⟨slots, along⟩, by rintro _ _ ⟨⟩; exact forked⟩
  | mounting alone vacant unfilled gives =>
    refine quiet (fired?_of_frame gives) ?_
    rcases Config.follows_silent gives calm follows with
      ⟨_, ⟨⟩, rfl⟩ | ⟨unfinished, memory, control', gives', rfl⟩
    · exact mounted_follows sound base alone vacant unfilled follows
    · exact ⟨slots, base.silent sound gives calm unfinished follows,
        .mounting alone vacant unfilled gives'⟩
  | handing alone current found assigned slot filled cut =>
    subst filled cut
    exact quiet rfl ⟨slots,
      handed_follows sound base drives.held alone current found assigned slot follows⟩
  | forking alone nonempty recorded gives =>
    refine quiet (fired?_of_frame gives) ?_
    rcases Config.follows_silent gives calm follows with
      ⟨_, ⟨⟩, rfl⟩ | ⟨unfinished, memory, control', gives', rfl⟩
    · exact built_follows sound base alone nonempty recorded follows
    · exact ⟨slots, base.silent sound gives calm unfinished follows,
        .forking alone nonempty recorded gives'⟩
  | replaying alone member assigned whole =>
    obtain ⟨unfired, along⟩ := replayed_follows sound base alone member assigned whole follows
    exact quiet unfired ⟨slots, along⟩
  | adopting alone found assigned whole =>
    exact quiet rfl ⟨slots, adopted_follows sound base alone found assigned whole follows⟩

end Program

end Resumable
