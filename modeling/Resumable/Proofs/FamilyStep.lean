import Resumable.Proofs.FamilyQuiet
import Mathlib.Logic.Function.Basic

namespace Resumable

variable {K : Client} {β : Behaviour K}

namespace Family

variable {M : Meaning β} {F : Family M} {σ before : State K} {i j : InstanceId} {x : Instance K}
  {seen : InstanceId → List Event} {s w : Shape}

theorem Member.unique {y : Instance K} (member : F.Member σ i x) (found : σ.instances[i]? = some y) :
    y = x := by
  rw [member.1] at found
  exact (Option.some.inj found).symm

theorem Leads.member {seen' : InstanceId → List Event} {d : Config K} {told : List Event}
    (inv : F.Inv seen' d) (seen_eq : seen' = Function.update seen i (seen i ++ told))
    (own : d.tells i before = told) (others : ∀ j, j ≠ i → d.tells j before = []) :
    F.Leads seen before d := by
  refine ⟨seen', inv, fun _ j y _ => ?_⟩
  by_cases same : j = i
  · subst same
    rw [seen_eq, Function.update_self, own]
  · rw [seen_eq, Function.update_of_ne same, others j same, List.append_nil]

theorem StateOk.of_running (ok : F.StateOk seen none σ) (member : F.Member σ i x)
    (status : x.status = .running) : (F.plan i).Untouched x.history.length ∧
      seen i = paces x.history.length ++ [.start] := by
  cases ok.standing i x member with
  | paused status' => rw [status] at status'; cases status'
  | running _ _ untouched seen => exact ⟨untouched, seen⟩
  | ended status' => rw [status] at status'; cases status'
  | stopped status' => rw [status] at status'; cases status'
  | fed status' => rw [status] at status'; cases status'

theorem StateOk.record (ok : F.StateOk seen none σ) (member : F.Member σ i x)
    (status : x.status = .running) {q : K.Procedure}
    {e : Effect K.Artifact K.Producer K.Computation}
    (asks : M.Asks (F.plan i) i x.history e q) {entry : Entry K.Artifact}
    (records : M.Records (F.plan i) x.history.length e entry) {f : Instance K → Instance K}
    (memo : ∀ y, (f y).memo = y.memo) (settings : ∀ y, (f y).settings = y.settings)
    (after : f x = (x.takeBack q).record entry) :
    F.StateOk (Function.update seen i (seen i ++ [.ready])) none (σ.modifyInstance i f) := by
  obtain ⟨untouched, told⟩ := ok.of_running member status
  refine ok.modifyInstance i memo settings
    (fun j other => ⟨Function.update_of_ne other _ _, id⟩) fun y found => ?_
  rw [member.unique found.1, after]
  refine ⟨.paused rfl rfl (asks.record records) (untouched.mono ?_) ?_,
    fun task o _ awaits => ?_⟩
  · simp [Instance.record, Instance.takeBack]
  · rw [Function.update_self, told]
    simp [Instance.record, Instance.takeBack, paces_succ]
  · cases awaits with
    | gone status' => rw [status] at status'; cases status'
    | past lt => exact .past (Nat.lt_of_lt_of_le lt (by simp [Instance.record, Instance.takeBack]))
    | waits _ _ position => exact .past (by simp [Instance.record, Instance.takeBack, position])

theorem StateOk.finish (ok : F.StateOk seen none σ) (member : F.Member σ i x)
    {f : Instance K → Instance K} (memo : ∀ y, (f y).memo = y.memo)
    (settings : ∀ y, (f y).settings = y.settings) (gone : (f x).status = .terminated)
    {told : List Event} (ends : M.Ends (F.plan i) F.attended i (f x).history (seen i ++ told)) :
    F.StateOk (Function.update seen i (seen i ++ told)) none (σ.modifyInstance i f) := by
  refine ok.modifyInstance i memo settings
    (fun j other => ⟨Function.update_of_ne other _ _, id⟩) fun y found => ?_
  rw [member.unique found.1]
  exact ⟨.ended gone (by rwa [Function.update_self]), fun _ _ _ _ => .gone gone⟩

/-- What an effect of the family has recorded at once is what its plan says. -/
theorem StateOk.records (ok : F.StateOk seen none σ) {h : History K.Artifact}
    (untouched : (F.plan i).Untouched h.length) {e : Effect K.Artifact K.Producer K.Computation}
    {q : K.Procedure} (asks : M.Asks (F.plan i) i h e q) {entry : Entry K.Artifact}
    (records : e.Records ((σ.memo F.memo).lookup h.length) entry) :
    M.Records (F.plan i) h.length e entry := by
  cases records with
  | render artifact => exact .render (M.artifacts.refl artifact)
  | hold initial =>
    have kept := Meaning.Records.hold (M := M) (π := F.plan i) (n := h.length) initial
    rwa [untouched _ (Nat.le_refl _)] at kept
  | compute _ hit => exact .supplied (ok.supply_of_lookup (F.listed i) asks rfl hit)
  | await _ hit => exact .supplied (ok.supply_of_lookup (F.listed i) asks rfl hit)

theorem StateOk.takeBack (ok : F.StateOk seen none σ) (member : F.Member σ i x)
    (status : x.status = .running) (lent : x.procedure = none) {p : K.Procedure}
    {answer : Except Fault K.Yielded}
    (answers : M.Answers (F.plan i) i x.history (.ok (p, answer))) :
    F.StateOk seen none (σ.modifyInstance i (·.takeBack p)) := by
  obtain ⟨untouched, told⟩ := ok.of_running member status
  refine ok.modifyInstance i (fun _ => rfl) (fun _ => rfl) (fun _ _ => ⟨rfl, id⟩) fun y found => ?_
  rw [member.unique found.1]
  obtain ⟨p', course, -, -⟩ := answers
  refine ⟨.running status course untouched told, fun task o _ awaits => ?_⟩
  cases awaits with
  | gone gone => exact .gone gone
  | past lt => exact .past lt
  | waits _ procedure => rw [lent] at procedure; cases procedure

theorem Member.modify {f : Instance K → Instance K} (member : F.Member σ i x)
    (memo : (f x).memo = x.memo) : F.Member (σ.modifyInstance i f) i (f x) :=
  ⟨by rw [State.instances_modifyInstance_self, member.1, Option.map_some], memo.trans member.2⟩

theorem Leads.tell_member {f : Instance K → Instance K} {told : Event}
    {signal : Signal K.Artifact} {frame : Frame K .unit w} {stack : Stack K w}
    (ok : F.StateOk (Function.update seen i (seen i ++ [told])) none (σ.modifyInstance i f))
    (clear : F.Clear σ stack) (memo : ∀ y, (f y).memo = y.memo) (idle : frame.worker? = none)
    (event : signal.event? = some told) : F.Leads seen before
      ⟨.unit, σ.modifyInstance i f, .emit (.ofInstance i) signal, .push frame stack⟩ := by
  refine .member (.quiet ok (Clear.idle (clear.mono (.modifyInstance i memo)) idle)) rfl ?_
    fun j other => ?_
  · rw [Config.tells_emit, if_pos rfl, event]
    rfl
  · rw [Config.tells_emit, if_neg (Ne.symm other)]

section Drive

variable {stack : Stack K .result} {c d : Config K}

theorem fail_member (ok : F.StateOk seen none σ) (clear : F.Clear σ stack)
    (member : F.Member σ i x) {f : Instance K → Instance K} (memo : ∀ y, (f y).memo = y.memo)
    (settings : ∀ y, (f y).settings = y.settings) (gone : (f x).status = .terminated)
    {fault : Fault} (driven : x.status ≠ .terminated)
    (ends : M.Ends (F.plan i) F.attended i (f x).history (seen i ++ [.failed fault])) :
    F.Leads seen σ ⟨.result, σ.modifyInstance i f, .run (.done (.error fault)), stack⟩ := by
  refine .member (.quiet (ok.finish member memo settings gone ends)
    (clear.mono (.modifyInstance i memo))) rfl ?_ fun j other => ?_
  · rw [Config.tells_done_error, if_pos]
    refine ⟨by simpa [State.status?, member.1] using driven, ?_⟩
    rw [State.status?, State.instances_modifyInstance_self, member.1]
    exact congrArg some gone
  · exact Config.tells_run (σ.status?_modifyInstance_ne (Ne.symm other) _)

/-- A step of a member answers. -/
theorem answered_member [Nonempty K.Memory] (sound : M.Sound) (ok : F.StateOk seen none σ)
    (clear : F.Clear σ stack) (member : F.Member σ i x) (status : x.status = .running)
    (lent : x.procedure = none) {p : K.Procedure} {answer : Except Fault K.Yielded}
    (answers : M.Answers (F.plan i) i x.history (.ok (p, answer)))
    (ambient : F.attended = true → σ.ambient = true)
    (step : Config.DriveStep
      ⟨.step, σ, .run (.done (p, answer)), .push (.stepping i x.history.length) stack⟩ d) :
    F.Leads seen σ d := by
  obtain ⟨untouched, told⟩ := ok.of_running member status
  have driven : x.status ≠ .terminated := by simp [status]
  have back := ok.takeBack member status lent answers
  have member' : F.Member (σ.modifyInstance i (·.takeBack p)) i (x.takeBack p) :=
    member.modify rfl
  have clear' : F.Clear (σ.modifyInstance i (·.takeBack p)) stack :=
    clear.mono (.modifyInstance i fun _ => rfl)
  have stops : ∀ {fault}, M.Ends (F.plan i) F.attended i x.history (seen i ++ [.failed fault]) →
      F.Leads seen σ ⟨.result, σ.modifyInstance i fun y => (y.takeBack p).fail,
        .run (.done (.error fault)), stack⟩ :=
    fail_member (f := fun y => (y.takeBack p).fail) ok clear member (fun _ => rfl) (fun _ => rfl) rfl
      driven
  cases step with
  | overtaken _ _ _ _ found gone =>
    rw [member.unique found] at gone
    exact absurd gone driven
  | failed =>
    refine stops ?_
    rw [told, List.append_assoc]
    exact .stopped answers (.failed _ _)
  | completed _ _ a =>
    refine .tell_member (ok.finish (f := fun y => (y.takeBack p).complete a) member (fun _ => rfl)
      (fun _ => rfl) rfl ?_) clear (fun _ => rfl) rfl rfl
    rw [told, List.append_assoc]
    exact .completed answers (M.artifacts.refl a)
  | recorded _ _ found _ records =>
    rw [member.unique found, member.2] at records
    exact .tell_member (ok.record member status answers (ok.records untouched answers records)
      (fun _ => rfl) (fun _ => rfl) rfl) clear (fun _ => rfl) rfl rfl
  | computing _ computation _ found _ missed =>
    rw [member.unique found, member.2] at missed
    cases answers.meant sound (F.deterministic _ (F.listed i)) with
    | compute _ computed =>
      exact ⟨seen, .computing (x := x.takeBack p) back clear' member' status rfl answers computed
        (ok.missed_of_lookup missed) (sound.compute computed), fun _ _ _ _ => by simp⟩
  | @launching _ _ _ _ _ producer keys _ found _ missed =>
    rw [member.unique found, member.2] at missed
    cases answers.meant sound (F.deterministic _ (F.listed i)) with
    | await _ produced =>
      have missed' : keys.bind (F.stored.lookup x.history.length) = none := by
        cases keys with
        | none => rfl
        | some ks => exact ok.missed_of_lookup missed
      exact ⟨seen, .launching (x := x.takeBack p) back clear' member' status rfl answers produced
        missed' (sound.produce produced), fun _ _ _ _ => by simp⟩
  | stranded _ _ _ found _ _ alone =>
    rw [member.unique found] at alone
    simp only [Bool.or_eq_false_iff] at alone
    refine stops ?_
    rw [told, List.append_assoc]
    refine .stranded answers ?_ ?_
    · rw [← ok.settings i x member]
      exact alone.1.1
    · by_contra attended
      rw [ambient (by simpa using attended)] at alone
      cases alone.1.2

theorem computed_member (ok : F.StateOk seen none σ) (clear : F.Clear σ stack)
    (member : F.Member σ i x) (status : x.status = .running) {computation : K.Computation}
    {keys : List Value} {q : K.Procedure} {v : Value} (procedure : x.procedure = some q)
    (asks : M.Asks (F.plan i) i x.history (.compute computation keys) q)
    (computed : M.computed computation = some (.ok v))
    (missed : F.stored.lookup x.history.length keys = none)
    (step : Config.DriveStep
      ⟨.value, σ, .run (.done v), .push (.computing i x.history.length keys) stack⟩ d) :
    F.Leads seen σ d := by
  have backed : F.Backed ⟨x.history.length, keys, v⟩ :=
    ⟨_, F.listed i, i, _, _, q, asks, rfl, rfl, computed⟩
  have supply : M.supply (F.plan i).stored x.history.length (.compute computation keys) =
      some (.ok v) := by
    simp only [Meaning.supply, Effect.keys?, Option.bind_some, F.stores _ (F.listed i), missed]
    exact computed
  cases step with
  | outdated _ _ _ _ found gone =>
    rw [member.unique found, status] at gone
    cases gone
  | computed _ _ _ _ found =>
    rw [member.unique found, member.2]
    have member' : F.Member (σ.remember F.memo x.history.length keys v) i x := ⟨member.1, member.2⟩
    exact .tell_member ((ok.remember backed).record member' status asks (.supplied supply)
      (fun _ => rfl) (fun _ => rfl) (by rw [x.takeBack_of_has procedure]))
      (clear.mono (.of_instances rfl)) (fun _ => rfl) rfl rfl

theorem launched_member (ok : F.StateOk seen none σ) (clear : F.Clear σ stack)
    (member : F.Member σ i x) (status : x.status = .running) {p : K.Producer}
    {keys : Option (List Value)} {q : K.Procedure} {o : Except Failure Value} {future : K.Future}
    (procedure : x.procedure = some q) (asks : M.Asks (F.plan i) i x.history (.await p keys) q)
    (produced : M.produced p = some o)
    (missed : keys.bind (F.stored.lookup x.history.length) = none)
    (settled : M.settled future = some o)
    (step : Config.DriveStep
      ⟨.future, σ, .run (.done future), .push (.launching i x.history.length keys) stack⟩ d) :
    F.Leads seen σ d := by
  cases step
  exact .run (ok.enqueue (.own member settled (.waits status procedure rfl asks produced missed)))
    (clear.mono (.of_instances rfl)) fun _ _ _ => rfl

theorem starts_of_paused (member : F.Member σ i x) (status : x.status = .paused) :
    Config.starts i ⟨.result, σ, .advance i, stack⟩ = [.start] :=
  if_pos ⟨rfl, by rw [State.status?, member.1, Option.map_some, status]⟩

theorem starts_of_ne (other : j ≠ i) :
    Config.starts j ⟨.result, σ, .advance i, stack⟩ = [] :=
  if_neg fun h => other h.1.symm

theorem starts_of_busy (member : F.Member σ i x) (busy : x.status ≠ .paused) (j : InstanceId) :
    Config.starts j ⟨.result, σ, .advance i, stack⟩ = [] := by
  refine if_neg ?_
  rintro ⟨rfl, paused⟩
  rw [State.status?, member.1, Option.map_some, Option.some_inj] at paused
  exact busy paused

theorem Leads.advances {d : Config K} {seen' : InstanceId → List Event} (leads : F.Leads seen' σ d)
    (started : ∀ j y, F.Member σ j y →
      seen' j = seen j ++ Config.starts j ⟨.result, σ, .advance i, stack⟩) :
    F.Proceeds seen ⟨.result, σ, .advance i, stack⟩ d := by
  obtain ⟨seen'', inv, told⟩ := leads
  refine ⟨seen'', inv, fun alone j y found => ?_⟩
  rw [told alone j y found, started j y found, List.append_assoc, Config.events]

theorem exhausted_member (ok : F.StateOk seen none σ) (clear : F.Clear σ stack)
    (member : F.Member σ i x) (status : x.status = .paused) {p : K.Procedure}
    (course : M.Course (F.plan i) i x.history p) (told : seen i = paces x.history.length)
    {limit : Nat} (full : x.exhausted? = some limit) :
    F.Proceeds seen ⟨.result, σ, .advance i, stack⟩
      ⟨.result, σ.modifyInstance i (·.fail), .run (.done (.error (.historyLimit limit))), stack⟩ := by
  simp only [Instance.exhausted?, ok.settings i x member, Option.filter_eq_some_iff,
    decide_eq_true_eq] at full
  have ends : M.Ends (F.plan i) F.attended i x.history
      (seen i ++ [.start, .failed (.historyLimit limit)]) := by
    rw [told]
    exact .exhausted course full.1 full.2
  have ok' := ok.finish member (f := (·.fail)) (fun _ => rfl) (fun _ => rfl) rfl ends
  refine ⟨_, .quiet ok' (clear.mono (.modifyInstance i fun _ => rfl)), fun _ j y found => ?_⟩
  by_cases same : j = i
  · subst same
    rw [Function.update_self, Config.events, starts_of_paused member status,
      Config.tells_done_error, if_pos]
    · rfl
    · refine ⟨by simp [State.status?, member.1, status], ?_⟩
      rw [State.status?, State.instances_modifyInstance_self, member.1]
      rfl
  · rw [Function.update_of_ne same, Config.events, starts_of_ne same, Config.tells_run,
      List.append_nil, List.append_nil]
    exact σ.status?_modifyInstance_ne (Ne.symm same) _

theorem started_member [Nonempty K.Memory] (sound : M.Sound) (ok : F.StateOk seen none σ)
    (clear : F.Clear σ stack) (member : F.Member σ i x) (status : x.status = .paused)
    {p : K.Procedure} (course : M.Course (F.plan i) i x.history p)
    (untouched : (F.plan i).Untouched x.history.length) (told : seen i = paces x.history.length)
    (full : x.exhausted? = none) :
    F.Proceeds seen ⟨.result, σ, .advance i, stack⟩
      ⟨.step, σ.modifyInstance i ({ ·.lend with status := .running }),
        .call (.resume p (Resumption.next? i x.history)), .push (.stepping i x.position) stack⟩ := by
  have room : (F.plan i).HasRoom x.history.length := by
    intro limit limited
    simp only [Instance.exhausted?, ok.settings i x member, Option.filter_eq_none_iff,
      limited, decide_eq_true_eq] at full
    exact Nat.lt_of_not_le (full limit rfl)
  obtain ⟨r, answers⟩ := course.answers sound (F.deterministic _ (F.listed i)) room
  have ok' : F.StateOk (Function.update seen i (seen i ++ [.start])) none
      (σ.modifyInstance i ({ ·.lend with status := .running })) := by
    refine ok.modifyInstance i (fun _ => rfl) (fun _ => rfl)
      (fun j other => ⟨Function.update_of_ne other _ _, id⟩) fun y found => ?_
    rw [member.unique found.1]
    refine ⟨.running rfl course untouched (by rw [Function.update_self, told]; rfl),
      fun task o _ awaits => ?_⟩
    cases awaits with
    | gone gone => rw [status] at gone; cases gone
    | past lt => exact .past lt
    | waits running => rw [status] at running; cases running
  have member' : F.Member (σ.modifyInstance i ({ ·.lend with status := .running })) i
      { x.lend with status := .running } := member.modify rfl
  have leads : F.Leads (Function.update seen i (seen i ++ [.start])) σ
      ⟨.step, _, .call (.resume p (Resumption.next? i x.history)),
        .push (.stepping i x.position) stack⟩ :=
    ⟨_, .stepping (x := { x.lend with status := .running }) ok'
      (clear.mono (.modifyInstance i fun _ => rfl)) member' rfl rfl answers (answers.gives course),
      fun _ _ _ _ => by simp⟩
  refine leads.advances fun j y _ => ?_
  by_cases same : j = i
  · subst same
    rw [Function.update_self, starts_of_paused member status]
  · rw [Function.update_of_ne same, starts_of_ne same, List.append_nil]

/-- A member is driven. -/
theorem driven_member [Nonempty K.Memory] (sound : M.Sound) (ok : F.StateOk seen none σ)
    (clear : F.Clear σ stack) (member : F.Member σ i x)
    (step : Config.DriveStep ⟨.result, σ, .advance i, stack⟩ d) :
    F.Proceeds seen ⟨.result, σ, .advance i, stack⟩ d := by
  have standing : x.status = .paused → ∃ p, x.procedure = some p ∧
      M.Course (F.plan i) i x.history p ∧ (F.plan i).Untouched x.history.length ∧
      seen i = paces x.history.length := by
    intro status
    cases ok.standing i x member with
    | paused _ procedure course untouched told => exact ⟨_, procedure, course, untouched, told⟩
    | running status' => rw [status] at status'; cases status'
    | ended status' => rw [status] at status'; cases status'
    | stopped status' => rw [status] at status'; cases status'
    | fed _ chosen => cases chosen
  cases step with
  | idle _ found busy =>
    rw [member.unique found] at busy
    refine Leads.advances (.run ok clear fun _ _ _ => rfl) fun j _ _ => ?_
    rw [starts_of_busy member busy, List.append_nil]
  | refused _ found paused reason =>
    rw [member.unique found] at paused reason
    obtain ⟨p, procedure, course, -, told⟩ := standing paused
    rcases reason with ⟨limit, full, rfl⟩ | missing
    · exact exhausted_member ok clear member paused course told full
    · rw [procedure] at missing
      cases missing
  | started _ found paused room has =>
    rw [member.unique found] at paused room has ⊢
    obtain ⟨p, procedure, course, untouched, told⟩ := standing paused
    rw [procedure] at has
    cases has
    exact started_member sound ok clear member paused course untouched told room

end Drive

section Tasks

variable {stack : Stack K .unit} {task : Task K} {c d : Config K}

/-- The future of a member's task is over. -/
theorem settled_member {outcome : Except Failure Value} (completes : c.Completes stack task outcome)
    (ok : F.StateOk seen none c.state) (clear : F.Clear c.state stack)
    (member : F.Member c.state task.owner x) (awaits : F.Awaits task outcome x)
    (step : c.TaskStep d) : F.Leads seen c.state d := by
  have waits : x.status = .running → x.position = task.position → ∃ p q,
      x.procedure = some q ∧ M.produced p = some outcome ∧
      M.Asks (F.plan task.owner) task.owner x.history (.await p task.keys) q ∧
      M.supply (F.plan task.owner).stored x.history.length (.await p task.keys) = some outcome := by
    intro running position
    cases awaits with
    | gone status => exact absurd (running.symm.trans status) (by decide)
    | past lt => exact absurd position (Nat.ne_of_gt lt)
    | @waits p q status procedure position asks produced missed =>
      refine ⟨p, q, procedure, produced, asks, ?_⟩
      simp only [Meaning.supply, Effect.keys?, F.stores _ (F.listed task.owner), missed]
      exact produced
  cases step with
  | gone completes' =>
    obtain ⟨rfl, rfl, rfl⟩ := completes.unique completes'
    exact .answer ok clear trivial
  | ignored completes' =>
    obtain ⟨rfl, rfl, rfl⟩ := completes.unique completes'
    exact .answer ok clear trivial
  | @settled c stack' task' v x' σ' completes' found running position stored =>
    obtain ⟨rfl, rfl, same⟩ := completes.unique completes'
    subst same
    rw [member.unique found] at running position stored
    obtain ⟨p, q, procedure, produced, asks, supply⟩ := waits running position
    have ok' : F.StateOk seen none σ' := by
      rcases stored with rfl | ⟨keys, cached, rfl⟩
      · exact ok
      · rw [member.2]
        rw [cached] at asks
        exact ok.remember ⟨_, F.listed task.owner, task.owner, _, _, q, asks, position, rfl, produced⟩
    have same : σ'.instances = c.state.instances := by
      rcases stored with rfl | ⟨keys, -, rfl⟩
      · rfl
      · rfl
    have member' : F.Member σ' task.owner x := ⟨same ▸ member.1, member.2⟩
    exact .tell_member (ok'.record member' running asks (.supplied supply) (fun _ => rfl)
      (fun _ => rfl) (by rw [x.takeBack_of_has procedure])) (clear.mono (.of_instances same))
      (fun _ => rfl) rfl rfl
  | @rejected c stack' task' failure x' completes' found running position =>
    obtain ⟨rfl, rfl, same⟩ := completes.unique completes'
    subst same
    rw [member.unique found] at running position
    obtain ⟨p, q, procedure, produced, asks, supply⟩ := waits running position
    obtain ⟨-, told⟩ := ok.of_running member running
    refine .tell_member (ok.finish (f := (·.fail)) member (fun _ => rfl) (fun _ => rfl) rfl ?_) clear
      (fun _ => rfl) rfl rfl
    rw [told, List.append_assoc, ← position]
    exact .stopped asks (.rejected supply)
  | told => cases completes
  | spared => cases completes
  | postponed => cases completes
  | parked => cases completes
  | polled draining => cases completes <;> cases draining
  | drained => cases completes

theorem Awaits.later {o : Except Failure Value} (awaits : F.Awaits task o x) (future : K.Future) :
    F.Awaits { task with future := future } o x := by
  cases awaits with
  | gone status => exact .gone status
  | past lt => exact .past lt
  | waits status procedure position asks produced missed =>
    exact .waits status procedure position asks produced missed

end Tasks

end Family

end Resumable
