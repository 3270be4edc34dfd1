import Resumable.Proofs.FamilyStep

namespace Resumable

variable {K : Client} {β : Behaviour K}

namespace Family

variable {M : Meaning β} {F : Family M} {σ before : State K} {i : InstanceId} {x : Instance K}
  {seen : InstanceId → List Event} {stack : Stack K .result} {entry : Entry K.Artifact}
  {later : History K.Artifact}

theorem StateOk.of_paused {replayed : Option InstanceId} (ok : F.StateOk seen replayed σ)
    (member : F.Member σ i x) (status : x.status = .paused) :
    (∃ p, M.Course (F.plan i) i x.history p) ∧ seen i = paces x.history.length := by
  cases ok.standing i x member with
  | paused _ _ course _ seen => exact ⟨⟨_, course⟩, seen⟩
  | running status' => rw [status] at status'; cases status'
  | ended status' => rw [status] at status'; cases status'
  | stopped status' => rw [status] at status'; cases status'
  | fed _ _ course seen => exact ⟨⟨_, course⟩, seen⟩

theorem Awaits.of_paused {task : Task K} {o : Except Failure Value} (awaits : F.Awaits task o x)
    (status : x.status = .paused) : task.position < x.history.length := by
  cases awaits with
  | gone gone => rw [status] at gone; cases gone
  | past lt => exact lt
  | waits running => rw [status] at running; cases running

theorem Lawful.answers [Nonempty K.Memory] (sound : M.Sound) {h : History K.Artifact}
    (lawful : F.Lawful i (h ++ entry :: later)) :
    ∃ r, M.Answers (F.plan i) i h r ∧ M.Yields (F.plan i) h.length r entry := by
  obtain ⟨-, j, recorded⟩ := lawful
  obtain ⟨r, answers, yields⟩ := recorded.answered (n := h.length) (by simp)
  simp only [List.take_left', List.getElem_append_right (Nat.le_refl _), Nat.sub_self,
    List.getElem_cons_zero] at answers yields
  obtain ⟨r', answers', results⟩ := answers.transfer sound (F.deterministic _ (F.listed i)) i
    (Plan.Agree.refl _ _) (Meaning.HistoryAlike.refl h)
  exact ⟨r', answers', yields.transfer results⟩

theorem Lawful.yields [Nonempty K.Memory] (sound : M.Sound) {h : History K.Artifact}
    {r : Except Payload (K.Procedure × Except Fault K.Yielded)}
    (lawful : F.Lawful i (h ++ entry :: later)) (answers : M.Answers (F.plan i) i h r) :
    M.Yields (F.plan i) h.length r entry := by
  obtain ⟨r', answers', yields⟩ := lawful.answers sound
  obtain ⟨p, course, -, gives⟩ := answers
  obtain rfl := (answers'.gives course).unique gives
  exact yields

theorem startReplay_member [Nonempty K.Memory] (sound : M.Sound)
    (allowed : F.replays = true) (ok : F.StateOk seen (some i) σ) (clear : F.Clear σ stack)
    (member : F.Member σ i x) (status : x.status = .paused) (fresh : x.history = [])
    {p : K.Procedure} (procedure : M.Course (F.plan i) i [] p)
    (lawful : F.Lawful i (entry :: later)) :
    F.Leads seen before ⟨.step, σ.modifyInstance i (·.lend), .call (.resume p none),
      .push (.replaying i entry later) stack⟩ := by
  obtain ⟨r, answers, -⟩ := Lawful.answers (h := []) sound lawful
  obtain ⟨⟨p', course⟩, told⟩ := ok.of_paused member status
  have ok' : F.StateOk seen (some i) (σ.modifyInstance i (·.lend)) :=
    ok.modifyInstance i (fun _ => rfl) (fun _ => rfl) (fun _ _ => ⟨rfl, id⟩) fun y found => by
      rw [member.unique found.1]
      exact ⟨.fed status rfl course told, fun task o _ awaits => .past (awaits.of_paused status)⟩
  have member' : F.Member (σ.modifyInstance i (·.lend)) i x.lend := member.modify rfl
  have lawful' : F.Lawful i (x.lend.history ++ entry :: later) := by
    rw [show x.lend.history = [] from fresh]
    exact lawful
  have answers' : M.Answers (F.plan i) i x.lend.history r := by
    rw [show x.lend.history = [] from fresh]
    exact answers
  exact ⟨seen, .replaying (x := x.lend) allowed ok'
    (clear.mono (.modifyInstance i fun _ => rfl)) member' status lawful' answers'
    (answers.gives procedure), fun _ _ _ _ => by simp⟩

def Replayed (F : Family M) (i : InstanceId) (x : Instance K) : Prop :=
  x.status = .paused ∨ x.status = .terminated ∧ ∃ h q a b, x.history = h ++ [.view b] ∧
    M.Answers (F.plan i) i h (.ok (q, .ok (.complete a))) ∧ M.artifacts.r a b

structure Settles (F : Family M) (σ : State K) (i : InstanceId) (x : Instance K)
    (entry : Entry K.Artifact) (f : Instance K → Instance K) : Prop where
  memo : ∀ y, (f y).memo = y.memo
  registry : (f x).registry = x.registry
  history : (f x).history = x.history ++ [entry]
  replayed : F.Replayed i (f x)
  ok : ∃ seen', F.StateOk seen' none (σ.modifyInstance i f)

theorem finishReplayed_cases [Nonempty K.Memory] (sound : M.Sound) (stack : Stack K .result)
    (ok : F.StateOk seen (some i) σ) (member : F.Member σ i x) (status : x.status = .paused)
    (lawful : F.Lawful i (x.history ++ entry :: later)) {p : K.Procedure}
    {answer : Except Fault K.Yielded} (answers : M.Answers (F.plan i) i x.history (.ok (p, answer))) :
    (later = [] ∧ ∃ f, F.Settles σ i x entry f ∧
      Next.finishReplayed σ stack i entry later p answer =
        Next.give (σ.modifyInstance i f) stack (.ok ())) ∨
    ∃ next rest seen', later = next :: rest ∧
      F.StateOk seen' (some i) (σ.modifyInstance i (·.record entry)) ∧
      M.Course (F.plan i) i (x.history ++ [entry]) p ∧
      Next.finishReplayed σ stack i entry later p answer =
        Next.call (σ.modifyInstance i (·.record entry)) (.replaying i next rest) stack
          (.resume p (Resumption.fed? i x.history entry)) := by
  have deterministic := F.deterministic _ (F.listed i)
  obtain ⟨-, told⟩ := ok.of_paused member status
  have yields := lawful.yields sound answers
  simp only [Next.finishReplayed, member.1]
  have chosen : ∀ j, j ≠ i → some i = some j → none = some j := by
    rintro j other same
    cases same
    exact absurd rfl other
  cases yields with
  | @complete _ a b alike =>
    cases later with
    | cons next later =>
      -- A completed history has nothing after its completion.
      obtain ⟨-, j, recorded⟩ := lawful
      obtain ⟨r, ⟨q, course', -, -⟩, -⟩ :=
        recorded.answered (n := x.history.length + 1) (by simp)
      have le := answers.course_le sound deterministic course'
      rw [List.length_take_of_le (by simp)] at le
      exact absurd le (Nat.not_succ_le_self _)
    | nil =>
      refine .inl ⟨rfl, fun y => (y.takeBack p).complete b, ⟨fun _ => rfl, rfl, rfl,
        .inr ⟨rfl, _, p, a, b, rfl, answers, alike⟩,
        Function.update seen i (seen i ++ [.start, .done]), ?_⟩, rfl⟩
      refine ok.modifyInstance i (fun _ => rfl) (fun _ => rfl)
        (fun j other => ⟨Function.update_of_ne other _ _, chosen j other⟩) fun y found => ?_
      rw [member.unique found.1]
      refine ⟨.ended rfl ?_, fun _ _ _ _ => .gone rfl⟩
      rw [Function.update_self, told]
      exact .completed answers alike
  | @effect _ e _ records =>
    have course' := answers.record records
    have told' : seen i ++ [.start, .ready] = paces (x.history ++ [entry]).length := by
      simp [told, paces_succ]
    have past : ∀ task o, F.Awaits task o x →
        task.position < (x.history ++ [entry]).length := fun task o awaits =>
      Nat.lt_of_lt_of_le (awaits.of_paused status) (by simp)
    simp only [records.recordedBy, if_true]
    cases later with
    | nil =>
      refine .inl ⟨rfl, (·.takeBack p) ∘ (·.record entry), ⟨fun _ => rfl, rfl, rfl, .inl rfl,
        Function.update seen i (seen i ++ [.start, .ready]), ?_⟩,
        by rw [State.modifyInstance_modifyInstance]⟩
      refine ok.modifyInstance i (fun _ => rfl) (fun _ => rfl)
        (fun j other => ⟨Function.update_of_ne other _ _, chosen j other⟩) fun y found => ?_
      rw [member.unique found.1]
      refine ⟨.paused rfl rfl course' lawful.1 ?_, fun task o _ awaits => .past (past task o awaits)⟩
      rw [Function.update_self, told']
      rfl
    | cons next rest =>
      refine .inr ⟨next, rest, Function.update seen i (seen i ++ [.start, .ready]), rfl, ?_, course',
        rfl⟩
      refine ok.modifyInstance i (fun _ => rfl) (fun _ => rfl)
        (fun j other => ⟨Function.update_of_ne other _ _, id⟩) fun y found => ?_
      rw [member.unique found.1]
      refine ⟨.fed rfl rfl course' ?_, fun task o _ awaits => .past (past task o awaits)⟩
      rw [Function.update_self, told']
      rfl

theorem Lawful.next [Nonempty K.Memory] (sound : M.Sound) {next : Entry K.Artifact}
    {p : K.Procedure} (lawful : F.Lawful i (x.history ++ entry :: next :: later))
    (course : M.Course (F.plan i) i (x.history ++ [entry]) p) :
    F.Lawful i ((x.record entry).history ++ next :: later) ∧
      ∃ r, M.Answers (F.plan i) i (x.record entry).history r ∧
        (β.code (.resume p (Resumption.fed? i x.history entry))).Gives r := by
  have lawful' : F.Lawful i ((x.history ++ [entry]) ++ next :: later) := by
    simpa using lawful
  obtain ⟨r, answers, -⟩ := lawful'.answers sound
  have gives := answers.gives course
  rw [Resumption.next?_push] at gives
  exact ⟨lawful', r, answers, gives⟩

theorem finishReplayed_member [Nonempty K.Memory] (sound : M.Sound)
    (allowed : F.replays = true) (ok : F.StateOk seen (some i) σ) (clear : F.Clear σ stack)
    (member : F.Member σ i x) (status : x.status = .paused)
    (lawful : F.Lawful i (x.history ++ entry :: later)) {p : K.Procedure}
    {answer : Except Fault K.Yielded} (answers : M.Answers (F.plan i) i x.history (.ok (p, answer))) :
    (Next.finishReplayed σ stack i entry later p answer).Holds (F.Leads seen σ) := by
  have unlike : F.replays ≠ false := by simp [allowed]
  rcases finishReplayed_cases sound stack ok member status lawful answers with
    ⟨rfl, f, settles, eq⟩ | ⟨next, rest, seen', rfl, ok', course, eq⟩
  · obtain ⟨seen', ok'⟩ := settles.ok
    rw [eq]
    exact Next.holds_give.mpr ⟨seen', .quiet ok' (clear.mono (.modifyInstance i settles.memo)),
      fun alone => absurd alone unlike⟩
  · obtain ⟨lawful', r, answers', gives⟩ := lawful.next sound course
    have member' : F.Member (σ.modifyInstance i (·.record entry)) i (x.record entry) :=
      member.modify rfl
    rw [eq]
    exact Next.holds_call.mpr ⟨seen', .replaying (x := x.record entry) allowed ok'
      (clear.mono (.modifyInstance i fun _ => rfl)) member' rfl lawful' answers' gives,
      fun alone => absurd alone unlike⟩

section

variable {c d : Config K}

theorem replay_leads [Nonempty K.Memory] (sound : M.Sound) (step : c.ReplayStep d)
    (ok : F.StateOk seen none c.state) (clear : F.Clear c.state c.stack) (permits : F.Permits c) :
    F.Leads seen c.state d := by
  cases step with
  | @started s σ i x p e later next stack found fresh paused has =>
    have clear' : F.Clear σ (.push (.waiting next) stack) := clear.idle rfl
    rcases F.member_or_foreign found with member | foreign
    · obtain ⟨allowed, lawful⟩ := (permits x member).resolve_left (by rintro ⟨⟩)
      cases ok.standing i x member with
      | @paused p' status procedure' course untouched told =>
        rw [has] at procedure'
        cases procedure'
        rw [fresh] at course
        exact startReplay_member sound allowed ok.choose clear' member status fresh course lawful
      | running status => rw [paused] at status; cases status
      | ended status => rw [paused] at status; cases status
      | stopped status => rw [paused] at status; cases status
      | fed _ chosen => cases chosen
    · exact .call_foreign ok clear' foreign rfl (fun _ => rfl) fun _ => rfl
  | diverged => exact .give_foreign ok clear.rest (clear.top rfl) (fun _ => rfl) fun _ => rfl
  | completed => exact .give_foreign ok clear.rest (clear.top rfl) (fun _ => rfl) fun _ => rfl
  | ended => exact .give_foreign ok clear.rest (clear.top rfl) (fun _ => rfl) fun _ => rfl
  | resumed => exact .call_foreign ok clear.rest (clear.top rfl) rfl (fun _ => rfl) fun _ => rfl

theorem Leads.founded
    (leads : F.Leads (fun j => if j = σ.instances.length then [] else seen j) σ d) :
    F.Leads seen σ d :=
  leads.of_seen fun _ _ member => if_neg (Nat.ne_of_lt (List.getElem?_eq_some_iff.mp member.1).1)

theorem host_leads [Nonempty K.Memory] (sound : M.Sound) (step : c.HostStep d)
    (ok : F.StateOk seen none c.state) (clear : F.Clear c.state c.stack) (permits : F.Permits c) :
    F.Leads seen c.state d := by
  cases step with
  | marked =>
    exact .answer (ok.of_same rfl rfl rfl)
      (Clear.idle (Clear.idle (clear.mono (.of_instances rfl)) rfl) rfl) trivial
  | continued => exact .advance ok (clear.rest.idle rfl)
  | building => exact .call ok (clear.rest.idle rfl)
  | @mounted σ σ' k y p inputs rest made dismisses =>
    have ok' : F.StateOk _ none (σ.newInstance p y.memo y.settings [.host k]).2 :=
      ok.newInstance p y.memo y.settings [.host k] fun own =>
        ⟨(permits y made own).1, .inl (permits y made own).2⟩
    have keeps := (State.Keeps.newInstance p y.memo y.settings [.host k]).trans
      (Dismisses.keeps dismisses)
    exact .founded (.advance ((ok'.dismisses dismisses).of_same rfl rfl rfl)
      (Clear.idle (clear.rest.mono (keeps.trans (.of_instances rfl))) rfl))
  | unmarked =>
    exact .answer (ok.of_same rfl rfl rfl) (Clear.idle (clear.rest.mono (.of_instances rfl)) rfl)
      trivial
  | reviewed => exact .answer ok clear.rest trivial
  | again => exact .call ok (clear.rest.idle rfl)
  | rerendered => exact .answer ok clear.rest trivial
  | @empty σ k y p rest made =>
    have ok' : F.StateOk _ none (σ.newInstance p y.memo y.settings [.host k]).2 :=
      ok.newInstance p y.memo y.settings [.host k] fun own =>
        ⟨(permits y made own).1, .inl (permits y made own).2.2.1⟩
    exact .founded (.quiet ok' (Clear.idle (clear.rest.mono (.newInstance _ _ _ _)) rfl) fun _ _ _ => rfl)
  | @replaying σ k y e later p rest made =>
    have clear' : F.Clear (σ.newInstance p y.memo y.settings [.host k]).2
        (.push (.adopting k σ.instances.length) rest) :=
      Clear.idle (clear.rest.mono (.newInstance _ _ _ _)) rfl
    have created := (σ.instances_newInstance p y.memo y.settings [.host k] σ.instances.length).trans
      (if_pos rfl)
    by_cases own : y.memo = F.memo
    · obtain ⟨fits, allowed, lawful⟩ := permits y made own
      have ok' : F.StateOk _ (some σ.instances.length)
          (σ.newInstance p y.memo y.settings [.host k]).2 :=
        ok.newInstance p y.memo y.settings [.host k] fun _ => ⟨fits, .inr rfl⟩
      have course : M.Course (F.plan σ.instances.length) σ.instances.length [] p := by
        rw [fits.1]
        exact .start
      exact .founded (startReplay_member sound allowed ok' clear' ⟨created, own⟩ rfl rfl course lawful)
    · have ok' : F.StateOk _ none (σ.newInstance p y.memo y.settings [.host k]).2 :=
        ok.newInstance p y.memo y.settings [.host k] fun own' => absurd own' own
      exact .founded (.call_foreign ok' clear' ⟨_, created, own⟩ rfl (fun _ => rfl) fun _ => rfl)
  | adopted =>
    exact .answer (ok.of_same rfl rfl rfl) (Clear.idle (clear.rest.mono (.of_instances rfl)) rfl)
      trivial

end

end Family

end Resumable
