import Resumable.Proofs.Progress
import Resumable.Proofs.StatusInvariant

namespace Resumable

variable {K : Client} {β : Behaviour K} {M : Meaning β}

namespace Family

variable {F : Family M} {i : InstanceId}

theorem replaying_answers [Nonempty K.Memory] (sound : M.Sound) {σ : State K}
    {rest : Stack K .result} {entry : Entry K.Artifact} {h later : History K.Artifact}
    {control : Control K .step} {r : Except Payload (K.Procedure × Except Fault K.Yielded)}
    (lawful : F.Lawful i (h ++ entry :: later)) (answers : M.Answers (F.plan i) i h r)
    (gives : control.Only β (· = r)) :
    ∃ memory p answer, r = .ok (p, answer) ∧ ∀ d,
      Next.finishReplayed { σ with memory := memory } rest i entry later p answer = .ok d →
      Config.Reaches β ⟨.step, σ, control, .push (.replaying i entry later) rest⟩ d := by
  obtain ⟨memory, r', rfl, reached⟩ :=
    Config.reaches_ended gives σ (.push (.replaying i entry later) rest)
  cases r' with
  | error payload => cases lawful.yields sound answers
  | ok answer => exact ⟨memory, answer.1, answer.2, rfl, fun d step => reached.tail step⟩

theorem replaying_reaches [Nonempty K.Memory] (sound : M.Sound) (rest : Stack K .result)
    (later : History K.Artifact) :
    ∀ (σ : State K) (x : Instance K) (entry : Entry K.Artifact) (control : Control K .step)
      (r : Except Payload (K.Procedure × Except Fault K.Yielded)),
      (∃ seen, F.StateOk seen (some i) σ) → F.Member σ i x → x.status = .paused →
      F.Lawful i (x.history ++ entry :: later) → M.Answers (F.plan i) i x.history r →
      control.Only β (· = r) →
      ∃ σ' x', Config.Reaches β ⟨.step, σ, control, .push (.replaying i entry later) rest⟩
          ⟨.result, σ', .run (.done (.ok ())), rest⟩ ∧
        (∃ seen, F.StateOk seen none σ') ∧ σ.Keeps σ' ∧ σ'.memos = σ.memos ∧ F.Member σ' i x' ∧
        x'.history = x.history ++ entry :: later ∧ x'.registry = x.registry ∧
        F.Replayed i x' := by
  induction later with
  | nil =>
    rintro σ x entry control r ⟨seen, ok⟩ member status lawful answers gives
    obtain ⟨memory, p, answer, rfl, reached⟩ :=
      replaying_answers sound lawful answers gives
    have ok' : F.StateOk seen (some i) { σ with memory := memory } := ok.of_same rfl rfl rfl
    rcases finishReplayed_cases sound rest ok' member status lawful answers with
      ⟨-, f, settles, eq⟩ | ⟨_, _, _, none, -⟩
    · refine ⟨_, f x, reached _ eq, settles.ok, .modifyInstance i settles.memo, rfl, ⟨?_, ?_⟩,
        settles.history, settles.registry, settles.replayed⟩
      · rw [State.instances_modifyInstance_self]
        exact congrArg (Option.map f) member.1
      · rw [settles.memo, member.2]
    · cases none
  | cons next later ih =>
    rintro σ x entry control r ⟨seen, ok⟩ member status lawful answers gives
    obtain ⟨memory, p, answer, rfl, reached⟩ :=
      replaying_answers sound lawful answers gives
    have ok' : F.StateOk seen (some i) { σ with memory := memory } := ok.of_same rfl rfl rfl
    rcases finishReplayed_cases sound rest ok' member status lawful answers with
      ⟨none, -⟩ | ⟨_, _, seen', same, recorded, course, eq⟩
    · cases none
    · cases same
      obtain ⟨lawful', r', answers', gives'⟩ := lawful.next sound course
      have member' : F.Member (State.modifyInstance { σ with memory := memory } i (·.record entry)) i
          (x.record entry) :=
        ⟨by rw [State.instances_modifyInstance_self]; exact congrArg _ member.1, member.2⟩
      obtain ⟨σ', x', further, settled, keeps, memos, last, history, registry, replayed⟩ :=
        ih _ (x.record entry) next (.call (.resume p (Resumption.fed? i x.history entry))) r'
          ⟨seen', recorded⟩ member' rfl lawful' answers' gives'
      refine ⟨σ', x', (reached _ eq).trans further, settled, ?_, memos, last, ?_, registry,
        replayed⟩
      · have first : State.Keeps { σ with memory := memory }
            (State.modifyInstance { σ with memory := memory } i (·.record entry)) :=
          .modifyInstance i fun _ => rfl
        exact State.Keeps.trans (.of_instances rfl) (first.trans keeps)
      · rw [history]
        simp [Instance.record]

theorem replay_reaches [Nonempty K.Memory] (sound : M.Sound) {σ : State K} {x : Instance K}
    {seen : InstanceId → List Event} {s : Shape} {stack : Stack K s}
    {next : Except Fault Unit → Code K (s.Answer K)} {h : History K.Artifact}
    (ok : F.StateOk seen none σ) (member : F.Member σ i x) (fresh : x.history = [])
    (status : x.status = .paused) (unlocked : stack.locksInstance i = false)
    (nonempty : h ≠ []) (lawful : F.Lawful i h) :
    ∃ σ' x', Config.Reaches β ⟨s, σ, .run (.call (.replay i h) next), stack⟩
        ⟨s, σ', .run (next (.ok ())), stack⟩ ∧
      (∃ seen, F.StateOk seen none σ') ∧ σ.Keeps σ' ∧ σ'.memos = σ.memos ∧ F.Member σ' i x' ∧
      x'.history = h ∧ x'.registry = x.registry ∧ F.Replayed i x' := by
  cases h with
  | nil => exact absurd rfl nonempty
  | cons entry later =>
    cases ok.standing i x member with
    | running status' => rw [status] at status'; cases status'
    | ended status' => rw [status] at status'; cases status'
    | stopped status' => rw [status] at status'; cases status'
    | fed _ chosen => cases chosen
    | @paused p _ procedure course untouched told =>
      rw [fresh] at course
      obtain ⟨r, answers, -⟩ := Lawful.answers (h := []) sound lawful
      have course' : M.Course (F.plan i) i x.lend.history p := by
        rw [show x.lend.history = [] from fresh]
        exact course
      have ok' : F.StateOk seen (some i) (σ.modifyInstance i (·.lend)) :=
        ok.choose.modifyInstance i (fun _ => rfl) (fun _ => rfl) (fun _ _ => ⟨rfl, id⟩)
          fun y found => by
            rw [member.unique found.1]
            exact ⟨.fed status rfl course' told,
              fun task o _ awaits => .past (awaits.of_paused status)⟩
      have member' : F.Member (σ.modifyInstance i (·.lend)) i x.lend :=
        ⟨by rw [State.instances_modifyInstance_self, member.1]; rfl, member.2⟩
      have first : Config.step β ⟨s, σ, .run (.call (.replay i (entry :: later)) next), stack⟩ =
          .ok ⟨.step, σ.modifyInstance i (·.lend), .call (.resume p none),
            .push (.replaying i entry later) (.push (.waiting next) stack)⟩ := by
        have locks : (Stack.push (.waiting next) stack : Stack K .result).locksInstance i = false := by
          simpa [Stack.locksInstance, Stack.any, Frame.lockedInstance?] using unlocked
        simp [Config.step_request, Next.serve, Next.replay, Next.withInstance, locks, member.1,
          fresh, status, procedure, Next.call]
      obtain ⟨σ', x', reached, settled, keeps, memos, last, history, registry, replayed⟩ :=
        replaying_reaches sound (.push (.waiting next) stack) later _ x.lend entry
          (.call (.resume p none)) r ⟨seen, ok'⟩ member' status
          (by rw [show x.lend.history = [] from fresh]; exact lawful)
          (by rw [show x.lend.history = [] from fresh]; exact answers) (answers.gives course)
      refine ⟨σ', x', .head first (reached.tail ?_), settled, ?_, memos, last, ?_, registry,
        replayed⟩
      · rw [Config.step_done]
        rfl
      · have lent : σ.Keeps (σ.modifyInstance i (·.lend)) := .modifyInstance i fun _ => rfl
        exact lent.trans keeps
      · rw [history, show x.lend.history = [] from fresh, List.nil_append]

theorem Replayed.length_seen [Nonempty K.Memory] (sound : M.Sound) (attended : F.attended = true)
    {σ : State K} {x : Instance K} {seen : InstanceId → List Event} (replayed : F.Replayed i x)
    (ok : F.StateOk seen none σ) (member : F.Member σ i x) (open' : x.registry.closed = false) :
    (seen i).length = 2 * x.history.length := by
  have standing := ok.standing i x member
  rcases replayed with status | ⟨status, h, q, a, b, eq, answers, alike⟩
  · rw [(ok.of_paused member status).2, length_paces]
  · cases standing with
    | paused status' => rw [status] at status'; cases status'
    | running status' => rw [status] at status'; cases status'
    | stopped _ closed => rw [open'] at closed; cases closed
    | fed status' => rw [status] at status'; cases status'
    | ended _ ends =>
      rw [attended] at ends
      have completed : M.Ends (F.plan i) true i (h ++ [.view b])
          (paces h.length ++ [.start, .done]) := .completed answers alike
      rw [(ends.unique sound (F.deterministic _ (F.listed i)) completed).2, eq]
      simp
      omega

theorem Standing.seen_begins [Nonempty K.Memory] (sound : M.Sound) {j : InstanceId}
    {replayed : Option InstanceId} {x : Instance K} {h : History K.Artifact}
    {events es : List Event} (standing : F.Standing replayed i events x)
    (attended : F.attended = true) (open' : x.registry.closed = false)
    (ends : M.Ends (F.plan i) true j h es) :
    events <+: es ∧ (∃ l, l <+: h ∧ M.HistoryAlike x.history l) ∧
      (x.status = .paused → events = paces x.history.length) ∧
      (x.status = .terminated → M.HistoryAlike x.history h ∧ events = es) := by
  have deterministic := F.deterministic _ (F.listed i)
  have begins : M.Recorded (F.plan i) i x.history →
      ∃ l, l <+: h ∧ M.HistoryAlike x.history l := fun recorded =>
    recorded.prefix_of sound deterministic ends.recorded (.inr ⟨es, ends⟩)
  cases standing with
  | paused status _ course _ seen =>
    refine ⟨?_, begins course.recorded, fun _ => seen, fun gone => ?_⟩
    · rw [seen]
      exact (List.prefix_append _ _).trans (ends.continues sound deterministic course)
    · rw [status] at gone; cases gone
  | running status course _ seen =>
    refine ⟨?_, begins course.recorded, fun paused => ?_, fun gone => ?_⟩
    · rw [seen]
      exact ends.continues sound deterministic course
    · rw [status] at paused; cases paused
    · rw [status] at gone; cases gone
  | ended status ends' =>
    rw [attended] at ends'
    obtain ⟨alike, rfl⟩ := ends'.unique sound deterministic ends
    refine ⟨List.prefix_refl _, begins ends'.recorded, fun paused => ?_, fun _ => ⟨alike, rfl⟩⟩
    rw [status] at paused; cases paused
  | stopped _ closed => rw [open'] at closed; cases closed
  | fed status _ course seen =>
    refine ⟨?_, begins course.recorded, fun _ => seen, fun gone => ?_⟩
    · rw [seen]
      exact (List.prefix_append _ _).trans (ends.continues sound deterministic course)
    · rw [status] at gone; cases gone

structure SoleUser (σ : State K) (i : InstanceId) (m : MemoId) (π : Plan K) : Prop where
  fresh : ∃ registry, σ.instances[i]? = some
    { procedure := some π.start, registry := registry, memo := m, settings := π.settings }
  others : ∀ j y, σ.instances[j]? = some y → y.memo = m → j = i
  tasks : ∀ task ∈ σ.tasks, ∃ y, σ.instances[task.owner]? = some y ∧ y.memo ≠ m
  stored : σ.memo m = π.stored

theorem SoleUser.inv [Nonempty K.Memory] (sound : M.Sound) {π : Plan K}
    (deterministic : M.procedures π.start π.start) (plain : π.Untouched 0) {m : MemoId}
    {σ : State K} (sole : SoleUser σ i m π) (code : Code K Unit) :
    (uniform sound m π deterministic true).Inv (fun _ => []) (.start σ code) := by
  obtain ⟨registry, fresh⟩ := sole.fresh
  have only : ∀ j x, (uniform sound m π deterministic true).Member σ j x →
      x = { procedure := some π.start, registry := registry, memo := m, settings := π.settings } := by
    rintro j x ⟨found, own⟩
    cases sole.others j x found own
    rw [fresh] at found
    exact (Option.some.inj found).symm
  refine .quiet ⟨⟨[], by rw [List.append_nil]; exact sole.stored, by simp⟩, fun j x member => ?_,
    fun j x member => ?_, fun task mem => .foreign (sole.tasks task mem)⟩ trivial
  · rw [only j x member]
    rfl
  · rw [only j x member]
    exact .paused rfl rfl .start plain rfl

end Family

namespace Config

def asks (i : InstanceId) : Config K → Bool
  | ⟨_, σ, .run (.call (.proceed j) _), _⟩ => decide (j = i ∧ σ.status? i = some .paused)
  | _ => false

variable {i : InstanceId} {G : Config K → Prop} {c d : Config K} {t : List (Config K × Config K)}
  {x : Instance K}

theorem starts_of_asks (asked : c.asks i = true) (follows : Follows β c d) :
    d.starts i = [.start] := by
  have step := follows.step_eq fun σ result eq => by
    subst eq
    cases result <;> cases asked
  unfold asks at asked
  split at asked
  · rw [step_request] at step
    cases step
    exact if_pos (of_decide_eq_true asked)
  · cases asked

theorem Run.asks_le (run : Run β G c t d) :
    (t.map Prod.fst).countP (asks i) ≤ (eventsOf i t).count .start + (d.starts i).length := by
  induction run with
  | refl => simp
  | @snoc t d e run guard follows ih =>
    have one : (d.starts i).length = (d.starts i).count .start := by
      unfold starts
      split
      · split <;> rfl
      · rfl
    rw [eventsOf_snoc, events, List.map_append, List.countP_append, List.count_append,
      List.count_append]
    cases asked : d.asks i with
    | true =>
      have started := starts_of_asks asked follows
      simp only [List.map_cons, List.map_nil, List.countP_cons, asked, if_true, List.countP_nil,
        started, List.length_singleton]
      omega
    | false =>
      simp only [List.map_cons, List.map_nil, List.countP_cons, asked, Bool.false_eq_true, if_false,
        List.countP_nil]
      omega

theorem count_start_paces (n : Nat) : (paces n).count .start = n := by
  induction n with
  | zero => rfl
  | succ n ih => simp [paces_succ, ih]

theorem Run.guarded {H : Config K → Prop} (run : Run β G c t d) (holds : ∀ p ∈ t, H p.1) :
    Run β H c t d := by
  induction run with
  | refl => exact .refl
  | snoc _ _ follows ih =>
    exact (ih fun p mem => holds p (List.mem_append_left _ mem)).snoc
      (holds _ (List.mem_append_right _ (List.mem_singleton_self _))) follows

theorem Stands.reaches {lost : Prop} (stands : c.Stands lost i) (may : lost)
    (reaches : Reaches β c d) : d.Stands lost i := by
  induction reaches with
  | refl => exact stands
  | tail _ step ih => exact ih.follows (fun _ => may) (.step step)

theorem Stands.intact (stands : c.Stands True i) (found : c.state.instances[i]? = some x)
    (rests : x.status = .terminated ∨ x.status = .paused ∧ x.procedure ≠ none) :
    c.Stands False i := by
  refine ⟨stands.absent, fun y found' => ?_⟩
  obtain rfl : x = y := Option.some.inj (found.symm.trans found')
  have stands := stands.present x found
  generalize c.underWay i = as at stands ⊢
  rcases rests with terminated | ⟨paused, procedure⟩
  · cases stands with
    | idle status => exact .ended_zero terminated
    | busy suits => exact absurd terminated suits.alive
    | broken _ alive => exact absurd terminated alive
    | ended _ unlocked => exact .ended terminated unlocked
  · rw [stands.of_paused paused procedure]
    exact .idle paused procedure

theorem Completes.settles {lost : Prop} {stack : Stack K .unit} {task : Task K}
    {outcome : Except Failure Value} (completes : c.Completes stack task outcome)
    (stands : c.Stands lost task.owner) (found : c.state.instances[task.owner]? = some x)
    (running : x.status = .running) (alive : c.state.instanceAlive stack task.owner = true) :
    ∃ d z, c.step β = .ok d ∧ d.state.instances[task.owner]? = some z ∧ (z.status = .terminated ∨
      z.status = .paused ∧ z.history.length = x.history.length + 1) := by
  have waits := completes.waits stands found (by simp [running])
  have modified : ∀ (σ : State K) (f : Instance K → Instance K), σ.instances = c.state.instances →
      (σ.modifyInstance task.owner f).instances[task.owner]? = some (f x) := fun σ f same => by
    rw [State.instances_modifyInstance_self, same, found, Option.map_some]
  rw [completes.step, Next.settle, if_pos alive, Next.withInstance, completes.unlocked stands,
    if_neg Bool.false_ne_true, found]
  simp only [waits, ne_eq, not_true_eq_false, or_self, if_false]
  cases outcome with
  | ok v =>
    refine ⟨_, _, rfl, modified _ (·.record (.yielded v)) ?_, .inr ⟨rfl, by simp [Instance.record]⟩⟩
    split <;> rfl
  | error failure => exact ⟨_, _, rfl, modified _ (·.fail) rfl, .inl rfl⟩

end Config

open Config

/-- How an instance `j` stands after a run from where `k` entries had been replayed into it, of a
history `h` that has shown the events `left` after its `k`-th entry. -/
structure Family.Retraces (F : Family M) (j : InstanceId) (k : Nat) (h : History K.Artifact)
    (left : List Event) (t : List (Config K × Config K)) (e : Config K) (z : Instance K) : Prop where
  recorded : ∃ l, l <+: h ∧ M.HistoryAlike z.history l
  shown : eventsOf j t <+: left
  paced : z.status = .paused → eventsOf j t = paces (z.history.length - k)
  ended : z.status = .terminated → M.HistoryAlike z.history h ∧ eventsOf j t = left
  /-- Each drive that was asked of it while it was paused has recorded an entry, or its step is still
  to start. -/
  driven : z.status = .paused →
    (t.map Prod.fst).countP (asks j) ≤ z.history.length - k + (e.starts j).length
  /-- Asked for more drives than it had entries left to record, it has ended, unless it waits for a
  producer. -/
  finished : h.length - k + (e.starts j).length < (t.map Prod.fst).countP (asks j) →
    z.status ≠ .running → z.status = .terminated ∧ M.HistoryAlike z.history h ∧ eventsOf j t = left
  /-- A drive of it ends, and leaves it terminated or waiting for a producer that can be polled. -/
  rests : ∀ τ base, e = ⟨.result, τ, .advance j, base⟩ → M.Calm → τ.ambient = true →
    z.status ≠ .running → (∀ o ∈ z.registry.observers, o.Silent β) →
    F.ComesToRest j base z.registry e
  /-- A producer that it waits for settles, when its future is over. -/
  settles : ∀ rest task outcome, e.Completes rest task outcome → task.owner = j →
    z.status = .running → e.state.instanceAlive rest j = true →
    ∃ d z', e.step β = .ok d ∧ d.state.instances[j]? = some z' ∧ (z'.status = .terminated ∨
      z'.status = .paused ∧ z'.history.length = z.history.length + 1)
  /-- As long as nothing was lost for it, it has its procedure while it is paused, and while it is
  running one thing is under way for it. -/
  regular : (∀ p ∈ t, ¬ p.1.Loses j) → e.stack.locksInstance j = false → z.Regular (e.underWay j)

namespace Family

variable {F : Family M} {i j : InstanceId}

theorem Replayed.rests {replayed : Option InstanceId} {events : List Event} {y : Instance K}
    (again : F.Replayed j y) (standing : F.Standing replayed j events y) (others : replayed = none) :
    y.status = .terminated ∨ y.status = .paused ∧ y.procedure ≠ none := by
  rcases again with paused | ⟨terminated, -⟩
  · cases standing with
    | paused _ procedure => exact .inr ⟨paused, by rw [procedure]; exact Option.some_ne_none _⟩
    | running status => rw [paused] at status; cases status
    | ended status => exact .inl status
    | stopped status => exact .inl status
    | fed _ chosen => rw [others] at chosen; cases chosen
  · exact .inl terminated

/-- From where it has recorded and shown what another instance had after its `k`-th entry, an
instance retraces the other one. -/
theorem Inv.retraces [Nonempty K.Memory] (sound : M.Sound) (attended : F.attended = true)
    (alone : F.replays = false) {c e : Config K} {y z : Instance K}
    {seen : InstanceId → List Event} {t : List (Config K × Config K)} {k : Nat}
    {h : History K.Artifact} {left es : List Event} (inv : F.Inv seen c)
    (member : F.Member c.state j y) (size : y.history.length = k)
    (count : (seen j).length = 2 * k) (parts : seen j ++ left = es)
    (ends : M.Ends (F.plan j) true i h es) (stands : c.Stands True j)
    (begun : y.status = .terminated ∨ y.status = .paused ∧ y.procedure ≠ none)
    (run : Run β F.Admits c t e) (found : e.state.instances[j]? = some z)
    (opened : z.registry.closed = false) : F.Retraces j k h left t e z := by
  have deterministic := F.deterministic _ (F.listed j)
  have stands' := stands.run (fun _ _ _ => trivial) run
  obtain ⟨seen', inv', told⟩ := inv.run sound run
  have told := told alone j y member
  obtain ⟨z', found', later⟩ := run.grows j y member.1
  obtain rfl : z = z' := Option.some.inj (found.symm.trans found')
  have member' : F.Member e.state j z := ⟨found, later.memo.trans member.2⟩
  obtain ⟨_, standing⟩ := inv'.standing member'
  obtain ⟨begins, recorded, running, gone⟩ := standing.seen_begins sound attended opened ends
  rw [told, ← parts, List.prefix_append_right_inj] at begins
  have paced : z.status = .paused → eventsOf j t = paces (z.history.length - k) := by
    intro paused
    have longer := later.history.length_le
    rw [size] at longer
    have split : seen j ++ eventsOf j t = paces k ++ paces (z.history.length - k) := by
      rw [← told, running paused, ← paces_add, Nat.add_sub_cancel' longer]
    exact (List.append_inj split (by rw [count, length_paces])).2
  have ended : z.status = .terminated → M.HistoryAlike z.history h ∧ eventsOf j t = left := by
    intro terminated
    obtain ⟨whole, all⟩ := gone terminated
    rw [told, ← parts, List.append_cancel_left_eq] at all
    exact ⟨whole, all⟩
  have driven : z.status = .paused →
      (t.map Prod.fst).countP (asks j) ≤ z.history.length - k + (e.starts j).length := by
    intro paused
    have asked := run.asks_le (i := j)
    rwa [paced paused, count_start_paces] at asked
  have short : z.history.length ≤ h.length := by
    obtain ⟨l, part, same⟩ := recorded
    exact same.length_eq.trans_le part.length_le
  exact
    { recorded := recorded
      shown := begins
      paced := paced
      ended := ended
      driven := driven
      finished := fun more settled => by
        cases status : z.status with
        | running => exact absurd status settled
        | paused =>
          have few := driven status
          omega
        | terminated => exact ⟨rfl, ended status⟩
      rests := by
        rintro τ base rfl calm ambient idle silent
        exact drive_rests sound silent deterministic ends calm _ _ _ inv' member' ambient rfl idle
          fun _ => Nat.zero_le _
      settles := by
        rintro rest task outcome completes rfl running alive
        exact completes.settles stands' found running alive
      regular := fun kept unlocked => by
        have intact := (stands.intact member.1 begun).run (fun _ guard => guard) (run.guarded kept)
        exact (intact.present z found).regular (unlocked_iff.mp unlocked) }

theorem SoleUser.stands {σ : State K} {m : MemoId} {π : Plan K} (sole : SoleUser σ i m π)
    (absent : σ.instances[j]? = none) (code : Code K Unit) : (start σ code).Stands True j := by
  refine ⟨fun _ => ?_, fun x found => absurd (found.symm.trans absent) (Option.some_ne_none x)⟩
  refine Multiset.eq_zero_of_forall_notMem fun a mem => ?_
  obtain ⟨task, queued, rfl, -⟩ := State.of_mem_underWay mem
  obtain ⟨y, found, -⟩ := sole.tasks task queued
  exact absurd (found.symm.trans absent) (Option.some_ne_none y)

end Family

/-- An instance `i` that is the only user of its memo has been driven until it ended by itself.
Whatever beginning of its history is replayed into a fresh instance `j` of its plan on that memo,
the replay goes through, leaves the memo as it is, and leaves `j` paused with its procedure, or
terminated just if nothing was left to see of `i`. From there on every drive of `j` records what `i`
recorded and shows what `i` showed after its `k`-th entry, until `j` has recorded all, shown all and
terminated; it waits only for producers that have not settled. -/
theorem replay_equivalence [Nonempty K.Memory] (sound : M.Sound) {p : K.Procedure}
    (deterministic : M.procedures p p) {settings : Settings} {stored : Memo} {m : MemoId}
    {σ₀ : State K} {i j : InstanceId} (sole : Family.SoleUser σ₀ i m (.plain p settings stored))
    {code : Code K Unit}
    {t : List (Config K × Config K)} {w : Shape} {σ : State K} {stack : Stack K w}
    {next : Except Fault Unit → Code K (w.Answer K)} {x y : Instance K} {k : Nat}
    (run : Run β (Family.uniform sound m (.plain p settings stored) deterministic true).Admits (start σ₀ code) t
      ⟨w, σ, .run (.call (.replay j (x.history.take k)) next), stack⟩)
    (found : σ.instances[i]? = some x) (ended : x.EndedByItself)
    (found' : σ.instances[j]? = some y) (shares : y.memo = m) (fresh : y.history = [])
    (paused : y.status = .paused) (held : y.registry.closed = false)
    (unlocked : stack.locksInstance j = false) (some : 1 ≤ k) (within : k ≤ x.history.length) :
    ∃ σ' y', Reaches β ⟨w, σ, .run (.call (.replay j (x.history.take k)) next), stack⟩
        ⟨w, σ', .run (next (.ok ())), stack⟩ ∧
      σ'.memo m = σ.memo m ∧ σ'.instances[j]? = .some y' ∧ y'.history = x.history.take k ∧
      y'.registry = y.registry ∧
      (y'.status = .terminated ↔ (eventsOf i t).drop (2 * k) = []) ∧
      (y'.status ≠ .terminated → y'.status = .paused ∧ y'.procedure ≠ none) ∧
      ∀ t' e z, Run β (Family.uniform sound m (.plain p settings stored) deterministic true).Admits
          ⟨w, σ', .run (next (.ok ())), stack⟩ t' e →
        e.state.instances[j]? = .some z → z.registry.closed = false →
        (Family.uniform sound m (.plain p settings stored) deterministic true).Retraces j k x.history
          ((eventsOf i t).drop (2 * k)) t' e z := by
  have untouched := Plan.plain_untouched p settings stored
  obtain ⟨registry, start⟩ := sole.fresh
  obtain ⟨seen, inv, told⟩ := (sole.inv sound deterministic (untouched 0) code).run sound run
  have told := told rfl i _ ⟨start, rfl⟩
  obtain ⟨x', found'', later⟩ := run.grows i _ start
  rw [found] at found''
  cases found''
  have ends := inv.ends ⟨found, later.memo⟩ ended
  rw [told, List.nil_append] at ends
  have absent : σ₀.instances[j]? = none := by
    by_contra there
    obtain ⟨y₀, old⟩ := Option.ne_none_iff_exists'.mp there
    obtain ⟨y', found'', later⟩ := run.grows j y₀ old
    rw [found'] at found''
    cases found''
    obtain rfl := sole.others j y₀ old (later.memo.symm.trans shares)
    rw [found] at found'
    cases found'
    rw [fresh] at within
    exact Nat.not_succ_le_zero 0 (some.trans within)
  have stood := (sole.stands absent code).run (fun _ _ _ => trivial) run
  cases inv with
  | stepping _ _ _ _ _ _ gives => exact gives.elim
  | computing _ _ _ _ _ _ _ _ gives => exact gives.elim
  | launching _ _ _ _ _ _ _ _ gives => exact gives.elim
  | polling _ _ _ _ gives => exact gives.elim
  | replaying _ _ _ _ _ _ _ gives => exact gives.elim
  | quiet ok clear =>
    have length : (x.history.take k).length = k := List.length_take_of_le within
    have nonempty : x.history.take k ≠ [] := fun none => by simp [none] at length; omega
    obtain ⟨σ', y', reached, ⟨seen', ok'⟩, keeps, memos, member', history, shut, replayed⟩ :=
      Family.replay_reaches sound ok ⟨found', shares⟩ fresh paused unlocked nonempty
        ⟨untouched _, i, ends.recorded.take k⟩
    have open' : y'.registry.closed = false := by rw [shut, held]
    have count := replayed.length_seen sound rfl ok' member' open'
    have size : y'.history.length = k := by rw [history, length]
    rw [size] at count
    have standing' := ok'.standing j y' member'
    have rests := replayed.rests standing' rfl
    obtain ⟨⟨rest, parts⟩, -, running, gone⟩ := standing'.seen_begins sound rfl open' ends
    have left : (eventsOf i t).drop (2 * k) = rest := by
      rw [← parts, ← count, List.drop_left]
    rw [left]
    refine ⟨σ', y', reached, ?_, member'.1, history, shut, ⟨fun terminated => ?_, fun none => ?_⟩,
      fun alive => rests.resolve_left alive, fun t' e z run' foundZ openZ => ?_⟩
    · rw [State.memo, memos, State.memo]
    · have all := (gone terminated).2
      rw [all] at parts
      simpa using parts
    · by_contra alive
      obtain ⟨⟨p, course⟩, -⟩ := ok'.of_paused member' (rests.resolve_left alive).1
      have goes := (ends.continues sound deterministic course).length_le
      rw [← parts, none] at goes
      simp only [List.length_append, length_paces, size, count, List.length_nil,
        List.length_singleton] at goes
      omega
    · exact Family.Inv.retraces sound rfl rfl (.quiet ok' (clear.mono keeps)) member' size count parts
        ends (stood.reaches trivial reached) rests run' foundZ openZ

namespace Sketch

def mixed : List Move :=
  [.compute (.int 7) [.int 1], .hold (.int 3), .await (.int 5) none, .finish]

def mixedState : State client where
  memory := ()
  memos := [[]]
  instances := [{ procedure := some { moves := mixed }, memo := 0, settings := {} }]
  held := [.ofInstance 0]

def mixedAfter (j : InstanceId) : Code client Unit :=
  .call (.proceed j) fun _ => .call .drain fun _ => .call (.proceed j) fun _ => .done ()

def mixedCode : Code client Unit :=
  .call (.proceed 0) fun _ =>
    .call .drain fun _ =>
      .call (.proceed 0) fun _ =>
        .call (.newInstance { moves := mixed } 0 {}) fun j =>
          .call (.retain (.ofInstance j)) fun _ =>
            .call (.replay j [.yielded (.int 7), .state (.int 3)]) fun _ => mixedAfter j

def mixedRun : Config client :=
  Config.after behaviour 38 (.start mixedState mixedCode)

def mixedLater (n : Nat) : Config client :=
  Config.after behaviour n mixedRun

def drivesFirst : Config client → Bool
  | ⟨.unit, _, .run (.call (.proceed _) next), .empty⟩ =>
    match next (.ok ()) with
    | .call .drain _ => true
    | _ => false
  | _ => false

theorem meaning_calm : meaning.Calm := by
  rintro p o -
  exact ⟨p, rfl⟩

/-- The other instance takes the entries. Its first drive comes to rest, and driven on it records
the other two entries and completes. -/
theorem mixed_replay_equivalence :
    let F := Family.uniform meaning_sound 0 (.plain { moves := mixed } {} []) (deterministic _) true
    ∃ y z base, (mixedLater 6).state.instances[1]? = some y ∧
      y.status = .paused ∧ y.history.length = 2 ∧
      F.ComesToRest 1 base {} (mixedLater 7) ∧
      (mixedLater 28).state.instances[1]? = some z ∧ z.status = .terminated ∧
      z.history.length = 4 ∧
      Config.eventsOf 1 (Config.trail behaviour 22 (mixedLater 6)) =
        [.start, .ready, .start, .done] := by
  intro F
  have sole : Family.SoleUser mixedState 0 0 (.plain { moves := mixed } {} []) :=
    { fresh := ⟨_, rfl⟩
      others := by
        intro j y found own
        cases j with
        | zero => rfl
        | succ j => cases found
      tasks := by rintro task ⟨⟩
      stored := rfl }
  have admits := conforms_admits (F := F) (fun _ => mixed) fun _ => rfl
  have run : Config.Run behaviour F.Admits (.start mixedState mixedCode)
      (Config.trail behaviour 38 (.start mixedState mixedCode)) mixedRun :=
    .walk admits _ _ (by decide +kernel)
  have asked : mixedRun = ⟨.unit, mixedRun.state,
      .run (.call (.replay 1 [.yielded (.int 7), .state (.int 3)]) fun _ => mixedAfter 1), .empty⟩ := rfl
  rw [asked] at run
  obtain ⟨σ, y, reached, -, found, history, -, gone, rests, retraces⟩ :=
    replay_equivalence meaning_sound (deterministic _) sole (i := 0) (j := 1) (k := 2)
      (x := mixedRun.state.instances.get ⟨0, by decide +kernel⟩)
      (y := mixedRun.state.instances.get ⟨1, by decide +kernel⟩) run rfl
      ⟨rfl, rfl⟩ rfl rfl rfl rfl rfl rfl (by decide) (by decide +kernel)
  have reached : Config.Reaches behaviour mixedRun ⟨.unit, σ, .run (mixedAfter 1), .empty⟩ := reached
  obtain ⟨n, le, at'⟩ := reached.after 28 (o := .returned) rfl
  have first : ∀ n ≤ 28, drivesFirst (mixedLater n) = true → n = 6 := by
    decide +kernel
  obtain rfl := first n le (by rw [mixedLater, at']; rfl)
  change mixedLater 6 = _ at at'
  rw [← at'] at retraces
  have start : (mixedLater 6).state = σ := congrArg Config.state at'
  have alive : y.status ≠ .terminated := fun terminated =>
    absurd (gone.mp terminated) (by decide +kernel)
  have driving : Config.Run behaviour F.Admits (mixedLater 6) (Config.trail behaviour 1 (mixedLater 6))
      (mixedLater 7) :=
    .walk admits _ _ (by decide +kernel)
  have driven : Config.Run behaviour F.Admits (mixedLater 6) (Config.trail behaviour 22 (mixedLater 6))
      (mixedLater 28) :=
    .walk admits _ _ (by decide +kernel)
  have last := (retraces _ _ ((mixedLater 28).state.instances.get ⟨1, by decide +kernel⟩) driven rfl
    rfl).ended rfl
  refine ⟨y, _, _, start ▸ found, (rests alive).1, by rw [history]; decide +kernel,
    (retraces _ _ ((mixedLater 7).state.instances.get ⟨1, by decide +kernel⟩) driving rfl rfl).rests _ _
      rfl meaning_calm rfl (by decide +kernel) (by rintro o ⟨⟩),
    rfl, rfl, ?_, ?_⟩
  · decide +kernel
  · rw [last.2]
    decide +kernel

end Sketch

end Resumable
