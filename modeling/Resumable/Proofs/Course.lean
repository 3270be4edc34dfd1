import Resumable.Proofs.Meaning

namespace Resumable

variable {K : Client}

/-- A program to be run: a procedure, how its instance is set up, what its memo holds at first, and
the slots that hold another value than the one they ask for. -/
structure Plan (K : Client) where
  start : K.Procedure
  settings : Settings := {}
  stored : Memo := []
  slots : Position → Option Value := fun _ => none

abbrev Plan.plain (p : K.Procedure) (settings : Settings) (stored : Memo) : Plan K where
  start := p
  settings := settings
  stored := stored

def Plan.HasRoom (π : Plan K) (n : Nat) : Prop :=
  ∀ limit, π.settings.limit = some limit → n < limit

def Plan.Untouched (π : Plan K) (n : Nat) : Prop :=
  ∀ m, n ≤ m → π.slots m = none

/-- Plans that differ at most in the slots from a position on. -/
structure Plan.Agree (π π' : Plan K) (n : Nat) : Prop where
  start : π.start = π'.start
  settings : π.settings = π'.settings
  stored : π.stored = π'.stored
  slots : ∀ m < n, π.slots m = π'.slots m

namespace Plan

variable {π π' : Plan K} {n m : Nat}

theorem Agree.refl (π : Plan K) (n : Position) : π.Agree π n :=
  ⟨rfl, rfl, rfl, fun _ _ => rfl⟩

theorem Agree.mono (h : π.Agree π' n) (le : m ≤ n) : π.Agree π' m :=
  ⟨h.start, h.settings, h.stored, fun l lt => h.slots l (Nat.lt_of_lt_of_le lt le)⟩

theorem plain_untouched (p : K.Procedure) (settings : Settings) (stored : Memo) (n : Nat) :
    (plain p settings stored).Untouched n :=
  fun _ _ => rfl

theorem Untouched.mono (h : π.Untouched n) (le : n ≤ m) : π.Untouched m :=
  fun l beyond => h l (Nat.le_trans le beyond)

theorem Agree.hasRoom (h : π.Agree π' n) : π.HasRoom m ↔ π'.HasRoom m := by
  simp only [HasRoom, h.settings]

end Plan

namespace Meaning

variable {β : Behaviour K} (M : Meaning β)

/-- What an effect at a position is supplied with: what the memo held at first under its keys, or
else what its computation or producer comes to. -/
def supply (stored : Memo) (n : Position) (e : Effect K.Artifact K.Producer K.Computation) :
    Option (Except Failure Value) :=
  match e.keys?.bind (stored.lookup n) with
  | some v => some (.ok v)
  | none => M.upshot e

inductive Records (π : Plan K) (n : Position) :
    Effect K.Artifact K.Producer K.Computation → Entry K.Artifact → Prop
  | render {a b : K.Artifact} (h : M.artifacts.r a b) : Records π n (.render a) (.view b)
  | hold (initial : Value) : Records π n (.hold initial) (.state ((π.slots n).getD initial))
  | supplied {e : Effect K.Artifact K.Producer K.Computation} {v : Value}
      (h : M.supply π.stored n e = some (.ok v)) : Records π n e (.yielded v)

/-- The histories of a plan under an owner, each with the procedure that goes on from it. -/
inductive Course (π : Plan K) (i : InstanceId) : History K.Artifact → K.Procedure → Prop
  | start : Course π i [] π.start
  | record {h : History K.Artifact} {p q : K.Procedure}
      {e : Effect K.Artifact K.Producer K.Computation} {entry : Entry K.Artifact}
      (course : Course π i h p) (room : π.HasRoom h.length)
      (step : (β.code (.resume p (Resumption.next? i h))).Gives (.ok (q, .ok (.effect e))))
      (records : M.Records π h.length e entry) : Course π i (h ++ [entry]) q

/-- What the procedure of a plan gives when it is resumed after a history that has room. -/
def Answers (π : Plan K) (i : InstanceId) (h : History K.Artifact)
    (r : Except Payload (K.Procedure × Except Fault K.Yielded)) : Prop :=
  ∃ p, M.Course π i h p ∧ π.HasRoom h.length ∧
    (β.code (.resume p (Resumption.next? i h))).Gives r

abbrev Asks (π : Plan K) (i : InstanceId) (h : History K.Artifact)
    (e : Effect K.Artifact K.Producer K.Computation) (q : K.Procedure) : Prop :=
  M.Answers π i h (.ok (q, .ok (.effect e)))

inductive Yields (π : Plan K) (n : Position) :
    Except Payload (K.Procedure × Except Fault K.Yielded) → Entry K.Artifact → Prop
  | effect {q : K.Procedure} {e : Effect K.Artifact K.Producer K.Computation}
      {entry : Entry K.Artifact} (records : M.Records π n e entry) :
      Yields π n (.ok (q, .ok (.effect e))) entry
  | complete {q : K.Procedure} {a b : K.Artifact} (alike : M.artifacts.r a b) :
      Yields π n (.ok (q, .ok (.complete a))) (.view b)

/-- The histories of a plan, completed ones included. -/
inductive Recorded (π : Plan K) (i : InstanceId) : History K.Artifact → Prop
  | nil : Recorded π i []
  | push {h : History K.Artifact} {entry : Entry K.Artifact}
      {r : Except Payload (K.Procedure × Except Fault K.Yielded)} (answers : M.Answers π i h r)
      (yields : M.Yields π h.length r entry) : Recorded π i (h ++ [entry])

variable {M} {π π' : Plan K} {i j : InstanceId} {h k : History K.Artifact} {p q : K.Procedure}

theorem Answers.record {e : Effect K.Artifact K.Producer K.Computation} {entry : Entry K.Artifact}
    (asks : M.Asks π i h e q) (records : M.Records π h.length e entry) :
    M.Course π i (h ++ [entry]) q := by
  obtain ⟨p, course, room, step⟩ := asks
  exact .record course room step records

theorem Course.take (course : M.Course π i h p) (n : Nat) : ∃ q, M.Course π i (h.take n) q := by
  induction course with
  | start => exact ⟨_, by simpa using Course.start⟩
  | @record h p q e entry course room step records ih =>
    by_cases within : n ≤ h.length
    · rwa [List.take_append_of_le_length within]
    · rw [List.take_of_length_le (by simp; omega)]
      exact ⟨q, .record course room step records⟩

theorem Course.asked {e : Entry K.Artifact} (course : M.Course π i (h ++ [e]) q) :
    ∃ effect, M.Asks π i h effect q ∧ M.Records π h.length effect e := by
  generalize whole : h ++ [e] = l at course
  cases course with
  | start => simp at whole
  | record course room step records =>
    obtain ⟨rfl, last⟩ := List.append_inj' whole rfl
    cases last
    exact ⟨_, ⟨_, course, room, step⟩, records⟩

theorem Course.recorded (course : M.Course π i h p) : M.Recorded π i h := by
  cases course with
  | start => exact .nil
  | record course room step records => exact .push ⟨_, course, room, step⟩ (.effect records)

theorem Recorded.take (recorded : M.Recorded π i h) (n : Nat) : M.Recorded π i (h.take n) := by
  cases recorded with
  | nil => simpa using Recorded.nil
  | @push h entry r answers yields =>
    by_cases within : n ≤ h.length
    · obtain ⟨p, course, -, -⟩ := answers
      obtain ⟨q, course⟩ := course.take n
      rw [List.take_append_of_le_length within]
      exact course.recorded
    · rw [List.take_of_length_le (by simp; omega)]
      exact .push answers yields

theorem Recorded.answered (recorded : M.Recorded π i h) {n : Nat} (lt : n < h.length) :
    ∃ r, M.Answers π i (h.take n) r ∧ M.Yields π n r h[n] := by
  have upto := recorded.take (n + 1)
  rw [List.take_succ_eq_append_getElem lt] at upto
  generalize whole : h.take n ++ [h[n]] = l at upto
  cases upto with
  | nil => exact absurd whole (List.append_ne_nil_of_right_ne_nil _ (List.cons_ne_nil _ _))
  | push answers yields =>
    obtain ⟨rfl, last⟩ := List.append_inj' whole rfl
    cases last
    rw [List.length_take_of_le (Nat.le_of_lt lt)] at yields
    exact ⟨_, answers, yields⟩

theorem EffectAlike.supply_eq {e e' : Effect K.Artifact K.Producer K.Computation}
    (effects : M.EffectAlike e e') (stored : Memo) (n : Position) :
    M.supply stored n e = M.supply stored n e' := by
  cases effects with
  | render h => rfl
  | hold v => rfl
  | await keys left right => simp only [supply, Effect.keys?, upshot, left, right]
  | compute keys left right => simp only [supply, Effect.keys?, upshot, left, right]

theorem Records.recordedBy {n : Position} {e : Effect K.Artifact K.Producer K.Computation}
    {entry : Entry K.Artifact} (records : M.Records π n e entry) :
    entry.recordedBy e.kind = true := by
  cases records with
  | render => rfl
  | hold => rfl
  | @supplied e v h =>
    cases e with
    | render => simp [supply, Effect.keys?, upshot] at h
    | hold => simp [supply, Effect.keys?, upshot] at h
    | await => rfl
    | compute => rfl

theorem Records.alike {n : Position} {e e' : Effect K.Artifact K.Producer K.Computation}
    {entry entry' : Entry K.Artifact} (records : M.Records π n e entry)
    (effects : M.EffectAlike e e') (agree : π.Agree π' (n + 1))
    (records' : M.Records π' n e' entry') : M.EntryAlike entry entry' := by
  cases records with
  | render h =>
    cases effects with
    | render effects =>
      cases records' with
      | render h' =>
        exact .view (M.artifacts.trans (M.artifacts.symm h) (M.artifacts.trans effects h'))
      | supplied h' => simp [supply, Effect.keys?, upshot] at h'
  | hold initial =>
    cases effects with
    | hold =>
      cases records' with
      | hold => rw [agree.slots n (Nat.lt_succ_self n)]; exact .state _
      | supplied h' => simp [supply, Effect.keys?, upshot] at h'
  | supplied h =>
    rw [effects.supply_eq, agree.stored] at h
    cases records' with
    | render => simp [supply, Effect.keys?, upshot] at h
    | hold => simp [supply, Effect.keys?, upshot] at h
    | supplied h' =>
      rw [h] at h'
      cases h'
      exact .yielded _

theorem Records.transfer {n : Position} {e e' : Effect K.Artifact K.Producer K.Computation}
    {entry entry' : Entry K.Artifact} (records : M.Records π n e entry)
    (effects : M.EffectAlike e e') (agree : π.Agree π' (n + 1))
    (entries : M.EntryAlike entry entry') : M.Records π' n e' entry' := by
  cases records with
  | render h =>
    cases effects with
    | render effects =>
      cases entries with
      | view h' =>
        exact .render (M.artifacts.trans (M.artifacts.symm effects) (M.artifacts.trans h h'))
  | hold initial =>
    cases effects with
    | hold =>
      cases entries with
      | state => rw [agree.slots n (Nat.lt_succ_self n)]; exact .hold initial
  | supplied h =>
    cases entries with
    | yielded => exact .supplied (by rwa [← agree.stored, ← effects.supply_eq])

theorem Yields.transfer {r r' : Except Payload (K.Procedure × Except Fault K.Yielded)}
    {n : Position} {e : Entry K.Artifact} (yields : M.Yields π n r e)
    (results : M.ResultAlike r r') : M.Yields π n r' e := by
  cases yields with
  | effect records =>
    cases results with
    | yielded _ effects =>
      exact .effect (records.transfer effects (Plan.Agree.refl π _) (EntryAlike.refl e))
  | complete alike =>
    cases results with
    | completed _ _ results =>
      exact .complete (M.artifacts.trans (M.artifacts.symm results) alike)

theorem Yields.alike {r r' : Except Payload (K.Procedure × Except Fault K.Yielded)}
    {n : Position} {e e' : Entry K.Artifact} (yields : M.Yields π n r e)
    (results : M.ResultAlike r r') (agree : π.Agree π' (n + 1)) (yields' : M.Yields π' n r' e') :
    M.EntryAlike e e' := by
  cases yields with
  | effect records =>
    cases results with
    | yielded _ effects =>
      cases yields' with
      | effect records' => exact records.alike effects agree records'
  | complete alike =>
    cases results with
    | completed _ _ results =>
      cases yields' with
      | complete alike' =>
        exact .view (M.artifacts.trans (M.artifacts.symm alike) (M.artifacts.trans results alike'))

end Meaning

section

variable {β : Behaviour K} {M : Meaning β} {π π' : Plan K} {i j : InstanceId}
  {h k : History K.Artifact} {p q : K.Procedure} [Nonempty K.Memory]

theorem Code.Gives.unique {α : Type} {code : Code K α} {r r' : Except Payload α}
    (gives : code.Gives r) (gives' : code.Gives r') : r = r' := by
  obtain ⟨r₀, rfl, rfl⟩ := Code.Only.meet gives gives'
  rfl

namespace Meaning

theorem Course.unique (course : M.Course π i h p) (course' : M.Course π i h q) : p = q := by
  induction course generalizing q with
  | start =>
    generalize whole : [] = l at course'
    cases course' with
    | start => rfl
    | record => exact absurd whole.symm (List.append_ne_nil_of_right_ne_nil _ (List.cons_ne_nil _ _))
  | record course room step records ih =>
    obtain ⟨e', ⟨p', course', -, step'⟩, -⟩ := course'.asked
    cases ih course'
    have results := step.unique step'
    cases results
    rfl

theorem Answers.gives {r : Except Payload (K.Procedure × Except Fault K.Yielded)}
    (answers : M.Answers π i h r) (course : M.Course π i h p) :
    (β.code (.resume p (Resumption.next? i h))).Gives r := by
  obtain ⟨p', course', -, step⟩ := answers
  rwa [course.unique course']

theorem Sound.resume_after (sound : M.Sound) (procedures : M.procedures p q)
    (histories : M.HistoryAlike h k) (i j : InstanceId)
    {r : Except Payload (K.Procedure × Except Fault K.Yielded)}
    (step : (β.code (.resume p (Resumption.next? i h))).Gives r) :
    ∃ r', (β.code (.resume q (Resumption.next? j k))).Gives r' ∧ M.ResultAlike r r' := by
  obtain ⟨r₀, r', gives, gives', results⟩ := sound.resume procedures (next?_alike histories i j)
  rw [gives.unique step] at results
  exact ⟨r', gives', results⟩

/-- Two courses of one length are alike, and so are the procedures that go on from them. -/
theorem Course.alike (sound : M.Sound) (deterministic : M.procedures π.start π.start)
    (course : M.Course π i h p) (course' : M.Course π' j k q) (length : h.length = k.length)
    (agree : π.Agree π' h.length) : M.HistoryAlike h k ∧ M.procedures p q := by
  induction course generalizing k q with
  | start =>
    cases course' with
    | start => exact ⟨.nil, agree.start ▸ deterministic⟩
    | record => simp at length
  | record course room step records ih =>
    cases course' with
    | start => simp at length
    | record course' room' step' records' =>
      simp only [List.length_append, List.length_singleton, Nat.add_right_cancel_iff] at length
      simp only [List.length_append, List.length_singleton] at agree
      obtain ⟨histories, procedures⟩ := ih course' length (agree.mono (Nat.le_succ _))
      obtain ⟨r', gives', results⟩ := sound.resume_after procedures histories i j step
      rw [gives'.unique step'] at results
      cases results with
      | yielded procedures effects =>
        rw [← length] at records'
        exact ⟨histories.push (records.alike effects agree records'), procedures⟩

theorem Course.transfer (sound : M.Sound) (deterministic : M.procedures π.start π.start)
    (course : M.Course π i h p) (j : InstanceId) (agree : π.Agree π' h.length)
    (histories : M.HistoryAlike h k) : ∃ q, M.Course π' j k q ∧ M.procedures p q := by
  induction course generalizing k with
  | start =>
    cases histories
    exact ⟨π'.start, .start, agree.start ▸ deterministic⟩
  | @record h p p' e entry course room step records ih =>
    rcases List.eq_nil_or_concat' k with rfl | ⟨k, f, rfl⟩
    · simpa using histories.length_eq
    · simp only [List.length_append, List.length_singleton] at agree
      obtain ⟨histories, entries⟩ := HistoryAlike.of_push histories
      obtain ⟨q, course', procedures⟩ := ih (agree.mono (Nat.le_succ _)) histories
      obtain ⟨r', gives', results⟩ := sound.resume_after procedures histories i j step
      cases results with
      | @yielded _ q' _ e' procedures effects =>
        have records' := records.transfer effects agree entries
        rw [histories.length_eq] at records' room
        exact ⟨q', .record course' (agree.hasRoom.mp room) gives' records', procedures⟩

theorem Answers.alike (sound : M.Sound) (deterministic : M.procedures π.start π.start)
    {r r' : Except Payload (K.Procedure × Except Fault K.Yielded)} (answers : M.Answers π i h r)
    (answers' : M.Answers π' j k r') (length : h.length = k.length) (agree : π.Agree π' h.length) :
    M.HistoryAlike h k ∧ M.ResultAlike r r' := by
  obtain ⟨p, course, -, step⟩ := answers
  obtain ⟨q, course', -, step'⟩ := answers'
  obtain ⟨histories, procedures⟩ := course.alike sound deterministic course' length agree
  obtain ⟨r₀, gives, results⟩ := sound.resume_after procedures histories i j step
  rw [gives.unique step'] at results
  exact ⟨histories, results⟩

theorem Answers.transfer (sound : M.Sound) (deterministic : M.procedures π.start π.start)
    {r : Except Payload (K.Procedure × Except Fault K.Yielded)} (answers : M.Answers π i h r)
    (j : InstanceId) (agree : π.Agree π' h.length) (histories : M.HistoryAlike h k) :
    ∃ r', M.Answers π' j k r' ∧ M.ResultAlike r r' := by
  obtain ⟨p, course, room, step⟩ := answers
  obtain ⟨q, course', procedures⟩ := course.transfer sound deterministic j agree histories
  obtain ⟨r', gives, results⟩ := sound.resume_after procedures histories i j step
  rw [histories.length_eq] at room
  exact ⟨r', ⟨q, course', agree.hasRoom.mp room, gives⟩, results⟩

theorem Course.answers (sound : M.Sound) (deterministic : M.procedures π.start π.start)
    (course : M.Course π i h p) (room : π.HasRoom h.length) : ∃ r, M.Answers π i h r := by
  obtain ⟨-, procedures⟩ := course.alike sound deterministic course rfl (Plan.Agree.refl π _)
  obtain ⟨r, -, gives, -⟩ := sound.resume procedures (next?_alike (HistoryAlike.refl h) i i)
  exact ⟨r, p, course, room, gives⟩

theorem Answers.meant (sound : M.Sound) (deterministic : M.procedures π.start π.start)
    {e : Effect K.Artifact K.Producer K.Computation} (asks : M.Asks π i h e q) :
    M.EffectAlike e e := by
  obtain ⟨-, results⟩ := asks.alike sound deterministic asks rfl (Plan.Agree.refl π _)
  cases results with
  | yielded _ effects => exact effects

theorem Recorded.alike (sound : M.Sound) (deterministic : M.procedures π.start π.start)
    (recorded : M.Recorded π i h) (recorded' : M.Recorded π' j k) (length : h.length = k.length)
    (agree : π.Agree π' h.length) : M.HistoryAlike h k := by
  cases recorded with
  | nil =>
    cases recorded' with
    | nil => exact .nil
    | push => simp at length
  | push answers yields =>
    cases recorded' with
    | nil => simp at length
    | push answers' yields' =>
      simp only [List.length_append, List.length_singleton, Nat.add_right_cancel_iff] at length
      simp only [List.length_append, List.length_singleton] at agree
      obtain ⟨histories, results⟩ :=
        answers.alike sound deterministic answers' length (agree.mono (Nat.le_succ _))
      rw [← length] at yields'
      exact histories.push (yields.alike results agree yields')

end Meaning

end

end Resumable
