import Resumable.Proofs.ActivityStep

namespace Resumable

variable {K : Client} {β : Behaviour K} {i : InstanceId} {lost : Prop} {as : Multiset Activity}

namespace Instance

variable {x x' : Instance K} {a : Activity}

/-- An activity that an instance of this status, procedure and position may have. -/
def Suits (x : Instance K) : Activity → Prop
  | .step n => x.status = .running ∧ x.procedure = none ∧ n = x.position
  | .replay => x.status = .paused ∧ x.procedure = none
  | .computation n _ => x.status = .running ∧ x.procedure ≠ none ∧ n = x.position
  | .launch n _ => x.status = .running ∧ x.procedure ≠ none ∧ n = x.position
  | .producer n _ => x.status = .running ∧ x.procedure ≠ none ∧ n = x.position

/-- How an instance stands with what is under way for it. An instance for which something was lost
stands still until it is terminated. -/
inductive Stands (lost : Prop) (x : Instance K) : Multiset Activity → Prop
  | idle (status : x.status = .paused) (procedure : x.procedure ≠ none) : Stands lost x 0
  | busy {a : Activity} (suits : x.Suits a) : Stands lost x {a}
  | broken (loses : lost) (status : x.status ≠ .terminated) : Stands lost x 0
  | ended {as : Multiset Activity} (status : x.status = .terminated)
    (unlocked : ∀ a ∈ as, ¬ a.Locks) : Stands lost x as

theorem Suits.alive (suits : x.Suits a) : x.status ≠ .terminated := by
  cases a <;> simp [suits.1]

theorem Suits.congr (suits : x.Suits a) (status : x'.status = x.status)
    (procedure : x'.procedure = x.procedure) (history : x'.history = x.history) : x'.Suits a := by
  have position : x'.position = x.position := congrArg List.length history
  cases a <;> simpa only [Suits, status, procedure, position] using suits

theorem Stands.of_cons (h : x.Stands lost (a ::ₘ as)) :
    x.Suits a ∧ as = 0 ∨ x.status = .terminated ∧ ¬ a.Locks ∧ ∀ b ∈ as, ¬ b.Locks := by
  generalize hb : a ::ₘ as = bs at h
  cases h with
  | idle => exact absurd hb Multiset.cons_ne_zero
  | busy suits =>
    obtain ⟨rfl, none⟩ := (Multiset.singleton_eq_cons_iff _).mp hb.symm
    exact .inl ⟨suits, none⟩
  | broken => exact absurd hb Multiset.cons_ne_zero
  | ended status unlocked =>
    subst hb
    exact .inr ⟨status, unlocked a (Multiset.mem_cons_self ..), fun b mem =>
      unlocked b (Multiset.mem_cons_of_mem mem)⟩

theorem Stands.of_alive (h : x.Stands lost (a ::ₘ as)) (alive : x.status ≠ .terminated) :
    x.Suits a ∧ as = 0 :=
  h.of_cons.resolve_right fun ended => alive ended.1

theorem Stands.of_locks (h : x.Stands lost (a ::ₘ as)) (locks : a.Locks) : x.Suits a ∧ as = 0 :=
  h.of_cons.resolve_right fun ended => ended.2.1 locks

theorem Stands.suits (h : x.Stands lost as) (mem : a ∈ as) (alive : x.status ≠ .terminated) :
    x.Suits a := by
  obtain ⟨others, rfl⟩ := Multiset.exists_cons_of_mem mem
  exact (h.of_alive alive).1

theorem Stands.suits_of_locks (h : x.Stands lost as) (mem : a ∈ as) (locks : a.Locks) : x.Suits a := by
  obtain ⟨others, rfl⟩ := Multiset.exists_cons_of_mem mem
  exact (h.of_locks locks).1

theorem Stands.of_ended (h : x.Stands lost (a ::ₘ as)) (ended : x.status = .terminated) :
    ∀ b ∈ as, ¬ b.Locks :=
  (h.of_cons.resolve_left fun busy => busy.1.alive ended).2.2

theorem Stands.of_paused (h : x.Stands lost as) (status : x.status = .paused)
    (procedure : x.procedure ≠ none) : as = 0 := by
  cases h with
  | @busy a suits =>
    cases a with
    | replay => exact absurd suits.2 procedure
    | _ => exact absurd (status.symm.trans suits.1) (by decide)
  | ended ended => exact absurd (status.symm.trans ended) (by decide)
  | _ => rfl

theorem Stands.ended_zero (status : x.status = .terminated) : x.Stands lost 0 :=
  .ended status fun _ mem => absurd mem (Multiset.notMem_zero _)

end Instance

variable {loses : Prop} {cut : SubscriptionId → Prop} {memos : MemoId → Memo}
  {o o' : Option (Instance K)}
  {as' : Multiset Activity} {deed : Option (Deed K.Artifact)}

theorem Turn.stands (turn : Turn loses cut memos o as deed o' as') (may : loses → lost)
    (before : ∀ x, o = some x → x.Stands lost as) : ∀ x, o' = some x → x.Stands lost as' := by
  rintro x ⟨⟩
  cases turn with
  | born newborn =>
    cases status : x.status with
    | paused => exact .idle status newborn.procedure
    | running => exact absurd status newborn.status
    | terminated => exact .ended_zero status
  | bornReplaying _ status => exact .busy (a := .replay) ⟨status, rfl⟩
  | stays status procedure history =>
    cases before _ rfl with
    | idle paused there => exact .idle (status.trans paused) (by rwa [procedure])
    | busy suits => exact .busy (suits.congr status procedure history)
    | broken loses alive => exact .broken loses (by rwa [status])
    | ended ended unlocked => exact .ended (status.trans ended) unlocked
  | terminated unlocked => exact .ended rfl unlocked
  | dropped loses =>
    rcases (before _ rfl).of_cons with ⟨suits, rfl⟩ | ⟨ended, _, unlocked⟩
    · exact .broken (may loses) suits.alive
    · exact .ended ended unlocked
  | refused _ unlocked => exact .ended rfl unlocked
  | @started x p as status _ procedure =>
    obtain rfl := (before _ rfl).of_paused status (by simp [procedure])
    exact .busy (a := .step x.position) ⟨rfl, rfl, rfl⟩
  | overtaken status => exact .ended status ((before _ rfl).of_ended status)
  | failed alive =>
    obtain ⟨_, rfl⟩ := (before _ rfl).of_alive alive
    exact .ended_zero rfl
  | completed alive =>
    obtain ⟨_, rfl⟩ := (before _ rfl).of_alive alive
    exact .ended_zero rfl
  | recorded alive =>
    obtain ⟨_, rfl⟩ := (before _ rfl).of_alive alive
    exact .idle rfl (Option.some_ne_none _)
  | computing alive =>
    obtain ⟨⟨running, _, position⟩, rfl⟩ := (before _ rfl).of_alive alive
    exact .busy (a := .computation _ _) ⟨running, Option.some_ne_none _, position⟩
  | launching alive =>
    obtain ⟨⟨running, _, position⟩, rfl⟩ := (before _ rfl).of_alive alive
    exact .busy (a := .launch _ _) ⟨running, Option.some_ne_none _, position⟩
  | outdated status => exact .ended status ((before _ rfl).of_ended status)
  | computed alive =>
    obtain ⟨suits, rfl⟩ := (before _ rfl).of_alive alive
    exact .idle rfl suits.2.1
  | launched =>
    obtain ⟨suits, rfl⟩ := (before _ rfl).of_locks trivial
    exact .busy (a := .producer _ _) suits
  | ignored reason =>
    rcases (before _ rfl).of_cons with ⟨suits, _⟩ | ⟨ended, _, unlocked⟩
    · exact absurd reason (not_or.mpr ⟨not_not.mpr suits.1, not_not.mpr suits.2.2.symm⟩)
    · exact .ended ended unlocked
  | settled running =>
    obtain ⟨suits, rfl⟩ := (before _ rfl).of_alive (by simp [running])
    exact .idle rfl suits.2.1
  | rejected running =>
    obtain ⟨_, rfl⟩ := (before _ rfl).of_alive (by simp [running])
    exact .ended_zero rfl
  | replayStarted status _ procedure =>
    obtain rfl := (before _ rfl).of_paused status procedure
    exact .busy (a := .replay) ⟨status, rfl⟩
  | replayed =>
    obtain ⟨suits, rfl⟩ := (before _ rfl).of_locks trivial
    exact .busy (a := .replay) ⟨rfl, suits.2⟩
  | replayEnded =>
    obtain ⟨_, rfl⟩ := (before _ rfl).of_locks trivial
    exact .idle rfl (Option.some_ne_none _)
  | replayCompleted =>
    obtain ⟨_, rfl⟩ := (before _ rfl).of_locks trivial
    exact .ended_zero rfl
  | diverged =>
    obtain ⟨_, rfl⟩ := (before _ rfl).of_locks trivial
    exact .ended_zero rfl

theorem Turn.absent_after (turn : Turn loses cut memos o as deed o' as') (none : o' = none) :
    as' = 0 := by
  cases turn with
  | absent => rfl
  | _ => cases none

namespace Config

variable {c d : Config K} {t : List (Config K × Config K)} {G : Config K → Prop}
  {memory : K.Memory} {ambient : Bool} {code : Code K Unit}

/-- How an instance stands in a configuration. -/
structure Stands (lost : Prop) (i : InstanceId) (c : Config K) : Prop where
  absent : c.state.instances[i]? = none → c.underWay i = 0
  present : ∀ x, c.state.instances[i]? = some x → x.Stands lost (c.underWay i)

theorem stands_start :
    (start ({ memory := memory, ambient := ambient } : State K) code).Stands lost i :=
  ⟨fun _ => rfl, by rintro x ⟨⟩⟩

theorem Stands.follows (h : c.Stands lost i) (may : c.Loses i → lost) (follows : Follows β c d) :
    d.Stands lost i :=
  have turn := follows_turn h.absent follows
  ⟨turn.absent_after, turn.stands may h.present⟩

theorem Stands.run (h : c.Stands lost i) (may : ∀ c, G c → c.Loses i → lost)
    (run : Run β G c t d) : d.Stands lost i := by
  induction run with
  | refl => exact h
  | snoc _ guard follows ih => exact ih.follows (may _ guard) follows

/-- Whatever panics, an instance stands in one of these ways. -/
theorem Run.stands (run : Run β G (start { memory := memory, ambient := ambient } code) t c)
    (i : InstanceId) : c.Stands True i :=
  stands_start.run (fun _ _ _ => trivial) run

theorem Stands.pairs (h : c.Stands lost i) (may : ∀ c, G c → c.Loses i → lost)
    (run : Run β G c t d) : ∀ p ∈ t, p.1.Stands lost i ∧ Follows β p.1 p.2 := by
  induction run with
  | refl => exact fun _ mem => absurd mem List.not_mem_nil
  | snoc run _ follows ih =>
    intro p mem
    rcases List.mem_append.mp mem with mem | mem
    · exact ih p mem
    · rw [List.mem_singleton.mp mem]
      exact ⟨h.run may run, follows⟩

theorem Stands.alone (stands : c.Stands lost i) {a : Activity} (mem : a ∈ c.underWay i)
    (locks : a.Locks) : c.underWay i = {a} := by
  cases found : c.state.instances[i]? with
  | none => exact absurd (stands.absent found ▸ mem) (Multiset.notMem_zero _)
  | some x =>
    obtain ⟨others, under⟩ := Multiset.exists_cons_of_mem mem
    have stands := stands.present x found
    rw [under] at stands
    rw [under, (stands.of_locks locks).2]
    rfl

theorem unlocked_iff : c.stack.locksInstance i = false ↔ ∀ a ∈ c.underWay i, ¬ a.Locks := by
  have locked : c.stack.locksInstance i = true ↔ ∃ a ∈ c.underWay i, a.Locks :=
    Stack.locksInstance_iff fun _ => State.not_locks
  rw [← Bool.not_eq_true, locked]
  simp

variable {stack : Stack K .unit} {task : Task K} {outcome : Except Failure Value}

theorem Completes.step (h : c.Completes stack task outcome) :
    c.step β = Next.settle c.state stack task outcome := by
  cases h with
  | answered σ r => exact step_done ..
  | panicked σ payload => exact step_panic ..

theorem Completes.step_eq (h : c.Completes stack task outcome) (follows : Follows β c d) :
    c.step β = .ok d :=
  follows.step_eq (by rintro σ result rfl; cases h)

theorem Completes.underWay (h : c.Completes stack task outcome) : c.underWay task.owner =
    .producer task.position task.keys ::ₘ stack.underWay task.owner (c.state.underWay task.owner) := by
  rw [h.underWay_also, Task.activity, ownedBy_some_self]
  rfl

theorem Completes.unlocked (h : c.Completes stack task outcome) (stands : c.Stands lost task.owner) :
    stack.locksInstance task.owner = false := by
  have alone : ∀ a ∈ stack.underWay task.owner (c.state.underWay task.owner), ¬ a.Locks := by
    cases found : c.state.instances[task.owner]? with
    | none =>
      have idle := stands.absent found
      rw [h.underWay] at idle
      exact absurd idle Multiset.cons_ne_zero
    | some x =>
      have stands := stands.present x found
      rw [h.underWay] at stands
      rcases stands.of_cons with ⟨_, none⟩ | ⟨_, _, unlocked⟩
      · simp [none]
      · exact unlocked
  exact (unlocked_iff (c := ⟨.unit, c.state, .run (.done ()), stack⟩)).mpr alone

theorem Completes.waits (h : c.Completes stack task outcome) (stands : c.Stands lost task.owner)
    {x : Instance K} (found : c.state.instances[task.owner]? = some x)
    (alive : x.status ≠ .terminated) : x.status = .running ∧ x.position = task.position := by
  have stands := stands.present x found
  rw [h.underWay] at stands
  obtain ⟨suits, -⟩ := stands.of_alive alive
  exact ⟨suits.1, suits.2.2.symm⟩

end Config

end Resumable
