import Resumable.Proofs.Calls
import Resumable.Proofs.Signals

namespace Resumable

variable {K : Client} {β : Behaviour K} {i : InstanceId} {lost : Prop}

def Activity.position? : Activity → Option Position
  | step n => some n
  | computation n _ => some n
  | launch n _ => some n
  | replay => none
  | producer n _ => some n

structure Instance.Paced (count : Nat) (x : Instance K) (as : Multiset Activity) : Prop where
  least : x.history.length ≤ count
  most : count ≤ x.history.length + 1
  busy : as ≠ 0 → count = x.history.length + 1
  idle : x.status = .paused → x.procedure ≠ none → count = x.history.length
  placed : ∀ a ∈ as, ∀ n, a.position? = some n → n = x.history.length

namespace Instance.Paced

variable {count : Nat} {x x' : Instance K} {as as' : Multiset Activity} {a b : Activity}

theorem of_same (paced : x.Paced count as) (history : x'.history = x.history)
    (fewer : ∀ a ∈ as', a ∈ as)
    (idle : x'.status = .paused → x'.procedure ≠ none → count = x.history.length) :
    x'.Paced count as' where
  least := history ▸ paced.least
  most := history ▸ paced.most
  busy some := by
    obtain ⟨a, mem⟩ := Multiset.exists_mem_of_ne_zero some
    rw [history]
    exact paced.busy fun none => absurd (none ▸ fewer a mem) (Multiset.notMem_zero a)
  idle paused there := history ▸ idle paused there
  placed a mem n at' := history ▸ paced.placed a (fewer a mem) n at'

theorem push (paced : x.Paced count (a ::ₘ 0)) {e : Entry K.Artifact}
    (history : x'.history = x.history ++ [e]) : x'.Paced count 0 := by
  have count := paced.busy Multiset.cons_ne_zero
  have length : x'.history.length = x.history.length + 1 := by simp [history]
  exact ⟨by omega, by omega, fun none => absurd rfl none, fun _ _ => by omega,
    fun _ mem => absurd mem (Multiset.notMem_zero _)⟩

theorem swap (paced : x.Paced count (a ::ₘ as)) (history : x'.history = x.history)
    (position : b.position? = a.position?)
    (idle : x'.status = .paused → x'.procedure ≠ none → count = x.history.length) :
    x'.Paced count (b ::ₘ as) where
  least := history ▸ paced.least
  most := history ▸ paced.most
  busy _ := history ▸ paced.busy Multiset.cons_ne_zero
  idle paused there := history ▸ idle paused there
  placed b' mem n at' := by
    rw [history]
    rcases Multiset.mem_cons.mp mem with rfl | mem
    · exact paced.placed a (Multiset.mem_cons_self ..) n (position ▸ at')
    · exact paced.placed b' (Multiset.mem_cons_of_mem mem) n at'

theorem resumed (least : x.history.length = count)
    (lent : x.procedure = none ∨ x.status = .running)
    (position : ∀ n, a.position? = some n → n = x.history.length) :
    x.Paced (count + 1) (a ::ₘ 0) where
  least := by omega
  most := by omega
  busy _ := by omega
  idle paused there := by
    rcases lent with none | running
    · exact absurd none there
    · exact absurd (paused.symm.trans running) (by decide)
  placed b mem n at' := by
    rw [Multiset.mem_singleton.mp mem] at at'
    exact position n at'

end Instance.Paced

section Turn

variable {loses : Prop} {cut : SubscriptionId → Prop} {memos : MemoId → Memo} {x x' : Instance K}
  {as as' : Multiset Activity} {deed : Option (Deed K.Artifact)} {count : Nat}

theorem Turn.paced_resumed (turn : Turn loses cut memos (some x) as deed (some x') as')
    (stands : x.Stands lost as) (paced : x.Paced count as) (resumed : deed = some .resume) :
    x'.history.length = count ∧ x'.Paced (count + 1) as' := by
  cases turn with
  | @started x p as status _ procedure =>
    have there : x.procedure ≠ none := by simp [procedure]
    obtain rfl := stands.of_paused status there
    have length := (paced.idle status there).symm
    exact ⟨length, .resumed length (.inr rfl) fun n at' => (Option.some.inj at').symm⟩
  | @replayStarted x as status fresh procedure =>
    obtain rfl := stands.of_paused status procedure
    have length := (paced.idle status procedure).symm
    exact ⟨length, .resumed length (.inl rfl) (by rintro _ ⟨⟩)⟩
  | @replayed x as e =>
    obtain ⟨suits, rfl⟩ := stands.of_locks trivial
    have length : (x.record e).history.length = count := by
      rw [paced.busy Multiset.cons_ne_zero]
      simp [Instance.record]
    exact ⟨length, .resumed length (.inl suits.2) (by rintro _ ⟨⟩)⟩
  | _ => cases resumed

theorem Turn.paced_other (turn : Turn loses cut memos (some x) as deed (some x') as')
    (stands : x.Stands lost as) (paced : x.Paced count as) (other : deed ≠ some .resume) :
    x'.Paced count as' := by
  have kept : ∀ {a : Activity} {bs : Multiset Activity}, ∀ b ∈ bs, b ∈ a ::ₘ bs :=
    fun b mem => Multiset.mem_cons_of_mem mem
  cases turn with
  | started => exact absurd rfl other
  | replayStarted => exact absurd rfl other
  | replayed => exact absurd rfl other
  | stays status procedure history =>
    exact paced.of_same history (fun _ => id) fun paused there =>
      paced.idle (status ▸ paused) (procedure ▸ there)
  | terminated => exact paced.of_same rfl (fun _ => id) (by rintro ⟨⟩)
  | dropped => exact paced.of_same rfl kept paced.idle
  | refused => exact paced.of_same rfl (fun _ => id) (by rintro ⟨⟩)
  | overtaken ended =>
    exact paced.of_same rfl kept fun paused => absurd (paused.symm.trans ended) (by decide)
  | failed => exact paced.of_same rfl kept (by rintro ⟨⟩)
  | completed alive =>
    obtain ⟨-, rfl⟩ := stands.of_alive alive
    exact paced.push rfl
  | recorded alive =>
    obtain ⟨-, rfl⟩ := stands.of_alive alive
    exact paced.push rfl
  | computing alive =>
    obtain ⟨⟨running, -⟩, -⟩ := stands.of_alive alive
    exact paced.swap rfl rfl fun paused => absurd (paused.symm.trans running) (by decide)
  | launching alive =>
    obtain ⟨⟨running, -⟩, -⟩ := stands.of_alive alive
    exact paced.swap rfl rfl fun paused => absurd (paused.symm.trans running) (by decide)
  | outdated => exact paced.of_same rfl kept paced.idle
  | computed alive =>
    obtain ⟨-, rfl⟩ := stands.of_alive alive
    exact paced.push rfl
  | launched => exact paced.swap rfl rfl paced.idle
  | ignored => exact paced.of_same rfl kept paced.idle
  | settled running =>
    obtain ⟨-, rfl⟩ := stands.of_alive (by simp [running])
    exact paced.push rfl
  | rejected => exact paced.of_same rfl kept (by rintro ⟨⟩)
  | replayEnded =>
    obtain ⟨-, rfl⟩ := stands.of_locks trivial
    exact paced.push rfl
  | replayCompleted =>
    obtain ⟨-, rfl⟩ := stands.of_locks trivial
    exact paced.push rfl
  | diverged => exact paced.of_same rfl kept (by rintro ⟨⟩)

theorem Turn.of_absent {o : Option (Instance K)}
    (turn : Turn loses cut memos o as deed none as') : deed = none ∧ o = none := by
  cases turn
  exact ⟨rfl, rfl⟩

theorem Turn.paced_born (turn : Turn loses cut memos none as deed (some x) as') :
    deed = some .resume ∧ x.history.length = 0 ∧ x.Paced 1 as' ∨
    deed ≠ some .resume ∧ x.Paced 0 as' := by
  cases turn with
  | born newborn =>
    have length : x.history.length = 0 := by simp [newborn.history]
    exact .inr ⟨by rintro ⟨⟩, by omega, by omega, fun none => absurd rfl none, fun _ _ => by omega,
      fun _ mem => absurd mem (Multiset.notMem_zero _)⟩
  | @bornReplaying x newborn =>
    have length : x.lend.history.length = 0 := by simp [Instance.lend, newborn.history]
    exact .inl ⟨rfl, length, .resumed length (.inl rfl) (by rintro _ ⟨⟩)⟩

end Turn

namespace Config

variable {c d : Config K} {t : List (Config K × Config K)} {G : Config K → Prop}

def resumes (i : InstanceId) (c : Config K) : Bool :=
  match c.deed? i with
  | some .resume => true
  | _ => false

theorem resumes_iff : c.resumes i = true ↔ c.deed? i = some .resume := by
  unfold resumes
  split <;> simp_all

/-- The positions at which the procedure of an instance has been resumed, in the order in which it
was. -/
def resumedAt (i : InstanceId) (t : List (Config K × Config K)) : List Position :=
  t.filterMap fun p => if p.2.resumes i then some (p.2.entries i) else none

theorem resumedAt_snoc (p : Config K × Config K) : resumedAt i (t ++ [p]) =
    resumedAt i t ++ if p.2.resumes i then [p.2.entries i] else [] := by
  simp only [resumedAt, List.filterMap_append, List.filterMap_cons, List.filterMap_nil]
  split <;> simp_all

structure Paced (i : InstanceId) (t : List (Config K × Config K)) (c : Config K) : Prop where
  order : resumedAt i t = List.range (resumedAt i t).length
  absent : c.state.instances[i]? = none → resumedAt i t = []
  present : ∀ x, c.state.instances[i]? = some x → x.Paced (resumedAt i t).length (c.underWay i)

theorem Paced.follows (paced : c.Paced i t) (stands : c.Stands lost i) (follows : Follows β c d) :
    d.Paced i (t ++ [(c, d)]) := by
  have turn := follows_turn stands.absent follows
  -- What a resumption adds is the number of those before it.
  have step : ∀ x', d.state.instances[i]? = some x' →
      d.deed? i = some .resume ∧ x'.history.length = (resumedAt i t).length ∧
        x'.Paced ((resumedAt i t).length + 1) (d.underWay i) ∨
      d.deed? i ≠ some .resume ∧ x'.Paced (resumedAt i t).length (d.underWay i) := by
    intro x' found'
    rw [found'] at turn
    cases found : c.state.instances[i]? with
    | none =>
      rw [found] at turn
      rw [paced.absent found]
      exact turn.paced_born
    | some x =>
      rw [found] at turn
      have stands := stands.present x found
      have paced := paced.present x found
      by_cases resumed : d.deed? i = some .resume
      · exact .inl ⟨resumed, turn.paced_resumed stands paced resumed⟩
      · exact .inr ⟨resumed, turn.paced_other stands paced resumed⟩
  have none : d.state.instances[i]? = none → d.deed? i = none ∧ c.state.instances[i]? = none := by
    intro none
    rw [none] at turn
    exact turn.of_absent
  by_cases resumed : d.deed? i = some .resume
  · have snoc : resumedAt i (t ++ [(c, d)]) = resumedAt i t ++ [d.entries i] := by
      rw [resumedAt_snoc, if_pos (resumes_iff.mpr resumed)]
    cases found' : d.state.instances[i]? with
    | none => simp [(none found').1] at resumed
    | some x' =>
      obtain ⟨-, length, paced'⟩ := (step x' found').resolve_right fun other => other.1 resumed
      have entries : d.entries i = (resumedAt i t).length := by simp [Config.entries, found', length]
      refine ⟨?_, fun absent => absurd (found'.symm.trans absent) (by simp), ?_⟩
      · rw [snoc, entries, List.length_append, List.length_singleton, List.range_succ, ← paced.order]
      · rintro y found
        obtain rfl := Option.some.inj (found'.symm.trans found)
        rw [snoc, List.length_append, List.length_singleton]
        exact paced'
  · have same : resumedAt i (t ++ [(c, d)]) = resumedAt i t := by
      rw [resumedAt_snoc, if_neg fun resumes => resumed (resumes_iff.mp resumes), List.append_nil]
    refine ⟨same ▸ paced.order, fun absent => ?_, fun x' found' => ?_⟩
    · rw [same]
      exact paced.absent (none absent).2
    · rw [same]
      exact ((step x' found').resolve_left fun again => resumed again.1).2

theorem Run.paced {memory : K.Memory} {ambient : Bool} {code : Code K Unit}
    (run : Run β G (start { memory := memory, ambient := ambient } code) t c) (i : InstanceId) :
    c.Paced i t := by
  induction run with
  | refl => exact ⟨rfl, fun _ => rfl, fun x found => by cases found⟩
  | @snoc t c d run _ follows ih =>
    have stands : c.Stands True i := run.stands _
    exact ih.follows stands follows

end Config

end Resumable
