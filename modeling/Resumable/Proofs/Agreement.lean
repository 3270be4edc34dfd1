import Resumable.Proofs.FamilyState
import Resumable.Proofs.Finality
import Resumable.Proofs.Meaning
import Resumable.Proofs.Settlement
import Resumable.Proofs.Transit

namespace Resumable

variable {K : Client} {β : Behaviour K} {i j : InstanceId} {lost : Prop} {n n' : Position}
  {keys keys' : List Value} {v v' w : Value}

namespace Memo

variable {m : Memo}

theorem lookup_remember_of_lookup (found : m.lookup n keys = some w) :
    (m.remember n' keys' v).lookup n keys = some w := by
  unfold remember
  split
  · exact found
  · rw [lookup_append, found, Option.some_or]

theorem of_lookup_remember (missed : m.lookup n keys = none)
    (found : (m.remember n' keys' v).lookup n keys = some w) :
    n' = n ∧ Value.sameKeys keys' keys = true ∧ w = v := by
  unfold remember at found
  split at found
  · simp [missed] at found
  · rw [lookup_append, missed, Option.none_or] at found
    obtain ⟨e, mem, position, same, value⟩ := exists_of_lookup found
    rw [List.mem_singleton.mp mem] at position same value
    exact ⟨position, same, value.symm⟩

theorem lookup_remember_self (missed : m.lookup n keys = none)
    (sound : Value.sameKeys keys keys = true) :
    (m.remember n keys v).lookup n keys = some v := by
  have unanswered : m.any (·.answers n keys) = false := by simpa [lookup] using missed
  rw [remember, unanswered, if_neg Bool.false_ne_true, lookup_append, missed, Option.none_or]
  simp [lookup, MemoEntry.answers, sound]

theorem lookup_congr (m : Memo) (same : Value.sameKeys keys keys' = true) :
    m.lookup n keys = m.lookup n keys' := by
  have back : Value.sameKeys keys' keys = true := Value.sameKeys_comm keys keys' ▸ same
  have answers : ∀ e : MemoEntry, e.answers n keys = e.answers n keys' := by
    intro e
    rw [Bool.eq_iff_iff]
    simp only [MemoEntry.answers, Bool.and_eq_true]
    exact and_congr_right fun _ =>
      ⟨fun h => Value.sameKeys_trans h same, fun h => Value.sameKeys_trans h back⟩
  simp only [lookup, answers]

end Memo

def Activity.sought? : Activity → Option (Position × List Value)
  | computation n keys => some (n, keys)
  | launch n (some keys) => some (n, keys)
  | producer n (some keys) => some (n, keys)
  | _ => none

theorem Turn.sought {loses : Prop} {cut : SubscriptionId → Prop} {memos : MemoId → Memo}
    {o o' : Option (Instance K)} {as as' : Multiset Activity} {deed : Option (Deed K.Artifact)}
    {a : Activity} (turn : Turn loses cut memos o as deed o' as') (mem : a ∈ as')
    (sought : a.sought? = some (n, keys)) :
    (∃ b ∈ as, b.sought? = some (n, keys)) ∨
    (.step n ∈ as ∧ ∃ x, o = some x ∧ (memos x.memo).lookup n keys = none) := by
  cases turn.begun mem with
  | before mem => exact .inl ⟨a, mem, sought⟩
  | step => cases sought
  | replay => cases sought
  | computation step found missed =>
    cases sought
    exact .inr ⟨step, _, found, missed⟩
  | @launch n' keys' x step found missed =>
    cases keys' with
    | none => cases sought
    | some keys' =>
      cases sought
      exact .inr ⟨step, x, found, missed⟩
  | @producer n' keys' launch =>
    cases keys' with
    | none => cases sought
    | some keys' => exact .inl ⟨_, launch, sought⟩

namespace Config

variable {c d e : Config K} {t : List (Config K × Config K)} {m : MemoId}

def Seeks (i : InstanceId) (n : Position) (keys : List Value) (p : Config K × Config K) : Prop :=
  .step n ∈ p.1.underWay i ∧ (∃ a ∈ p.2.underWay i, a.sought? = some (n, keys)) ∧
    ∃ x, p.1.state.instances[i]? = some x ∧ (p.1.state.memo x.memo).lookup n keys = none

/-- Another instance has stored a value in a memo, by an effect at the same position with agreeing
keys, after a step of the instance came to its effect and found none. -/
def Overtaken (m : MemoId) (i : InstanceId) (n : Position) (keys : List Value) (w : Value)
    (t : List (Config K × Config K)) : Prop :=
  ∃ t₁ p t₂ q t₃, t = t₁ ++ p :: t₂ ++ q :: t₃ ∧ Seeks i n keys p ∧
    (q.1.state.memo m).lookup n keys = none ∧ (q.2.state.memo m).lookup n keys = some w ∧
    ∃ j keys' x, j ≠ i ∧ q.1.Brings j n keys' w ∧ Value.sameKeys keys' keys = true ∧
      q.1.state.instances[j]? = some x ∧ x.memo = m

theorem Overtaken.snoc (h : Overtaken m i n keys w t) (p : Config K × Config K) :
    Overtaken m i n keys w (t ++ [p]) := by
  obtain ⟨t₁, p', t₂, q, t₃, rfl, rest⟩ := h
  exact ⟨t₁, p', t₂, q, t₃ ++ [p], by simp, rest⟩

theorem follows_lookup (follows : Follows β c d) (guard : ¬ c.ClientWrites m)
    (found : (c.state.memo m).lookup n keys = some w) :
    (d.state.memo m).lookup n keys = some w := by
  rcases follows_memo follows m with same | clientWrites | ⟨j, n', keys', v, x, -, -, -, stored⟩
  · rw [same, found]
  · exact absurd clientWrites guard
  · rw [stored, Memo.lookup_remember_of_lookup found]

theorem settle_underWay (i : InstanceId) (σ : State K) (stack : Stack K .unit) (task : Task K)
    (outcome : Except Failure Value) : (Next.settle σ stack task outcome).Holds fun d =>
      d.underWay i = stack.underWay i (σ.underWay i) := by
  refine Next.Holds.settle ?gone ?ignored ?settled ?rejected <;> intros
  case gone => exact Next.holds_give.mpr rfl
  case ignored => exact Next.holds_give.mpr rfl
  case settled recorded =>
    obtain rfl | ⟨keys, -, rfl⟩ := recorded
    · exact Next.holds_emit.mpr rfl
    · exact Next.holds_emit.mpr rfl
  case rejected => exact Next.holds_emit.mpr rfl

theorem Brings.underWay (brings : c.Brings j n keys v) (follows : Follows β c d)
    (i : InstanceId) :
    ∃ a, c.underWay i = Activity.also (ownedBy i (some (j, a))) (d.underWay i) := by
  cases brings with
  | computed σ stack =>
    have step := follows.step_eq (by rintro σ result ⟨⟩)
    rw [step_done] at step
    have ends : (Next.finishComputation σ stack j n keys v).Holds fun d =>
        d.underWay i = stack.underWay i (σ.underWay i) :=
      Next.Holds.finishComputation (fun _ _ _ => Next.holds_give.mpr rfl)
        fun _ _ _ => Next.holds_emit.mpr rfl
    exact ⟨.computation n keys, by rw [ends d step]; rfl⟩
  | @settled _ stack task completes owner position cached =>
    have step := completes.step_eq follows
    rw [completes.step] at step
    have ends := settle_underWay i c.state stack task _ d step
    exact ⟨.producer task.position task.keys, by rw [ends, completes.underWay_also, ← owner]; rfl⟩

theorem Brings.not_idle (brings : c.Brings i n keys v) (follows : Follows β c d) :
    c.underWay i ≠ 0 := by
  obtain ⟨a, busy⟩ := brings.underWay follows i
  rw [busy, ownedBy_some_self]
  exact Multiset.cons_ne_zero

theorem Brings.apart (brings : c.Brings j n' keys' v) (follows : Follows β c d)
    (stands : c.Stands lost i) {x : Instance K} (found : c.state.instances[i]? = some x)
    (alive : x.status ≠ .terminated) {a : Activity} (mem : a ∈ d.underWay i) :
    j ≠ i ∧ a ∈ c.underWay i := by
  obtain ⟨b, before⟩ := brings.underWay follows i
  have other : j ≠ i := by
    rintro rfl
    have stands := stands.present x found
    rw [before, ownedBy_some_self] at stands
    rw [(stands.of_alive alive).2] at mem
    exact Multiset.notMem_zero _ mem
  exact ⟨other, before ▸ Activity.mem_also.mpr (.inr mem)⟩

/-- While an effect with keys is under way for an instance, the memo has no answer to it, unless
another instance has stored one meanwhile. -/
theorem unanswered {memory : K.Memory} {ambient : Bool} {code : Code K Unit}
    (run : Run β (fun c => ¬ c.ClientWrites m) (start { memory := memory, ambient := ambient } code) t c)
    {a : Activity} (mem : a ∈ c.underWay i) (sought : a.sought? = some (n, keys)) {x : Instance K}
    (found : c.state.instances[i]? = some x) (alive : x.status ≠ .terminated) (uses : x.memo = m) :
    (∃ t₁ p t₂, t = t₁ ++ p :: t₂ ∧ Seeks i n keys p) ∧
      ((c.state.memo m).lookup n keys = none ∨
        ∃ w, (c.state.memo m).lookup n keys = some w ∧ Overtaken m i n keys w t) := by
  induction run generalizing a x with
  | refl => cases found
  | @snoc t c d run guard follows ih =>
    have stands : c.Stands True i := run.stands _
    have turn := follows_turn stands.absent follows
    have origin : ∃ y, c.state.instances[i]? = some y ∧ y.status ≠ .terminated ∧ y.memo = m := by
      cases origin : c.state.instances[i]? with
      | none =>
        rcases turn.sought mem sought with ⟨b, before, -⟩ | ⟨before, -⟩
        · exact absurd (stands.absent origin ▸ before) (Multiset.notMem_zero _)
        · exact absurd (stands.absent origin ▸ before) (Multiset.notMem_zero _)
      | some y =>
        obtain ⟨x', found', grows⟩ := follows.grows i y origin
        obtain rfl : x' = x := Option.some.inj (found'.symm.trans found)
        refine ⟨y, rfl, fun ended => ?_, grows.memo.symm.trans uses⟩
        rw [origin] at turn
        obtain ⟨z, found'', ended', -⟩ := turn.final (stands.present y origin) ended
        obtain rfl : z = x' := Option.some.inj (found''.symm.trans found)
        exact alive ended'
    obtain ⟨y, origin, awake, usesBefore⟩ := origin
    rcases turn.sought mem sought with ⟨b, before, soughtBefore⟩ | ⟨stepping, y', origin', missed⟩
    · obtain ⟨⟨t₁, p, t₂, rfl, seeks⟩, answer⟩ := ih before soughtBefore origin awake usesBefore
      refine ⟨⟨t₁, p, t₂ ++ [(c, d)], by simp, seeks⟩, ?_⟩
      rcases answer with missed | ⟨w, stored, overtaken⟩
      · cases answer : (d.state.memo m).lookup n keys with
        | none => exact .inl rfl
        | some w =>
          rcases follows_memo follows m with
            same | clientWrites | ⟨j, n', keys', v, z, brings, maker, usesToo, remembered⟩
          · rw [same, missed] at answer
            cases answer
          · exact absurd clientWrites guard
          · have stored := answer
            rw [remembered] at stored
            obtain ⟨rfl, agree, rfl⟩ := Memo.of_lookup_remember missed stored
            obtain ⟨other, -⟩ := brings.apart follows stands origin awake mem
            exact .inr ⟨_, rfl, t₁, p, t₂, (c, d), [], rfl, seeks, missed, answer, j, keys', z, other,
              brings, agree, maker, usesToo⟩
      · exact .inr ⟨w, follows_lookup follows guard stored, overtaken.snoc _⟩
    · obtain rfl : y = y' := Option.some.inj (origin.symm.trans origin')
      refine ⟨⟨t, (c, d), [], rfl, stepping, ⟨a, mem, sought⟩, y, origin, missed⟩, .inl ?_⟩
      rw [usesBefore] at missed
      rcases follows_memo follows m with same | clientWrites | ⟨j, n', keys', v, z, brings, -⟩
      · rw [same, missed]
      · exact absurd clientWrites guard
      · -- Nothing but the step is under way, so no other effect has come to a value.
        obtain ⟨-, before⟩ := brings.apart follows stands origin awake mem
        obtain ⟨bs, under⟩ := Multiset.exists_cons_of_mem stepping
        have stands := stands.present y origin
        rw [under] at stands before
        rw [(stands.of_alive awake).2] at before
        rw [Multiset.mem_singleton.mp before] at sought
        cases sought

inductive Concerns (i : InstanceId) (n : Position) (keys : List Value) : Config K → Prop
  | answered (σ : State K) (p : K.Procedure) (e : Effect K.Artifact K.Producer K.Computation)
    (rest : Stack K .result) (keyed : e.keys? = some keys) :
    Concerns i n keys ⟨.step, σ, .run (.done (p, .ok (.effect e))), .push (.stepping i n) rest⟩
  | computed (σ : State K) (v : Value) (rest : Stack K .result) :
    Concerns i n keys ⟨.value, σ, .run (.done v), .push (.computing i n keys) rest⟩
  | settled {c : Config K} {stack : Stack K .unit} {task : Task K} {outcome : Except Failure Value}
    (completes : c.Completes stack task outcome) (owner : task.owner = i)
    (position : task.position = n) (cached : task.keys = some keys) : Concerns i n keys c

structure Records (m : MemoId) (i : InstanceId) (n : Position) (keys : List Value) (v : Value)
    (p : Config K × Config K) : Prop where
  concerns : p.1.Concerns i n keys
  made : m < p.1.state.memos.length
  appended : ∃ x x', p.1.state.instances[i]? = some x ∧ p.2.state.instances[i]? = some x' ∧
    x.memo = m ∧ x'.history = x.history ++ [.yielded v]

end Config

theorem State.of_record {σ : State K} {x x' : Instance K} {entry : Entry K.Artifact}
    (found : σ.instances[i]? = some x)
    (after : (σ.modifyInstance i (·.record entry)).instances[i]? = some x') :
    x' = x.record entry := by
  rw [instances_modifyInstance_self, found] at after
  exact (Option.some.inj after).symm

namespace Next

variable {σ : State K} {x : Instance K}

def Answered (σ : State K) (i : InstanceId) (x : Instance K) (n : Position) (keys : List Value)
    (v : Value) (d : Config K) : Prop :=
  ∀ x', d.state.instances[i]? = some x' → x'.history = x.history ++ [.yielded v] →
    (σ.memo x.memo).lookup n keys = some v ∧ d.state.memo = σ.memo

theorem answered_same {f : Instance K → Instance K} {d : Config K}
    (found : σ.instances[i]? = some x) (same : (f x).history = x.history)
    (state : d.state = σ.modifyInstance i f) : Answered σ i x n keys v d := by
  intro x' after appended
  rw [state, State.instances_modifyInstance_self, found] at after
  obtain rfl := Option.some.inj after
  simp [same] at appended

theorem record_answered {stack : Stack K .result} {p : K.Procedure}
    (found : σ.instances[i]? = some x) (hit : (σ.memo x.memo).lookup n keys = some v') :
    (record (σ.modifyInstance i (·.takeBack p)) stack i (.yielded v')).Holds
      (Answered σ i x n keys v) := by
  refine holds_emit.mpr fun x' after appended => ?_
  rw [State.modifyInstance_modifyInstance, State.instances_modifyInstance_self, found] at after
  obtain rfl := Option.some.inj after
  obtain rfl : v' = v := by simpa [Instance.record, Instance.takeBack] using appended
  exact ⟨hit, rfl⟩

theorem interpret_answered (stack : Stack K .result) (p : K.Procedure)
    (e : Effect K.Artifact K.Producer K.Computation) (keyed : e.keys? = some keys)
    (found : σ.instances[i]? = some x) :
    (interpret (σ.modifyInstance i (·.takeBack p)) stack i (x.takeBack p) n e).Holds
      (Answered σ i x n keys v) := by
  cases e with
  | render artifact => cases keyed
  | hold initial => cases keyed
  | compute computation keys' =>
    cases keyed
    simp only [interpret]
    split
    · next hit => exact record_answered found hit
    · exact holds_call.mpr (answered_same found rfl rfl)
  | await producer keys' =>
    cases keyed
    simp only [interpret]
    split
    · next hit => exact record_answered found hit
    · split
      · exact holds_call.mpr (answered_same found rfl rfl)
      · refine holds_give.mpr ?_
        rw [State.modifyInstance_modifyInstance]
        exact answered_same found rfl rfl

theorem finishStep_answered (stack : Stack K .result) (p : K.Procedure)
    (e : Effect K.Artifact K.Producer K.Computation) (keyed : e.keys? = some keys)
    (found : σ.instances[i]? = some x) :
    (finishStep σ stack i n p (.ok (.effect e))).Holds (Answered σ i x n keys v) := by
  simp only [finishStep, State.instances_modifyInstance_self, found, Option.map_some]
  split
  · exact holds_give.mpr (answered_same found rfl rfl)
  · exact interpret_answered stack p e keyed found

end Next

namespace Config

variable {c d e : Config K} {t u : List (Config K × Config K)} {m : MemoId}

/-- A value that is recorded is in the memo already, or it is stored there with the record, for an
effect that has been under way. -/
theorem Records.lookup (records : Records m i n keys v (c, d)) (follows : Follows β c d)
    (stands : c.Stands lost i) :
    ((c.state.memo m).lookup n keys = some v ∧ d.state.memo m = c.state.memo m) ∨
    (∃ a ∈ c.underWay i, a.sought? = some (n, keys) ∧
      ∃ x, c.state.instances[i]? = some x ∧ x.status ≠ .terminated ∧ x.memo = m ∧
      d.state.memo m = (c.state.memo m).remember n keys v) := by
  obtain ⟨concerns, made, x, x', found, after, uses, appended⟩ := records
  dsimp only at concerns made found after
  cases concerns with
  | answered σ p e rest keyed =>
    left
    have step := follows.step_eq (by rintro σ result ⟨⟩)
    rw [step_done] at step
    obtain ⟨hit, same⟩ := Next.finishStep_answered (v := v) rest p e keyed found d step x' after
      appended
    exact ⟨uses ▸ hit, congrFun same m⟩
  | computed σ v' rest =>
    right
    have step := follows.step_eq (by rintro σ result ⟨⟩)
    rw [step_done] at step
    simp only [Next.resume, Next.finishComputation, found] at step
    split at step
    · cases step
      obtain rfl := Option.some.inj (found.symm.trans after)
      simp at appended
    · next alive =>
      cases step
      obtain rfl := State.of_record found after
      obtain rfl : v' = v := by simpa [Instance.record] using appended
      exact ⟨.computation n keys, Activity.mem_also.mpr (.inl (if_pos rfl)), rfl, x, found, alive,
        uses, uses ▸ σ.memo_remember_self (uses ▸ made) n keys v'⟩
  | @settled _ stack task outcome completes owner position cached =>
    right
    subst owner position
    have step := completes.step_eq follows
    by_cases ended : c.state.instanceAlive stack task.owner = false ∨ x.status = .terminated
    · rw [completes.ignored stands found ended] at step
      cases step
      obtain rfl := Option.some.inj (found.symm.trans after)
      simp at appended
    · simp only [not_or, Bool.not_eq_false] at ended
      rw [completes.settled stands found ended.1 ended.2, cached] at step
      cases outcome with
      | ok v' =>
        cases step
        obtain rfl := State.of_record found after
        obtain rfl : v' = v := by simpa [Instance.record] using appended
        refine ⟨.producer task.position task.keys, completes.underWay ▸ Multiset.mem_cons_self ..,
          by rw [cached]; rfl, x, found, ended.2, uses, ?_⟩
        exact uses ▸ c.state.memo_remember_self (uses ▸ made) task.position keys v'
      | error failure =>
        cases step
        rw [State.instances_modifyInstance_self, found] at after
        obtain rfl := Option.some.inj after
        simp [Instance.fail] at appended

theorem Run.lookup (run : Run β (fun c => ¬ c.ClientWrites m) d u e)
    (found : (d.state.memo m).lookup n keys = some w) :
    (∀ q ∈ u, (q.2.state.memo m).lookup n keys = some w) ∧
      (e.state.memo m).lookup n keys = some w := by
  induction run with
  | refl => exact ⟨fun _ mem => absurd mem List.not_mem_nil, found⟩
  | @snoc u d e run guard follows ih =>
    have stays := follows_lookup follows guard ih.2
    refine ⟨fun q mem => ?_, stays⟩
    rcases List.mem_append.mp mem with mem | mem
    · exact ih.1 q mem
    · rw [List.mem_singleton.mp mem]
      exact stays

end Config

open Config in
/-- Along every run from an empty machine on which only instances write a memo: as soon as an
instance that uses it has recorded a value for a computation or a cached await at a position, under
keys without a value that differs from itself, the memo answers a lookup at that position with one
and the same value. It is the value recorded, unless another instance has stored one, by an effect
at that position with agreeing keys, after the memo had none for the instance that recorded. So
values that are recorded at one position under agreeing keys are the same if neither recording was
overtaken in this way. -/
theorem history_memo_agreement {memory : K.Memory} {ambient : Bool} {code : Code K Unit}
    {t : List (Config K × Config K)} {e : Config K} {m : MemoId}
    (run : Run β (fun c => ¬ c.ClientWrites m) (start { memory := memory, ambient := ambient } code) t e) :
    (∀ u p later i n keys v, t = u ++ p :: later → Records m i n keys v p →
      Value.sameKeys keys keys = true → ∃ w,
        (∀ q ∈ p :: later, (q.2.state.memo m).lookup n keys = some w) ∧
        (e.state.memo m).lookup n keys = some w ∧ (w = v ∨ Overtaken m i n keys w u)) ∧
    (∀ u p later i keys v u' p' later' j keys' v' n,
      t = u ++ p :: later → Records m i n keys v p → (∀ w, ¬ Overtaken m i n keys w u) →
      t = u' ++ p' :: later' → Records m j n keys' v' p' → (∀ w, ¬ Overtaken m j n keys' w u') →
      Value.sameKeys keys keys' = true → v = v') := by
  have single : ∀ u p later i n keys v, t = u ++ p :: later → Records m i n keys v p →
      Value.sameKeys keys keys = true → ∃ w,
        (∀ q ∈ p :: later, (q.2.state.memo m).lookup n keys = some w) ∧
        (e.state.memo m).lookup n keys = some w ∧ (w = v ∨ Overtaken m i n keys w u) := by
    rintro u ⟨c, d⟩ later i n keys v at' records sound
    obtain ⟨before, -, follows, after⟩ := run.split at'
    have stands : c.Stands True i := stands_start.run (fun _ _ _ => trivial) before
    have stored : ∃ w, (d.state.memo m).lookup n keys = some w ∧
        (w = v ∨ Overtaken m i n keys w u) := by
      rcases records.lookup follows stands with
        ⟨hit, same⟩ | ⟨a, mem, sought, x, found, alive, uses, remembered⟩
      · exact ⟨v, same ▸ hit, .inl rfl⟩
      · obtain ⟨-, missed | ⟨w, stored, overtaken⟩⟩ :=
          unanswered before mem sought found alive uses
        · exact ⟨v, remembered ▸ Memo.lookup_remember_self missed sound, .inl rfl⟩
        · exact ⟨w, remembered ▸ Memo.lookup_remember_of_lookup stored, .inr overtaken⟩
    obtain ⟨w, stored, value⟩ := stored
    obtain ⟨during, atEnd⟩ := after.lookup stored
    exact ⟨w, List.forall_mem_cons.mpr ⟨stored, during⟩, atEnd, value⟩
  refine ⟨single, ?_⟩
  intro u p later i keys v u' p' later' j keys' v' n at' records fair at'' records' fair' same
  have back : Value.sameKeys keys' keys = true := Value.sameKeys_comm keys keys' ▸ same
  obtain ⟨w, -, atEnd, value⟩ :=
    single u p later i n keys v at' records (Value.sameKeys_trans same back)
  obtain ⟨w', -, atEnd', value'⟩ :=
    single u' p' later' j n keys' v' at'' records' (Value.sameKeys_trans back same)
  obtain rfl := value.resolve_right (fair w)
  obtain rfl := value'.resolve_right (fair' w')
  rw [Memo.lookup_congr _ same, atEnd'] at atEnd
  exact (Option.some.inj atEnd).symm

namespace Sketch

def unwritten (m : MemoId) : Config client → Bool
  | ⟨_, _, .run (.call (.remember m' _ _ _) _), _⟩ => m' ≠ m
  | ⟨_, _, .run (.call (.clearMemo m') _), _⟩ => m' ≠ m
  | _ => true

theorem not_clientWrites_of_unwritten {m : MemoId} (c : Config client) (h : unwritten m c = true) :
    ¬ c.ClientWrites m := by
  rintro (_ | _) <;> simp [unwritten] at h

def overlapped : Config client :=
  Config.after behaviour 1 raced

theorem race_run : Config.Run behaviour (fun c => ¬ c.ClientWrites 0) (.start { memory := () } raceCode)
    (Config.trail behaviour 31 (.start { memory := () } raceCode) ++ [(raced, overlapped)])
    overlapped :=
  .snoc (.walk not_clientWrites_of_unwritten 31 _ (by decide +kernel))
    (not_clientWrites_of_unwritten raced (by decide +kernel)) (.step rfl)

theorem race_records : Config.Records 0 1 0 [.int 0] (.int 4) (raced, overlapped) where
  concerns :=
    have completes : raced.Completes racedStack racedTask (.ok (.int 4)) := .answered _ (.ok (.int 4))
    .settled completes rfl rfl rfl
  made := by decide +kernel
  appended := ⟨_, _, rfl, rfl, rfl, rfl⟩

/-- The second drawing records its own value, and a lookup answers with that of the first one. -/
theorem race_disagrees : ¬ ∀ t e, Config.Run behaviour (fun c => ¬ c.ClientWrites 0)
      (.start { memory := () } raceCode) t e →
    ∀ u p later i n keys v, t = u ++ p :: later → Config.Records 0 i n keys v p →
      Value.sameKeys keys keys = true →
      ∀ q ∈ p :: later, (q.2.state.memo 0).lookup n keys = some v := by
  intro claim
  have recorded := claim _ _ race_run _ _ [] 1 0 [.int 0] (.int 4) rfl race_records (by decide)
    (raced, overlapped) (List.mem_singleton_self _)
  have stored : (overlapped.state.memo 0).lookup 0 [.int 0] = some (.int 3) := by decide +kernel
  cases stored.symm.trans recorded

/-- The first drawing has stored its value between the lookup and the record of the second one. -/
theorem race_overtaken : Config.Overtaken 0 1 0 [.int 0] (.int 3)
    (Config.trail behaviour 31 (.start { memory := () } raceCode)) := by
  obtain ⟨w, -, stored, value⟩ := (history_memo_agreement race_run).1 _ _ [] 1 0 [.int 0] (.int 4) rfl
    race_records (by decide)
  have first : (overlapped.state.memo 0).lookup 0 [.int 0] = some (.int 3) := by decide +kernel
  obtain rfl : Value.int 3 = w := Option.some.inj (first.symm.trans stored)
  exact value.resolve_left (by decide)

end Sketch

end Resumable
