import Resumable.Proofs.Agreement
import Resumable.Proofs.Provenance

namespace Resumable

variable {K : Client} {β : Behaviour K} {i : InstanceId} {n : Position} {keys : List Value}
  {x : Instance K}

theorem Value.sameKeys_self (ks : List Value) :
    Value.sameKeys ks ks = true ↔ ∀ y, Value.float y ∈ ks → y.isNaN = false := by
  induction ks with
  | nil => simp [Value.sameKeys]
  | cons v vs ih =>
    rw [Value.sameKeys, Bool.and_eq_true, ih]
    cases v <;> simp [Value.same, Binary64.same_self]

namespace Memo

variable {m : Memo} {e : MemoEntry}

def Distinct (m : Memo) : Prop :=
  m.Pairwise fun e f => e.answers f.position f.keys = false

theorem Distinct.remember (distinct : m.Distinct) (n : Position) (keys : List Value) (v : Value) :
    (m.remember n keys v).Distinct := by
  unfold Memo.remember
  split
  · exact distinct
  · next unanswered =>
    refine List.pairwise_append.mpr ⟨distinct, List.pairwise_singleton _ _, fun e mem f last => ?_⟩
    rw [List.mem_singleton.mp last]
    exact Bool.eq_false_iff.mpr fun answers => unanswered (List.any_eq_true.mpr ⟨e, mem, answers⟩)

theorem mem_remember (mem : e ∈ m) (n : Position) (keys : List Value) (v : Value) :
    e ∈ m.remember n keys v := by
  unfold remember
  split
  · exact mem
  · exact List.mem_append_left _ mem

theorem Distinct.lookup_of_mem (distinct : m.Distinct) (mem : e ∈ m)
    (answers : e.answers n keys = true) : m.lookup n keys = some e.value := by
  induction m with
  | nil => exact absurd mem List.not_mem_nil
  | cons f m ih =>
    obtain ⟨apart, distinct⟩ := List.pairwise_cons.mp distinct
    rcases List.mem_cons.mp mem with rfl | mem
    · simp [lookup, answers]
    · have silent : f.answers n keys = false := by
        refine Bool.eq_false_iff.mpr fun also => Bool.false_ne_true ((apart e mem).symm.trans ?_)
        simp only [MemoEntry.answers, Bool.and_eq_true, decide_eq_true_eq] at also answers ⊢
        exact ⟨also.1.trans answers.1.symm,
          Value.sameKeys_trans also.2 (Value.sameKeys_comm e.keys keys ▸ answers.2)⟩
      simpa [lookup, silent] using ih distinct mem

theorem lookup_of_unsound (m : Memo) (unsound : Value.sameKeys keys keys = false) :
    m.lookup n keys = none := by
  refine Option.eq_none_iff_forall_ne_some.mpr fun v found => Bool.false_ne_true ?_
  obtain ⟨e, -, -, same, -⟩ := exists_of_lookup found
  rw [← unsound]
  exact Value.sameKeys_trans (Value.sameKeys_comm e.keys keys ▸ same) same

end Memo

theorem State.memo_remember_unmade (σ : State K) {m : MemoId} (unmade : σ.memos.length ≤ m)
    (n : Position) (keys : List Value) (v : Value) : (σ.remember m n keys v).memo m = σ.memo m := by
  simp [memo, remember, List.getElem?_eq_none unmade]

def Effect.calls {A P C : Type} (held : List Value → Option Value) (runtime : Bool) :
    Effect A P C → Bool
  | .compute _ keys => (held keys).isNone
  | .await _ keys => (keys.bind held).isNone && runtime
  | _ => false

namespace Config

variable {c d : Config K} {t : List (Config K × Config K)} {G : Config K → Prop} {m : MemoId}

inductive Clears (m : MemoId) : Config K → Prop
  | clears {s : Shape} (σ : State K) (next : Shape.unit.Answer K → Code K (s.Answer K))
    (stack : Stack K s) : Clears m ⟨s, σ, .run (.call (.clearMemo m) next), stack⟩

/-- A memo stays, gets one value more, or is cleared. -/
theorem follows_table (follows : Follows β c d) (m : MemoId) :
    d.state.memo m = c.state.memo m ∨
      (∃ n keys v, d.state.memo m = (c.state.memo m).remember n keys v) ∨
      c.Clears m ∧ d.state.memo m = [] := by
  rcases follows_memo follows m with same | clientWrites | ⟨i, n, keys, v, x, -, -, -, stored⟩
  · exact .inl same
  · cases clientWrites with
    | remembers σ n keys v next stack =>
      have step := follows.step_eq (by rintro τ (payload | ⟨⟩) ⟨⟩)
      rw [step_request] at step
      cases step
      by_cases made : m < σ.memos.length
      · exact .inr (.inl ⟨n, keys, v, σ.memo_remember_self made n keys v⟩)
      · exact .inl (σ.memo_remember_unmade (Nat.le_of_not_lt made) n keys v)
    | clears σ next stack =>
      have step := follows.step_eq (by rintro τ (payload | ⟨⟩) ⟨⟩)
      rw [step_request] at step
      cases step
      exact .inr (.inr ⟨.clears σ next stack, σ.memo_clearMemo_self m⟩)
  · exact .inr (.inl ⟨n, keys, v, stored⟩)

theorem Run.distinct {memory : K.Memory} {ambient : Bool} {code : Code K Unit}
    (run : Run β G (start { memory := memory, ambient := ambient } code) t c) (m : MemoId) :
    (c.state.memo m).Distinct := by
  induction run with
  | refl => exact List.Pairwise.nil
  | snoc run _ follows ih =>
    rcases follows_table follows m with same | ⟨n, keys, v, stored⟩ | ⟨-, empty⟩
    · exact same ▸ ih
    · exact stored ▸ ih.remember n keys v
    · exact empty ▸ List.Pairwise.nil

theorem Run.mem_memo (run : Run β (fun c => ¬ c.Clears m) c t d) {e : MemoEntry}
    (mem : e ∈ c.state.memo m) : e ∈ d.state.memo m := by
  induction run with
  | refl => exact mem
  | snoc run uncleared follows ih =>
    rcases follows_table follows m with same | ⟨n, keys, v, stored⟩ | ⟨clears, -⟩
    · exact same ▸ ih
    · exact stored ▸ Memo.mem_remember ih n keys v
    · exact absurd clears uncleared

/-- A step of an instance that is not over has answered with an effect, which is interpreted next. -/
structure Interpreting (i : InstanceId) (n : Position) (x : Instance K)
    (effect : Effect K.Artifact K.Producer K.Computation) (c : Config K) : Prop where
  yields : c.Yields i n effect
  found : c.state.instances[i]? = some x
  alive : x.status ≠ .terminated

def runtimeFor (c : Config K) (x : Instance K) : Bool :=
  x.settings.runtime || c.state.ambient || c.stack.onTask

/-- The computation or the producer that is called for an instance at a position, in the form of its
effect. -/
def invoked? : Config K → Option (InstanceId × Position × Effect K.Artifact K.Producer K.Computation)
  | ⟨_, _, .call (.compute f), .push (.computing i n keys) _⟩ => some (i, n, .compute f keys)
  | ⟨_, _, .call (.produce f), .push (.launching i n keys) _⟩ => some (i, n, .await f keys)
  | _ => none

/-- The effect that is interpreted next for an instance, if its computation or producer is to be
called: the memo has no entry for it and a producer has a runtime. -/
def demanded? (c : Config K) :
    Option (InstanceId × Position × Effect K.Artifact K.Producer K.Computation) :=
  match c with
  | ⟨.step, σ, .run (.done (_, .ok (.effect effect))), .push (.stepping i n) _⟩ =>
    (σ.instances[i]?).bind fun x =>
      if x.status ≠ .terminated ∧
          effect.calls ((σ.memo x.memo).lookup n) (c.runtimeFor x) = true then
        some (i, n, effect)
      else none
  | _ => none

theorem asks_of_invoked? {effect : Effect K.Artifact K.Producer K.Computation}
    (invoked : d.invoked? = some (i, n, effect)) : d.Asks i n effect := by
  unfold invoked? at invoked
  split at invoked
  · cases invoked
    exact .compute ..
  · cases invoked
    exact .await ..
  · cases invoked

theorem yields_of_demanded? {effect : Effect K.Artifact K.Producer K.Computation}
    (demanded : c.demanded? = some (i, n, effect)) : c.Yields i n effect := by
  unfold demanded? at demanded
  split at demanded
  · obtain ⟨x, -, calls⟩ := Option.bind_eq_some_iff.mp demanded
    obtain ⟨-, same⟩ := Option.ite_none_right_eq_some.mp calls
    cases same
    exact .step ..
  · cases demanded

end Config

namespace Next

variable {σ : State K} {rest : Stack K .result}

theorem interpret_invoked (effect : Effect K.Artifact K.Producer K.Computation) :
    (interpret σ rest i x n effect).Holds fun d => d.invoked? =
      if effect.calls ((σ.memo x.memo).lookup n) (x.settings.runtime || σ.ambient || rest.onTask) then
        some (i, n, effect)
      else none := by
  cases effect with
  | render artifact => exact holds_emit.mpr rfl
  | hold initial => exact holds_emit.mpr rfl
  | compute computation keys =>
    simp only [interpret, Effect.calls]
    split
    · next hit => exact holds_emit.mpr (by simp [Config.invoked?, hit])
    · next missed => exact holds_call.mpr (by simp [Config.invoked?, missed])
  | await producer keys =>
    simp only [interpret, Effect.calls]
    split
    · next hit => exact holds_emit.mpr (by simp [Config.invoked?, hit])
    · next missed =>
      split
      · next runtime => exact holds_call.mpr (by simp [Config.invoked?, missed, runtime])
      · next runtime => exact holds_give.mpr (by simp [Config.invoked?, runtime])

end Next

namespace Config

variable {c d : Config K}

theorem follows_invoked (follows : Follows β c d) : d.invoked? = c.demanded? := by
  by_cases yields : ∃ i n effect, c.Yields i n effect
  · obtain ⟨i, n, effect, ⟨σ, p, rest⟩⟩ := yields
    have step := follows.step_eq (by rintro τ (payload | ⟨⟩) ⟨⟩)
    rw [step_done] at step
    simp only [Next.resume, Next.finishStep, State.instances_modifyInstance_self] at step
    cases found : σ.instances[i]? with
    | none => simp [found] at step
    | some x =>
      simp only [found, Option.map_some] at step
      split at step
      · next ended =>
        cases step
        simp [demanded?, found, show x.status = .terminated from ended, invoked?]
      · next alive =>
        rw [Next.interpret_invoked effect d step]
        have alive : x.status ≠ .terminated := alive
        simp only [demanded?, found, Option.bind_some, ne_eq, alive, not_false_eq_true, true_and]
        rfl
  · have none : ∀ {o : Option (InstanceId × Position ×
        Effect K.Artifact K.Producer K.Computation)}, (∀ i n effect, o ≠ some (i, n, effect)) →
        o = none := fun differs => Option.eq_none_iff_forall_ne_some.mpr fun _ => differs _ _ _
    rw [none fun i n effect demanded => yields ⟨i, n, effect, yields_of_demanded? demanded⟩]
    exact none fun i n effect invoked =>
      yields ⟨i, n, effect, follows_asks follows (asks_of_invoked? invoked)⟩

theorem Interpreting.demanded? {effect : Effect K.Artifact K.Producer K.Computation}
    (interpreting : c.Interpreting i n x effect)
    (calls : effect.calls ((c.state.memo x.memo).lookup n) (c.runtimeFor x) = true) :
    c.demanded? = some (i, n, effect) := by
  obtain ⟨⟨σ, p, rest⟩, found, alive⟩ := interpreting
  dsimp only at found
  simp only [Config.demanded?, found, Option.bind_some]
  exact if_pos ⟨alive, calls⟩

theorem missed_of_demanded? {effect : Effect K.Artifact K.Producer K.Computation}
    (demanded : c.demanded? = some (i, n, effect)) (found : c.state.instances[i]? = some x)
    (keyed : effect.keys? = some keys) : (c.state.memo x.memo).lookup n keys = none := by
  obtain ⟨σ, p, rest⟩ := yields_of_demanded? demanded
  dsimp only at found
  simp only [Config.demanded?, found, Option.bind_some, Option.ite_none_right_eq_some] at demanded
  obtain ⟨⟨-, calls⟩, -⟩ := demanded
  cases effect with
  | compute computation keys' =>
    cases keyed
    exact Option.isNone_iff_eq_none.mp calls
  | await producer keys' =>
    cases keyed
    exact Option.isNone_iff_eq_none.mp (Bool.and_eq_true _ _ ▸ calls).1
  | _ => cases keyed

theorem Interpreting.step {effect : Effect K.Artifact K.Producer K.Computation}
    (interpreting : c.Interpreting i n x effect) : ∃ d, c.step β = .ok d := by
  obtain ⟨⟨σ, p, rest⟩, found, alive⟩ := interpreting
  dsimp only at found
  have alive : (x.takeBack p).status ≠ .terminated := alive
  rw [step_done]
  simp only [Next.resume, Next.finishStep, State.instances_modifyInstance_self, found,
    Option.map_some, if_neg alive]
  cases effect with
  | compute =>
    simp only [Next.interpret]
    split <;> exact ⟨_, rfl⟩
  | await =>
    simp only [Next.interpret]
    split
    · exact ⟨_, rfl⟩
    · split <;> exact ⟨_, rfl⟩
  | _ => exact ⟨_, rfl⟩

theorem Interpreting.hit {effect : Effect K.Artifact K.Producer K.Computation} {v : Value}
    (interpreting : c.Interpreting i n x effect) (keyed : effect.keys? = some keys)
    (hit : (c.state.memo x.memo).lookup n keys = some v) :
    ∃ σ rest, c.step β =
        .ok ⟨.unit, σ, .emit (.ofInstance i) .ready, .push (.proceeding i) rest⟩ ∧
      ∃ x', σ.instances[i]? = some x' ∧ x'.history = x.history ++ [.yielded v] ∧
        x'.status = .paused := by
  obtain ⟨⟨σ, p, rest⟩, found, alive⟩ := interpreting
  dsimp only at found hit
  have alive : (x.takeBack p).status ≠ .terminated := alive
  rw [step_done]
  simp only [Next.resume, Next.finishStep, State.instances_modifyInstance_self, found,
    Option.map_some, if_neg alive]
  refine ⟨(σ.modifyInstance i (·.takeBack p)).modifyInstance i (·.record (.yielded v)), rest, ?_,
    (x.takeBack p).record (.yielded v), ?_, rfl, rfl⟩
  · cases effect with
    | compute computation keys' =>
      cases keyed
      simp only [Next.interpret, State.memo_modifyInstance, Instance.takeBack, hit]
      rfl
    | await producer keys' =>
      cases keyed
      simp only [Next.interpret, State.memo_modifyInstance, Instance.takeBack, Option.bind_some, hit]
      rfl
    | _ => cases keyed
  · simp [State.instances_modifyInstance_self, found]

end Config

open Config in
/-- Along every run from an empty machine: once a memo has an entry, and as long as nobody clears the
memo, an effect of any instance on it, at the position of the entry and with agreeing keys, calls
neither its computation nor its producer. Its interpretation has the value of the entry recorded at
that position and leaves the instance paused, whether or not there is a runtime. An await without
keys, or with a NaN among them, has its producer called whenever it is interpreted with a runtime;
and the calls of computations and producers are, one for one and in their order, the
interpretations that met no entry. -/
theorem cached_effects_run_once {memory : K.Memory} {ambient : Bool} {code : Code K Unit}
    {u : List (Config K × Config K)} {c : Config K}
    (run : Run β (fun _ => True) (start { memory := memory, ambient := ambient } code) u c) :
    (∀ m entry, entry ∈ c.state.memo m → ∀ t d, Run β (fun c => ¬ c.Clears m) c t d →
      (∀ i n x effect keys, d.Interpreting i n x effect → x.memo = m → effect.keys? = some keys →
        entry.answers n keys = true →
        x.history.length = n ∧ ∃ σ rest, d.step β =
            .ok ⟨.unit, σ, .emit (.ofInstance i) .ready, .push (.proceeding i) rest⟩ ∧
          ∃ x', σ.instances[i]? = some x' ∧
            x'.history = x.history ++ [.yielded entry.value] ∧ x'.status = .paused) ∧
      (∀ q ∈ t, ∀ i n x effect keys, q.2.invoked? = some (i, n, effect) →
        q.1.state.instances[i]? = some x → x.memo = m → effect.keys? = some keys →
        entry.answers n keys = false)) ∧
    (∀ i n x producer keys, c.Interpreting i n x (.await producer keys) →
      (∀ ks ∈ keys, ∃ y, Value.float y ∈ ks ∧ y.isNaN = true) → c.runtimeFor x = true →
      ∃ d, c.step β = .ok d ∧ d.invoked? = some (i, n, .await producer keys)) ∧
    u.filterMap (·.2.invoked?) = u.filterMap (·.1.demanded?) := by
  refine ⟨fun m entry stored t d later => ⟨?_, ?_⟩, ?_, ?_⟩
  · intro i n x effect keys interpreting uses keyed answers
    have whole := run.append (later.imp fun _ _ => trivial)
    have hit : (d.state.memo x.memo).lookup n keys = some entry.value :=
      uses ▸ (whole.distinct m).lookup_of_mem (later.mem_memo stored) answers
    have position := (whole.placed interpreting.yields.underWay).1 n rfl
    rw [entries_eq, State.history_of_found interpreting.found] at position
    exact ⟨position.symm, interpreting.hit keyed hit⟩
  · rintro ⟨c', d'⟩ mem i n x effect keys invoked found uses keyed
    obtain ⟨t₁, t₂, rfl⟩ := List.append_of_mem mem
    obtain ⟨before, -, follows, -⟩ := later.split rfl
    refine Bool.eq_false_iff.mpr fun answers => ?_
    have hit : (c'.state.memo x.memo).lookup n keys = some entry.value :=
      uses ▸ ((run.append (before.imp fun _ _ => trivial)).distinct m).lookup_of_mem
        (before.mem_memo stored) answers
    rw [follows_invoked follows] at invoked
    cases hit.symm.trans (missed_of_demanded? invoked found keyed)
  · intro i n x producer keys interpreting unsound runtime
    have missed : keys.bind ((c.state.memo x.memo).lookup n) = none := by
      refine Option.bind_eq_none_iff.mpr fun ks given => Memo.lookup_of_unsound _ ?_
      obtain ⟨y, mem, nan⟩ := unsound ks given
      refine Bool.eq_false_iff.mpr fun same => Bool.false_ne_true ?_
      exact ((Value.sameKeys_self ks).mp same y mem).symm.trans nan
    obtain ⟨d, step⟩ := interpreting.step (β := β)
    refine ⟨d, step, (follows_invoked (.step step)).trans (interpreting.demanded? ?_)⟩
    simp [Effect.calls, missed, runtime]
  · refine List.filterMap_congr fun q mem => ?_
    obtain ⟨t₁, t₂, rfl⟩ := List.append_of_mem mem
    exact follows_invoked (run.split rfl).2.2.1

namespace Sketch

def sharedCode : Code client Unit :=
  .call .newMemo fun m =>
    .call (.newInstance { moves := [.compute (.int 3) [.int 0], .finish] } m {}) fun i =>
      .call (.newInstance { moves := [.await (.int 4) (some [.int 0]), .finish] } m {}) fun j =>
        .call (.newInstance { moves := [.await (.int 5) none] } m { runtime := true }) fun k =>
          .call (.proceed i) fun _ =>
            .call (.proceed j) fun _ => .call (.proceed k) fun _ => .done ()

def shared : Config client :=
  .start { memory := (), ambient := false } sharedCode

def uncleared (m : MemoId) : Config client → Bool
  | ⟨_, _, .run (.call (.clearMemo m') _), _⟩ => m' ≠ m
  | _ => true

theorem not_clears_of_uncleared {m : MemoId} (c : Config client) (h : uncleared m c = true) :
    ¬ c.Clears m := by
  rintro (_ | _)
  simp [uncleared] at h

theorem shared_cached :
    (⟨0, [.int 0], .int 3⟩ : MemoEntry) ∈ (Config.after behaviour 14 shared).state.memo 0 ∧
    (∃ σ rest, (Config.after behaviour 26 shared).step behaviour =
        .ok ⟨.unit, σ, .emit (.ofInstance 1) .ready, .push (.proceeding 1) rest⟩ ∧
      ∃ x', σ.instances[1]? = some x' ∧ x'.history = [.yielded (.int 3)] ∧ x'.status = .paused) ∧
    (∃ d, (Config.after behaviour 39 shared).step behaviour = .ok d ∧
      d.invoked? = some (2, 0, .await (.int 5) none)) ∧
    (Config.trail behaviour 40 shared).filterMap (·.1.demanded?) =
      [(0, 0, .compute (.int 3) [.int 0]), (2, 0, .await (.int 5) none)] := by
  have stored : (⟨0, [.int 0], .int 3⟩ : MemoEntry) ∈
      (Config.after behaviour 14 shared).state.memo 0 := by decide +kernel
  have later : Config.Run behaviour (fun c => ¬ c.Clears 0) (Config.after behaviour 14 shared)
      (Config.trail behaviour 12 (Config.after behaviour 14 shared))
      (Config.after behaviour 26 shared) :=
    .walk not_clears_of_uncleared 12 _ (by decide +kernel)
  obtain ⟨-, hit⟩ := ((cached_effects_run_once (.walk_all 14 shared)).1 0 _ stored _ _ later).1 1 0 _
    (.await (.int 4) (some [.int 0])) [.int 0] ⟨.step _ _ _, rfl, by decide +kernel⟩ rfl rfl (by decide)
  refine ⟨stored, hit, ?_, ?_⟩
  · exact (cached_effects_run_once (.walk_all 39 shared)).2.1 2 0 _ (.int 5) none
      ⟨.step _ _ _, rfl, by decide +kernel⟩ nofun (by decide +kernel)
  · rw [← (cached_effects_run_once (.walk_all 40 shared)).2.2]
    rfl

end Sketch

end Resumable
