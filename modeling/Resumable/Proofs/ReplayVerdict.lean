import Resumable.Proofs.Answers
import Resumable.Proofs.FiringRuns
import Resumable.Proofs.Reentry
import Mathlib.Data.Nat.Find

namespace Resumable

variable {K : Client} {s w : Shape} {β : Behaviour K} {i : InstanceId} {lost : Prop}

/-- An answer that an entry may be recorded for. A completion is one for a view at the end. -/
inductive Entry.Accepts {A P C : Type} (last : Prop) : Entry A → Except Fault (Yielded A P C) → Prop
  | render (a b : A) : Accepts last (.view a) (.ok (.effect (.render b)))
  | hold (v initial : Value) : Accepts last (.state v) (.ok (.effect (.hold initial)))
  | await (v : Value) (producer : P) (keys : Option (List Value)) :
    Accepts last (.yielded v) (.ok (.effect (.await producer keys)))
  | compute (v : Value) (computation : C) (keys : List Value) :
    Accepts last (.yielded v) (.ok (.effect (.compute computation keys)))
  | complete (a b : A) (end' : last) : Accepts last (.view a) (.ok (.complete b))

def Divergence.of {A P C : Type} : Except Fault (Yielded A P C) → Divergence
  | .error fault => .stepFailed fault.message
  | .ok (.complete _) => .completedEarly
  | .ok (.effect effect) => .otherEffect effect.kind

theorem Entry.accepts_effect_iff {A P C : Type} {last : Prop} {e : Entry A}
    {effect : Effect A P C} :
    e.Accepts last (.ok (.effect effect)) ↔ e.recordedBy effect.kind = true := by
  constructor
  · rintro ⟨⟩ <;> rfl
  · intro fits
    cases e with
    | view a =>
      cases effect with
      | render b => exact .render a b
      | _ => cases fits
    | state v =>
      cases effect with
      | hold initial => exact .hold v initial
      | _ => cases fits
    | yielded v =>
      cases effect with
      | await producer keys => exact .await v producer keys
      | compute computation keys => exact .compute v computation keys
      | _ => cases fits

namespace Next

variable {σ : State K} {base : Stack K .result} {x : Instance K} {e f : Entry K.Artifact}
  {later : History K.Artifact} {p : K.Procedure} {answer : Except Fault K.Yielded}

theorem replay_eq (h : History K.Artifact) (entry : h[0]? = some e)
    (unlocked : base.locksInstance i = false) (found : σ.instances[i]? = some x)
    (fresh : x.history = []) (paused : x.status = .paused) (procedure : x.procedure = some p) :
    replay σ base i h = call (σ.modifyInstance i (·.lend)) (.replaying i e (h.drop 1)) base
      (.resume p none) := by
  cases h with
  | nil => cases entry
  | cons e' later =>
    cases entry
    simp [replay, withInstance, unlocked, found, fresh, paused, procedure]

theorem finishReplayed_more (found : σ.instances[i]? = some x)
    (accepts : e.Accepts (f :: later = []) answer) :
    finishReplayed σ base i e (f :: later) p answer =
      call (σ.modifyInstance i (·.record e)) (.replaying i f later) base
        (.resume p (Resumption.next? i (x.history ++ [e]))) := by
  rw [Resumption.next?_push]
  cases answer with
  | error fault => cases accepts
  | ok yielded =>
    cases yielded with
    | complete b =>
      cases accepts with
      | complete _ _ end' => cases end'
    | effect effect =>
      simp only [finishReplayed, found, if_pos (Entry.accepts_effect_iff.mp accepts)]

theorem finishReplayed_last (found : σ.instances[i]? = some x) {last : Prop}
    (accepts : e.Accepts last answer) :
    ∃ f : Instance K → Instance K,
      finishReplayed σ base i e [] p answer = give (σ.modifyInstance i f) base (.ok ()) ∧
      (f x).history = x.history ++ [e] ∧ ((f x).status = .paused ∨ (f x).status = .terminated) ∧
      ((f x).status = .terminated ↔ ∃ a, answer = .ok (.complete a)) := by
  cases answer with
  | error fault => cases accepts
  | ok yielded =>
    cases yielded with
    | complete b =>
      cases accepts with
      | complete a =>
        refine ⟨fun x => (x.takeBack p).complete a, ?_, rfl, .inr rfl, fun _ => ⟨b, rfl⟩,
          fun _ => rfl⟩
        simp only [finishReplayed, found]
    | effect effect =>
      refine ⟨(·.takeBack p) ∘ (·.record e), ?_, rfl, .inl rfl, by rintro ⟨⟩, by rintro ⟨a, ⟨⟩⟩⟩
      simp only [finishReplayed, found, if_pos (Entry.accepts_effect_iff.mp accepts),
        State.modifyInstance_modifyInstance]

theorem finishReplayed_offended (found : σ.instances[i]? = some x)
    (offends : ¬ e.Accepts (later = []) answer) :
    finishReplayed σ base i e later p answer =
      give (σ.modifyInstance i fun x => (x.takeBack p).fail) base
        (.error (.diverged x.history.length (.of answer))) := by
  cases answer with
  | error fault =>
    simp only [finishReplayed, found]
    rfl
  | ok yielded =>
    cases yielded with
    | effect effect =>
      have other : ¬ e.recordedBy effect.kind = true := fun fits =>
        offends (Entry.accepts_effect_iff.mpr fits)
      simp only [finishReplayed, found, if_neg other]
      rfl
    | complete b =>
      simp only [finishReplayed, found]
      split
      · next a => exact absurd (.complete a b rfl) offends
      · rfl

end Next

namespace Config

variable {c c₀ d : Config K} {t u : List (Config K × Config K)} {G : Config K → Prop}
  {base : Stack K .result} {H : History K.Artifact} {n : Nat}

def fed? (i : InstanceId) : Config K → Option (Option (Resumption K.Artifact))
  | ⟨_, _, .call (.resume _ input), .push (.replaying j _ _) _⟩ =>
    if j = i then some input else none
  | _ => none

def fedTo (i : InstanceId) (t : List (Config K × Config K)) :
    List (Option (Resumption K.Artifact)) :=
  t.filterMap fun p => p.2.fed? i

theorem step_replayed {σ : State K} {p : K.Procedure} {answer : Except Fault K.Yielded}
    {e : Entry K.Artifact} {later : History K.Artifact} :
    Config.step β ⟨.step, σ, .run (.done (p, answer)), .push (.replaying i e later) base⟩ =
      Next.finishReplayed σ base i e later p answer :=
  step_done ..

theorem deed_of_fed {input : Option (Resumption K.Artifact)} (fed : c.fed? i = some input) :
    c.deed? i = some .resume := by
  unfold fed? at fed
  split at fed
  · obtain ⟨rfl, -⟩ := Option.ite_none_right_eq_some.mp fed
    exact if_pos rfl
  · cases fed

theorem Within.replaying {e : Entry K.Artifact} {later : History K.Artifact}
    (within : c.Within (.push (.replaying i e later) base)) (stands : c.Stands lost i) :
    ∃ x, c.state.instances[i]? = some x ∧ x.status = .paused ∧ x.procedure = none := by
  have mem : Activity.replay ∈ c.underWay i := Stack.mem_underWay within.rests rfl _
  cases found : c.state.instances[i]? with
  | none => exact absurd (stands.absent found ▸ mem) (Multiset.notMem_zero _)
  | some x => exact ⟨x, rfl, (stands.present x found).suits_of_locks mem trivial⟩

theorem unfed_of_within {e : Entry K.Artifact} {later : History K.Artifact}
    (run : Run β G c t d) (stands : c.Stands True i)
    (within : ∀ p ∈ t, p.2.Within (.push (.replaying i e later) base)) : fedTo i t = [] := by
  refine List.filterMap_eq_nil_iff.mpr fun p mem => ?_
  obtain ⟨before, follows⟩ := stands.pairs (fun _ _ _ => trivial) run p mem
  have after : p.2.Stands True i := before.follows (fun _ => trivial) follows
  obtain ⟨x, found, paused, -⟩ := (within p mem).replaying after
  rw [Option.eq_none_iff_forall_not_mem]
  intro input fed
  exact (within p mem).not_resumes rfl after found (by simp [paused]) (deed_of_fed fed)

/-- What happens under a replay: apart from what observers do who hear the signal of a setter that a
step has fired, code runs, the procedure is resumed, and the signals of setters start. -/
def OnlyFires (i : InstanceId) (base : Stack K .result) (p : Config K × Config K) : Prop :=
  (∃ e later next, p.2.DeliversFork (.push (.waiting next) (.push (.replaying i e later) base))) ∨
    Harmless p

/-- The answers of a procedure that is fed nothing first and then the entries of a history, each as
it has been recorded behind those before it. -/
inductive ReplayAnswers (β : Behaviour K) (i : InstanceId) (base : Stack K .result)
    (H : History K.Artifact) (σ₀ : State K) (p₀ : K.Procedure) :
    List (Except Fault K.Yielded) → State K → K.Procedure → Prop
  | start : ReplayAnswers β i base H σ₀ p₀ [] (σ₀.modifyInstance i (·.lend)) p₀
  | answer {rs : List (Except Fault K.Yielded)} {σ τ : State K} {p p' : K.Procedure}
    {e : Entry K.Artifact} {r : Except Fault K.Yielded}
    (before : ReplayAnswers β i base H σ₀ p₀ rs σ p) (entry : H[rs.length]? = some e)
    (comes : Code.Comes β (.push (.replaying i e (H.drop (rs.length + 1))) base) σ
      (β.code (.resume p (Resumption.next? i (H.take rs.length)))) τ (p', r)) :
    ReplayAnswers β i base H σ₀ p₀ (rs ++ [r]) (τ.modifyInstance i (·.record e)) p'

structure Begins (β : Behaviour K) (i : InstanceId) (base : Stack K .result)
    (H : History K.Artifact) (σ₀ : State K) (p₀ : K.Procedure) (c₀ : Config K) : Prop where
  stands : c₀.Stands True i
  fresh : ∃ x, σ₀.instances[i]? = some x ∧ x.history = []
  memos : σ₀.memos = c₀.state.memos
  steps : ∀ e, H[0]? = some e → c₀.step β = .ok ⟨.step, σ₀.modifyInstance i (·.lend),
    .call (.resume p₀ none), .push (.replaying i e (H.drop 1)) base⟩

def Offends (H : History K.Artifact) (rs : List (Except Fault K.Yielded)) (n : Nat) : Prop :=
  ∃ e r, H[n]? = some e ∧ rs[n]? = some r ∧ ¬ e.Accepts (n + 1 = H.length) r

structure ReplayedUpTo (β : Behaviour K) (i : InstanceId) (base : Stack K .result)
    (H : History K.Artifact) (c₀ : Config K) (n : Nat) (t : List (Config K × Config K))
    (c : Config K) : Prop where
  run : Run β (fun _ => True) c₀ t c
  onlyFires : ∀ p ∈ t, OnlyFires i base p
  fed : fedTo i t = (List.range n).map fun k => Resumption.next? i (H.take k)

namespace ReplayedUpTo

theorem unfed (replayed : ReplayedUpTo β i base H c₀ n t c) (step : c.step β = .ok d)
    (harmless : Harmless (c, d)) (none : d.fed? i = none) :
    ReplayedUpTo β i base H c₀ n (t ++ [(c, d)]) d where
  run := replayed.run.snoc trivial (.step step)
  onlyFires := List.forall_mem_append.mpr
    ⟨replayed.onlyFires, List.forall_mem_singleton.mpr (.inr harmless)⟩
  fed := by
    rw [← replayed.fed]
    simp [fedTo, none]

theorem feed (replayed : ReplayedUpTo β i base H c₀ n t c) (step : c.step β = .ok d)
    (harmless : Harmless (c, d)) (fed : d.fed? i = some (Resumption.next? i (H.take n))) :
    ReplayedUpTo β i base H c₀ (n + 1) (t ++ [(c, d)]) d where
  run := replayed.run.snoc trivial (.step step)
  onlyFires := List.forall_mem_append.mpr
    ⟨replayed.onlyFires, List.forall_mem_singleton.mpr (.inr harmless)⟩
  fed := by
    have before : List.filterMap (fun p => p.2.fed? i) t =
        (List.range n).map fun k => Resumption.next? i (H.take k) := replayed.fed
    simp [fedTo, before, fed, List.range_succ]

theorem answered {σ τ : State K} {p p' : K.Procedure} {input : Option (Resumption K.Artifact)}
    {e : Entry K.Artifact} {later : History K.Artifact} {r : Except Fault K.Yielded}
    {x : Instance K}
    (replayed : ReplayedUpTo β i base H c₀ n t
      ⟨.step, σ, .call (.resume p input), .push (.replaying i e later) base⟩)
    (stands : c₀.Stands True i) (found : σ.instances[i]? = some x)
    (comes : Code.Comes β (.push (.replaying i e later) base) σ (β.code (.resume p input)) τ
      (p', r)) :
    ∃ u y, ReplayedUpTo β i base H c₀ n u
        ⟨.step, τ, .run (.done (p', r)), .push (.replaying i e later) base⟩ ∧
      τ.instances[i]? = some y ∧ y.history = x.history := by
  obtain ⟨u, firing⟩ := firingRun_of_comes comes
  have entered : ReplayedUpTo β i base H c₀ n _
      ⟨.step, σ, .run (β.code (.resume p input)), .push (.replaying i e later) base⟩ :=
    replayed.unfed rfl (.runs rfl) rfl
  have stands' := stands.run (fun _ _ _ => trivial) entered.run
  obtain ⟨y, found', same⟩ := Within.history firing.run stands' rfl firing.within found
  refine ⟨_, y, ⟨entered.run.append firing.run, List.forall_mem_append.mpr ⟨entered.onlyFires,
    fun p mem => ?_⟩, ?_⟩, found', same⟩
  · exact (firing.onlyFires p mem).imp_left fun ⟨next, delivers⟩ => ⟨e, later, next, delivers⟩
  · rw [fedTo, List.filterMap_append, ← fedTo, ← fedTo, entered.fed,
      unfed_of_within firing.run stands' firing.within, List.append_nil]

end ReplayedUpTo

/-- What a replay leaves of its instance: it stands at the end of the history, completed if the
procedure is, or it has ended at the first answer that was not accepted. -/
inductive Verdict (H : History K.Artifact) (rs : List (Except Fault K.Yielded)) :
    Except Fault Unit → Instance K → Prop
  | accepted {y : Instance K} (history : y.history = H)
    (status : y.status = .paused ∨ y.status = .terminated)
    (completed : y.status = .terminated ↔ ∃ a, rs[H.length - 1]? = some (.ok (.complete a))) :
    Verdict H rs (.ok ()) y
  | diverged {y : Instance K} {n : Nat} {r : Except Fault K.Yielded} (answer : rs[n]? = some r)
    (offends : Offends H rs n) (least : ∀ k < n, ¬ Offends H rs k) (history : y.history = H.take n)
    (status : y.status = .terminated) : Verdict H rs (.error (.diverged n (.of r))) y

theorem drop_eq_nil_iff_last {e : Entry K.Artifact} (entry : H[n]? = some e) :
    H.drop (n + 1) = [] ↔ n + 1 = H.length := by
  have within := (List.getElem?_eq_some_iff.mp entry).1
  rw [List.drop_eq_nil_iff]
  omega

namespace ReplayAnswers

variable {σ₀ σ : State K} {p₀ p : K.Procedure} {rs : List (Except Fault K.Yielded)}

theorem before_answer (answers : ReplayAnswers β i base H σ₀ p₀ rs σ p) (within : n < rs.length) :
    ∃ σ' p' e τ p'' r, ReplayAnswers β i base H σ₀ p₀ (rs.take n) σ' p' ∧ H[n]? = some e ∧
      rs[n]? = some r ∧
      Code.Comes β (.push (.replaying i e (H.drop (n + 1))) base) σ'
        (β.code (.resume p' (Resumption.next? i (H.take n)))) τ (p'', r) := by
  induction answers with
  | start => cases within
  | @answer rs σ τ p p' e r before entry comes ih =>
    rw [List.length_append, List.length_singleton] at within
    rcases Nat.lt_succ_iff_lt_or_eq.mp within with earlier | rfl
    · obtain ⟨σ', q, f, υ, q', r', prior, entry', answer, comes'⟩ := ih earlier
      rw [List.take_append_of_le_length earlier.le, List.getElem?_append_left earlier]
      exact ⟨σ', q, f, υ, q', r', prior, entry', answer, comes'⟩
    · rw [List.take_left, List.getElem?_concat_length]
      exact ⟨σ, p, e, τ, p', r, before, entry, rfl, comes⟩

/-- As long as every answer is accepted, the replay goes on to the next entry, which is put to the
procedure as it has been left. -/
theorem reaches (answers : ReplayAnswers β i base H σ₀ p₀ rs σ p) (begins : Begins β i base H σ₀ p₀ c₀)
    (accepted : ∀ n, ¬ Offends H rs n) {e : Entry K.Artifact}
    (length : rs.length = n) (entry : H[n]? = some e) :
    ∃ t x, ReplayedUpTo β i base H c₀ (n + 1) t ⟨.step, σ,
        .call (.resume p (Resumption.next? i (H.take n))),
        .push (.replaying i e (H.drop (n + 1))) base⟩ ∧
      σ.instances[i]? = some x ∧ x.history = H.take n := by
  induction answers generalizing n e with
  | start =>
    subst length
    have start : ReplayedUpTo β i base H c₀ 0 [] c₀ :=
      ⟨.refl, fun _ mem => absurd mem List.not_mem_nil, rfl⟩
    obtain ⟨x₀, found, fresh⟩ := begins.fresh
    refine ⟨_, x₀.lend, start.feed (begins.steps e entry) (.resumes begins.memos) (if_pos rfl), ?_,
      fresh⟩
    rw [State.instances_modifyInstance_self, found]
    rfl
  | @answer rs σ τ p p' f r before entry' comes ih =>
    have earlier : ∀ k, ¬ Offends H rs k := by
      rintro k ⟨g, r', there, answer, offends⟩
      have short := (List.getElem?_eq_some_iff.mp answer).1
      exact accepted k ⟨g, r', there, (List.getElem?_append_left short).trans answer, offends⟩
    obtain ⟨t, x, stage, found', history⟩ := ih earlier rfl entry'
    obtain ⟨u, y, answered, found'', same⟩ := stage.answered begins.stands found' comes
    rw [List.length_append, List.length_singleton] at length
    subst length
    obtain ⟨more, here⟩ := List.getElem?_eq_some_iff.mp entry
    have rest : H.drop (rs.length + 1) = e :: H.drop (rs.length + 1 + 1) := by
      rw [List.drop_eq_getElem_cons more, here]
    have accepts : f.Accepts (e :: H.drop (rs.length + 1 + 1) = []) r := by
      have last : ¬ rs.length + 1 = H.length := more.ne
      by_contra offends
      refine accepted rs.length ⟨f, r, entry', List.getElem?_concat_length, fun accepts => ?_⟩
      rw [eq_false last] at accepts
      exact offends ((eq_false (List.cons_ne_nil e _)).symm ▸ accepts)
    have taken : H.take (rs.length + 1) = y.history ++ [f] := by
      rw [same, history, List.take_add_one, entry']
      rfl
    rw [rest] at answered
    rw [taken]
    refine ⟨_, y.record f, answered.feed
      (step_replayed.trans (Next.finishReplayed_more found'' accepts)) (.resumes rfl) ?_, ?_, rfl⟩
    · rw [taken]
      exact if_pos rfl
    · rw [State.instances_modifyInstance_self, found'']
      rfl

theorem whole {P : K.Procedure → Prop} (holds : P p₀)
    (silent : ∀ p input, P p → (β.code (.resume p input)).Only fun r =>
      ∃ answer : Shape.step.Answer K, r = .ok answer ∧ P answer.1)
    (i : InstanceId) (base : Stack K .result) (H : History K.Artifact) (σ₀ : State K) :
    ∃ rs σ p, ReplayAnswers β i base H σ₀ p₀ rs σ p ∧ rs.length = H.length := by
  have further : ∀ n ≤ H.length,
      ∃ rs σ p, ReplayAnswers β i base H σ₀ p₀ rs σ p ∧ rs.length = n ∧ P p := by
    intro n
    induction n with
    | zero => exact fun _ => ⟨[], _, p₀, .start, rfl, holds⟩
    | succ n ih =>
      intro more
      obtain ⟨rs, σ, p, answers, rfl, held⟩ := ih (Nat.le_of_succ_le more)
      obtain ⟨τ, ⟨p', r⟩, held', comes⟩ := (silent p _ held).comes σ
        (.push (.replaying i H[rs.length] (H.drop (rs.length + 1))) base)
      exact ⟨_, _, p', answers.answer (List.getElem?_eq_getElem more) comes, by simp, held'⟩
  obtain ⟨rs, σ, p, answers, length, -⟩ := further _ le_rfl
  exact ⟨rs, σ, p, answers, length⟩

theorem answers_at (answers : ReplayAnswers β i base H σ₀ p₀ rs σ p)
    (begins : Begins β i base H σ₀ p₀ c₀)
    (accepted : ∀ k < n, ¬ Offends H rs k) (within : n < rs.length) :
    ∃ t τ p r e y, ReplayedUpTo β i base H c₀ (n + 1) t
        ⟨.step, τ, .run (.done (p, r)), .push (.replaying i e (H.drop (n + 1))) base⟩ ∧
      H[n]? = some e ∧ rs[n]? = some r ∧ τ.instances[i]? = some y ∧ y.history = H.take n := by
  obtain ⟨σ', p', e, τ, q, r, before, entry, answer, comes⟩ := answers.before_answer within
  have earlier : ∀ k, ¬ Offends H (rs.take n) k := by
    rintro k ⟨f, r', there, answer, offends⟩
    have short : k < n :=
      (List.getElem?_eq_some_iff.mp answer).1.trans_le (List.length_take_le n rs)
    rw [List.getElem?_take_of_lt short] at answer
    exact accepted k short ⟨f, r', there, answer, offends⟩
  obtain ⟨t, x, stage, found', history⟩ := before.reaches begins earlier
    (List.length_take_of_le within.le) entry
  obtain ⟨u, y, answered, found'', same⟩ := stage.answered begins.stands found' comes
  exact ⟨u, τ, q, r, e, y, answered, entry, answer, found'', same.trans history⟩

theorem diverges (answers : ReplayAnswers β i base H σ₀ p₀ rs σ p) (begins : Begins β i base H σ₀ p₀ c₀)
    (offends : Offends H rs n) (least : ∀ k < n, ¬ Offends H rs k) :
    ∃ t τ y fault, ReplayedUpTo β i base H c₀ (n + 1) t ⟨.result, τ, .run (.done (.error fault)), base⟩ ∧
      τ.instances[i]? = some y ∧ n < H.length ∧ Verdict H rs (.error fault) y := by
  obtain ⟨e, r, entry, answer, refused⟩ := id offends
  obtain ⟨t, τ, q, r', e', y, replayed, entry', answer', found, history⟩ :=
    answers.answers_at begins least (List.getElem?_eq_some_iff.mp answer).1
  obtain rfl := Option.some.inj (entry.symm.trans entry')
  obtain rfl := Option.some.inj (answer.symm.trans answer')
  have within := (List.getElem?_eq_some_iff.mp entry).1
  have refused' : ¬ e.Accepts (H.drop (n + 1) = []) r := by
    rwa [propext (drop_eq_nil_iff_last entry)]
  have ended := replayed.unfed (step_replayed.trans (Next.finishReplayed_offended found refused'))
    (.runs rfl) rfl
  have stays : y.history.length = n := by rw [history, List.length_take_of_le within.le]
  refine ⟨_, _, (y.takeBack q).fail, _, ended, ?_, within, ?_⟩
  · rw [State.instances_modifyInstance_self, found]
    rfl
  · rw [stays]
    exact .diverged answer offends least history rfl

theorem goes_through (answers : ReplayAnswers β i base H σ₀ p₀ rs σ p)
    (begins : Begins β i base H σ₀ p₀ c₀) (nonempty : H ≠ []) (length : rs.length = H.length)
    (accepted : ∀ n, ¬ Offends H rs n) :
    ∃ t τ y, ReplayedUpTo β i base H c₀ H.length t ⟨.result, τ, .run (.done (.ok ())), base⟩ ∧
      τ.instances[i]? = some y ∧ Verdict H rs (.ok ()) y := by
  have positive : 0 < H.length := List.length_pos_iff.mpr nonempty
  have last : H.length - 1 + 1 = H.length := by omega
  obtain ⟨t, τ, q, r, e, y, replayed, entry, answer, found, history⟩ :=
    answers.answers_at (n := H.length - 1) begins (fun k _ => accepted k) (by omega)
  have accepts : e.Accepts (H.length - 1 + 1 = H.length) r := by
    by_contra refused
    exact accepted _ ⟨e, r, entry, answer, refused⟩
  rw [(drop_eq_nil_iff_last entry).mpr last, last] at replayed
  obtain ⟨f, finished, history', status, completed⟩ := Next.finishReplayed_last found accepts
  have ended := replayed.unfed (step_replayed.trans finished) (.runs rfl) rfl
  have whole : H.take (H.length - 1 + 1) = H.take (H.length - 1) ++ [e] := by
    rw [List.take_add_one, entry]
    rfl
  refine ⟨_, _, f y, ended, ?_, .accepted ?_ status ?_⟩
  · rw [State.instances_modifyInstance_self, found]
    rfl
  · rw [history', history, ← whole, last, List.take_length]
  · rw [completed, answer]
    simp only [Option.some.injEq]

end ReplayAnswers

variable {σ : State K} {stack : Stack K s} {next : Except Fault Unit → Code K (s.Answer K)}
  {x : Instance K} {p₀ : K.Procedure} {memory : K.Memory} {ambient : Bool} {code : Code K Unit}

theorem replay_steps (unlocked : stack.locksInstance i = false) (found : σ.instances[i]? = some x)
    (fresh : x.history = []) (paused : x.status = .paused) (procedure : x.procedure = some p₀)
    {e : Entry K.Artifact} (entry : H[0]? = some e) :
    Config.step β ⟨s, σ, .run (.call (.replay i H) next), stack⟩ =
      .ok ⟨.step, σ.modifyInstance i (·.lend), .call (.resume p₀ none),
        .push (.replaying i e (H.drop 1)) (.push (.waiting next) stack)⟩ := by
  have unlocked' :
      (Stack.push (.waiting next) stack : Stack K .result).locksInstance i = false := by
    simpa [Stack.locksInstance, Stack.any, Frame.lockedInstance?] using unlocked
  rw [step_request, Next.serve, Next.replay_eq H entry unlocked' found fresh paused procedure]
  rfl

/-- A replay of a history into a fresh, paused instance accepts just the histories that its
procedure can have gone through. If each answer that the procedure gives when it is fed nothing and
then the entries in order is of the kind that records its entry, the replay goes through and the
instance has the history; a completion is accepted for a view at the end and ends the instance.
Otherwise the replay diverges at the first answer that is not, with the entries before it. The value
of the last entry is never fed. Apart from what observers do who hear the setters that the steps
fire, nothing is computed, produced or signalled and no memo changes. Steps that are silent always
answer. -/
theorem replay_verdict {t₀ : List (Config K × Config K)}
    (run₀ : Run β G (start { memory := memory, ambient := ambient } code) t₀
      ⟨s, σ, .run (.call (.replay i H) next), stack⟩) (nonempty : H ≠ [])
    (found : σ.instances[i]? = some x) (fresh : x.history = []) (paused : x.status = .paused)
    (procedure : x.procedure = some p₀) (unlocked : stack.locksInstance i = false) :
    (∀ P : K.Procedure → Prop, P p₀ →
      (∀ p input, P p → (β.code (.resume p input)).Only fun r =>
        ∃ answer : Shape.step.Answer K, r = .ok answer ∧ P answer.1) →
      ∃ rs σ' p, ReplayAnswers β i (.push (.waiting next) stack) H σ p₀ rs σ' p ∧
        rs.length = H.length) ∧
    ∀ rs σ' p, ReplayAnswers β i (.push (.waiting next) stack) H σ p₀ rs σ' p →
      (rs.length = H.length ∨ ∃ n, Offends H rs n) →
      ∃ t τ y result, Run β (fun _ => True) ⟨s, σ, .run (.call (.replay i H) next), stack⟩ t
          ⟨.result, τ, .run (.done result), .push (.waiting next) stack⟩ ∧
        τ.instances[i]? = some y ∧
        (result = .ok () ↔
          ∀ (n : Nat) (e : Entry K.Artifact), H[n]? = some e →
            ∃ r, rs[n]? = some r ∧ e.Accepts (n + 1 = H.length) r) ∧
        Verdict H rs result y ∧
        (∀ p ∈ t, OnlyFires i (.push (.waiting next) stack) p) ∧
        ∃ n ≤ H.length, fedTo i t = (List.range n).map fun k => Resumption.next? i (H.take k) := by
  refine ⟨fun P holds silent => ReplayAnswers.whole holds silent i _ H σ, ?_⟩
  intro rs σ' p answers judged
  have begins : Begins β i (.push (.waiting next) stack) H σ p₀
      ⟨s, σ, .run (.call (.replay i H) next), stack⟩ :=
    { stands := stands_start.run (fun _ _ _ => trivial) run₀
      fresh := ⟨x, found, fresh⟩
      memos := rfl
      steps := fun _ entry => replay_steps unlocked found fresh paused procedure entry }
  by_cases offended : ∃ n, Offends H rs n
  · classical
    obtain ⟨e, r, entry, answer, refused⟩ := Nat.find_spec offended
    obtain ⟨t, τ, y, fault, replayed, found', within, verdict⟩ :=
      answers.diverges begins (Nat.find_spec offended) fun k lt => Nat.find_min offended lt
    refine ⟨t, τ, y, _, replayed.run, found', ⟨by rintro ⟨⟩, fun all => ?_⟩, verdict,
      replayed.onlyFires, _, within, replayed.fed⟩
    obtain ⟨r', answer', accepts⟩ := all _ e entry
    obtain rfl := Option.some.inj (answer.symm.trans answer')
    exact absurd accepts refused
  · have accepted : ∀ n, ¬ Offends H rs n := fun n offends => offended ⟨n, offends⟩
    have length : rs.length = H.length := judged.resolve_right offended
    obtain ⟨t, τ, y, replayed, found', verdict⟩ :=
      answers.goes_through begins nonempty length accepted
    refine ⟨t, τ, y, _, replayed.run, found', ⟨fun _ n e entry => ?_, fun _ => rfl⟩, verdict,
      replayed.onlyFires, _, le_rfl, replayed.fed⟩
    have within := (List.getElem?_eq_some_iff.mp entry).1
    rw [← length] at within
    refine ⟨rs[n], List.getElem?_eq_getElem within, ?_⟩
    by_contra refused
    exact accepted n ⟨e, rs[n], entry, List.getElem?_eq_getElem within, refused⟩

end Config

namespace Sketch

open Config

theorem delivers_to_client {σ : State client} {stack : Stack client .unit} {source : Source}
    {signal : Signal Picture} (heard : (σ.registry source).observers = [.client ()]) :
    eager.Delivers stack source signal σ σ := by
  have first : Config.step eager ⟨.unit, σ, .emit source signal, stack⟩ =
      .ok ⟨.unit, σ, .call (.notice () signal), .push (.emitting source [] signal) stack⟩ := by
    rw [step_emit, heard]
    rfl
  exact ⟨_, ((Run.refl.snoc (by rintro _ _ ⟨⟩) (.step first)).snoc (by rintro _ _ ⟨⟩)
    (.step rfl)).snoc (by rintro _ (_ | _) ⟨⟩) (.step (step_done ..))⟩

def replayedTwiceCode (H : History Picture) : Code client Unit :=
  .call .newMemo fun m =>
    .call (.newInstance { moves := [.hold (.int 0), .show, .finish] } m {}) fun i =>
      .call (.subscribe (.ofInstance i) ()) fun _ => .call (.replay i H) fun _ => .done ()

def replayedTwice (H : History Picture) : Config client :=
  Config.after eager 6 (.start { memory := () } (replayedTwiceCode H))

def asked : Stack client .result :=
  .push (.waiting fun _ => .done ()) (.empty : Stack client .unit)

def shown : Picture :=
  .mk (.int 1) [⟨0, []⟩]

def twoAnswers : List (Except Fault (Client.Yielded client)) :=
  [.ok (.effect (.hold (.int 0))), .ok (.effect (.render shown))]

def spent : Drawing :=
  { moves := [], label := .int 1, setters := [⟨0, []⟩] }

theorem answers (e : Entry Picture) :
    ∃ σ, ReplayAnswers eager 0 asked [.state (.int 1), .view shown, e]
      (replayedTwice [.state (.int 1), .view shown, e]).state
      { moves := [.hold (.int 0), .show, .finish] } (twoAnswers ++ [.ok (.complete shown)]) σ
      spent := by
  have first : ReplayAnswers eager 0 asked [.state (.int 1), .view shown, e]
      (replayedTwice [.state (.int 1), .view shown, e]).state
      { moves := [.hold (.int 0), .show, .finish] } [.ok (.effect (.hold (.int 0)))] _
      { moves := [.show, .finish] } := ReplayAnswers.start.answer rfl (.done _ _)
  have second : ReplayAnswers eager 0 asked [.state (.int 1), .view shown, e]
      (replayedTwice [.state (.int 1), .view shown, e]).state
      { moves := [.hold (.int 0), .show, .finish] } twoAnswers _
      { spent with moves := [.finish] } :=
    first.answer rfl (.fired rfl (delivers_to_client rfl) (.done _ _))
  exact ⟨_, second.answer rfl (.fired rfl (delivers_to_client rfl) (.done _ _))⟩

theorem eager_replays :
    (∃ t τ y, Run eager (fun _ => True) (replayedTwice [.state (.int 1), .view shown, .view shown]) t
        ⟨.result, τ, .run (.done (.ok ())), asked⟩ ∧ τ.instances[0]? = some y ∧
      y.history = [.state (.int 1), .view shown, .view shown] ∧ y.status = .terminated) ∧
    ∃ t τ y, Run eager (fun _ => True) (replayedTwice [.state (.int 1), .view shown, .yielded .unit]) t
        ⟨.result, τ, .run (.done (.error (.diverged 2 .completedEarly))), asked⟩ ∧
      τ.instances[0]? = some y ∧
      y.history = [.state (.int 1), .view shown] ∧ y.status = .terminated := by
  have run (H : History Picture) : Run eager (fun _ => True)
      (.start { memory := () } (replayedTwiceCode H)) _ (replayedTwice H) := .walk_all 6 _
  constructor
  · obtain ⟨σ, answers⟩ := answers (.view shown)
    obtain ⟨t, τ, y, result, run, found, accepts, verdict, -⟩ :=
      (replay_verdict (run [.state (.int 1), .view shown, .view shown]) (List.cons_ne_nil _ _) rfl
        rfl rfl rfl rfl).2 _ _ _ answers (.inl rfl)
    obtain rfl := accepts.mpr fun n e entry => by
      match n with
      | 0 => cases entry; exact ⟨_, rfl, .hold _ _⟩
      | 1 => cases entry; exact ⟨_, rfl, .render _ _⟩
      | 2 => cases entry; exact ⟨_, rfl, .complete _ _ rfl⟩
      | n + 3 => cases entry
    cases verdict with
    | accepted history _ completed => exact ⟨t, τ, y, run, found, history, completed.mpr ⟨_, rfl⟩⟩
  · obtain ⟨σ, answers⟩ := answers (.yielded .unit)
    obtain ⟨t, τ, y, result, run, found, accepts, verdict, -⟩ :=
      (replay_verdict (run [.state (.int 1), .view shown, .yielded .unit]) (List.cons_ne_nil _ _)
        rfl rfl rfl rfl rfl).2 _ _ _ answers (.inl rfl)
    cases verdict with
    | accepted =>
      obtain ⟨r, ⟨⟩, ⟨⟩⟩ := accepts.mp rfl 2 _ rfl
    | @diverged _ n r answer offends _ history status =>
      obtain ⟨e, r', entry, answer', refused⟩ := offends
      match n with
      | 0 => cases entry; cases answer'; exact absurd (.hold _ _) refused
      | 1 => cases entry; cases answer'; exact absurd (.render _ _) refused
      | 2 => cases answer; exact ⟨t, τ, y, run, found, history, status⟩
      | n + 3 => cases entry

end Sketch

end Resumable
