import Resumable.Proofs.SettlementOrder
import Mathlib.Data.List.Induction

namespace Resumable

variable {K : Client} {s : Shape} {β : Behaviour K} {n : Position} {keys keys' : List Value}
  {v : Value} {m : MemoId}

/-- Values that are equal as keys: of one kind and with one content. A NaN is equal to nothing, the
two zeros are equal, and a shared value is equal to itself only. -/
inductive Value.Equal : Value → Value → Prop
  | unit : Equal .unit .unit
  | bool (b : Bool) : Equal (.bool b) (.bool b)
  | int (k : Int64) : Equal (.int k) (.int k)
  | float {x : Binary64} (number : x.isNaN = false) : Equal (.float x) (.float x)
  | zeros {x y : Binary64} (left : x.isZero = true) (right : y.isZero = true) :
    Equal (.float x) (.float y)
  | str (text : String) : Equal (.str text) (.str text)
  | shared (identity : String) : Equal (.shared identity) (.shared identity)

theorem Binary64.isNaN_of_isZero {x : Binary64} (zero : x.isZero = true) : x.isNaN = false := by
  unfold isZero at zero
  unfold isNaN
  rw [Bool.and_eq_true, decide_eq_true_eq] at zero
  rw [zero.1]
  rfl

theorem Binary64.same_iff {x y : Binary64} :
    x.same y = true ↔ x.isNaN = false ∧ x = y ∨ x.isZero = true ∧ y.isZero = true := by
  unfold same
  constructor
  · intro same
    simp only [Bool.and_eq_true, Bool.or_eq_true, Bool.not_eq_true', beq_iff_eq] at same
    obtain ⟨⟨number, -⟩, equal | zeros⟩ := same
    · exact .inl ⟨number, equal⟩
    · exact .inr zeros
  · intro equal
    rcases equal with ⟨number, rfl⟩ | ⟨left, right⟩
    · simp [number]
    · simp [isNaN_of_isZero left, isNaN_of_isZero right, left, right]

theorem Value.same_iff {a b : Value} : a.same b = true ↔ a.Equal b := by
  constructor
  · intro same
    cases a <;> cases b <;> simp only [Value.same, Bool.false_eq_true, beq_iff_eq] at same
    case float.float x y =>
      rcases Binary64.same_iff.mp same with ⟨number, rfl⟩ | ⟨left, right⟩
      · exact .float number
      · exact .zeros left right
    case unit.unit => exact .unit
    all_goals subst same; constructor
  · intro equal
    cases equal with
    | float number => exact Binary64.same_iff.mpr (.inl ⟨number, rfl⟩)
    | zeros left right => exact Binary64.same_iff.mpr (.inr ⟨left, right⟩)
    | _ => simp [Value.same]

theorem Value.sameKeys_iff : Value.sameKeys keys keys' = true ↔ List.Forall₂ Value.Equal keys keys' := by
  induction keys generalizing keys' with
  | nil => cases keys' <;> simp [Value.sameKeys]
  | cons a as ih =>
    cases keys' with
    | nil => simp [Value.sameKeys]
    | cons b bs => simp [Value.sameKeys, Value.same_iff, ih]

theorem MemoEntry.answers_iff {e : MemoEntry} :
    e.answers n keys = true ↔ e.position = n ∧ List.Forall₂ Value.Equal e.keys keys := by
  rw [answers, Bool.and_eq_true, decide_eq_true_eq, Value.sameKeys_iff]

namespace Memo

inductive Act where
  | remember (e : MemoEntry)
  | clear
  deriving DecidableEq

def perform (m : Memo) : Act → Memo
  | .remember e => m.remember e.position e.keys e.value
  | .clear => []

def after (acts : List Act) : Memo :=
  acts.foldl perform []

/-- All that was stored since the last clearance, whether the memo has kept it or not. -/
def stored (acts : List Act) : Memo :=
  acts.foldl (fun es a => match a with | .remember e => es ++ [e] | .clear => []) []

/-- Since the last clearance, a value was stored at a position under keys that are equal to these. -/
def Stored (acts : List Act) (n : Position) (keys : List Value) : Prop :=
  ∃ u e w, acts = u ++ .remember e :: w ∧ .clear ∉ w ∧ e.position = n ∧
    List.Forall₂ Value.Equal e.keys keys

/-- Whether the act at a place has stored a value for which the memo had none, and no clearance came
behind it. -/
def counts (acts : List Act) (k : Nat) : Bool :=
  match acts[k]? with
  | some (.remember e) =>
    ((after (acts.take k)).lookup e.position e.keys).isNone && !(acts.drop (k + 1)).contains .clear
  | _ => false

variable {acts : List Act} {e : MemoEntry}

theorem stored_clear (acts : List Act) : stored (acts ++ [.clear]) = [] := by
  simp [stored]

theorem stored_remember (acts : List Act) (e : MemoEntry) :
    stored (acts ++ [.remember e]) = stored acts ++ [e] := by
  simp [stored]

theorem after_snoc (acts : List Act) (a : Act) : after (acts ++ [a]) = (after acts).perform a := by
  simp [after]

theorem after_eq (acts : List Act) : after acts = rememberAll [] (stored acts) := by
  induction acts using List.reverseRecOn with
  | nil => rfl
  | append_singleton acts a ih =>
    rw [after_snoc, ih]
    cases a with
    | remember e => rw [stored_remember, rememberAll_append]; rfl
    | clear => rw [stored_clear]; rfl

theorem lookup_after (acts : List Act) : (after acts).lookup n keys = (stored acts).lookup n keys := by
  rw [after_eq, lookup_rememberAll, List.nil_append]

theorem stored_split (u w : List Act) (uncleared : .clear ∉ w) (e : MemoEntry) :
    ∃ es, stored (u ++ .remember e :: w) = stored u ++ e :: es := by
  induction w using List.reverseRecOn with
  | nil => exact ⟨[], stored_remember u e⟩
  | append_singleton w a ih =>
    rw [List.mem_append, not_or] at uncleared
    obtain ⟨es, split⟩ := ih uncleared.1
    rw [← List.cons_append, ← List.append_assoc]
    cases a with
    | remember e' => exact ⟨es ++ [e'], by rw [stored_remember, split]; simp⟩
    | clear => exact absurd (List.mem_singleton.mpr rfl) uncleared.2

theorem split_of_stored {es es' : List MemoEntry} (split : stored acts = es ++ e :: es') :
    ∃ u w, acts = u ++ .remember e :: w ∧ .clear ∉ w ∧ stored u = es := by
  induction acts using List.reverseRecOn generalizing es' with
  | nil => simp [stored] at split
  | append_singleton acts a ih =>
    cases a with
    | clear => simp [stored_clear] at split
    | remember last =>
      rw [stored_remember] at split
      rcases List.eq_nil_or_concat es' with rfl | ⟨es', f, rfl⟩
      · obtain ⟨same, single⟩ := List.append_inj' split rfl
        cases single
        exact ⟨acts, [], rfl, List.not_mem_nil, same⟩
      · rw [List.concat_eq_append, ← List.cons_append, ← List.append_assoc] at split
        obtain ⟨u, w, rfl, uncleared, before⟩ := ih (List.append_inj' split rfl).1
        exact ⟨u, w ++ [.remember last], by simp, by simpa using uncleared, before⟩

theorem mem_stored_iff :
    e ∈ stored acts ↔ ∃ u w, acts = u ++ .remember e :: w ∧ .clear ∉ w := by
  constructor
  · intro mem
    obtain ⟨es, es', split⟩ := List.append_of_mem mem
    obtain ⟨u, w, parts, uncleared, -⟩ := split_of_stored split
    exact ⟨u, w, parts, uncleared⟩
  · intro mem
    obtain ⟨u, w, rfl, uncleared⟩ := mem
    obtain ⟨es, split⟩ := stored_split u w uncleared e
    rw [split]
    exact List.mem_append_right _ List.mem_cons_self

theorem lookup_eq_none_iff (acts : List Act) :
    (after acts).lookup n keys = none ↔ ¬ Stored acts n keys := by
  rw [lookup_after]
  constructor
  · intro missed held
    obtain ⟨u, e, w, parts, uncleared, equal⟩ := held
    have silent : ∀ e ∈ stored acts, e.answers n keys = false := by simpa [lookup] using missed
    have answers := silent e (mem_stored_iff.mpr ⟨u, w, parts, uncleared⟩)
    rw [MemoEntry.answers_iff.mpr equal] at answers
    cases answers
  · intro unheld
    cases found : (stored acts).lookup n keys with
    | none => rfl
    | some v =>
      obtain ⟨e, mem, position, same, -⟩ := exists_of_lookup found
      obtain ⟨u, w, parts, uncleared⟩ := mem_stored_iff.mp mem
      exact absurd ⟨u, e, w, parts, uncleared, position, Value.sameKeys_iff.mp same⟩ unheld

theorem lookup_eq_some_iff : (after acts).lookup n keys = some v ↔
    ∃ u e w, acts = u ++ .remember e :: w ∧ .clear ∉ w ∧ e.position = n ∧
      List.Forall₂ Value.Equal e.keys keys ∧ e.value = v ∧ ¬ Stored u n keys := by
  simp only [← lookup_eq_none_iff]
  constructor
  · intro found
    rw [lookup_after] at found
    obtain ⟨e, first, value⟩ := Option.map_eq_some_iff.mp found
    obtain ⟨answers, es, es', split, none⟩ := List.find?_eq_some_iff_append.mp first
    obtain ⟨u, w, parts, uncleared, rfl⟩ := split_of_stored split
    obtain ⟨position, equal⟩ := MemoEntry.answers_iff.mp answers
    refine ⟨u, e, w, parts, uncleared, position, equal, value, ?_⟩
    rw [lookup_after]
    simpa [lookup] using none
  · intro first
    obtain ⟨u, e, w, rfl, uncleared, position, equal, rfl, none⟩ := first
    obtain ⟨es, split⟩ := stored_split u w uncleared e
    rw [lookup_after] at none ⊢
    rw [split, lookup_append, none, Option.none_or]
    simp [lookup, MemoEntry.answers_iff.mpr ⟨position, equal⟩]

theorem lookup_insert (silent : e.answers n keys = false) (u w : List Act) :
    (after (u ++ .remember e :: w)).lookup n keys = (after (u ++ w)).lookup n keys := by
  rw [lookup_after, lookup_after]
  induction w using List.reverseRecOn with
  | nil =>
    rw [stored_remember, lookup_append, List.append_nil]
    simp [lookup, silent]
  | append_singleton w a ih =>
    rw [← List.cons_append, ← List.append_assoc, ← List.append_assoc]
    cases a with
    | remember f => rw [stored_remember, stored_remember, lookup_append, lookup_append, ih]
    | clear => rw [stored_clear, stored_clear]

theorem distinct_after (acts : List Act) : (after acts).Distinct := by
  induction acts using List.reverseRecOn with
  | nil => exact List.Pairwise.nil
  | append_singleton acts a ih =>
    rw [after_snoc]
    cases a with
    | remember e => exact ih.remember e.position e.keys e.value
    | clear => exact List.Pairwise.nil

theorem length_remember (m : Memo) (e : MemoEntry) :
    (m.remember e.position e.keys e.value).length =
      m.length + if (m.lookup e.position e.keys).isNone then 1 else 0 := by
  cases found : m.lookup e.position e.keys with
  | none => exact length_remember_of_lookup_eq_none found e.value
  | some w => rw [remember_of_lookup found]; rfl

theorem counts_snoc_of_lt (acts : List Act) (a : Act) {k : Nat} (earlier : k < acts.length) :
    counts (acts ++ [a]) k = (counts acts k && a != .clear) := by
  unfold counts
  rw [List.getElem?_append_left earlier, List.take_append_of_le_length (by omega),
    List.drop_append_of_le_length (by omega)]
  cases acts[k]? with
  | none => rfl
  | some b =>
    cases b with
    | clear => rfl
    | remember e =>
      cases a with
      | remember f => simp [show (Act.remember f != .clear) = true from rfl]
      | clear => simp

theorem counts_snoc_self (acts : List Act) (e : MemoEntry) :
    counts (acts ++ [.remember e]) acts.length =
      ((after acts).lookup e.position e.keys).isNone := by
  simp [counts]

theorem length_after (acts : List Act) :
    (after acts).length = (List.range acts.length).countP (counts acts) := by
  induction acts using List.reverseRecOn with
  | nil => rfl
  | append_singleton acts a ih =>
    rw [after_snoc, List.length_append, List.length_singleton, List.range_succ, List.countP_append]
    cases a with
    | clear =>
      have earlier : (List.range acts.length).countP (counts (acts ++ [.clear])) = 0 := by
        apply List.countP_eq_zero.mpr
        intro k mem
        rw [counts_snoc_of_lt acts .clear (List.mem_range.mp mem)]
        simp
      rw [earlier]
      simp [counts, perform]
    | remember e =>
      have earlier : (List.range acts.length).countP (counts (acts ++ [.remember e])) =
          (List.range acts.length).countP (counts acts) := by
        apply List.countP_congr
        intro k mem
        rw [counts_snoc_of_lt acts _ (List.mem_range.mp mem)]
        simp
      rw [earlier, ← ih, List.countP_singleton, counts_snoc_self]
      exact length_remember (after acts) e

end Memo

def State.settled? (σ : State K) (stack : Stack K .unit) (task : Task K) (v : Value) (m : MemoId) :
    Option Memo.Act :=
  (σ.instances[task.owner]?).bind fun x => task.keys.bind fun keys =>
    if σ.instanceAlive stack task.owner = true ∧ x.status = .running ∧
        x.position = task.position ∧ x.memo = m then
      some (.remember ⟨task.position, keys, v⟩)
    else none

namespace Config

variable {c d : Config K} {t : List (Config K × Config K)} {G : Config K → Prop}

def memoAct? (m : MemoId) : Config K → Option Memo.Act
  | ⟨_, _, .run (.call (.remember id n keys v) _), _⟩ =>
    if id = m then some (.remember ⟨n, keys, v⟩) else none
  | ⟨_, _, .run (.call (.clearMemo id) _), _⟩ => if id = m then some .clear else none
  | ⟨_, σ, .run (.done v), .push (.computing i n keys) _⟩ =>
    (σ.instances[i]?).bind fun x =>
      if x.memo = m then some (.remember ⟨n, keys, v⟩) else none
  | ⟨_, σ, .run (.done (Progress.ready (.ok v))), .push (.polling task) stack⟩ =>
    σ.settled? stack task v m
  | _ => none

theorem cause_of_memoAct? {a : Memo.Act} (act : c.memoAct? m = some a) :
    c.ClientWrites m ∨ ∃ i n keys v, c.Brings i n keys v := by
  unfold memoAct? at act
  split at act
  · next id n keys v next stack =>
    obtain ⟨rfl, -⟩ := Option.ite_none_right_eq_some.mp act
    exact .inl (.remembers _ n keys v next stack)
  · next id next stack =>
    obtain ⟨rfl, -⟩ := Option.ite_none_right_eq_some.mp act
    exact .inl (.clears _ next stack)
  · next σ v i n keys stack => exact .inr ⟨i, n, keys, v, .computed σ stack⟩
  · next σ v task stack =>
    unfold State.settled? at act
    obtain ⟨x, -, act⟩ := Option.bind_eq_some_iff.mp act
    obtain ⟨keys, cached, -⟩ := Option.bind_eq_some_iff.mp act
    exact .inr ⟨task.owner, task.position, keys, v, .settled (.answered σ (.ok v)) rfl rfl cached⟩
  · cases act

end Config

theorem Next.settle_memo {σ : State K} (made : m < σ.memos.length) (stack : Stack K .unit)
    (task : Task K) (v : Value) : (Next.settle σ stack task (.ok v)).Holds fun d =>
      d.state.memo m = (σ.settled? stack task v m).elim (σ.memo m) (σ.memo m).perform := by
  unfold Next.settle State.settled?
  by_cases alive : σ.instanceAlive stack task.owner = true
  · rw [if_pos alive]
    refine Next.Holds.withInstance fun x _ found => ?_
    rw [found, Option.bind_some]
    by_cases waits : x.status = .running ∧ x.position = task.position
    · rw [if_neg (by simp [waits])]
      cases task.keys with
      | none => exact Next.holds_emit.mpr rfl
      | some keys =>
        refine Next.holds_emit.mpr ?_
        by_cases uses : x.memo = m
        · simp [alive, waits, uses, State.memo_remember_self σ made, Memo.perform]
        · simp [uses, State.memo_remember_ne σ uses]
    · rw [if_pos (by tauto)]
      refine Next.holds_give.mpr ?_
      cases task.keys with
      | none => rfl
      | some keys =>
        rw [Option.bind_some, if_neg (by tauto)]
        rfl
  · rw [if_neg alive]
    refine Next.holds_give.mpr ?_
    cases σ.instances[task.owner]? with
    | none => rfl
    | some x => cases task.keys <;> simp [alive]

namespace Config

theorem computed_memoAct? {σ : State K} {stack : Stack K .result} {i : InstanceId}
    (follows : Follows β ⟨.value, σ, .run (.done v), .push (.computing i n keys) stack⟩ d)
    (made : m < σ.memos.length) : d.state.memo m =
      (memoAct? m ⟨.value, σ, .run (.done v), .push (.computing i n keys) stack⟩).elim (σ.memo m)
        (σ.memo m).perform := by
  have step := follows.step_eq (by rintro τ (payload | ⟨⟩) ⟨⟩)
  rw [step_done] at step
  unfold Next.resume Next.finishComputation at step
  cases found : σ.instances[i]? with
  | none => simp [found] at step
  | some x =>
    have stores : d.state.memo m = (σ.remember x.memo n keys v).memo m := by
      simp only [found] at step
      split at step <;> cases step <;> rfl
    rw [stores]
    by_cases uses : x.memo = m
    · simp [memoAct?, found, uses, State.memo_remember_self σ made, Memo.perform]
    · simp [memoAct?, found, uses, State.memo_remember_ne σ uses]

theorem settled_memoAct? {stack : Stack K .unit} {task : Task K}
    (completes : c.Completes stack task (.ok v)) (follows : Follows β c d)
    (made : m < c.state.memos.length) :
    d.state.memo m = (c.memoAct? m).elim (c.state.memo m) (c.state.memo m).perform := by
  generalize value : (Except.ok v : Except Failure Value) = outcome at completes
  cases completes with
  | panicked => cases value
  | answered σ r =>
    cases r with
    | error text => cases value
    | ok w =>
      cases value
      have step := follows.step_eq (by rintro τ (payload | ⟨⟩) ⟨⟩)
      rw [step_done] at step
      exact Next.settle_memo made stack task v d step

theorem follows_memoAct? (follows : Follows β c d) (made : m < c.state.memos.length) :
    d.state.memo m = (c.memoAct? m).elim (c.state.memo m) (c.state.memo m).perform := by
  by_cases clientWrites : c.ClientWrites m
  · cases clientWrites with
    | remembers σ n keys v next stack =>
      have step := follows.step_eq (by rintro τ (payload | ⟨⟩) ⟨⟩)
      cases step
      simp [memoAct?, State.memo_remember_self σ made, Memo.perform]
    | clears σ next stack =>
      have step := follows.step_eq (by rintro τ (payload | ⟨⟩) ⟨⟩)
      cases step
      simp [memoAct?, σ.memo_clearMemo_self m, Memo.perform]
  by_cases brings : ∃ i n keys v, c.Brings i n keys v
  · obtain ⟨i, n, keys, v, brings⟩ := brings
    cases brings with
    | computed σ stack => exact computed_memoAct? follows made
    | settled completes owner position cached => exact settled_memoAct? completes follows made
  · cases act : c.memoAct? m with
    | some a => exact absurd (cause_of_memoAct? act) (not_or.mpr ⟨clientWrites, brings⟩)
    | none =>
      rcases follows_memo follows m with same | also | ⟨i, n, keys, v, x, also, -⟩
      · exact same
      · exact absurd also clientWrites
      · exact absurd ⟨i, n, keys, v, also⟩ brings

theorem Run.memo_after (run : Run β G c t d) (fresh : c.state.memos[m]? = some []) :
    m < d.state.memos.length ∧ d.state.memo m = Memo.after (t.filterMap (·.1.memoAct? m)) := by
  induction run with
  | refl =>
    refine ⟨(List.getElem?_eq_some_iff.mp fresh).1, ?_⟩
    simp [State.memo, fresh, Memo.after]
  | @snoc t d e run _ follows ih =>
    refine ⟨ih.1.trans_le (follows_memos follows), ?_⟩
    rw [follows_memoAct? follows ih.1, ih.2, List.filterMap_append]
    cases act : d.memoAct? m with
    | none => simp [act]
    | some a => simp [act, Memo.after_snoc]

structure Keeps (β : Behaviour K) (m : MemoId) (acts : List Memo.Act) (d : Config K) : Prop where
  memo : d.state.memo m = Memo.after acts
  told : ∀ (s : Shape) σ next (stack : Stack K s),
    d = ⟨s, σ, .run (.call (.memo m) next), stack⟩ →
      d.step β = .ok ⟨.memo, σ, .run (.done (Memo.after acts)), .push (.waiting next) stack⟩

theorem Run.keeps (run : Run β G c t d) (fresh : c.state.memos[m]? = some []) :
    d.Keeps β m (t.filterMap (·.1.memoAct? m)) where
  memo := (run.memo_after fresh).2
  told := by
    rintro s σ next stack rfl
    rw [← (run.memo_after fresh).2]
    rfl

end Config

/-- How a memo answers that some acts have made: as a map to the values that were stored first. -/
structure Memo.FirstWriteWins (acts : List Memo.Act) : Prop where
  finds : ∀ n keys v, (Memo.after acts).lookup n keys = some v ↔ ∃ u e w,
    acts = u ++ .remember e :: w ∧ .clear ∉ w ∧ e.position = n ∧
      List.Forall₂ Value.Equal e.keys keys ∧ e.value = v ∧ ¬ Memo.Stored u n keys
  misses : ∀ n keys, (Memo.after acts).lookup n keys = none ↔ ¬ Memo.Stored acts n keys
  unsound : ∀ n keys x, Value.float x ∈ keys → x.isNaN = true → (Memo.after acts).lookup n keys = none
  distinct : (Memo.after acts).Pairwise fun e f =>
    ¬ (e.position = f.position ∧ List.Forall₂ Value.Equal e.keys f.keys)
  irrelevant : ∀ u e w n keys, acts = u ++ .remember e :: w →
    ¬ (e.position = n ∧ List.Forall₂ Value.Equal e.keys keys) →
      (Memo.after acts).lookup n keys = (Memo.after (u ++ w)).lookup n keys
  length : (Memo.after acts).length = (List.range acts.length).countP (Memo.counts acts)

theorem Memo.firstWriteWins (acts : List Memo.Act) : Memo.FirstWriteWins acts where
  finds n keys v := Memo.lookup_eq_some_iff
  misses n keys := Memo.lookup_eq_none_iff acts
  unsound n keys x mem nan := by
    apply Memo.lookup_of_unsound
    apply Bool.eq_false_iff.mpr
    intro sound
    rw [(Value.sameKeys_self keys).mp sound x mem] at nan
    cases nan
  distinct := by
    apply (Memo.distinct_after acts).imp
    intro e f silent equal
    rw [MemoEntry.answers_iff.mpr equal] at silent
    cases silent
  irrelevant := by
    rintro u e w n keys rfl apart
    apply Memo.lookup_insert
    exact Bool.eq_false_iff.mpr fun answers => apart (MemoEntry.answers_iff.mp answers)
  length := Memo.length_after acts

open Config in
/-- A memo is a map to the values that were stored first. After whatever acts, a lookup finds the
value of the earliest act since the last clearance that stored under equal keys at the position, and
nothing if there is none, or if there is a NaN among the keys. No two entries at one position have
equal keys; acts at other positions or under unequal keys do not matter to a lookup, wherever they
stand; and there is one entry for each act since the last clearance that met none with equal keys at
its position. Along every run a memo that was new at its start is what the acts of that run, by
clients and by instances, have made of it, and that is what clients are told of it. -/
theorem memo_first_write_wins :
    (∀ acts, Memo.FirstWriteWins acts) ∧
    ∀ (K : Client) (β : Behaviour K) (G : Config K → Prop) c t d m, Run β G c t d →
      c.state.memos[m]? = some [] → d.Keeps β m (t.filterMap (·.1.memoAct? m)) :=
  ⟨Memo.firstWriteWins, fun _ _ _ _ _ _ _ run fresh => run.keeps fresh⟩

namespace Sketch

def zero : Value := .float ⟨0⟩

def minusZero : Value := .float ⟨0x8000000000000000⟩

def notANumber : Value := .float ⟨0x7ff8000000000000⟩

def firstsCode : Code client Unit :=
  .call .newMemo fun m =>
    .call (.remember m 0 [zero] (.int 1)) fun _ =>
      .call (.remember m 0 [minusZero] (.int 2)) fun _ =>
        .call (.remember m 0 [notANumber] (.int 3)) fun _ =>
          .call (.newInstance { moves := [.compute (.int 4) [.unit], .finish] } m {}) fun i =>
            .call (.proceed i) fun _ =>
              .call (.remember m 0 [.unit] (.int 5)) fun _ => .call (.memo m) fun _ => .done ()

def firsts : Config client :=
  .start { memory := () } firstsCode

def firstActs : List Memo.Act :=
  [.remember ⟨0, [zero], .int 1⟩, .remember ⟨0, [minusZero], .int 2⟩,
    .remember ⟨0, [notANumber], .int 3⟩, .remember ⟨0, [.unit], .int 4⟩,
    .remember ⟨0, [.unit], .int 5⟩]

/-- The memo answers for the zeros with the first value and for the NaN not at all. The value under
the NaN does not matter to the other answers, and there are three entries. -/
theorem firsts_kept :
    (Config.trail behaviour 28 (Config.after behaviour 1 firsts)).filterMap (·.1.memoAct? 0) =
      firstActs ∧
    (Config.after behaviour 28 (Config.after behaviour 1 firsts)).state.memo 0 =
      Memo.after firstActs ∧
    (Memo.after firstActs).lookup 0 [minusZero] = some (.int 1) ∧
    (Memo.after firstActs).lookup 0 [notANumber] = none ∧
    (Memo.after firstActs).lookup 0 [.unit] = (Memo.after (firstActs.eraseIdx 2)).lookup 0 [.unit] ∧
    (Memo.after firstActs).length = 3 := by
  have acts : (Config.trail behaviour 28 (Config.after behaviour 1 firsts)).filterMap
      (·.1.memoAct? 0) = firstActs := by decide +kernel
  obtain ⟨wins, runs⟩ := memo_first_write_wins
  have first := wins firstActs
  refine ⟨acts, ?_, ?_, ?_, ?_, ?_⟩
  · rw [← acts]
    exact (runs client behaviour _ _ _ _ 0
      (.walk_all 28 (Config.after behaviour 1 firsts)) (by decide +kernel)).memo
  · apply (first.finds 0 [minusZero] (.int 1)).mpr
    refine ⟨[], ⟨0, [zero], .int 1⟩, firstActs.tail, rfl, by decide, rfl, ?_, rfl, ?_⟩
    · exact .cons (.zeros rfl rfl) .nil
    · rintro ⟨u, e, w, parts, -⟩
      exact List.append_ne_nil_of_right_ne_nil u (List.cons_ne_nil _ w) parts.symm
  · exact first.unsound 0 [notANumber] _ List.mem_cons_self rfl
  · apply first.irrelevant (firstActs.take 2) ⟨0, [notANumber], .int 3⟩ (firstActs.drop 3) _ _ rfl
    rintro ⟨-, equal⟩
    cases equal with
    | cons equal => cases equal
  · exact first.length.trans (by decide +kernel)

end Sketch

end Resumable
