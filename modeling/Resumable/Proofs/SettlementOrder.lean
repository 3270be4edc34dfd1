import Resumable.Proofs.Caching
import Resumable.Proofs.Calm
import Resumable.Proofs.Signals

namespace Resumable

variable {K : Client} {s w : Shape} {β : Behaviour K} {i : InstanceId} {n : Position}
  {keys : List Value}

theorem eq_of_perm_of_short {α : Type} {l l' : List α} (same : l.Perm l') (short : l.length ≤ 1) :
    l = l' := by
  match l with
  | [] => exact (List.nil_perm.mp same).symm
  | [a] => exact List.singleton_perm.mp same
  | a :: b :: l => simp at short

namespace Memo

theorem lookup_remember (m : Memo) (e : MemoEntry) :
    (m.remember e.position e.keys e.value).lookup n keys = (m ++ [e]).lookup n keys := by
  unfold remember
  split
  · next answered =>
    rw [lookup_append]
    cases found : m.lookup n keys with
    | some v => rfl
    | none =>
      rw [Option.none_or, eq_comm, Option.eq_none_iff_forall_ne_some]
      intro v stored
      obtain ⟨e', mem, position, same, -⟩ := exists_of_lookup stored
      rw [List.mem_singleton.mp mem] at position same
      -- What answers for the new entry answers for all that the new entry would.
      obtain ⟨f, held, answers⟩ := List.any_eq_true.mp answered
      rw [MemoEntry.answers, Bool.and_eq_true, decide_eq_true_eq] at answers
      have unanswered : m.any (·.answers n keys) = false := by simpa [lookup] using found
      refine Bool.false_ne_true (unanswered.symm.trans (List.any_eq_true.mpr ⟨f, held, ?_⟩))
      rw [MemoEntry.answers, Bool.and_eq_true, decide_eq_true_eq]
      exact ⟨answers.1.trans position, Value.sameKeys_trans answers.2 same⟩
  · rfl

def rememberAll (m : Memo) (es : List MemoEntry) : Memo :=
  es.foldl (fun m e => m.remember e.position e.keys e.value) m

theorem rememberAll_append (m : Memo) (es es' : List MemoEntry) :
    m.rememberAll (es ++ es') = (m.rememberAll es).rememberAll es' :=
  List.foldl_append

theorem lookup_rememberAll (m : Memo) (es : List MemoEntry) :
    (m.rememberAll es).lookup n keys = (m ++ es).lookup n keys := by
  induction es generalizing m with
  | nil => rw [List.append_nil]; rfl
  | cons e es ih =>
    rw [rememberAll, List.foldl_cons, ← rememberAll, ih, lookup_append, lookup_remember,
      ← lookup_append, List.append_assoc, List.singleton_append]

theorem lookup_rememberAll_perm (m : Memo) {es es' : List MemoEntry} (same : es.Perm es')
    (single : es.countP (·.answers n keys) ≤ 1) :
    (m.rememberAll es).lookup n keys = (m.rememberAll es').lookup n keys := by
  have answering : es.filter (·.answers n keys) = es'.filter (·.answers n keys) :=
    eq_of_perm_of_short (same.filter _) (List.countP_eq_length_filter ▸ single)
  rw [lookup_rememberAll, lookup_rememberAll, lookup_append, lookup_append]
  simp only [lookup, ← List.head?_filter, answering]

end Memo

/-- What the settlements of its awaits have made of an instance, with the signals of that. -/
inductive Instance.SettledTo (x₀ : Instance K) :
    List Settlement → Instance K → List (Signal K.Artifact) → Prop
  | untouched {x : Instance K} (status : x.status = x₀.status) (history : x.history = x₀.history) :
    SettledTo x₀ [] x []
  | settled {x : Instance K} {a : Settlement} {v : Value} (outcome : a.outcome = .ok v)
    (status : x.status = .paused) (history : x.history = x₀.history ++ [.yielded v]) :
    SettledTo x₀ [a] x [.ready]
  | rejected {x : Instance K} {a : Settlement} {failure : Failure}
    (outcome : a.outcome = .error failure) (status : x.status = .terminated)
    (history : x.history = x₀.history) : SettledTo x₀ [a] x [.rejected (.producer a.position failure)]

namespace Instance.SettledTo

variable {x₀ x x' : Instance K} {as : List Settlement} {told told' : List (Signal K.Artifact)}

theorem unique (settledTo : x₀.SettledTo as x told) (settledTo' : x₀.SettledTo as x' told') :
    x.history = x'.history ∧ x.status = x'.status ∧ told = told' := by
  cases settledTo with
  | untouched status history =>
    cases settledTo' with
    | untouched status' history' =>
      exact ⟨history.trans history'.symm, status.trans status'.symm, rfl⟩
  | settled outcome status history =>
    cases settledTo' with
    | settled outcome' status' history' =>
      cases outcome.symm.trans outcome'
      exact ⟨history.trans history'.symm, status.trans status'.symm, rfl⟩
    | rejected outcome' => cases outcome.symm.trans outcome'
  | rejected outcome status history =>
    cases settledTo' with
    | settled outcome' => cases outcome.symm.trans outcome'
    | rejected outcome' status' history' =>
      cases outcome.symm.trans outcome'
      exact ⟨history.trans history'.symm, status.trans status'.symm, rfl⟩

theorem short (settledTo : x₀.SettledTo as x told) : as.length ≤ 1 := by
  cases settledTo <;> simp

theorem status_kept (settledTo : x₀.SettledTo [] x told) : x.status = x₀.status := by
  cases settledTo with
  | untouched status => exact status

theorem drift (settledTo : x₀.SettledTo as x told) (status : x'.status = x.status)
    (history : x'.history = x.history) : x₀.SettledTo as x' told := by
  cases settledTo with
  | untouched status' history' => exact .untouched (status.trans status') (history.trans history')
  | settled outcome status' history' =>
    exact .settled outcome (status.trans status') (history.trans history')
  | rejected outcome status' history' =>
    exact .rejected outcome (status.trans status') (history.trans history')

theorem since {y : Instance K} (settledTo : x₀.SettledTo [] x told) (later : x.SettledTo as y told') :
    x₀.SettledTo as y (told ++ told') := by
  cases settledTo with
  | untouched status history =>
    cases later with
    | untouched status' history' => exact .untouched (status'.trans status) (history'.trans history)
    | settled outcome status' history' => exact .settled outcome status' (history ▸ history')
    | rejected outcome status' history' =>
      exact .rejected outcome status' (history'.trans history)

end Instance.SettledTo

theorem Turn.idle {loses : Prop} {cut : SubscriptionId → Prop} {memos : MemoId → Memo}
    {x : Instance K} {o' : Option (Instance K)} {as' : Multiset Activity}
    (turn : Turn loses cut memos (some x) 0 none o' as') : as' = 0 := by
  generalize none : (0 : Multiset Activity) = as at turn
  cases turn with
  | stays => rfl
  | terminated => rfl
  | refused => rfl
  | _ => exact absurd none.symm Multiset.cons_ne_zero

namespace State

variable {σ σ' : State K}

def Claimed (σ : State K) (i : InstanceId) : Prop :=
  .ofInstance i ∈ σ.held ∨
    ∃ k y, σ.components[k]? = some y ∧ y.current = some i ∧ .ofComponent k ∈ σ.held

theorem Claimed.drift (claimed : σ.Claimed i) (drifts : σ.Drifts σ') : σ'.Claimed i := by
  rcases claimed with held | ⟨k, y, made, current, held⟩
  · exact .inl (drifts.held held)
  · obtain ⟨y', made', same⟩ := drifts.current k y made
    exact .inr ⟨k, y', made', same.trans current, drifts.held held⟩

theorem Claimed.alive (claimed : σ.Claimed i) (stack : Stack K s) :
    σ.instanceAlive stack i = true := by
  rw [instanceAlive, Bool.or_eq_true, Bool.or_eq_true]
  rcases claimed with held | ⟨k, y, made, current, held⟩
  · exact .inl (.inl (List.contains_iff_mem.mpr held))
  · refine .inr (List.any_eq_true.mpr ⟨(y, k), List.mem_zipIdx_iff_getElem?.mpr made, ?_⟩)
    rw [Bool.and_eq_true, componentAlive, Bool.or_eq_true]
    exact ⟨decide_eq_true current, .inl (List.contains_iff_mem.mpr held)⟩

/-- The instance has not ended, and somebody has a claim on it. -/
structure Live (σ : State K) (i : InstanceId) : Prop where
  claimed : σ.Claimed i
  alive : ∃ x, σ.instances[i]? = some x ∧ x.status ≠ .terminated

def stored (σ : State K) (m : MemoId) (a : Settlement) : Option MemoEntry :=
  match a.outcome, a.keys with
  | .ok v, some keys =>
    if (σ.instances[a.owner]?).map (·.memo) = some m then some ⟨a.position, keys, v⟩ else none
  | _, _ => none

theorem stored_congr {m : MemoId} {a : Settlement}
    (same : (σ'.instances[a.owner]?).map (·.memo) = (σ.instances[a.owner]?).map (·.memo)) :
    σ'.stored m a = σ.stored m a := by
  simp only [stored, same]

theorem Claimed.of_same (claimed : σ.Claimed i) (components : σ'.components = σ.components)
    (held : σ'.held = σ.held) : σ'.Claimed i := by
  rw [Claimed, components, held]
  exact claimed

theorem keep_objects (σ : State K) (m : MemoId) (n : Position) (keys : Option (List Value))
    (v : Value) : (σ.keep m n keys v).instances = σ.instances ∧
      (σ.keep m n keys v).components = σ.components ∧ (σ.keep m n keys v).held = σ.held := by
  cases keys <;> exact ⟨rfl, rfl, rfl⟩

theorem memo_keep {m : MemoId} (made : m < σ.memos.length) {x : Instance K} {v : Value}
    {keys : Option (List Value)} (found : σ.instances[i]? = some x) :
    (σ.keep x.memo n keys v).memo m =
      (σ.memo m).rememberAll (σ.stored m ⟨i, n, keys, .ok v⟩).toList := by
  cases keys with
  | none => rfl
  | some keys =>
    have entry : σ.stored m ⟨i, n, some keys, .ok v⟩ =
        if x.memo = m then some ⟨n, keys, v⟩ else none := by
      simp only [stored, found, Option.map_some, Option.some.injEq]
    rw [entry]
    by_cases own : x.memo = m
    · rw [if_pos own, own, keep, memo_remember_self _ made]
      rfl
    · rw [if_neg own, keep, memo_remember_ne _ own]
      rfl

end State

namespace Config

variable {c c₀ d : Config K} {t t₀ : List (Config K × Config K)} {a : Settlement}

theorem signal?_emit (σ : State K) (stack : Stack K .unit) {signal : Signal K.Artifact}
    (own : signal.deed? = some (.tell signal)) :
    signal? i ⟨.unit, σ, .emit (.ofInstance i) signal, stack⟩ = some signal :=
  signal?_eq (by simp [deed?, own, ownedBy])

/-- What a settled await does: its instance is told of, and nothing else changes but the memo. -/
structure Settles (a : Settlement) (c d : Config K) : Prop where
  calm : d.Calm
  claimed : ∀ i, c.state.Claimed i → d.state.Claimed i
  others : ∀ i, i ≠ a.owner → d.state.instances[i]? = c.state.instances[i]? ∧ d.deed? i = none
  own : ∀ x, c.state.instances[a.owner]? = some x → ∃ x', d.state.instances[a.owner]? = some x' ∧
    x.SettledTo [a] x' (d.signal? a.owner).toList
  idle : d.underWay a.owner = 0
  memo : ∀ m < c.state.memos.length,
    d.state.memo m = (c.state.memo m).rememberAll (c.state.stored m a).toList

theorem Calm.settles (calm : c.Calm) (stands : c.Stands True a.owner)
    (settles : c.settles? = some a) {x : Instance K}
    (found : c.state.instances[a.owner]? = some x) (alive : x.status ≠ .terminated)
    (claimed : c.state.Claimed a.owner) (follows : Follows β c d) : Settles a c d := by
  obtain ⟨stack, task, outcome, completes, rfl⟩ := completes_of_settles? settles
  have step := (completes.step_eq follows).symm.trans
    (completes.settled stands found (claimed.alive stack) alive)
  have calmStack : stack.Calm := by cases completes <;> exact calm.stack.2
  have idle : d.underWay task.owner = 0 := by
    have ends := settle_underWay task.owner c.state stack task outcome d
      (completes.step.symm.trans (completes.step_eq follows))
    have stands := stands.present x found
    rw [completes.underWay] at stands
    rw [ends, (stands.of_alive alive).2]
  cases outcome with
  | ok v =>
    obtain ⟨instances, components, held⟩ :=
      c.state.keep_objects x.memo task.position task.keys v
    cases step
    refine ⟨⟨⟨rfl, calmStack⟩, trivial⟩, fun i claimed => claimed.of_same components held,
      fun i ne => ⟨?_, if_neg ne.symm⟩, fun x' found' => ?_, idle, fun m made =>
        State.memo_keep made found⟩
    · rw [State.instances_modifyInstance_ne _ ne.symm, instances]
    · rw [State.instances_modifyInstance_self, instances, found', signal?_emit _ _ rfl]
      exact ⟨_, rfl, .settled rfl rfl rfl⟩
  | error failure =>
    cases step
    refine ⟨⟨⟨rfl, calmStack⟩, trivial⟩, fun i claimed => claimed,
      fun i ne => ⟨State.instances_modifyInstance_ne _ ne.symm _, if_neg ne.symm⟩,
      fun x' found' => ?_, idle, fun m made => rfl⟩
    rw [State.instances_modifyInstance_self, found', signal?_emit _ _ rfl]
    exact ⟨_, rfl, .rejected rfl rfl rfl⟩

theorem Calm.settles_of_brings (calm : c.Calm) {v : Value} (brings : c.Brings i n keys v) :
    c.settles? ≠ none := by
  cases brings with
  | computed => cases calm.stack.1
  | settled completes => simp [completes.settles?]

theorem settlements_snoc (p : Config K × Config K) :
    settlements (t ++ [p]) = settlements t ++ p.1.settles?.toList := by
  cases settles : p.1.settles? <;> simp [settlements, settles]

theorem signals_snoc (p : Config K × Config K) :
    signals i (t ++ [p]) = signals i t ++ (p.2.signal? i).toList := by
  cases told : p.2.signal? i <;> simp [signals, told]

def settlementsOf (i : InstanceId) (t : List (Config K × Config K)) : List Settlement :=
  (settlements t).filter (·.owner = i)

/-- How the instances stand at the end of a calm run, and what is in the memos. -/
structure Tally (c₀ : Config K) (t : List (Config K × Config K)) (d : Config K) : Prop where
  calm : d.Calm
  claimed : ∀ i, c₀.state.Claimed i → d.state.Claimed i
  settledTo : ∀ i x₀, c₀.state.instances[i]? = some x₀ → ∃ x, d.state.instances[i]? = some x ∧
    x.memo = x₀.memo ∧ x₀.SettledTo (settlementsOf i t) x (signals i t) ∧
    (settlementsOf i t ≠ [] → d.underWay i = 0)
  memos : c₀.state.memos.length ≤ d.state.memos.length
  memo : ∀ m < c₀.state.memos.length, (∀ p ∈ t, ¬ p.1.ClientWrites m) → d.state.memo m =
    (c₀.state.memo m).rememberAll ((settlements t).filterMap (c₀.state.stored m))

theorem tally_start (calm : c.Calm) : Tally c [] c where
  calm := calm
  claimed _ := id
  settledTo _ x₀ found := ⟨x₀, found, rfl, .untouched rfl rfl, fun some => absurd rfl some⟩
  memos := le_rfl
  memo _ _ _ := rfl

theorem Tally.idles (tally : Tally c₀ t c) (stands : ∀ i, c.Stands True i)
    (unsettled : c.settles? = none) (idles : d.Idles c.state) (follows : Follows β c d) :
    Tally c₀ (t ++ [(c, d)]) d := by
  have settled : settlements (t ++ [(c, d)]) = settlements t := by
    rw [settlements_snoc, unsettled]
    exact List.append_nil _
  refine ⟨idles.calm, fun i claimed => (tally.claimed i claimed).drift idles.drifts,
    fun i x₀ found₀ => ?_, tally.memos.trans (follows_memos follows), fun m made unwritten => ?_⟩
  · obtain ⟨x, found, uses, settledTo, spent⟩ := tally.settledTo i x₀ found₀
    obtain ⟨x', found', status, history⟩ := idles.drifts.instances i x found
    obtain ⟨y, foundY, grows⟩ := follows.grows i x found
    obtain rfl := Option.some.inj (found'.symm.trans foundY)
    have told : signals i (t ++ [(c, d)]) = signals i t := by
      rw [signals_snoc, signal?_eq_none fun signal => by simp [idles.quiet i]]
      exact List.append_nil _
    rw [settlementsOf, settled, told]
    refine ⟨x', found', grows.memo.trans uses, settledTo.drift status history, fun some => ?_⟩
    have turn := follows_turn (stands i).absent follows
    rw [found, idles.quiet i, spent some] at turn
    exact turn.idle
  · rw [settled, ← tally.memo m made fun p mem => unwritten p (List.mem_append_left _ mem)]
    rcases follows_memo follows m with same | clientWrites | ⟨j, n, keys, v, x, brings, -⟩
    · exact same
    · exact absurd clientWrites
        (unwritten (c, d) (List.mem_append_right _ (List.mem_singleton_self _)))
    · exact absurd unsettled (tally.calm.settles_of_brings brings)

theorem Tally.settles (tally : Tally c₀ t c) (stands : ∀ i, c.Stands True i)
    (settles : c.settles? = some a) (live : c₀.state.Live a.owner) (follows : Follows β c d) :
    Tally c₀ (t ++ [(c, d)]) d := by
  obtain ⟨claimed, x₀, found₀, alive⟩ := live
  obtain ⟨x, found, uses, settledTo, spent⟩ := tally.settledTo a.owner x₀ found₀
  have first : settlementsOf a.owner t = [] := by
    by_contra some
    obtain ⟨stack, task, outcome, completes, rfl⟩ := completes_of_settles? settles
    exact Multiset.cons_ne_zero (completes.underWay.symm.trans (spent some))
  rw [first] at settledTo
  have settled : Settles a c d := tally.calm.settles (stands a.owner) settles found
    (settledTo.status_kept ▸ alive) (tally.claimed _ claimed) follows
  have more : settlements (t ++ [(c, d)]) = settlements t ++ [a] := by
    rw [settlements_snoc, settles]
    rfl
  refine ⟨settled.calm, fun i claimed => settled.claimed i (tally.claimed i claimed),
    fun i y₀ foundY₀ => ?_, tally.memos.trans (follows_memos follows), fun m made unwritten => ?_⟩
  · obtain ⟨y, foundY, usesY, settledToY, spentY⟩ := tally.settledTo i y₀ foundY₀
    obtain ⟨y', foundY', grows⟩ := follows.grows i y foundY
    have usesY' : y'.memo = y₀.memo := grows.memo.trans usesY
    rw [settlementsOf, more, List.filter_append, ← settlementsOf, signals_snoc]
    by_cases own : a.owner = i
    · subst own
      obtain ⟨z, foundZ, settledToZ⟩ := settled.own y foundY
      obtain rfl := Option.some.inj (foundY'.symm.trans foundZ)
      rw [first] at settledToY ⊢
      rw [List.filter_cons_of_pos (by simp), List.filter_nil, List.nil_append]
      exact ⟨y', foundY', usesY', settledToY.since settledToZ, fun _ => settled.idle⟩
    · obtain ⟨same, quiet⟩ := settled.others i (Ne.symm own)
      obtain rfl := Option.some.inj (foundY.symm.trans (same.symm.trans foundY'))
      rw [List.filter_cons_of_neg (by simpa using own), List.filter_nil, List.append_nil,
        signal?_eq_none fun signal => by simp [quiet], Option.toList_none, List.append_nil]
      refine ⟨y, foundY', usesY', settledToY, fun some => ?_⟩
      have turn := follows_turn (stands i).absent follows
      rw [foundY, quiet, spentY some] at turn
      exact turn.idle
  · have before := tally.memo m made fun p mem => unwritten p (List.mem_append_left _ mem)
    have same : c.state.stored m a = c₀.state.stored m a :=
      State.stored_congr (by rw [found, found₀, Option.map_some, Option.map_some, uses])
    have last : (c₀.state.stored m a).toList = [a].filterMap (c₀.state.stored m) := by
      cases stored : c₀.state.stored m a <;> simp [stored]
    rw [settled.memo m (made.trans_le tally.memos), before, same, last, ← Memo.rememberAll_append,
      more, List.filterMap_append]

variable {G : Config K → Prop} {memory : K.Memory} {ambient : Bool} {code : Code K Unit}

/-- In a calm run the awaits of live instances settle, and nothing else happens to any instance; a
memo that no client writes has what they stored, in their order. -/
theorem Run.tally
    (run₀ : Run β G (start { memory := memory, ambient := ambient } code) t₀ c₀) (calm : c₀.Calm)
    (run : Run β (·.acts = false) c₀ t d) (live : ∀ a ∈ settlements t, c₀.state.Live a.owner) :
    Tally c₀ t d := by
  induction run with
  | refl => exact tally_start calm
  | @snoc t c d run refrains follows ih =>
    have tally := ih fun a mem => live a (settlements_snoc (c, d) ▸ List.mem_append_left _ mem)
    have reached : Run β (fun _ => True) (start { memory := memory, ambient := ambient } code)
        (t₀ ++ t) c := (run₀.imp fun _ _ => trivial).append (run.imp fun _ _ => trivial)
    have stands : ∀ i, c.Stands True i := fun i => reached.stands _
    cases settles : c.settles? with
    | none =>
      have idles := tally.calm.idles refrains reached.heard settles follows
      exact tally.idles stands settles idles follows
    | some a =>
      refine tally.settles stands settles (live a ?_) follows
      rw [settlements_snoc, settles]
      exact List.mem_append_right _ (List.mem_singleton_self _)

/-- The order in which the awaits of live instances settle does not matter. Two runs go on from one
configuration in which no client acts on an instance, and the same awaits settle with the same
outcomes. Then every instance has come to what the settlement of its own await makes of it, to the
same history and the same status in both runs, and has signalled the same. A memo that no client
writes answers with the first value that it has got for a query, from before or from an await that
has settled; its answers are the same in both runs, unless two of the successful awaits or more have
stored under that query. -/
theorem settlement_order {t₁ t₂ : List (Config K × Config K)} {d₁ d₂ : Config K}
    (run₀ : Run β G (start { memory := memory, ambient := ambient } code) t₀ c₀) (calm : c₀.Calm)
    (first : Run β (·.acts = false) c₀ t₁ d₁) (second : Run β (·.acts = false) c₀ t₂ d₂)
    (same : (settlements t₁).Perm (settlements t₂))
    (live : ∀ a ∈ settlements t₁, c₀.state.Live a.owner) :
    (∀ i x₀, c₀.state.instances[i]? = some x₀ → ∃ x y, d₁.state.instances[i]? = some x ∧
      d₂.state.instances[i]? = some y ∧ x₀.SettledTo (settlementsOf i t₁) x (signals i t₁) ∧
      x.history = y.history ∧ x.status = y.status ∧ signals i t₁ = signals i t₂) ∧
    ∀ m < c₀.state.memos.length, (∀ p ∈ t₁, ¬ p.1.ClientWrites m) → (∀ p ∈ t₂, ¬ p.1.ClientWrites m) →
      ∀ n keys,
        (d₁.state.memo m).lookup n keys =
          (c₀.state.memo m ++ (settlements t₁).filterMap (c₀.state.stored m)).lookup n keys ∧
        (((settlements t₁).filterMap (c₀.state.stored m)).countP (·.answers n keys) ≤ 1 →
          (d₁.state.memo m).lookup n keys = (d₂.state.memo m).lookup n keys) := by
  have tally₁ := run₀.tally calm first live
  have tally₂ := run₀.tally calm second fun a mem => live a (same.mem_iff.mpr mem)
  constructor
  · intro i x₀ found₀
    obtain ⟨x, found, -, settledTo, -⟩ := tally₁.settledTo i x₀ found₀
    obtain ⟨y, found', -, settledTo', -⟩ := tally₂.settledTo i x₀ found₀
    have one : settlementsOf i t₁ = settlementsOf i t₂ :=
      eq_of_perm_of_short (same.filter _) settledTo.short
    obtain ⟨history, status, told⟩ := settledTo.unique (one ▸ settledTo')
    exact ⟨x, y, found, found', settledTo, history, status, told⟩
  · intro m made unmeddled₁ unmeddled₂ n keys
    rw [tally₁.memo m made unmeddled₁, tally₂.memo m made unmeddled₂]
    exact ⟨Memo.lookup_rememberAll _ _, Memo.lookup_rememberAll_perm _ (same.filterMap _)⟩

end Config

namespace Sketch

open Config

def gated : Behaviour client where
  code
    | .poll (.str gate) => .done (.parked gate (.shared gate))
    | c => behaviour.code c

def queueCode (keys keys' : List Value) : Code client Unit :=
  .call .newMemo fun m =>
    .call (.newInstance { moves := [.await (.str "a") (some keys)] } m {}) fun i =>
      .call (.newInstance { moves := [.await (.str "b") (some keys')] } m {}) fun j =>
        .call (.retain (.ofInstance i)) fun _ =>
          .call (.retain (.ofInstance j)) fun _ =>
            .call (.proceed i) fun _ =>
              .call (.proceed j) fun _ => .call .drain fun _ => .done ()

def queued (keys keys' : List Value) : Config client :=
  Config.after gated 32 (.start { memory := () } (queueCode keys keys'))

def gatesCode (gate gate' : String) : Code client Unit :=
  .call (.openGate gate) fun _ =>
    .call .drain fun _ => .call (.openGate gate') fun _ => .call .drain fun _ => .done ()

def released (keys keys' : List Value) (gate gate' : String) :
    List (Config client × Config client) :=
  (queued keys keys', .start (queued keys keys').state (gatesCode gate gate')) ::
    Config.trail gated 18 (.start (queued keys keys').state (gatesCode gate gate'))

def freed (keys keys' : List Value) (gate gate' : String) : Config client :=
  Config.after gated 18 (.start (queued keys keys').state (gatesCode gate gate'))

theorem queued_run : Run gated (fun _ => True)
    (start { memory := () } (queueCode [.int 0] [.int 1]))
    (trail gated 32 (start { memory := () } (queueCode [.int 0] [.int 1])))
    (queued [.int 0] [.int 1]) :=
  .walk_all 32 _

theorem queued_calm : (queued [.int 0] [.int 1]).Calm :=
  ⟨trivial, trivial⟩

theorem released_run (gate gate' : String)
    (refrains : ((released [.int 0] [.int 1] gate gate').all fun p => !p.1.acts) = true) :
    Run gated (·.acts = false) (queued [.int 0] [.int 1]) (released [.int 0] [.int 1] gate gate')
      (freed [.int 0] [.int 1] gate gate') := by
  rw [released, List.all_cons, Bool.and_eq_true] at refrains
  have opens : Follows gated (queued [.int 0] [.int 1])
      (.start (queued [.int 0] [.int 1]).state (gatesCode gate gate')) :=
    .next (queued [.int 0] [.int 1]).state (.ok ()) () true _
  have quiet (c : Config client) (h : (!c.acts) = true) : c.acts = false := by
    rwa [Bool.not_eq_true'] at h
  exact Run.append (t := [_]) (.snoc .refl rfl opens) (.walk quiet 18 _ refrains.2)

theorem released_unwritten {gate gate' : String}
    (unwritten : ((released [.int 0] [.int 1] gate gate').all fun p => unwritten 0 p.1) = true) :
    ∀ p ∈ released [.int 0] [.int 1] gate gate', ¬ p.1.ClientWrites 0 :=
  fun p mem => not_clientWrites_of_unwritten p.1 (List.all_eq_true.mp unwritten p mem)

/-- The gates open in either order: the drawings come to the same entries, and the memo to the same
answers. -/
theorem gates_commute :
    (∀ i < 2, ∃ x y, (freed [.int 0] [.int 1] "a" "b").state.instances[i]? = some x ∧
      (freed [.int 0] [.int 1] "b" "a").state.instances[i]? = some y ∧ x.history.length = 1 ∧
      x.history = y.history ∧ x.status = y.status ∧
      signals i (released [.int 0] [.int 1] "a" "b") =
        signals i (released [.int 0] [.int 1] "b" "a")) ∧
    ((freed [.int 0] [.int 1] "a" "b").state.memo 0).lookup 0 [.int 1] = some (.shared "b") ∧
    ((freed [.int 0] [.int 1] "b" "a").state.memo 0).lookup 0 [.int 1] = some (.shared "b") := by
  have settled : settlements (released [.int 0] [.int 1] "a" "b") =
      [⟨0, 0, some [.int 0], .ok (.shared "a")⟩, ⟨1, 0, some [.int 1], .ok (.shared "b")⟩] := rfl
  have live : ∀ a ∈ settlements (released [.int 0] [.int 1] "a" "b"),
      (queued [.int 0] [.int 1]).state.Live a.owner := by
    rw [settled]
    rintro a mem
    rcases List.mem_pair.mp mem with rfl | rfl
    · exact ⟨.inl (by decide +kernel), _, rfl, by decide +kernel⟩
    · exact ⟨.inl (by decide +kernel), _, rfl, by decide +kernel⟩
  obtain ⟨instances, memos⟩ := settlement_order queued_run queued_calm
    (released_run "a" "b" (by decide +kernel)) (released_run "b" "a" (by decide +kernel))
    (.swap _ _ []) live
  obtain ⟨answer, same⟩ := memos 0 (by decide +kernel) (released_unwritten (by decide +kernel))
    (released_unwritten (by decide +kernel)) 0 [.int 1]
  have first : ((freed [.int 0] [.int 1] "a" "b").state.memo 0).lookup 0 [.int 1] =
      some (.shared "b") := answer.trans (by decide +kernel)
  refine ⟨fun i made => ?_, first, (same (by decide +kernel)).symm.trans first⟩
  match i, made with
  | 0, _ =>
    obtain ⟨x, y, found, found', settledTo, history⟩ := instances 0 _ rfl
    cases settledTo with
    | settled _ _ grown => exact ⟨x, y, found, found', congrArg List.length grown, history⟩
  | 1, _ =>
    obtain ⟨x, y, found, found', settledTo, history⟩ := instances 1 _ rfl
    cases settledTo with
    | settled _ _ grown => exact ⟨x, y, found, found', congrArg List.length grown, history⟩

example : ((freed [.int 0] [.int 0] "a" "b").state.memo 0).lookup 0 [.int 0] = some (.shared "a") ∧
    ((freed [.int 0] [.int 0] "b" "a").state.memo 0).lookup 0 [.int 0] = some (.shared "b") := by
  decide +kernel

end Sketch

end Resumable
