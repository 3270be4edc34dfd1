import Resumable.Proofs.Finality
import Resumable.Proofs.Firing
import Resumable.Proofs.Settlement
import Resumable.Proofs.Shifts

namespace Resumable

variable {K : Client} {β : Behaviour K} {k : ComponentId} {i : InstanceId} {lost : Prop}

theorem Registry.Later.entries {cut : SubscriptionId → Prop} {r r' : Registry (Observer K)}
    (later : r.Later cut r') (closed : r.closed = true) (none : r.entries = []) :
    r'.entries = [] := by
  cases later with
  | same => exact none
  | subscribed o => simp [subscribe, closed, none]
  | unsubscribed => simp [unsubscribe, none]

theorem State.current_eq_place (σ : State K) (k : ComponentId) :
    σ.current k = (σ.place k).bind (·.current) := by
  rw [State.place, Option.bind_map]
  rfl

namespace Config

variable {c d : Config K} {t : List (Config K × Config K)} {G : Config K → Prop} {y : Place K}

theorem Stands.stopped (stands : c.Stands lost i) (follows : Follows β c d) {x : Instance K}
    (found : c.state.instances[i]? = some x) (stopped : x.Stopped) :
    ∃ x', d.state.instances[i]? = some x' ∧ x'.Stopped := by
  obtain ⟨x', found', grows⟩ := follows.grows i x found
  have turn := follows_turn stands.absent follows
  rw [found] at turn
  obtain ⟨z, found'', ended, -, -, -, registry⟩ :=
    turn.final (stands.present x found) stopped.status
  obtain rfl : x' = z := Option.some.inj (found'.symm.trans found'')
  refine ⟨x', found', ended, grows.closed stopped.closed, ?_⟩
  rcases registry with later | shut
  · exact later.entries stopped.closed stopped.entries
  · rw [shut]
    rfl

/-- An instance serves a component: it is in its place, or a fork has it in its replay. -/
def Serves (k : ComponentId) (i : InstanceId) (c : Config K) : Prop :=
  c.state.current k = some i ∨ .adopting i ∈ c.stack.locks k

theorem free_of_single {lock : Lock K} {locks rest : List (Lock K)} (single : locks.length ≤ 1)
    (top : locks = lock :: rest) : rest = [] := by
  simpa [top] using single

theorem Shift.single (shift : Shift k c d) (single : (c.stack.locks k).length ≤ 1) :
    (d.stack.locks k).length ≤ 1 := by
  cases shift with
  | kept _ locks => rwa [locks]
  | made _ _ _ _ locks => rwa [locks]
  | mounting _ _ locks => simp [locks]
  | vacated _ _ _ _ locks => obtain locks | locks | ⟨h, locks, -⟩ := locks <;> simp [locks]
  | reset _ _ _ _ _ locks => simp [locks]
  | mounted _ _ _ locks => exact Nat.le_of_succ_le (by simpa [locks] using single)
  | built _ _ _ locks locks' => simpa [locks, locks'] using single
  | adopted _ _ locks => exact Nat.le_of_succ_le (by simpa [locks] using single)
  | dropped _ locks => exact Nat.le_of_succ_le (by simpa [locks] using single)

theorem Shift.lasts (shift : Shift k c d) (found : c.state.place k = some y) :
    ∃ y', d.state.place k = some y' ∧ y'.factory = y.factory ∧
      (c.Resets k ∧ y'.memo = c.state.memos.length ∨ ¬ c.Resets k ∧ y'.memo = y.memo) := by
  cases shift with
  | kept place _ quiet => exact ⟨y, place.trans found, rfl, .inr ⟨quiet.resets, rfl⟩⟩
  | made absent => cases absent.symm.trans found
  | mounting place _ _ quiet => exact ⟨y, place.trans found, rfl, .inr ⟨quiet.resets, rfl⟩⟩
  | vacated found' _ place _ _ quiet =>
    cases found'.symm.trans found
    exact ⟨_, place, rfl, .inr ⟨quiet.resets, rfl⟩⟩
  | reset found' _ place _ _ _ resets =>
    cases found'.symm.trans found
    exact ⟨_, place, rfl, .inl ⟨resets, rfl⟩⟩
  | mounted found' built place =>
    cases found'.symm.trans found
    exact ⟨_, place, rfl, .inr ⟨by rw [built]; rintro ⟨⟩, rfl⟩⟩
  | built found' built place =>
    cases found'.symm.trans found
    exact ⟨_, place, rfl, .inr ⟨by rw [built]; rintro ⟨⟩, rfl⟩⟩
  | adopted found' place _ quiet =>
    cases found'.symm.trans found
    exact ⟨_, place, rfl, .inr ⟨quiet.resets, rfl⟩⟩
  | dropped place _ _ quiet => exact ⟨y, place.trans found, rfl, .inr ⟨quiet.resets, rfl⟩⟩

theorem Shift.held (shift : Shift k c d) (single : (c.stack.locks k).length ≤ 1)
    (before : c.stack.locks k ≠ []) (after : d.stack.locks k ≠ [])
    (found : c.state.place k = some y) : d.state.place k = some y := by
  cases shift with
  | kept place => exact place.trans found
  | made absent => cases absent.symm.trans found
  | mounting place => exact place.trans found
  | vacated _ free => exact absurd free before
  | reset _ free => exact absurd free before
  | mounted _ _ _ locks => exact absurd (free_of_single single locks) after
  | built found' _ place => exact place.trans (found'.symm.trans found)
  | adopted _ _ locks => exact absurd (free_of_single single locks) after
  | dropped place => exact place.trans found

theorem Run.single {σ : State K} {code : Code K Unit} (run : Run β G (start σ code) t c)
    (k : ComponentId) : (c.stack.locks k).length ≤ 1 := by
  induction run with
  | refl => exact Nat.zero_le 1
  | snoc _ _ follows ih => exact (follows_shift follows k).single ih

theorem Run.factory (run : Run β G c t d) (found : c.state.place k = some y) :
    ∃ y', d.state.place k = some y' ∧ y'.factory = y.factory := by
  induction run with
  | refl => exact ⟨y, found, rfl⟩
  | snoc _ _ follows ih =>
    obtain ⟨y', found', same⟩ := ih
    obtain ⟨y'', found'', same', -⟩ := (follows_shift follows k).lasts found'
    exact ⟨y'', found'', same'.trans same⟩

theorem Run.held (run : Run β G c t d) (single : (c.stack.locks k).length ≤ 1)
    (before : c.stack.locks k ≠ []) (stays : ∀ p ∈ t, p.2.stack.locks k ≠ [])
    (found : c.state.place k = some y) :
    (d.stack.locks k).length ≤ 1 ∧ d.stack.locks k ≠ [] ∧ d.state.place k = some y := by
  induction run with
  | refl => exact ⟨single, before, found⟩
  | snoc _ _ follows ih =>
    obtain ⟨single', before', found'⟩ := ih fun p mem => stays p (List.mem_append_left _ mem)
    have shift := follows_shift follows k
    have after := stays _ (List.mem_append_right _ (List.mem_singleton_self _))
    exact ⟨shift.single single', after, shift.held single' before' after found'⟩

inductive Builds (β : Behaviour K) (k : ComponentId) (factory : K.Factory) (inputs : K.Inputs)
    (t : List (Config K × Config K)) : Config K → Prop
  | answered {σ : State K} {p : K.Procedure} {stack : Stack K .procedure}
    (founds : Founds k p ⟨.procedure, σ, .run (.done p), stack⟩)
    (called : Called t (.build factory inputs) stack)
    (leaves : (β.code (.build factory inputs)).Leaves (.done p)) :
    Builds β k factory inputs t ⟨.procedure, σ, .run (.done p), stack⟩

variable {σ σ' : State K} {code : Code K Unit} {p : K.Procedure}

theorem Run.mounts {inputs : K.Inputs} {rest : Stack K .artifact}
    (run : Run β G (start σ code) t
      ⟨.procedure, σ', .run (.done p), .push (.mounting k inputs) rest⟩)
    (found : σ'.place k = some y) : Builds β k y.factory inputs t
      ⟨.procedure, σ', .run (.done p), .push (.mounting k inputs) rest⟩ := by
  obtain ⟨call, before, τ, d, after, leaves, rfl, stays, ⟨-, z, made, rfl⟩, first⟩ :=
    run.called rfl
  obtain ⟨-, guard, follows, later⟩ := run.split rfl
  obtain ⟨y', found', same⟩ := (Run.append (.snoc .refl guard follows) later).factory
    (place_of_made made)
  obtain rfl : y = y' := Option.some.inj (found.symm.trans found')
  rw [same]
  exact .answered (.mounting σ' inputs rest) ⟨before, τ, d, after, rfl, stays⟩ leaves

theorem Run.forks {h : History K.Artifact} {rest : Stack K .unit}
    (run : Run β G (start σ code) t
      ⟨.procedure, σ', .run (.done p), .push (.forking k h) rest⟩) :
    ∃ y inputs, σ'.place k = some y ∧ y.current = none ∧ y.inputs = some inputs ∧
      Builds β k y.factory inputs t
        ⟨.procedure, σ', .run (.done p), .push (.forking k h) rest⟩ := by
  obtain ⟨call, before, τ, d, after, leaves, rfl, stays, ⟨-, z, inputs, made, vacant, given, rfl⟩,
    first⟩ := run.called rfl
  obtain ⟨-, guard, follows, later⟩ := run.split rfl
  have locked : (Stack.push (.forking k h) rest).locks k ≠ [] := by
    rw [Stack.locks_forking]
    exact List.cons_ne_nil _ _
  have within : ∀ q ∈ (⟨.procedure, τ, .call (.build z.factory inputs),
      .push (.forking k h) rest⟩, d) :: after, q.2.stack.locks k ≠ [] := by
    intro q mem
    have rests : (Stack.push (.forking k h) rest).Rests q.2.stack := by
      rcases List.mem_cons.mp mem with rfl | mem
      · cases follows with
        | step step =>
          cases step
          exact .refl
      · exact (stays q mem).rests
    intro free
    exact locked (List.suffix_nil.mp (free ▸ rests.locks))
  obtain ⟨-, -, found⟩ := (Run.append (.snoc .refl guard follows) later).held (first.single k)
    locked within (place_of_made made)
  exact ⟨z.place, inputs, found, vacant, given,
    .answered (.forking σ' h rest) ⟨before, τ, d, after, rfl, stays⟩ leaves⟩

/-- An instance has been made for a component of what its factory has answered for inputs. -/
def Built (β : Behaviour K) (k : ComponentId) (factory : K.Factory) (inputs : K.Inputs)
    (i : InstanceId) (t : List (Config K × Config K)) : Prop :=
  ∃ u q v, t = u ++ q :: v ∧ q.1.state.instances.length = i ∧ q.1.Builds β k factory inputs u

theorem Built.snoc {factory : K.Factory} {inputs : K.Inputs} (built : Built β k factory inputs i t)
    (q : Config K × Config K) : Built β k factory inputs i (t ++ [q]) := by
  obtain ⟨u, r, v, rfl, length, builds⟩ := built
  exact ⟨u, r, v ++ [q], by simp, length, builds⟩

/-- What holds of a component along every run in which no panic drops a fork of it in its replay. -/
structure Succession (β : Behaviour K) (k : ComponentId) (t : List (Config K × Config K))
    (c : Config K) : Prop where
  memo : ∀ y, c.state.place k = some y → y.memo < c.state.memos.length
  -- While a fork is on its way the place is vacant.
  lent : ∀ lock ∈ c.stack.locks k, lock.Vacates →
    ∃ y, c.state.place k = some y ∧ y.current = none ∧ y.inputs ≠ none
  serves : ∀ i, c.Serves k i → ∃ y inputs x, c.state.place k = some y ∧ y.inputs = some inputs ∧
    Built β k y.factory inputs i t ∧ c.state.instances[i]? = some x ∧ x.memo = y.memo
  replaced : ∀ q ∈ t, ∀ i, q.1.Provides k i → ¬ c.Serves k i →
    ∃ x, c.state.instances[i]? = some x ∧ x.Stopped
  epochs : ∀ u q v i, t = u ++ q :: v → q.1.Provides k i →
    ∃ y x, c.state.place k = some y ∧ c.state.instances[i]? = some x ∧
      x.memo < c.state.memos.length ∧ (x.memo = y.memo ↔ ∀ r ∈ v, ¬ r.1.Resets k)

theorem Succession.current_eq_none (h : Succession β k t c) {lock : Lock K}
    (locked : lock ∈ c.stack.locks k) (vacates : lock.Vacates) : c.state.current k = none := by
  obtain ⟨y, found, none, -⟩ := h.lent lock locked vacates
  rw [State.current_eq_place, found]
  exact none

theorem Succession.left (h : Succession β k t c) (shift : Shift k c d)
    (single : (c.stack.locks k).length ≤ 1) (guard : ¬ c.Abandons k) (serves : c.Serves k i) :
    d.Serves k i ∨ ∃ x, d.state.instances[i]? = some x ∧ x.Stopped := by
  have vacant := @h.current_eq_none
  simp only [Serves, State.current_eq_place] at serves vacant ⊢
  cases shift with
  | kept place locks => exact .inl (by rwa [place, locks])
  | made absent place empty memo locks =>
    rcases serves with current | adopting
    · simp [absent] at current
    · exact .inl (.inr (locks ▸ adopting))
  | mounting place free =>
    rcases serves with current | adopting
    · exact .inl (.inl (place ▸ current))
    · simp [free] at adopting
  | vacated found free place left =>
    rcases serves with current | adopting
    · exact .inr (left i (by simpa [found] using current))
    · simp [free] at adopting
  | reset found free place memos left =>
    rcases serves with current | adopting
    · exact .inr (left i (by simpa [found] using current))
    · simp [free] at adopting
  | mounted found built place locks fresh memo left =>
    have free := free_of_single single locks
    rcases serves with current | adopting
    · exact .inr (left i (by simpa [found] using current))
    · simp [locks, free] at adopting
  | @built y hist p rest x found built place locks =>
    have free := free_of_single single locks
    rcases serves with current | adopting
    · exact .inl (.inl (by simpa [found, place] using current))
    · simp [locks, free] at adopting
  | @adopted y j found place locks =>
    have free := free_of_single single locks
    rcases serves with current | adopting
    · rw [@vacant (.adopting j) (locks ▸ List.mem_cons_self ..) trivial] at current
      cases current
    · obtain rfl : i = j := by simpa [locks, free] using adopting
      exact .inl (.inl (by simp [place]))
  | @dropped lock place locks abandons =>
    have free := free_of_single single locks
    rcases serves with current | adopting
    · exact .inl (.inl (place ▸ current))
    · have same : .adopting i = lock := by simpa [locks, free] using adopting
      exact absurd (abandons i same.symm) guard

theorem Succession.arrives (h : Succession β k t c) (shift : Shift k c d)
    (single : (c.stack.locks k).length ≤ 1) (serves : d.Serves k i) :
    c.Provides k i ∨ c.Serves k i ∧ ∀ y, c.state.place k = some y → ∃ y',
      d.state.place k = some y' ∧ y'.factory = y.factory ∧ y'.inputs = y.inputs ∧
        y'.memo = y.memo := by
  simp only [Serves, State.current_eq_place] at serves ⊢
  cases shift with
  | kept place locks =>
    rw [place, locks] at serves
    exact .inr ⟨serves, fun y found => ⟨y, place.trans found, rfl, rfl, rfl⟩⟩
  | made absent place empty memo locks =>
    rcases serves with current | adopting
    · rw [place] at current
      exact absurd (empty.symm.trans current) (by rintro ⟨⟩)
    · obtain ⟨y, found, -⟩ := h.lent (.adopting i) (locks ▸ adopting) trivial
      cases absent.symm.trans found
  | mounting place free locks =>
    rcases serves with current | adopting
    · exact .inr ⟨.inl (place ▸ current), fun y found => ⟨y, place.trans found, rfl, rfl, rfl⟩⟩
    · simp [locks] at adopting
  | vacated found free place left locks =>
    rcases serves with current | adopting
    · simp [place] at current
    · rcases locks with locks | locks | ⟨h, locks, -⟩ <;> simp [locks] at adopting
  | reset found free place memos left locks =>
    rcases serves with current | adopting
    · simp [place] at current
    · simp [locks] at adopting
  | @mounted y inputs p stack x found built place locks =>
    have free := free_of_single single locks
    rcases serves with current | adopting
    · refine .inl ⟨⟨p, ?_⟩, by simpa [place] using current⟩
      rw [built]
      exact .mounting c.state inputs stack
    · simp [free] at adopting
  | @built y hist p rest x found built place locks locks' =>
    have free := free_of_single single locks
    rcases serves with current | adopting
    · obtain ⟨y', found', none, -⟩ := h.lent (.forking hist) (locks ▸ List.mem_cons_self ..) trivial
      cases found'.symm.trans found
      rw [place] at current
      exact absurd (none.symm.trans current) (by rintro ⟨⟩)
    · refine .inl ⟨⟨p, ?_⟩, ?_⟩
      · rw [built]
        exact .forking c.state hist rest
      · simpa [locks', free, eq_comm] using adopting
  | @adopted y j found place locks =>
    have free := free_of_single single locks
    rcases serves with current | adopting
    · obtain rfl : j = i := by simpa [place] using current
      refine .inr ⟨.inr (locks ▸ List.mem_cons_self ..), fun y' found' => ?_⟩
      cases found'.symm.trans found
      exact ⟨_, place, rfl, rfl, rfl⟩
    · simp [free] at adopting
  | dropped place locks =>
    have free := free_of_single single locks
    rcases serves with current | adopting
    · exact .inr ⟨.inl (place ▸ current), fun y found => ⟨y, place.trans found, rfl, rfl, rfl⟩⟩
    · simp [free] at adopting

theorem Run.provides (run : Run β G (start σ code) t c) (follows : Follows β c d)
    (provides : c.Provides k i) : d.Serves k i ∧ ∃ y inputs x, d.state.place k = some y ∧
      y.inputs = some inputs ∧ Builds β k y.factory inputs t c ∧
      d.state.instances[i]? = some x ∧ x.memo = y.memo := by
  obtain ⟨⟨p, founds⟩, rfl⟩ := provides
  simp only [Serves, State.current_eq_place]
  cases follows_shift follows k with
  | mounted found built place locks fresh memo =>
    refine ⟨.inl (by simp [place]), _, _, _, place, rfl, ?_, fresh, memo⟩
    rw [built] at run
    have builds := run.mounts found
    rwa [← built] at builds
  | built found built place locks locks' fresh memo =>
    rw [built] at run
    obtain ⟨y, inputs, found', -, given, builds⟩ := run.forks
    cases found'.symm.trans found
    rw [← built] at builds
    exact ⟨.inr (locks' ▸ List.mem_cons_self ..), _, _, _, place, given, builds, fresh, memo⟩
  | kept _ _ quiet => exact absurd founds (quiet.founds p)
  | made _ _ _ _ _ quiet => exact absurd founds (quiet.founds p)
  | mounting _ _ _ quiet => exact absurd founds (quiet.founds p)
  | vacated _ _ _ _ _ quiet => exact absurd founds (quiet.founds p)
  | reset _ _ _ _ _ _ _ none => exact absurd founds (none p)
  | adopted _ _ _ quiet => exact absurd founds (quiet.founds p)
  | dropped _ _ _ quiet => exact absurd founds (quiet.founds p)

theorem Succession.memo_lt (h : Succession β k t c) (shift : Shift k c d)
    (more : c.state.memos.length ≤ d.state.memos.length) (found : d.state.place k = some y) :
    y.memo < d.state.memos.length := by
  cases shift with
  | kept place => exact (h.memo y (place.symm.trans found)).trans_le more
  | made _ place _ memo =>
    cases place.symm.trans found
    exact memo
  | mounting place => exact (h.memo y (place.symm.trans found)).trans_le more
  | vacated found' _ place =>
    cases place.symm.trans found
    exact (h.memo _ found').trans_le more
  | reset _ _ place memos =>
    cases place.symm.trans found
    exact memos
  | mounted found' _ place =>
    cases place.symm.trans found
    exact (h.memo _ found').trans_le more
  | built found' _ place =>
    cases place.symm.trans found
    exact (h.memo _ found').trans_le more
  | adopted found' place =>
    cases place.symm.trans found
    exact (h.memo _ found').trans_le more
  | dropped place => exact (h.memo y (place.symm.trans found)).trans_le more

theorem Succession.lends (h : Succession β k t c) (shift : Shift k c d)
    (single : (c.stack.locks k).length ≤ 1) {lock : Lock K} (locked : lock ∈ d.stack.locks k)
    (vacates : lock.Vacates) :
    ∃ y, d.state.place k = some y ∧ y.current = none ∧ y.inputs ≠ none := by
  cases shift with
  | kept place locks =>
    rw [place]
    exact h.lent lock (locks ▸ locked) vacates
  | made absent _ _ _ locks =>
    obtain ⟨y, found, -⟩ := h.lent lock (locks ▸ locked) vacates
    cases absent.symm.trans found
  | mounting _ _ locks =>
    obtain rfl : lock = .mounting := by simpa [locks] using locked
    exact vacates.elim
  | vacated _ _ place _ locks =>
    rcases locks with locks | locks | ⟨h, locks, given⟩
    · simp [locks] at locked
    · obtain rfl : lock = .mounting := by simpa [locks] using locked
      exact vacates.elim
    · exact ⟨_, place, rfl, given⟩
  | reset _ _ _ _ _ locks => simp [locks] at locked
  | mounted _ _ _ locks =>
    have free := free_of_single single locks
    simp [free] at locked
  | @built y hist p rest x found _ place locks =>
    obtain ⟨y', found', none, given⟩ :=
      h.lent (.forking hist) (locks ▸ List.mem_cons_self ..) trivial
    exact ⟨y', place.trans (found.symm.trans found'), none, given⟩
  | adopted _ _ locks =>
    have free := free_of_single single locks
    simp [free] at locked
  | dropped _ locks =>
    have free := free_of_single single locks
    simp [free] at locked

variable {memory : K.Memory} {ambient : Bool}

theorem Succession.follows (h : Succession β k t c)
    (run : Run β G (start { memory := memory, ambient := ambient } code) t c)
    (guard : ¬ c.Abandons k) (follows : Follows β c d) : Succession β k (t ++ [(c, d)]) d := by
  have shift := follows_shift follows k
  have single := run.single k
  have more := follows_memos follows
  refine ⟨fun y found => h.memo_lt shift more found, fun lock => h.lends shift single, ?_, ?_, ?_⟩
  · intro i serves
    rcases h.arrives shift single serves with provides | ⟨served, lasts⟩
    · obtain ⟨-, y, inputs, x, found, given, builds, made, memo⟩ := run.provides follows provides
      exact ⟨y, inputs, x, found, given, ⟨t, (c, d), [], rfl, provides.2, builds⟩, made, memo⟩
    · obtain ⟨y, inputs, x, found, given, built, made, memo⟩ := h.serves i served
      obtain ⟨y', found', factory, same, memo'⟩ := lasts y found
      obtain ⟨x', made', grows⟩ := follows.grows i x made
      exact ⟨y', inputs, x', found', same.trans given, factory ▸ built.snoc _, made',
        grows.memo.trans (memo.trans memo'.symm)⟩
  · intro q mem i provides none
    rcases List.mem_append.mp mem with mem | mem
    · by_cases served : c.Serves k i
      · exact (h.left shift single guard served).resolve_left none
      · obtain ⟨x, made, stopped⟩ := h.replaced q mem i provides served
        exact (run.stands _ : c.Stands True i).stopped follows made
          stopped
    · rw [List.mem_singleton.mp mem] at provides
      exact absurd (run.provides follows provides).1 none
  · intro u q v i at' provides
    rcases List.eq_nil_or_concat v with rfl | ⟨v, r, rfl⟩
    · obtain ⟨rfl, rfl⟩ : t = u ∧ (c, d) = q := by simpa using at'
      obtain ⟨-, y, inputs, x, found, -, -, made, memo⟩ := run.provides follows provides
      have lt := h.memo_lt shift more found
      exact ⟨y, x, found, made, memo ▸ lt, by simp [memo]⟩
    · have parts : t ++ [(c, d)] = (u ++ q :: v) ++ [r] := by simpa using at'
      obtain ⟨rfl, same⟩ := List.append_inj' parts rfl
      obtain rfl : (c, d) = r := by simpa using same
      obtain ⟨y, x, found, made, lt, since⟩ := h.epochs u q v i rfl provides
      obtain ⟨y', found', -, memo⟩ := shift.lasts found
      obtain ⟨x', made', grows⟩ := follows.grows i x made
      refine ⟨y', x', found', made', grows.memo ▸ lt.trans_le more, ?_⟩
      rw [grows.memo]
      rcases memo with ⟨resets, memo⟩ | ⟨still, memo⟩
      · have other : x.memo ≠ y'.memo := by
          rw [memo]
          exact Nat.ne_of_lt lt
        exact iff_of_false other fun still => still (c, d) (by simp) resets
      · simp [memo, since, still, forall_and, or_imp]

theorem succession_start :
    Succession β k [] (start ({ memory := memory, ambient := ambient } : State K) code) where
  memo := by rintro y ⟨⟩
  lent _ mem := absurd mem List.not_mem_nil
  serves := by rintro i (⟨⟨⟩⟩ | mem); exact absurd mem List.not_mem_nil
  replaced _ mem := absurd mem List.not_mem_nil
  epochs _ _ _ _ at' := absurd at'.symm (by simp)

theorem Run.succession
    (run : Run β (fun c => ¬ c.Abandons k)
      (start { memory := memory, ambient := ambient } code) t c) :
    Succession β k t c := by
  induction run with
  | refl => exact succession_start
  | snoc run guard follows ih => exact ih.follows run guard follows

/-- Nothing comes of what is left of an instance: its setters change nothing when they are fired,
and nothing but the queue of tasks changes when a future of it has been polled, whatever that gave.
-/
structure Mute (β : Behaviour K) (i : InstanceId) (c : Config K) : Prop where
  fire : ∀ {w : Shape} (setter : Setter K.Artifact) (v : Value)
    (next : Shape.unit.Answer K → Code K (w.Answer K)) (stack : Stack K w), setter.owner = i →
    Reaches β ⟨w, c.state, .run (.call (.fire setter v) next), stack⟩
      ⟨w, c.state, .run (next ()), stack⟩
  poll : ∀ σ result task stack,
    c = ⟨.progress, σ, .run (.ended result), .push (.polling task) stack⟩ → task.owner = i →
    ∃ ready parked, c.step β =
      .ok ⟨.unit, { σ with ready := ready, parked := parked }, .run (.done ()), stack⟩

theorem Stands.mute (stands : c.Stands lost i) {x : Instance K}
    (found : c.state.instances[i]? = some x) (stopped : x.Stopped) : c.Mute β i where
  fire setter v next stack owner := by
    subst owner
    refine reaches_of_fire_deaf stack v next ?_
    simp [State.registry, found, Registry.observers, stopped.entries]
  poll := by
    rintro σ result task stack rfl rfl
    have ignored : ∀ outcome, Completes stack task outcome
        ⟨.progress, σ, .run (.ended result), .push (.polling task) stack⟩ →
        step β ⟨.progress, σ, .run (.ended result), .push (.polling task) stack⟩ =
          .ok ⟨.unit, σ, .run (.done ()), stack⟩ :=
      fun _ completes => completes.ignored stands found (.inr stopped.status)
    rcases result with payload | (outcome | future | ⟨gate, future⟩)
    · exact ⟨_, _, ignored _ (.panicked σ payload)⟩
    · exact ⟨_, _, ignored _ (.answered σ outcome)⟩
    · exact ⟨_, _, step_done ..⟩
    · exact ⟨_, _, step_done ..⟩

end Config

open Config in
/-- Along every run from an empty machine in which no panic drops a fork of the component in its
replay, however renders, resets, forks and settlements are nested: who has the place of the
component was made of what the factory has answered for the inputs that stand there, and uses the
memo of the place. Of all instances that were made for the component, those since the last reset use
that memo and no others do. Each of them that neither has the place nor is in the replay of a fork,
and between operations none is, is terminated, its registry is closed and empty, and what is left of
its setters and its futures changes nothing of any instance, component or memo. -/
theorem one_live_instance {memory : K.Memory} {ambient : Bool} {code : Code K Unit}
    {t : List (Config K × Config K)} {c : Config K}
    (run : Run β (fun c => ¬ c.Abandons k)
      (start { memory := memory, ambient := ambient } code) t c) :
    (∀ y i, c.state.place k = some y → y.current = some i → ∃ inputs x, y.inputs = some inputs ∧
      Built β k y.factory inputs i t ∧ c.state.instances[i]? = some x ∧ x.memo = y.memo) ∧
    ∀ u q v i, t = u ++ q :: v → q.1.Provides k i → ∃ y x, c.state.place k = some y ∧
      c.state.instances[i]? = some x ∧ (x.memo = y.memo ↔ ∀ r ∈ v, ¬ r.1.Resets k) ∧
      (y.current ≠ some i → .adopting i ∉ c.stack.locks k → x.Stopped ∧ c.Mute β i) := by
  have succession := run.succession
  constructor
  · intro y i found current
    have serves : c.Serves k i := .inl (by rw [State.current_eq_place, found]; exact current)
    obtain ⟨y', inputs, x, found', rest⟩ := succession.serves i serves
    obtain rfl : y = y' := Option.some.inj (found.symm.trans found')
    exact ⟨inputs, x, rest⟩
  · intro u q v i at' provides
    obtain ⟨y, x, found, made, -, since⟩ := succession.epochs u q v i at' provides
    refine ⟨y, x, found, made, since, fun other free => ?_⟩
    have none : ¬ c.Serves k i := by
      rintro (current | adopting)
      · rw [State.current_eq_place, found] at current
        exact other current
      · exact free adopting
    obtain ⟨x', made', stopped⟩ := succession.replaced q (by simp [at']) i provides none
    obtain rfl : x = x' := Option.some.inj (made.symm.trans made')
    have stands : c.Stands True i := stands_start.run (fun _ _ _ => trivial) run
    exact ⟨stopped, stands.mute made stopped⟩

namespace Sketch

def belatedCode : Code client Unit :=
  .call (.newComponent (fun _ => { moves := [.hold (.int 1), .await (.int 3) (some []), .finish] })
      () {}) fun k =>
    .call (.retain (.ofComponent k)) fun _ =>
      .call (.render k (.int 1)) fun _ =>
        .call (.reset k) fun _ =>
          .call (.render k (.int 2)) fun _ => .call .drain fun _ => .done ()

def opening : Config client :=
  Config.after behaviour 7 (.start { memory := () } belatedCode)

def belated : Config client :=
  Config.after behaviour 37 opening

def calm : Config client → Bool
  | ⟨_, _, .run (.panic _), _⟩ => false
  | _ => true

theorem calm_keeps (k : ComponentId) (c : Config client) (h : calm c = true) : ¬ c.Abandons k := by
  rintro ⟨⟩
  cases h

/-- The value of the producer comes too late: the second instance has the place, on a memo of its
own, and nothing of it changes. -/
theorem replaced_instance_mute : ∃ y x z σ stack, belated.state.place 0 = some y ∧ y.current = some 1 ∧
    y.inputs = some (.int 2) ∧ belated.state.instances[0]? = some x ∧ x.Stopped ∧
    belated.state.instances[1]? = some z ∧ z.memo = y.memo ∧ x.memo ≠ y.memo ∧
    belated.step behaviour = .ok ⟨.unit, σ, .run (.done ()), stack⟩ ∧
    σ.components = belated.state.components ∧ σ.instances = belated.state.instances ∧
    σ.memos = belated.state.memos := by
  have first : Config.Run behaviour (fun c => ¬ c.Abandons 0)
      (.start { memory := () } belatedCode) _ opening :=
    .walk (calm_keeps 0) 7 _ (by decide +kernel)
  have run := first.append (.walk (calm_keeps 0) 37 _ (by decide +kernel))
  obtain ⟨placed, made⟩ := one_live_instance run
  have provides : opening.Provides 0 0 := ⟨⟨_, .mounting _ _ _⟩, rfl⟩
  obtain ⟨y, x, found, present, memo, others⟩ :=
    made _ (opening, Config.after behaviour 1 opening) _ 0 rfl provides
  obtain ⟨y', found', current, inputs⟩ : ∃ y', belated.state.place 0 = some y' ∧
      y'.current = some 1 ∧ y'.inputs = some (.int 2) := ⟨_, rfl, rfl, rfl⟩
  obtain rfl : y = y' := Option.some.inj (found.symm.trans found')
  obtain ⟨-, z, -, -, present', memo'⟩ := placed y 1 found current
  obtain ⟨stopped, mute⟩ := others (by simp [current]) List.not_mem_nil
  obtain ⟨ready, parked, step⟩ := mute.poll _ (.ok (.ready (.ok (.int 3)))) _ _ rfl rfl
  refine ⟨y, x, z, _, _, found, current, inputs, present, stopped, present', memo',
    fun same => ?_, step, rfl, rfl, rfl⟩
  have reset : Config.Resets 0 (Config.after behaviour 22 (.start { memory := () } belatedCode)) :=
    .asked _ _ _
  exact memo.mp same (Config.after behaviour 22 (.start { memory := () } belatedCode), _)
    (List.mem_of_getElem? (i := 14) rfl) reset

end Sketch

end Resumable
