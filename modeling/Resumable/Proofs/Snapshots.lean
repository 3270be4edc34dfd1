import Resumable.Proofs.Calls
import Resumable.Proofs.Registries
import Resumable.Proofs.Sketch

namespace Resumable

variable {K : Client} {s w : Shape} {β : Behaviour K} {source : Source}
  {signal : Signal K.Artifact} {stack : Stack K .unit} {left : List (Observer K)}

theorem Stack.Rests.depth_le {base : Stack K w} {top : Stack K s} (rests : base.Rests top) :
    base.depth ≤ top.depth := by
  induction rests with
  | refl => exact Nat.le_refl _
  | push _ frame ih => exact Nat.le_succ_of_le ih

namespace Config

variable {c d e : Config K} {t : List (Config K × Config K)} {G : Config K → Prop}

/-- Who is handed the signal that lies at a depth, and the signal. -/
def handed? (n : Nat) (c : Config K) : Option (Observer K × Signal K.Artifact) :=
  c.handing?.bind fun h => if h.1 = n then some h.2 else none

def noticed? (n : Nat) (c : Config K) : Option (K.Observer × Signal K.Artifact) :=
  c.notice?.bind fun h => if h.1 = n then some h.2 else none

def subscribed? (source : Source) : Config K × Config K → Option SubscriptionId
  | (⟨_, _, .run (.call (.subscribe other _) _), _⟩, ⟨.number, _, .run (.done n), _⟩) =>
    if other = source then some n else none
  | _ => none

/-- A signal from a source, for somebody who waits for its delivery, has yet to go to some
observers. -/
inductive Spreads (source : Source) (signal : Signal K.Artifact) (stack : Stack K .unit) :
    List (Observer K) → Config K → Prop
  | starts (σ : State K) : Spreads source signal stack (σ.registry source).observers
      ⟨.unit, σ, .emit source signal, stack⟩
  | goes {c : Config K} {left : List (Observer K)}
    (rests : (Stack.push (.emitting source left signal) stack).Rests c.stack) :
    Spreads source signal stack left c

theorem unhanded_of_rests
    (rests : (Stack.push (.emitting source left signal) stack).Rests c.stack)
    (busy : ∀ υ, c ≠ ⟨.unit, υ, .run (.done ()), .push (.emitting source left signal) stack⟩) :
    c.handed? stack.depth = none := by
  obtain ⟨s, σ, control, top⟩ := c
  have rests : (Stack.push (.emitting source left signal) stack).Rests top := rests
  cases control with
  | call => rfl
  | advance => rfl
  | emit other later =>
    have deeper : stack.depth < top.depth := rests.depth_le
    cases next : (σ.registry other).observers.head? <;>
      simp [handed?, handing?, next, Nat.ne_of_gt deeper]
  | run code =>
    cases code with
    | done answer =>
      cases top with
      | empty => exact absurd rests.depth_le (Nat.not_succ_le_zero _)
      | push frame rest =>
        cases rests with
        | refl => exact absurd rfl (busy σ)
        | push rests =>
          have deeper : stack.depth < rest.depth := rests.depth_le
          cases next : frame.next? <;> simp [handed?, handing?, next, Nat.ne_of_gt deeper]
    | _ => rfl

theorem Spreads.deliver {σ : State K}
    (step : Next.deliver σ stack source signal left = .ok d) :
    left = [] ∧ d = ⟨.unit, σ, .run (.done ()), stack⟩ ∨
      ∃ o rest, left = o :: rest ∧ d.Spreads source signal stack rest := by
  cases left with
  | nil =>
    cases step
    exact .inl ⟨rfl, rfl⟩
  | cons o rest =>
    exact .inr ⟨o, rest, rfl, .goes (Next.deliver_cons_rests stack source signal o rest d step)⟩

theorem Spreads.turn (spreads : c.Spreads source signal stack left) :
    ((∀ σ result, c ≠ ⟨.unit, σ, .run (.ended result), .empty⟩) ∧
      c.step β = Next.deliver c.state stack source signal left ∧
      c.handed? stack.depth = left.head?.map fun o => (o, signal)) ∨
    c.handed? stack.depth = none ∧
      (Stack.push (.emitting source left signal) stack).Rests c.stack ∧
      ∀ υ, c ≠ ⟨.unit, υ, .run (.done ()), .push (.emitting source left signal) stack⟩ := by
  cases spreads with
  | starts σ =>
    left
    refine ⟨by rintro _ _ ⟨⟩, rfl, ?_⟩
    cases next : (σ.registry source).observers.head? <;> simp [handed?, handing?, next]
  | goes rests =>
    by_cases finished : ∃ υ, c = ⟨.unit, υ, .run (.done ()), .push (.emitting source left signal) stack⟩
    · obtain ⟨υ, rfl⟩ := finished
      left
      refine ⟨by rintro _ (_ | _) ⟨⟩, step_done .., ?_⟩
      cases left <;> simp [handed?, handing?, Frame.next?]
    · right
      have busy := fun υ same => finished ⟨υ, same⟩
      exact ⟨unhanded_of_rests rests busy, rests, busy⟩

theorem Spreads.follows (spreads : c.Spreads source signal stack left) (follows : Follows β c d) :
    (∃ rest, d.Spreads source signal stack rest ∧ left.map (·, signal) =
      (c.handed? stack.depth).toList ++ rest.map (·, signal)) ∨
    c.handed? stack.depth = none ∧
      ∃ υ result, d = ⟨.unit, υ, .run (.ended result), stack⟩ ∧ (result = .ok () → left = []) := by
  rcases spreads.turn (β := β) with ⟨unfinished, step, handed⟩ | ⟨unhanded, rests, busy⟩
  · rw [follows.step_eq unfinished] at step
    rw [handed]
    rcases Spreads.deliver step.symm with ⟨rfl, rfl⟩ | ⟨o, rest, rfl, later⟩
    · exact .inr ⟨rfl, c.state, .ok (), rfl, fun _ => rfl⟩
    · exact .inl ⟨rest, later, rfl⟩
  · rw [unhanded]
    rcases follows.stays rests with rests | ⟨σ, result, rfl⟩
    · exact .inl ⟨left, .goes rests, rfl⟩
    · cases result with
      | ok answer => exact absurd rfl (busy σ)
      | error payload =>
        have step := follows.step_eq (by rintro _ (_ | _) ⟨⟩)
        rw [Code.ended, step_panic] at step
        cases step
        exact .inr ⟨rfl, σ, .error payload, rfl, nofun⟩

/-- What has been handed on and what is left are the observers of the moment in which the signal
started. -/
theorem Run.spread {σ : State K}
    (run : Run β (fun c => ∀ υ result, c ≠ ⟨.unit, υ, .run (.ended result), stack⟩)
      ⟨.unit, σ, .emit source signal, stack⟩ t e) :
    ∃ left, (σ.registry source).observers.map (·, signal) =
        t.filterMap (·.1.handed? stack.depth) ++ left.map (·, signal) ∧
      (e.Spreads source signal stack left ∨
        ∃ υ result, e = ⟨.unit, υ, .run (.ended result), stack⟩ ∧ (result = .ok () → left = [])) := by
  induction run with
  | refl => exact ⟨_, rfl, .inl (.starts σ)⟩
  | @snoc t d e _ unfinished follows ih =>
    obtain ⟨left, parts, spreads | ⟨υ, result, finished, -⟩⟩ := ih
    · rcases spreads.follows follows with ⟨rest, spreads, more⟩ | ⟨unhanded, ended⟩
      · refine ⟨rest, ?_, .inl spreads⟩
        rw [parts, more, List.filterMap_append, List.append_assoc]
        cases handed : d.handed? stack.depth <;> simp [handed]
      · refine ⟨left, ?_, .inr ended⟩
        rw [parts, List.filterMap_append]
        simp [unhanded]
    · exact absurd finished (unfinished υ result)

theorem Run.handed {σ : State K} {q : Config K × Config K} {o : Observer K}
    {told : Signal K.Artifact}
    (run : Run β (fun c => ∀ υ result, c ≠ ⟨.unit, υ, .run (.ended result), stack⟩)
      ⟨.unit, σ, .emit source signal, stack⟩ t e) (mem : q ∈ t)
    (handed : q.1.handed? stack.depth = some (o, told)) :
    told = signal ∧
      ∃ rest, q.1.step β = Next.deliver q.1.state stack source signal (o :: rest) := by
  obtain ⟨t₁, t₂, rfl⟩ := List.append_of_mem mem
  obtain ⟨before, unfinished, -, -⟩ := run.split rfl
  obtain ⟨left, -, spreads | ⟨υ, result, finished, -⟩⟩ := before.spread
  · rcases spreads.turn (β := β) with ⟨-, step, next⟩ | ⟨unhanded, -⟩
    · rw [handed] at next
      cases left with
      | nil => cases next
      | cons o' rest =>
        cases next
        exact ⟨rfl, rest, step⟩
    · cases handed.symm.trans unhanded
  · exact absurd finished (unfinished υ result)

theorem Run.noticed (run : Run β G c t d) (n : Nat) : t.filterMap (·.2.noticed? n) =
    (t.filterMap (·.1.handed? n)).filterMap fun h => h.1.client?.map (·, h.2) := by
  rw [List.filterMap_filterMap]
  apply List.filterMap_congr
  intro q mem
  obtain ⟨t₁, t₂, rfl⟩ := List.append_of_mem mem
  unfold noticed? handed?
  rw [(run.split rfl).2.2.1.transition.notice]
  cases q.1.handing? with
  | none => rfl
  | some h =>
    obtain ⟨depth, o, signal⟩ := h
    cases o with
    | host k => by_cases same : depth = n <;> simp [same, Observer.client?]
    | client o => by_cases same : depth = n <;> simp [same, Observer.client?]

/-- A client closes a free registry, or stops an instance and closes its registry with it. -/
inductive Closes : Source → Config K → Prop
  | registry {s : Shape} (σ : State K) (id : RegistryId) (next : Shape.unit.Answer K → Code K (s.Answer K))
    (stack : Stack K s) : Closes (.free id) ⟨s, σ, .run (.call (.closeRegistry id) next), stack⟩
  | stopped {s : Shape} (σ : State K) (i : InstanceId) (next : Shape.unit.Answer K → Code K (s.Answer K))
    (stack : Stack K s) : Closes (.ofInstance i) ⟨s, σ, .run (.call (.terminate i) next), stack⟩

theorem Closes.follows (closes : c.Closes source) (follows : Follows β c d)
    (made : c.state.Made source) : (d.state.registry source).closed = true := by
  cases closes with
  | registry σ id next stack =>
    have step := follows.step_eq (by rintro τ (payload | ⟨⟩) ⟨⟩)
    cases step
    have changed := (made_modifyRegistry made (.free id) (·.close)).2
    rw [if_pos rfl] at changed
    exact congrArg Registry.closed changed
  | stopped σ i next stack =>
    have step := follows.step_eq (by rintro τ (payload | ⟨⟩) ⟨⟩)
    rw [step_request] at step
    have closed : (Next.serve σ (.push (.waiting next) stack) (.terminate i)).Holds fun d =>
        (d.state.registry (.ofInstance i)).closed = true := by
      refine Next.Holds.withInstance fun x _ found => Next.holds_give.mpr ?_
      simp [State.registry, found, Instance.terminate, Registry.close]
    exact closed d step

theorem Run.closed {first : List (Registry.Act (Observer K))} (run : Run β G c t d)
    (made : c.state.Made source) (origin : c.state.registry source = .after first)
    (closes : ∃ q ∈ t, q.1.Closes source) : .close ∈ first ++ t.filterMap (registryAct? source) := by
  obtain ⟨q, mem, closes⟩ := closes
  obtain ⟨t₁, t₂, rfl⟩ := List.append_of_mem mem
  obtain ⟨before, guard, follows, -⟩ := run.split rfl
  have upto := (before.snoc guard follows).registry_after made origin
  have closed := closes.follows follows (before.registry_after made origin).1
  rw [upto.2, Registry.closed_after] at closed
  rw [List.append_cons, List.filterMap_append, ← List.append_assoc]
  exact List.mem_append_left _ closed

theorem follows_subscribed {acts : List (Registry.Act (Observer K))} {n : SubscriptionId}
    (follows : Follows β c d) (origin : c.state.registry source = .after acts)
    (subscribed : subscribed? source (c, d) = some n) :
    n = Registry.issued acts ∧ ∃ o, registryAct? source (c, d) = some (.subscribe o) := by
  unfold subscribed? at subscribed
  split at subscribed
  · next σ other o next stack τ m stack' same =>
    obtain ⟨rfl, number⟩ := Option.ite_none_right_eq_some.mp subscribed
    cases same
    cases number
    have step := follows.step_eq (by rintro τ (payload | ⟨⟩) ⟨⟩)
    cases step
    refine ⟨?_, .client o, ?_⟩
    · rw [← Registry.nextId_after, ← origin]
    · simp [registryAct?, amended?]
  · cases subscribed

theorem issued_le_append (acts more : List (Registry.Act (Observer K))) :
    Registry.issued acts ≤ Registry.issued (acts ++ more) := by
  unfold Registry.issued
  rw [List.countP_append]
  exact Nat.le_add_right _ _

theorem Run.subscribed {first : List (Registry.Act (Observer K))} (run : Run β G c t d)
    (made : c.state.Made source) (origin : c.state.registry source = .after first) :
    (t.filterMap (subscribed? source)).Pairwise (· < ·) ∧
      ∀ n ∈ t.filterMap (subscribed? source), Registry.issued first ≤ n ∧
        n < Registry.issued (first ++ t.filterMap (registryAct? source)) := by
  induction run with
  | refl => exact ⟨List.Pairwise.nil, fun n mem => absurd mem List.not_mem_nil⟩
  | @snoc t d e run _ follows ih =>
    obtain ⟨grows, bounds⟩ := ih
    rw [List.filterMap_append, List.filterMap_append, ← List.append_assoc]
    have later : ∀ n ∈ t.filterMap (subscribed? source), Registry.issued first ≤ n ∧
        n < Registry.issued (first ++ t.filterMap (registryAct? source) ++
          [(d, e)].filterMap (registryAct? source)) := fun n mem =>
      ⟨(bounds n mem).1, (bounds n mem).2.trans_le (issued_le_append _ _)⟩
    cases subscribed : subscribed? source (d, e) with
    | none =>
      rw [List.filterMap_cons_none subscribed, List.filterMap_nil, List.append_nil]
      exact ⟨grows, later⟩
    | some n =>
      obtain ⟨number, o, act⟩ :=
        follows_subscribed follows (run.registry_after made origin).2 subscribed
      rw [List.filterMap_cons_some subscribed, List.filterMap_nil]
      refine ⟨List.pairwise_append.mpr ⟨grows, List.pairwise_singleton _ _, ?_⟩, ?_⟩
      · intro m mem last same
        rw [List.mem_singleton.mp same, number]
        exact (bounds m mem).2
      · intro m mem
        rcases List.mem_append.mp mem with mem | mem
        · exact later m mem
        · rw [List.mem_singleton.mp mem, List.filterMap_cons_some act, List.filterMap_nil,
            Registry.issued_snoc, number]
          exact ⟨issued_le_append _ _, Nat.lt_succ_self _⟩

/-- A signal from a source goes to the observers of the moment in which it starts, to each of them
once and in their order. -/
structure Delivery (β : Behaviour K) (source : Source) (signal : Signal K.Artifact)
    (stack : Stack K .unit) (σ : State K) (t : List (Config K × Config K)) (e : Config K) : Prop where
  tells : ∀ q ∈ t, ∀ o told, q.1.handed? stack.depth = some (o, told) → told = signal ∧
    ∃ rest, q.1.step β = Next.deliver q.1.state stack source signal (o :: rest)
  /-- As long as the signal is on its way it has gone to the first of them. -/
  begun : t.filterMap (·.1.handed? stack.depth) <+: (σ.registry source).observers.map (·, signal)
  /-- The observers of clients among them are called in their turns, and nobody else is. -/
  called : t.filterMap (·.2.noticed? stack.depth) =
    (t.filterMap (·.1.handed? stack.depth)).filterMap fun h => h.1.client?.map (·, h.2)
  finished : ∀ υ, e = ⟨.unit, υ, .run (.done ()), stack⟩ →
    t.filterMap (·.1.handed? stack.depth) = (σ.registry source).observers.map (·, signal)

theorem Run.delivers {σ : State K}
    (run : Run β (fun c => ∀ υ result, c ≠ ⟨.unit, υ, .run (.ended result), stack⟩)
      ⟨.unit, σ, .emit source signal, stack⟩ t e) : Delivery β source signal stack σ t e := by
  obtain ⟨left, parts, state⟩ := run.spread
  refine ⟨fun q mem o told => run.handed mem, parts ▸ List.prefix_append _ _, run.noticed _, ?_⟩
  rintro υ rfl
  have none : left = [] := by
    rcases state with spreads | ⟨υ', result, same, finished⟩
    · cases spreads with
      | goes rests => exact absurd rests.depth_le (Nat.not_succ_le_self _)
    · cases result with
      | ok answer => exact finished rfl
      | error payload => cases same
  rw [parts, none]
  simp

/-- What a registry is to clients after the acts that have made it what it is. -/
structure Registered (β : Behaviour K) (source : Source) (acts : List (Registry.Act (Observer K)))
    (d : Config K) : Prop where
  number : ∀ (s : Shape) σ o next (stack : Stack K s),
    d = ⟨s, σ, .run (.call (.subscribe source o) next), stack⟩ → ∃ σ', d.step β =
      .ok ⟨.number, σ', .run (.done (Registry.issued acts)), .push (.waiting next) stack⟩
  sorted : (d.state.registry source).entries.Pairwise fun a b => a.1 < b.1
  enrolled : ∀ n o, (n, o) ∈ (d.state.registry source).entries ↔ Registry.Enrolled acts n o
  /-- A removal is answered by whether somebody is enrolled, and removes nobody else. -/
  removal : ∀ (s : Shape) σ n next (stack : Stack K s),
    d = ⟨s, σ, .run (.call (.unsubscribe source n) next), stack⟩ → ∃ σ' found, d.step β =
        .ok ⟨.flag, σ', .run (.done found), .push (.waiting next) stack⟩ ∧
      (found = true ↔ ∃ o, Registry.Enrolled acts n o) ∧
      (σ'.registry source).entries = (σ.registry source).entries.filter (·.1 ≠ n)
  closed : .close ∈ acts → (d.state.registry source).size = 0
  silent : .close ∈ acts → ∀ σ signal stack, d = ⟨.unit, σ, .emit source signal, stack⟩ →
    d.step β = .ok ⟨.unit, σ, .run (.done ()), stack⟩
  delivers : ∀ σ signal stack, d = ⟨.unit, σ, .emit source signal, stack⟩ → ∀ u e,
    Run β (fun c => ∀ υ result, c ≠ ⟨.unit, υ, .run (.ended result), stack⟩) d u e →
      Delivery β source signal stack σ u e

theorem registered_of_registry {acts : List (Registry.Act (Observer K))}
    (made : d.state.Made source) (holds : d.state.registry source = .after acts) :
    d.Registered β source acts where
  number := by
    rintro s σ o next stack rfl
    refine ⟨σ.modifyRegistry source fun r => (r.subscribe (.client o)).2, ?_⟩
    rw [step_request, ← Registry.nextId_after, ← holds]
    rfl
  sorted := by
    rw [holds]
    exact (Registry.entries_after_sorted acts).1
  enrolled n o := by
    rw [holds]
    exact Registry.mem_entries_after acts
  removal := by
    rintro s σ n next stack rfl
    refine ⟨_, _, rfl, ?_, ?_⟩
    · rw [show σ.registry source = .after acts from holds]
      exact Registry.unsubscribe_after acts n
    · rw [(made_modifyRegistry made source _).2, if_pos rfl]
      rfl
  closed closes := by
    rw [Registry.size, holds, Registry.entries_of_close closes]
    rfl
  silent := by
    rintro closes σ signal stack rfl
    rw [step_emit, Registry.observers, show σ.registry source = .after acts from holds,
      Registry.entries_of_close closes]
    rfl
  delivers := by
    rintro σ signal stack rfl u e delivery
    exact delivery.delivers

/-- What is done to a registry along a run, after the acts that came before it. -/
structure Snapshot (β : Behaviour K) (source : Source) (first acts : List (Registry.Act (Observer K)))
    (t : List (Config K × Config K)) (d : Config K) : Prop where
  grow : (t.filterMap (subscribed? source)).Pairwise (· < ·)
  fresh : ∀ n ∈ t.filterMap (subscribed? source), Registry.issued first ≤ n
  closing : (∃ q ∈ t, q.1.Closes source) → .close ∈ acts
  registered : d.Registered β source acts

end Config

open Config in
/-- Delivery is a snapshot, for every registry and whatever is done to it, by its observers or by
others, along every run. The numbers that subscriptions get grow. The registry holds, in the order of
their subscriptions, those who subscribed while it was open and were not removed; a removal is
answered by whether somebody is enrolled under the number, and removes nobody else. Once it is
closed the registry is empty for good, and a signal from it calls nobody. A signal goes to those who
are enrolled when it starts, to each of them once and in that order, whatever happens until its
delivery comes to an end. -/
theorem delivery_is_a_snapshot {first : List (Registry.Act (Observer K))} {c d : Config K}
    {G : Config K → Prop} {t : List (Config K × Config K)} (run : Run β G c t d)
    (made : c.state.Made source) (origin : c.state.registry source = .after first)
    (acts : List (Registry.Act (Observer K)))
    (done : acts = first ++ t.filterMap (registryAct? source)) :
    Snapshot β source first acts t d := by
  subst done
  obtain ⟨made', holds⟩ := run.registry_after made origin
  obtain ⟨grows, bounds⟩ := run.subscribed made origin
  exact ⟨grows, fun n mem => (bounds n mem).1, run.closed made origin,
    registered_of_registry made' holds⟩

namespace Sketch

def restless : Behaviour client where
  code
    | .notice _ .ready =>
      .call (.unsubscribe (.free 0) 1) fun _ =>
        .call (.subscribe (.free 0) ()) fun _ => .call (.emit 0 .done) fun _ => .done ()
    | c => behaviour.code c

def restlessCode : Code client Unit :=
  .call .newRegistry fun r =>
    .call (.subscribe (.free r) ()) fun _ =>
      .call (.subscribe (.free r) ()) fun _ =>
        .call (.emit r .ready) fun _ =>
          .call (.closeRegistry r) fun _ => .call (.emit r .ready) fun _ => .done ()

def unheard : Config client :=
  Config.after restless 1 (.start { memory := () } restlessCode)

def sounding : Config client :=
  Config.after restless 6 unheard

def pending (n : Nat) : Config client → Bool
  | ⟨_, _, .run (.done _), stack⟩ => stack.depth ≠ n
  | ⟨_, _, .run (.panic _), stack⟩ => stack.depth ≠ n
  | _ => true

theorem unended_of_pending {stack : Stack client .unit} (c : Config client)
    (pends : pending stack.depth c = true) (υ : State client) (result : Except Payload Unit) :
    c ≠ ⟨.unit, υ, .run (.ended result), stack⟩ := by
  rintro rfl
  cases result <;> simp [pending, Code.ended] at pends

/-- Both observers hear the signal, though the first one has the other one removed, and their own
subscriptions come with new numbers. Once the registry is closed nobody is enrolled, and the next
signal is over at once. -/
theorem unsubscribed_heard :
    (Config.trail restless 29 sounding).filterMap (·.1.handed? 1) =
      [(.client (), .ready), (.client (), .ready)] ∧
    ((Config.trail restless 38 unheard).filterMap (Config.subscribed? (.free 0))).Pairwise (· < ·) ∧
    ((Config.after restless 38 unheard).state.registry (.free 0)).size = 0 := by
  have made : unheard.state.Made (.free 0) := Nat.zero_lt_one
  have whole : Config.Run restless (fun _ => True) unheard (Config.trail restless 38 unheard)
      (Config.after restless 38 unheard) := .walk_all 38 unheard
  have upto : Config.Run restless (fun _ => True) unheard (Config.trail restless 6 unheard)
      sounding := .walk_all 6 unheard
  have snapshot := delivery_is_a_snapshot whole made (show _ = Registry.after [] from rfl) _ rfl
  have start := delivery_is_a_snapshot upto made (show _ = Registry.after [] from rfl) _ rfl
  refine ⟨?_, snapshot.grow, ?_⟩
  · have delivery := start.registered.delivers _ _ _ rfl _ _
      (.walk unended_of_pending 29 sounding (by decide +kernel))
    exact (delivery.finished _ rfl).trans rfl
  · refine snapshot.registered.closed
      (snapshot.closing ⟨(Config.trail restless 38 unheard)[36], ?_, ?_⟩)
    · exact List.getElem_mem _
    · exact .registry _ 0 _ _

end Sketch

end Resumable
