import Resumable.Proofs.Transition
import Mathlib.Data.List.Induction

namespace Resumable

namespace Registry

variable {O : Type} {n m : SubscriptionId} {o p : O} {r : Registry O}

inductive Act (O : Type) where
  | subscribe (observer : O)
  | unsubscribe (id : SubscriptionId)
  | close

def Act.subscribes : Act O → Bool
  | subscribe _ => true
  | _ => false

def perform (r : Registry O) : Act O → Registry O
  | .subscribe o => (r.subscribe o).2
  | .unsubscribe n => (r.unsubscribe n).2
  | .close => r.close

def after (acts : List (Act O)) : Registry O :=
  acts.foldl perform {}

/-- How many numbers have been given out. -/
def issued (acts : List (Act O)) : Nat :=
  acts.countP Act.subscribes

/-- An observer has subscribed under a number, the registry was never closed, and the subscription
was not removed since. -/
def Enrolled (acts : List (Act O)) (n : SubscriptionId) (o : O) : Prop :=
  ∃ u v, acts = u ++ .subscribe o :: v ∧ issued u = n ∧ .close ∉ acts ∧ .unsubscribe n ∉ v

variable {acts : List (Act O)}

theorem after_append (acts more : List (Act O)) : after (acts ++ more) = more.foldl perform (after acts) :=
  List.foldl_append

theorem after_snoc (acts : List (Act O)) (a : Act O) : after (acts ++ [a]) = (after acts).perform a := by
  rw [after_append]
  rfl

theorem issued_snoc (acts : List (Act O)) (a : Act O) :
    issued (acts ++ [a]) = issued acts + if a.subscribes then 1 else 0 := by
  rw [issued, List.countP_append, List.countP_singleton]
  rfl

theorem nextId_after (acts : List (Act O)) : (after acts).nextId = issued acts := by
  induction acts using List.reverseRecOn with
  | nil => rfl
  | append_singleton acts a ih =>
    rw [after_snoc, issued_snoc, ← ih]
    cases a <;> rfl

theorem closed_after (acts : List (Act O)) : (after acts).closed = true ↔ .close ∈ acts := by
  induction acts using List.reverseRecOn with
  | nil => simp [after]
  | append_singleton acts a ih =>
    rw [after_snoc, List.mem_append, ← ih]
    cases a <;> simp [perform, subscribe, unsubscribe, close]

theorem not_enrolled_of_close (closes : .close ∈ acts) (n : SubscriptionId) (o : O) :
    ¬ Enrolled acts n o := by
  intro enrolled
  obtain ⟨u, v, -, -, unclosed, -⟩ := enrolled
  exact unclosed closes

theorem enrolled_subscribe (unclosed : .close ∉ acts) :
    Enrolled (acts ++ [.subscribe p]) n o ↔ Enrolled acts n o ∨ n = issued acts ∧ o = p := by
  constructor
  · intro enrolled
    obtain ⟨u, v, parts, number, -, kept⟩ := enrolled
    rcases List.eq_nil_or_concat v with rfl | ⟨v, a, rfl⟩
    · obtain ⟨rfl, same⟩ := List.append_inj' parts rfl
      cases same
      exact .inr ⟨number.symm, rfl⟩
    · rw [List.concat_eq_append, ← List.cons_append, ← List.append_assoc] at parts
      obtain ⟨rfl, -⟩ := List.append_inj' parts rfl
      rw [List.concat_eq_append, List.mem_append, not_or] at kept
      exact .inl ⟨u, v, rfl, number, unclosed, kept.1⟩
  · intro enrolled
    have still : Act.close ∉ acts ++ [.subscribe p] := by simpa using unclosed
    rcases enrolled with ⟨u, v, rfl, number, -, kept⟩ | ⟨rfl, rfl⟩
    · exact ⟨u, v ++ [.subscribe p], by simp, number, still, by simpa using kept⟩
    · exact ⟨acts, [], rfl, rfl, still, List.not_mem_nil⟩

theorem enrolled_unsubscribe :
    Enrolled (acts ++ [.unsubscribe m]) n o ↔ Enrolled acts n o ∧ n ≠ m := by
  constructor
  · intro enrolled
    obtain ⟨u, v, parts, number, unclosed, kept⟩ := enrolled
    rcases List.eq_nil_or_concat v with rfl | ⟨v, a, rfl⟩
    · cases (List.append_inj' parts rfl).2
    · rw [List.concat_eq_append, ← List.cons_append, ← List.append_assoc] at parts
      obtain ⟨rfl, last⟩ := List.append_inj' parts rfl
      cases last
      rw [List.concat_eq_append, List.mem_append, List.mem_singleton, not_or] at kept
      rw [List.mem_append, not_or] at unclosed
      refine ⟨⟨u, v, rfl, number, unclosed.1, kept.1⟩, ?_⟩
      rintro rfl
      exact kept.2 rfl
  · intro enrolled
    obtain ⟨⟨u, v, rfl, number, unclosed, kept⟩, other⟩ := enrolled
    refine ⟨u, v ++ [.unsubscribe m], by simp, number, by simpa using unclosed, ?_⟩
    simpa [other] using kept

theorem mem_entries_after (acts : List (Act O)) :
    (n, o) ∈ (after acts).entries ↔ Enrolled acts n o := by
  induction acts using List.reverseRecOn with
  | nil => simp [after, Enrolled]
  | append_singleton acts a ih =>
    rw [after_snoc]
    cases a with
    | subscribe p =>
      by_cases closes : Act.close ∈ acts
      · have stays : ((after acts).perform (.subscribe p)).entries = (after acts).entries := by
          simp [perform, subscribe, (closed_after acts).mpr closes]
        rw [stays, ih]
        have closed := not_enrolled_of_close closes n o
        have closed' := not_enrolled_of_close (List.mem_append_left [.subscribe p] closes) n o
        exact ⟨fun enrolled => absurd enrolled closed, fun enrolled => absurd enrolled closed'⟩
      · have opened : (after acts).closed = false :=
          Bool.eq_false_iff.mpr fun closed => closes ((closed_after acts).mp closed)
        rw [enrolled_subscribe closes, ← ih, ← nextId_after]
        simp [perform, subscribe, opened]
    | unsubscribe m =>
      rw [enrolled_unsubscribe, ← ih]
      simp [perform, unsubscribe]
    | close =>
      have closed := not_enrolled_of_close (List.mem_append_right acts (List.mem_singleton_self _)) n o
      simpa [perform, Registry.close] using closed

theorem entries_after_sorted (acts : List (Act O)) :
    (after acts).entries.Pairwise (fun a b => a.1 < b.1) ∧
      ∀ e ∈ (after acts).entries, e.1 < issued acts := by
  induction acts using List.reverseRecOn with
  | nil => exact ⟨List.Pairwise.nil, fun e mem => absurd mem List.not_mem_nil⟩
  | append_singleton acts a ih =>
    obtain ⟨sorted, below⟩ := ih
    rw [after_snoc, issued_snoc]
    cases a with
    | subscribe p =>
      have more : ∀ e ∈ (after acts).entries, e.1 < issued acts + 1 :=
        fun e mem => Nat.lt_succ_of_lt (below e mem)
      by_cases closed : (after acts).closed = true
      · rw [show ((after acts).perform (.subscribe p)).entries = (after acts).entries by
          simp [perform, subscribe, closed]]
        exact ⟨sorted, more⟩
      · rw [show ((after acts).perform (.subscribe p)).entries =
            (after acts).entries ++ [(issued acts, p)] by
          simp [perform, subscribe, closed, nextId_after]]
        refine ⟨List.pairwise_append.mpr ⟨sorted, List.pairwise_singleton _ _, ?_⟩, ?_⟩
        · intro e mem last same
          rw [List.mem_singleton.mp same]
          exact below e mem
        · intro e mem
          rcases List.mem_append.mp mem with mem | mem
          · exact more e mem
          · rw [List.mem_singleton.mp mem]
            exact Nat.lt_succ_self _
    | unsubscribe m =>
      refine ⟨sorted.sublist (List.filter_sublist ..), fun e mem => ?_⟩
      exact below e (List.mem_filter.mp mem).1
    | close => exact ⟨List.Pairwise.nil, fun e mem => absurd mem List.not_mem_nil⟩

theorem unsubscribe_after (acts : List (Act O)) (n : SubscriptionId) :
    ((after acts).unsubscribe n).1 = true ↔ ∃ o, Enrolled acts n o := by
  simp only [unsubscribe, List.any_eq_true, decide_eq_true_eq, ← mem_entries_after]
  constructor
  · intro found
    obtain ⟨⟨n, o⟩, mem, rfl⟩ := found
    exact ⟨o, mem⟩
  · intro enrolled
    obtain ⟨o, mem⟩ := enrolled
    exact ⟨(n, o), mem, rfl⟩

theorem entries_of_close (closes : .close ∈ acts) : (after acts).entries = [] := by
  apply List.eq_nil_iff_forall_not_mem.mpr
  intro e mem
  exact not_enrolled_of_close closes e.1 e.2 ((mem_entries_after acts).mp mem)

theorem close_after (closes : .close ∈ acts) : (after acts).close = after acts := by
  have closed := (closed_after acts).mpr closes
  have empty := entries_of_close closes
  generalize after acts = r at closed empty ⊢
  obtain ⟨nextId, entries, _⟩ := r
  cases closed
  cases empty
  rfl

end Registry

variable {K : Client}

namespace State

def Made (σ : State K) : Source → Prop
  | .free id => id < σ.registries.length
  | .ofInstance i => i < σ.instances.length

def Retains (σ σ' : State K) : Prop :=
  ∀ source, σ.Made source → σ'.Made source ∧
    (σ'.registry source = σ.registry source ∨ σ'.registry source = (σ.registry source).close)

theorem registry_modifyInstance (σ : State K) (i : InstanceId) (f : Instance K → Instance K)
    {j : InstanceId} (made : j < σ.instances.length) : ∃ x, σ.instances[j]? = some x ∧
      (σ.modifyInstance i f).registry (.ofInstance j) = (if i = j then f x else x).registry := by
  refine ⟨σ.instances[j], List.getElem?_eq_getElem made, ?_⟩
  rw [registry, instances_modifyInstance, List.getElem?_eq_getElem made]
  rfl

end State

namespace State.Retains

variable {σ σ' σ'' : State K}

theorem refl (σ : State K) : σ.Retains σ :=
  fun _ made => ⟨made, .inl rfl⟩

theorem of_same (instances : σ'.instances = σ.instances)
    (registries : σ'.registries = σ.registries) : σ.Retains σ' := by
  intro source made
  cases source with
  | free id => exact ⟨by rwa [Made, registries], .inl (by rw [registry, registries]; rfl)⟩
  | ofInstance i => exact ⟨by rwa [Made, instances], .inl (by rw [registry, instances]; rfl)⟩

theorem trans (first : σ.Retains σ') (second : σ'.Retains σ'') : σ.Retains σ'' := by
  intro source made
  obtain ⟨made', first⟩ := first source made
  obtain ⟨made'', second⟩ := second source made'
  refine ⟨made'', ?_⟩
  rcases first with first | first
  · rwa [first] at second
  · rw [first] at second
    rcases second with second | second
    · exact .inr second
    · exact .inr second

theorem modifyInstance (σ : State K) (i : InstanceId) {f : Instance K → Instance K}
    (keeps : ∀ x, (f x).registry = x.registry ∨ (f x).registry = x.registry.close) :
    σ.Retains (σ.modifyInstance i f) := by
  intro source made
  cases source with
  | free id => exact ⟨made, .inl rfl⟩
  | ofInstance j =>
    obtain ⟨x, found, same⟩ := σ.registry_modifyInstance i f made
    refine ⟨by rwa [Made, length_modifyInstance], ?_⟩
    rw [same, show σ.registry (.ofInstance j) = x.registry by simp [registry, found]]
    split
    · exact keeps x
    · exact .inl rfl

theorem dismiss (σ : State K) (k : ComponentId) (i : InstanceId) :
    σ.Retains (σ.dismiss k (some i)) := by
  have stopped : σ.Retains (σ.modifyInstance i (·.terminate)) := modifyInstance σ i fun _ => .inr rfl
  exact stopped.trans (of_same rfl rfl)

theorem newInstance (σ : State K) (p : K.Procedure) (m : MemoId) (settings : Settings)
    (observers : List (Observer K)) : σ.Retains (σ.newInstance p m settings observers).2 := by
  intro source made
  cases source with
  | free id => exact ⟨made, .inl rfl⟩
  | ofInstance j =>
    have made : j < σ.instances.length := made
    refine ⟨Nat.lt_of_lt_of_le made (by simp [State.newInstance]), .inl ?_⟩
    rw [registry, instances_newInstance, if_neg (Nat.ne_of_lt made)]
    rfl

theorem newRegistry (σ : State K) : σ.Retains σ.newRegistry.2 := by
  intro source made
  cases source with
  | ofInstance i => exact ⟨made, .inl rfl⟩
  | free id =>
    have made : id < σ.registries.length := made
    refine ⟨Nat.lt_of_lt_of_le made (by simp [State.newRegistry]), .inl ?_⟩
    simp [registry, State.newRegistry, List.getElem?_append_left made]

end State.Retains

namespace Stack

def depth : {s : Shape} → Stack K s → Nat
  | _, empty => 0
  | _, push _ rest => rest.depth + 1

end Stack

def Frame.next? {s w : Shape} : Frame K s w → Option (Observer K × Signal K.Artifact)
  | .emitting _ rest signal => rest.head?.map fun o => (o, signal)
  | _ => none

def Observer.client? : Observer K → Option K.Observer
  | client o => some o
  | host _ => none

namespace Config

variable {s : Shape}

/-- An observer is called with a signal that is on its way; how deep the signal lies comes first. -/
def notice? : Config K → Option (Nat × K.Observer × Signal K.Artifact)
  | ⟨_, _, .call (.notice o signal), .push frame stack⟩ =>
    if frame.source?.isSome then some (stack.depth, o, signal) else none
  | _ => none

/-- A signal is handed to the next one who is to hear it. -/
def handing? : Config K → Option (Nat × Observer K × Signal K.Artifact)
  | ⟨_, σ, .emit source signal, stack⟩ =>
    ((σ.registry source).observers.head?).map fun o => (stack.depth, o, signal)
  | ⟨_, _, .run (.done _), .push frame stack⟩ =>
    frame.next?.map fun h => (stack.depth, h)
  | _ => none

def amended? : Config K → Option (Source × Registry.Act (Observer K))
  | ⟨_, _, .run (.call (.subscribe source o) _), _⟩ => some (source, .subscribe (.client o))
  | ⟨_, _, .run (.call (.unsubscribe source n) _), _⟩ => some (source, .unsubscribe n)
  | ⟨_, _, .run (.call (.closeRegistry id) _), _⟩ => some (.free id, .close)
  | _ => none

/-- What is done to a registry when one configuration follows another: what a client asks for, or the
registry is closed with its instance. -/
def registryAct? (source : Source) (p : Config K × Config K) : Option (Registry.Act (Observer K)) :=
  match p.1.amended? with
  | some (other, a) => if other = source then some a else none
  | none =>
    if (p.1.state.registry source).closed = false ∧ (p.2.state.registry source).closed = true then
      some .close
    else none

theorem notice?_call {w : Shape} {σ : State K} {c : Call K s} {frame : Frame K s w}
    (quiet : frame.source? = none) (rest : Stack K w) :
    notice? ⟨s, σ, .call c, .push frame rest⟩ = none := by
  cases c with
  | notice o signal => simp [notice?, quiet]
  | _ => rfl

end Config

theorem State.Dismisses.retains {s : Shape} {σ σ' : State K} {stack : Stack K s} {k : ComponentId}
    {y : Component K} (dismisses : σ.Dismisses stack k y σ') : σ.Retains σ' := by
  cases dismisses with
  | vacant => exact .refl σ
  | taken => exact .dismiss σ k _

namespace Config

variable {β : Behaviour K} {c d : Config K} {t : List (Config K × Config K)} {G : Config K → Prop}
  {source other : Source} {a : Registry.Act (Observer K)}

theorem follows_amended (amended : c.amended? = some (other, a)) (follows : Follows β c d) :
    d.state = c.state.modifyRegistry other (·.perform a) ∧ d.notice? = none ∧ c.handing? = none := by
  unfold amended? at amended
  split at amended
  all_goals first
    | cases amended
      have step := follows.step_eq (by rintro τ (payload | ⟨⟩) ⟨⟩)
      cases step
      exact ⟨rfl, rfl, rfl⟩
    | cases amended

theorem CodeStep.retains (step : CodeStep β c d) (unamended : c.amended? = none) :
    c.state.Retains d.state := by
  cases step with
  | replied replies =>
    cases replies with
    | subscribe => cases unamended
    | unsubscribe => cases unamended
    | closeRegistry => cases unamended
    | newRegistry => exact .newRegistry _
    | newInstance p m settings => exact .newInstance _ p m settings []
    | terminate => exact .modifyInstance _ _ fun _ => .inr rfl
    | reset _ _ dismisses => exact dismisses.retains.trans (.of_same rfl rfl)
    | unmount _ _ dismisses => exact dismisses.retains
    | _ => exact .of_same rfl rfl
  | _ => exact .of_same rfl rfl

theorem DriveStep.retains (step : DriveStep c d) : c.state.Retains d.state := by
  cases step with
  | idle => exact .refl _
  | outdated => exact .of_same rfl rfl
  | computed => exact .trans (.of_same rfl rfl) (.modifyInstance _ _ fun _ => .inl rfl)
  | launched => exact .of_same rfl rfl
  | proceeded => exact .refl _
  | _ => exact .modifyInstance _ _ fun _ => .inl rfl

theorem ReplayStep.retains (step : ReplayStep c d) : c.state.Retains d.state := by
  cases step <;> exact .modifyInstance _ _ fun _ => .inl rfl

theorem TaskStep.retains (step : TaskStep c d) : c.state.Retains d.state := by
  cases step with
  | settled _ _ _ _ stored =>
    rcases stored with rfl | ⟨keys, -, rfl⟩
    · exact .modifyInstance _ _ fun _ => .inl rfl
    · exact .trans (.of_same rfl rfl) (.modifyInstance _ _ fun _ => .inl rfl)
  | rejected => exact .modifyInstance _ _ fun _ => .inl rfl
  | _ => exact .of_same rfl rfl

theorem SignalStep.retains (step : SignalStep c d) : c.state.Retains d.state := by
  cases step with
  | forked _ _ _ _ dismisses => exact dismisses.retains
  | _ => exact .of_same rfl rfl

theorem HostStep.retains (step : HostStep c d) : c.state.Retains d.state := by
  cases step with
  | mounted _ _ dismisses =>
    exact .trans (.newInstance _ _ _ _ _) (dismisses.retains.trans (.of_same rfl rfl))
  | empty => exact .newInstance _ _ _ _ _
  | replaying =>
    exact .trans (.newInstance _ _ _ _ _) (.modifyInstance _ _ fun _ => .inl rfl)
  | _ => exact .of_same rfl rfl

/-- Without a client's request, registries stay as they are or are closed. -/
theorem Transition.retains (transition : Transition β c d) (unamended : c.amended? = none) :
    c.state.Retains d.state := by
  cases transition with
  | code step => exact step.retains unamended
  | drive step => exact step.retains
  | replay step => exact step.retains
  | task step => exact step.retains
  | signal step => exact step.retains
  | host step => exact step.retains

section

variable {stack : Stack K .unit}

theorem Delivering.handing? {signal : Signal K.Artifact} {observers : List (Observer K)}
    (delivering : c.Delivering source signal observers stack) :
    c.handing? = observers.head?.map fun o => (stack.depth, o, signal) := by
  cases delivering with
  | sent σ heard => rw [← heard]; rfl
  | further => cases observers <;> rfl

theorem Completes.handing? {task : Task K} {outcome : Except Failure Value}
    (completes : c.Completes stack task outcome) : c.handing? = none := by
  cases completes <;> rfl

theorem Draining.handing? (draining : c.Draining stack) : c.handing? = none := by
  cases draining <;> rfl

theorem Reacting.handing? {k : ComponentId} {signal : Signal K.Artifact}
    (reacting : c.Reacting k signal stack) :
    c.handing?.bind (fun h => h.2.1.client?.map fun o => (h.1, o, h.2.2)) = none := by
  cases reacting with
  | intro delivering => rw [delivering.handing?]; rfl

theorem Requesting.handing? {k : ComponentId} (requesting : c.Requesting k stack) :
    c.handing?.bind (fun h => h.2.1.client?.map fun o => (h.1, o, h.2.2)) = none := by
  cases requesting with
  | told reacting => exact reacting.handing?
  | adopted => rfl

end

theorem SignalStep.notice (step : SignalStep c d) :
    d.notice? = c.handing?.bind fun h => h.2.1.client?.map fun o => (h.1, o, h.2.2) := by
  cases step with
  | delivered delivering => rw [delivering.handing?]; rfl
  | noticed delivering => rw [delivering.handing?]; rfl
  | unheld delivering => rw [delivering.handing?]; rfl
  | marked requesting => exact requesting.handing?.symm
  | requested requesting => exact requesting.handing?.symm
  | bare reacting => exact reacting.handing?.symm
  | forked reacting => exact reacting.handing?.symm
  | rejected reacting => exact reacting.handing?.symm
  | hosted => rfl

theorem TaskStep.notice (step : TaskStep c d) : d.notice? = none ∧ c.handing? = none := by
  cases step with
  | gone completes => exact ⟨rfl, completes.handing?⟩
  | ignored completes => exact ⟨rfl, completes.handing?⟩
  | settled completes => exact ⟨rfl, completes.handing?⟩
  | rejected completes => exact ⟨rfl, completes.handing?⟩
  | polled draining => exact ⟨rfl, draining.handing?⟩
  | _ => exact ⟨rfl, rfl⟩

/-- A client's observer is called exactly where a signal is handed to it. -/
theorem Transition.notice (transition : Transition β c d) :
    d.notice? = c.handing?.bind fun h => h.2.1.client?.map fun o => (h.1, o, h.2.2) := by
  cases transition with
  | code step =>
    cases step with
    | called σ call next stack => exact notice?_call rfl stack
    | begun σ result => cases result <;> rfl
    | _ => rfl
  | drive step => cases step <;> rfl
  | replay step => cases step <;> rfl
  | task step =>
    obtain ⟨unnoticed, unhanded⟩ := step.notice
    rw [unnoticed, unhanded]
    rfl
  | signal step => exact step.notice
  | host step => cases step <;> rfl

theorem made_modifyRegistry {σ : State K} (made : σ.Made source) (other : Source)
    (f : Registry (Observer K) → Registry (Observer K)) : (σ.modifyRegistry other f).Made source ∧
      (σ.modifyRegistry other f).registry source =
        if other = source then f (σ.registry source) else σ.registry source := by
  cases other with
  | free id =>
    cases source with
    | ofInstance i => exact ⟨made, by rw [if_neg (by simp)]; rfl⟩
    | free id' =>
      have made : id' < σ.registries.length := made
      refine ⟨by simpa [State.Made, State.modifyRegistry] using made, ?_⟩
      by_cases same : id = id'
      · simp [State.registry, State.modifyRegistry, same, made]
      · simp [State.registry, State.modifyRegistry, List.getElem?_modify_ne, same]
  | ofInstance i =>
    cases source with
    | free id => exact ⟨made, by rw [if_neg (by simp)]; rfl⟩
    | ofInstance j =>
      obtain ⟨x, found, same⟩ :=
        σ.registry_modifyInstance i (fun x => { x with registry := f x.registry }) made
      refine ⟨by simpa [State.Made, State.modifyRegistry] using made, ?_⟩
      rw [State.modifyRegistry, same, show σ.registry (.ofInstance j) = x.registry by
        simp [State.registry, found]]
      by_cases same : i = j
      · simp [same]
      · simp [same]

theorem follows_registry {acts : List (Registry.Act (Observer K))} (follows : Follows β c d)
    (made : c.state.Made source) (origin : c.state.registry source = .after acts) :
    d.state.Made source ∧
      d.state.registry source = .after (acts ++ (registryAct? source (c, d)).toList) := by
  unfold registryAct?
  cases amended : c.amended? with
  | some act =>
    obtain ⟨other, a⟩ := act
    obtain ⟨state, -⟩ := follows_amended amended follows
    obtain ⟨made', changed⟩ := made_modifyRegistry made other (·.perform a)
    rw [state]
    refine ⟨made', changed.trans ?_⟩
    rw [origin]
    by_cases same : other = source
    · simp [same, Registry.after_snoc]
    · simp [same]
  | none =>
    obtain ⟨made', retained⟩ := follows.transition.retains amended source made
    refine ⟨made', ?_⟩
    dsimp only
    rcases retained with same | closed
    · rw [same, if_neg (by simp), origin]
      simp
    · rw [closed, origin]
      by_cases before : (Registry.after acts).closed = true
      · -- Closing a closed registry changes nothing.
        rw [Registry.close_after ((Registry.closed_after acts).mp before)]
        simp [before]
      · simp [before, Registry.close, Registry.after_snoc, Registry.perform]

theorem Run.registry_after {acts : List (Registry.Act (Observer K))} (run : Run β G c t d)
    (made : c.state.Made source) (origin : c.state.registry source = .after acts) :
    d.state.Made source ∧
      d.state.registry source = .after (acts ++ t.filterMap (registryAct? source)) := by
  induction run with
  | refl => exact ⟨made, by simpa using origin⟩
  | @snoc t d e run _ follows ih =>
    obtain ⟨made', same⟩ := follows_registry follows ih.1 ih.2
    refine ⟨made', ?_⟩
    rw [same, List.filterMap_append, List.append_assoc]
    cases act : registryAct? source (d, e) <;> simp [act]

end Config

end Resumable
