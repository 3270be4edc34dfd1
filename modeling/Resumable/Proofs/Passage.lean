import Resumable.Proofs.Transition

namespace Resumable

variable {K : Client} {s u w : Shape} {σ σ' : State K}

namespace Frame

def calls : Frame K s w → Bool
  | stepping _ _ => true
  | computing _ _ _ => true
  | launching _ _ _ => true
  | replaying _ _ _ => true
  | mounting _ _ => true
  | forking _ _ => true
  | polling _ => true
  | _ => false

def waits : Frame K s w → Bool
  | waiting _ => true
  | _ => false

structure Plain (frame : Frame K s w) : Prop where
  waits : frame.waits = false
  calls : frame.calls = false
  unlocked : frame.lockedComponent? = none
  quiet : frame.source? = none

end Frame

namespace Stack

def calls : {s : Shape} → Stack K s → Bool
  | _, empty => false
  | _, push frame _ => frame.calls

@[simp]
theorem calls_unit (stack : Stack K .unit) : stack.calls = false := by
  cases stack with
  | empty => rfl
  | push frame rest => cases frame <;> rfl

@[simp]
theorem calls_result (stack : Stack K .result) : stack.calls = false := by
  cases stack with
  | push frame rest => cases frame <;> rfl

@[simp]
theorem calls_artifact (stack : Stack K .artifact) : stack.calls = false := by
  cases stack with
  | push frame rest => cases frame <;> rfl

inductive Over (base : Stack K w) : {s : Shape} → Stack K s → Prop
  | refl : Over base base
  | push {s u : Shape} {frame : Frame K s u} {rest : Stack K u} (stacked : Over base rest)
    (plain : frame.Plain) : Over base (.push frame rest)

end Stack

/-- A call is what a frame waits for: the procedure of a step or of a replay is fed what its
instance has recorded last, at the position of the frame; a build is that of the component, which no
other frame locks, and for a fork the component has inputs and no instance. -/
def Frame.Fits (σ : State K) : {s w : Shape} → Frame K s w → Stack K w → Call K s → Prop
  | _, _, .stepping i n => fun _ c => ∃ x p, σ.instances[i]? = some x ∧ x.position = n ∧
    c = .resume p (Resumption.next? i x.history)
  | _, _, .replaying i _ _ => fun _ c => ∃ x p, σ.instances[i]? = some x ∧
    c = .resume p (Resumption.next? i x.history)
  | _, _, .mounting k inputs => fun rest c => rest.locksComponent k = false ∧
    ∃ y, σ.components[k]? = some y ∧ c = .build y.factory inputs
  | _, _, .forking k _ => fun rest c => rest.locksComponent k = false ∧
    ∃ y inputs, σ.components[k]? = some y ∧ y.current = none ∧ y.inputs = some inputs ∧
      c = .build y.factory inputs
  | _, _, _ => fun _ _ => True

structure Place (K : Client) where
  factory : K.Factory
  inputs : Option K.Inputs
  current : Option InstanceId
  memo : MemoId

def Component.place (y : Component K) : Place K :=
  ⟨y.factory, y.inputs, y.current, y.memo⟩

/-- Stopped by its host or by a client: over for good, with nobody to hear of it. -/
structure Instance.Stopped (x : Instance K) : Prop where
  status : x.status = .terminated
  closed : x.registry.closed = true
  entries : x.registry.entries = []

structure Registry.Thins (r r' : Registry (Observer K)) : Prop where
  all : ∀ k, .host k ∈ r'.observers → .host k ∈ r.observers
  tail : ∀ k, .host k ∈ r'.observers.tail → .host k ∈ r.observers.tail

namespace Registry.Thins

variable {r : Registry (Observer K)}

theorem refl (r : Registry (Observer K)) : r.Thins r :=
  ⟨fun _ => id, fun _ => id⟩

theorem subscribe (o : K.Observer) : r.Thins (r.subscribe (.client o)).2 := by
  by_cases closed : r.closed = true
  · have same : (r.subscribe (.client o)).2.observers = r.observers := by
      simp [Registry.subscribe, Registry.observers, closed]
    exact ⟨fun k told => same ▸ told, fun k told => same ▸ told⟩
  · have more : (r.subscribe (.client o)).2.observers = r.observers ++ [.client o] := by
      simp [Registry.subscribe, Registry.observers, closed]
    constructor
    · intro k told
      simpa [more] using told
    · intro k told
      rw [more] at told
      cases others : r.observers with
      | nil => simp [others] at told
      | cons first rest => simpa [others] using told

theorem unsubscribe (n : SubscriptionId) : r.Thins (r.unsubscribe n).2 := by
  have fewer : ∀ entries : List (SubscriptionId × Observer K),
      (entries.filter (·.1 ≠ n)).map (·.2) ⊆ entries.map (·.2) :=
    fun entries => List.map_subset _ (List.filter_sublist ..).subset
  refine ⟨fun k told => fewer r.entries told, fun k told => ?_⟩
  simp only [Registry.observers, Registry.unsubscribe] at told ⊢
  cases others : r.entries with
  | nil => simp [others] at told
  | cons first rest =>
    rw [others] at told
    refine fewer rest ?_
    by_cases other : first.1 ≠ n
    · rwa [List.filter_cons_of_pos (by simpa using other), List.map_cons, List.tail_cons] at told
    · rw [List.filter_cons_of_neg (by simpa using other)] at told
      exact List.mem_of_mem_tail told

theorem close : r.Thins r.close :=
  ⟨by rintro k ⟨⟩, by rintro k ⟨⟩⟩

end Registry.Thins

theorem Registry.observers_subscribes (observers : List (Observer K)) :
    (observers.foldl (fun r o => (r.subscribe o).2) ({} : Registry (Observer K))).observers =
      observers := by
  have further : ∀ r : Registry (Observer K), r.closed = false →
      (observers.foldl (fun r o => (r.subscribe o).2) r).observers = r.observers ++ observers := by
    induction observers with
    | nil => exact fun r _ => (List.append_nil _).symm
    | cons o observers ih =>
      intro r opened
      rw [List.foldl_cons, ih (r.subscribe o).2 opened]
      simp [Registry.observers, Registry.subscribe, opened]
  exact further {} rfl

namespace State

def history (σ : State K) (i : InstanceId) : History K.Artifact :=
  ((σ.instances[i]?).map (·.history)).getD []

theorem history_of_found {i : InstanceId} {x : Instance K} (found : σ.instances[i]? = some x) :
    σ.history i = x.history := by
  simp [history, found]

theorem history_modifyInstance (i : InstanceId) {f : Instance K → Instance K}
    (same : ∀ x, (f x).history = x.history) (j : InstanceId) :
    (σ.modifyInstance i f).history j = σ.history j := by
  simp only [history, instances_modifyInstance, Option.map_map]
  congr 2
  funext x
  simp only [Function.comp_apply]
  split
  · exact same x
  · rfl

def place (σ : State K) (k : ComponentId) : Option (Place K) :=
  (σ.components[k]?).map (·.place)

def marked (σ : State K) (k : ComponentId) : Bool :=
  (σ.components[k]?).any (·.rendering)

def Observes (σ : State K) (k : ComponentId) (source : Source) : Prop :=
  .host k ∈ (σ.registry source).observers

def HearsLater (σ : State K) (k : ComponentId) (source : Source) : Prop :=
  .host k ∈ (σ.registry source).observers.tail

def Stores (σ : State K) (i : InstanceId) (p : K.Procedure) : Prop :=
  ∃ x, σ.instances[i]? = some x ∧ x.procedure = some p

def Vacates (σ : State K) (base : Stack K w) (k : ComponentId) (σ' : State K) : Prop :=
  base.locksComponent k = false ∧ ∃ y, σ.components[k]? = some y ∧
    σ'.place k = some { y.place with current := none } ∧
    ∀ old, y.current = some old → ∃ x, σ'.instances[old]? = some x ∧ x.Stopped

theorem place_modifyComponent (k : ComponentId) {f : Component K → Component K}
    (same : ∀ y, (f y).place = y.place) (k' : ComponentId) :
    (σ.modifyComponent k f).place k' = σ.place k' := by
  simp only [place, components_modifyComponent, Option.map_map]
  congr 1
  funext y
  simp only [Function.comp_apply]
  split
  · exact same y
  · rfl

theorem thins_modifyInstance (i : InstanceId) {f : Instance K → Instance K}
    (thins : ∀ x : Instance K, x.registry.Thins (f x).registry) (source : Source) :
    (σ.registry source).Thins ((σ.modifyInstance i f).registry source) := by
  cases source with
  | free id => exact .refl _
  | ofInstance j =>
    simp only [registry, instances_modifyInstance, Option.map_map]
    cases σ.instances[j]? with
    | none => exact .refl _
    | some x =>
      simp only [Option.map_some, Option.getD_some, Function.comp_apply]
      split
      · exact thins x
      · exact .refl _

theorem observers_newInstance (p : K.Procedure) (m : MemoId) (settings : Settings)
    (observers : List (Observer K)) (j : InstanceId) :
    ((σ.newInstance p m settings observers).2.registry (.ofInstance j)).observers =
      if j = σ.instances.length then observers else (σ.registry (.ofInstance j)).observers := by
  rw [registry, instances_newInstance]
  split
  · exact Registry.observers_subscribes observers
  · rfl

theorem marked_modifyComponent {k id : ComponentId} {f : Component K → Component K}
    (same : ∀ y, (f y).rendering = y.rendering) :
    (σ.modifyComponent id f).marked k = σ.marked k := by
  simp only [marked, components_modifyComponent]
  cases σ.components[k]? with
  | none => rfl
  | some y =>
    simp only [Option.map_some, Option.any_some]
    split
    · exact same y
    · rfl

theorem marked_modifyComponent_ne {k id : ComponentId} {f : Component K → Component K}
    (ne : id ≠ k) : (σ.modifyComponent id f).marked k = σ.marked k := by
  rw [marked, components_modifyComponent_ne _ ne, marked]

theorem marked_newComponent {k : ComponentId} (factory : K.Factory) (callback : K.Callback)
    (settings : Settings) :
    (σ.newComponent factory callback settings).2.marked k = σ.marked k := by
  simp only [marked, newComponent, newMemo, List.getElem?_append]
  split
  · rfl
  · next beyond =>
    rw [List.getElem?_eq_none (Nat.le_of_not_lt beyond)]
    cases k - σ.components.length <;> rfl

end State

/-- What begins for a reason that is told by the configuration before: a fork of a component, the
replay of an entry of an instance, the signal of a setter, and the request of a component for a
render, on account of a signal or of a render that has ended. -/
inductive Trigger (K : Client) where
  | fork (k : ComponentId) (h : History K.Artifact)
  | replay (i : InstanceId) (e : Entry K.Artifact) (later : History K.Artifact)
    (rest : Stack K .result)
  | forked (i : InstanceId) (h : History K.Artifact)
  | request (k : ComponentId)
  | rerender (k : ComponentId)

def Frame.trigger? : Frame K s w → Stack K w → Option (Trigger K)
  | forking k h, _ => some (.fork k h)
  | replaying i e later, rest => some (.replay i e later rest)
  | hosting k, _ => some (.request k)
  | rerendering k _, _ => some (.rerender k)
  | _, _ => none

inductive State.Begins (σ : State K) (k : ComponentId) : Signal K.Artifact → Trigger K → Prop
  | ready (unmarked : σ.marked k = false) : Begins σ k .ready (.request k)
  | done (unmarked : σ.marked k = false) : Begins σ k .done (.request k)
  | forked (h : History K.Artifact) : Begins σ k (.forked h) (.fork k h)
  | rejected (fault : Fault) : Begins σ k (.rejected fault) (.request k)

/-- What a step may exchange: a memo for another one, the procedure of an instance, an entry more in
the history of an instance, what is asked for at a position of it, a signal of an instance, the place
of a component and its mark, what a component hears; and what it may begin. -/
structure Exchange (K : Client) where
  memo : MemoId → Memo → Prop
  procedure : InstanceId → K.Procedure → Prop
  entry : InstanceId → Entry K.Artifact → Prop
  ask : InstanceId → Position → Effect K.Artifact K.Producer K.Computation → Prop
  signal : InstanceId → Signal K.Artifact → Prop
  place : ComponentId → Prop
  mark : ComponentId → Bool → Prop
  observes : ComponentId → Source → Prop
  trigger : Trigger K → Prop

structure Exchange.Keeps (E : Exchange K) (σ σ' : State K) : Prop where
  memo : ∀ m, σ'.memo m = σ.memo m ∨ E.memo m (σ'.memo m)
  memos : σ.memos.length ≤ σ'.memos.length
  stores : ∀ i p, σ'.Stores i p → σ.Stores i p ∨ E.procedure i p
  history : ∀ i, σ'.history i = σ.history i ∨
    ∃ e, E.entry i e ∧ σ'.history i = σ.history i ++ [e]
  place : ∀ k, σ'.place k = σ.place k ∨ E.place k
  mark : ∀ k, σ'.marked k = σ.marked k ∨ E.mark k (σ'.marked k)
  observes : ∀ k source, σ'.Observes k source → σ.Observes k source ∨ E.observes k source
  hearsLater : ∀ k source, σ'.HearsLater k source → σ.HearsLater k source

namespace Config

inductive Hands (i : InstanceId) (p : K.Procedure) : Config K → Prop
  | step (σ : State K) (input : Option (Resumption K.Artifact)) (n : Position)
    (rest : Stack K .result) :
    Hands i p ⟨.step, σ, .call (.resume p input), .push (.stepping i n) rest⟩
  | replay (σ : State K) (input : Option (Resumption K.Artifact)) (e : Entry K.Artifact)
    (later : History K.Artifact) (rest : Stack K .result) :
    Hands i p ⟨.step, σ, .call (.resume p input), .push (.replaying i e later) rest⟩

inductive Asks (i : InstanceId) (n : Position) :
    Effect K.Artifact K.Producer K.Computation → Config K → Prop
  | compute (σ : State K) (computation : K.Computation) (keys : List Value)
    (rest : Stack K .result) : Asks i n (.compute computation keys)
      ⟨.value, σ, .call (.compute computation), .push (.computing i n keys) rest⟩
  | await (σ : State K) (producer : K.Producer) (keys : Option (List Value))
    (rest : Stack K .result) : Asks i n (.await producer keys)
      ⟨.future, σ, .call (.produce producer), .push (.launching i n keys) rest⟩

def trigger? : Config K → Option (Trigger K)
  | ⟨_, _, .call _, .push frame rest⟩ => frame.trigger? rest
  | ⟨_, _, .emit (.ofInstance i) (.forked h), _⟩ => some (.forked i h)
  | _ => none

inductive On (base : Stack K w) : Config K → Prop
  | idle {s : Shape} {σ : State K} {control : Control K s} {stack : Stack K s}
    (stacked : base.Over stack) (idle : stack.calls = false) : On base ⟨s, σ, control, stack⟩
  | call {s u : Shape} {σ : State K} {c : Call K s} {frame : Frame K s u} {rest : Stack K u}
    (stacked : base.Over rest) (machine : frame.waits = false) (quiet : frame.source? = none)
    (fits : frame.Fits σ rest c) : On base ⟨s, σ, .call c, .push frame rest⟩

end Config

structure Passage (E : Exchange K) (σ : State K) (base : Stack K w) (d : Config K) : Prop where
  stack : d.On base
  memo : ∀ m, d.state.memo m = σ.memo m ∨ E.memo m (d.state.memo m)
  memos : σ.memos.length ≤ d.state.memos.length
  stores : ∀ i p, d.state.Stores i p → σ.Stores i p ∨ E.procedure i p
  history : ∀ i, d.state.history i = σ.history i ∨
    ∃ e, E.entry i e ∧ d.state.history i = σ.history i ++ [e]
  hands : ∀ i p, d.Hands i p → σ.Stores i p ∨ E.procedure i p
  asks : ∀ i n e, d.Asks i n e → E.ask i n e
  signal : ∀ i signal, d.deed? i = some (.tell signal) → E.signal i signal
  place : ∀ k, d.state.place k = σ.place k ∨ σ.Vacates base k d.state ∨ E.place k
  mark : ∀ k, d.state.marked k = σ.marked k ∨ E.mark k (d.state.marked k)
  observes : ∀ k source, d.state.Observes k source → σ.Observes k source ∨ E.observes k source
  hearsLater : ∀ k source, d.state.HearsLater k source → σ.HearsLater k source
  triggers : ∀ a, d.trigger? = some a → E.trigger a

namespace State

theorem components_dismiss {k : ComponentId} {y : Component K} {i : InstanceId}
    (made : σ.components[k]? = some y) :
    (σ.dismiss k (some i)).components[k]? = some { y with current := none } := by
  simp [dismiss, modifyInstance, modifyComponent, made]

variable {base : Stack K w} {k : ComponentId} {y : Component K}

theorem Dismisses.component (dismisses : σ.Dismisses base k y σ')
    (made : σ.components[k]? = some y) : σ'.components[k]? = some { y with current := none } := by
  cases dismisses with
  | vacant none => rw [made, ← none]
  | taken => exact components_dismiss made

theorem Dismisses.vacates (dismisses : σ.Dismisses base k y σ')
    (unlocked : base.locksComponent k = false) (made : σ.components[k]? = some y) :
    σ.Vacates base k σ' := by
  refine ⟨unlocked, y, made, ?_, fun old held => ?_⟩
  · rw [place, dismisses.component made]
    rfl
  · cases dismisses with
    | vacant none => cases none.symm.trans held
    | @taken i x has _ found =>
      obtain rfl : i = old := Option.some.inj (has.symm.trans held)
      refine ⟨x.terminate, ?_, rfl, rfl, rfl⟩
      change (σ.modifyInstance i (·.terminate)).instances[i]? = _
      rw [instances_modifyInstance_self, found]
      rfl

end State

def Exchange.orPlace (E : Exchange K) (k : ComponentId) : Exchange K :=
  { E with place := fun k' => E.place k' ∨ k' = k }

theorem Passage.vacates {E : Exchange K} {base : Stack K w} {d : Config K} {k : ComponentId}
    (passage : Passage (E.orPlace k) σ base d) (vacates : σ.Vacates base k d.state) :
    Passage E σ base d where
  stack := passage.stack
  memo := passage.memo
  memos := passage.memos
  stores := passage.stores
  history := passage.history
  hands := passage.hands
  asks := passage.asks
  signal := passage.signal
  place k' := by
    rcases passage.place k' with same | vacates' | may | rfl
    · exact .inl same
    · exact .inr (.inl vacates')
    · exact .inr (.inr may)
    · exact .inr (.inl vacates)
  mark := passage.mark
  observes := passage.observes
  hearsLater := passage.hearsLater
  triggers := passage.triggers

namespace Exchange.Keeps

variable {E : Exchange K} {τ : State K}

theorem refl (σ : State K) : E.Keeps σ σ :=
  ⟨fun _ => .inl rfl, le_refl _, fun _ _ => .inl, fun _ => .inl rfl, fun _ => .inl rfl,
    fun _ => .inl rfl, fun _ _ => .inl, fun _ _ => id⟩

theorem same (keeps : E.Keeps σ σ') (memos : τ.memos = σ'.memos)
    (instances : τ.instances = σ'.instances) (components : τ.components = σ'.components)
    (registries : τ.registries = σ'.registries) : E.Keeps σ τ where
  memo m := by
    simp only [State.memo, memos]
    exact keeps.memo m
  memos := memos ▸ keeps.memos
  stores i p := by
    simp only [State.Stores, instances]
    exact keeps.stores i p
  history i := by
    simp only [State.history, instances]
    exact keeps.history i
  place k := by
    simp only [State.place, components]
    exact keeps.place k
  mark k := by
    simp only [State.marked, components]
    exact keeps.mark k
  observes k source told := by
    have same : τ.registry source = σ'.registry source := by
      cases source <;> simp only [State.registry, registries, instances]
    rw [State.Observes, same] at told
    exact keeps.observes k source told
  hearsLater k source told := by
    have same : τ.registry source = σ'.registry source := by
      cases source <;> simp only [State.registry, registries, instances]
    rw [State.HearsLater, same] at told
    exact keeps.hearsLater k source told

theorem of_same (memos : σ'.memos = σ.memos) (instances : σ'.instances = σ.instances)
    (components : σ'.components = σ.components) (registries : σ'.registries = σ.registries) :
    E.Keeps σ σ' :=
  (refl σ).same memos instances components registries

theorem changeInstance (keeps : E.Keeps σ σ') {i : InstanceId} {f : Instance K → Instance K}
    (procedure : ∀ x p, (f x).procedure = some p → x.procedure = some p ∨ E.procedure i p)
    (history : (σ'.modifyInstance i f).history i = σ.history i ∨
      ∃ e, E.entry i e ∧ (σ'.modifyInstance i f).history i = σ.history i ++ [e])
    (thins : ∀ x : Instance K, x.registry.Thins (f x).registry) :
    E.Keeps σ (σ'.modifyInstance i f) where
  memo := keeps.memo
  memos := keeps.memos
  stores := by
    rintro j p ⟨x', found, has⟩
    obtain ⟨x, origin, ⟨rfl, -⟩ | ⟨rfl, rfl⟩⟩ := State.of_instances_modifyInstance found
    · exact keeps.stores j p ⟨_, origin, has⟩
    · exact (procedure x p has).elim (fun has => keeps.stores i p ⟨x, origin, has⟩) .inr
  history j := by
    by_cases same : i = j
    · exact same ▸ history
    · rw [State.history, State.instances_modifyInstance_ne _ same]
      exact keeps.history j
  place := keeps.place
  mark := keeps.mark
  observes k source told :=
    keeps.observes k source ((State.thins_modifyInstance i thins source).all k told)
  hearsLater k source told :=
    keeps.hearsLater k source ((State.thins_modifyInstance i thins source).tail k told)

theorem modifyInstance (keeps : E.Keeps σ σ') (i : InstanceId) {f : Instance K → Instance K}
    (procedure : ∀ x p, (f x).procedure = some p → x.procedure = some p ∨ E.procedure i p)
    (history : ∀ x, (f x).history = x.history) (thins : ∀ x : Instance K, x.registry.Thins (f x).registry) :
    E.Keeps σ (σ'.modifyInstance i f) := by
  refine keeps.changeInstance procedure ?_ thins
  rw [State.history_modifyInstance i history]
  exact keeps.history i

theorem modifyStatus (keeps : E.Keeps σ σ') (i : InstanceId) {f : Instance K → Instance K}
    (procedure : ∀ x, (f x).procedure = x.procedure) (history : ∀ x, (f x).history = x.history)
    (thins : ∀ x : Instance K, x.registry.Thins (f x).registry) : E.Keeps σ (σ'.modifyInstance i f) :=
  keeps.modifyInstance i (fun x _ has => .inl (procedure x ▸ has)) history thins

theorem append (keeps : E.Keeps σ σ') {i : InstanceId} (still : σ'.history i = σ.history i)
    {f : Instance K → Instance K} {e : Entry K.Artifact}
    (procedure : ∀ x p, (f x).procedure = some p → x.procedure = some p ∨ E.procedure i p)
    (history : ∀ x, (f x).history = x.history ++ [e])
    (thins : ∀ x : Instance K, x.registry.Thins (f x).registry) (may : E.entry i e) :
    E.Keeps σ (σ'.modifyInstance i f) := by
  refine keeps.changeInstance procedure ?_ thins
  rw [← still]
  cases found : σ'.instances[i]? with
  | none => simp [State.history, State.instances_modifyInstance_self, found]
  | some x =>
    right
    simp [State.history, State.instances_modifyInstance_self, found, history, may]

theorem takeBack (keeps : E.Keeps σ σ') {i : InstanceId} {p : K.Procedure} (may : E.procedure i p)
    {f : Instance K → Instance K} (takes : ∀ x, (f x).procedure = some p)
    (history : ∀ x, (f x).history = x.history) (thins : ∀ x : Instance K, x.registry.Thins (f x).registry) :
    E.Keeps σ (σ'.modifyInstance i f) := by
  refine keeps.modifyInstance i (fun x q has => .inr ?_) history thins
  rw [takes] at has
  cases has
  exact may

theorem appendBack {i : InstanceId} {p : K.Procedure} {e : Entry K.Artifact}
    (may : E.procedure i p) (enters : E.entry i e) {f : Instance K → Instance K}
    (takes : ∀ x, (f x).procedure = some p) (history : ∀ x, (f x).history = x.history ++ [e])
    (thins : ∀ x : Instance K, x.registry.Thins (f x).registry) : E.Keeps σ (σ.modifyInstance i f) := by
  refine (refl σ).append rfl (fun x q has => .inr ?_) history thins enters
  rw [takes] at has
  cases has
  exact may

theorem modifyComponent (keeps : E.Keeps σ σ') (k : ComponentId) {f : Component K → Component K}
    (same : ∀ y, (f y).place = y.place ∧ (f y).rendering = y.rendering) :
    E.Keeps σ (σ'.modifyComponent k f) where
  memo := keeps.memo
  memos := keeps.memos
  stores := keeps.stores
  history := keeps.history
  place k' := by
    rw [State.place_modifyComponent k fun y => (same y).1]
    exact keeps.place k'
  mark k' := by
    rw [State.marked_modifyComponent fun y => (same y).2]
    exact keeps.mark k'
  observes := keeps.observes
  hearsLater := keeps.hearsLater

theorem movePlace (keeps : E.Keeps σ σ') (k : ComponentId) {f : Component K → Component K}
    (still : ∀ y, (f y).rendering = y.rendering) (may : E.place k) :
    E.Keeps σ (σ'.modifyComponent k f) where
  memo := keeps.memo
  memos := keeps.memos
  stores := keeps.stores
  history := keeps.history
  place k' := by
    by_cases other : k = k'
    · exact .inr (other ▸ may)
    · rw [State.place, State.components_modifyComponent_ne _ other]
      exact keeps.place k'
  mark k' := by
    rw [State.marked_modifyComponent still]
    exact keeps.mark k'
  observes := keeps.observes
  hearsLater := keeps.hearsLater

theorem remark {k : ComponentId} {b : Bool} (may : E.mark k b) :
    E.Keeps σ (σ.modifyComponent k ({ · with rendering := b })) where
  memo _ := .inl rfl
  memos := le_refl _
  stores _ _ := .inl
  history _ := .inl rfl
  place k' := by
    rw [State.place_modifyComponent]
    · exact .inl rfl
    · exact fun _ => rfl
  mark k' := by
    by_cases other : k = k'
    · subst other
      cases found : σ.components[k]? with
      | none => simp [State.marked, found]
      | some y =>
        right
        simpa [State.marked, found] using may
    · exact .inl (State.marked_modifyComponent_ne other)
  observes _ _ := .inl
  hearsLater _ _ := id

theorem remember {m : MemoId} {n : Position} {keys : List Value} {v : Value}
    (may : E.memo m ((σ.memo m).remember n keys v)) : E.Keeps σ (σ.remember m n keys v) where
  memo m' := by
    by_cases other : m = m'
    · subst other
      by_cases made : m < σ.memos.length
      · rw [σ.memo_remember_self made]
        exact .inr may
      · left
        simp [State.remember, State.memo, List.getElem?_eq_none (Nat.le_of_not_lt made)]
    · exact .inl (σ.memo_remember_ne other n keys v)
  memos := by simp [State.remember]
  stores _ _ := .inl
  history _ := .inl rfl
  place _ := .inl rfl
  mark _ := .inl rfl
  observes _ _ := .inl
  hearsLater _ _ := id

theorem clearMemo {m : MemoId} (may : E.memo m []) : E.Keeps σ (σ.clearMemo m) where
  memo m' := by
    by_cases other : m = m'
    · subst other
      rw [σ.memo_clearMemo_self m]
      exact .inr may
    · exact .inl (σ.memo_clearMemo_ne other)
  memos := by simp [State.clearMemo]
  stores _ _ := .inl
  history _ := .inl rfl
  place _ := .inl rfl
  mark _ := .inl rfl
  observes _ _ := .inl
  hearsLater _ _ := id

theorem newComponent (factory : K.Factory) (callback : K.Callback) (settings : Settings)
    (may : E.place σ.components.length) :
    E.Keeps σ (σ.newComponent factory callback settings).2 where
  mark k := .inl (State.marked_newComponent ..)
  observes _ _ := .inl
  hearsLater _ _ := id
  memo m := .inl (σ.memo_newMemo m)
  memos := by simp [State.newComponent, State.newMemo]
  stores _ _ := .inl
  history _ := .inl rfl
  place k := by
    rcases Nat.lt_trichotomy k σ.components.length with made | rfl | beyond
    · left
      simp [State.place, State.newComponent, State.newMemo, List.getElem?_append, made]
    · exact .inr may
    · left
      rw [State.place, State.place, List.getElem?_eq_none (Nat.le_of_lt beyond),
        List.getElem?_eq_none]
      simpa [State.newComponent, State.newMemo, Nat.succ_le_iff] using beyond

theorem newInstance {p : K.Procedure} (may : E.procedure σ.instances.length p) (m : MemoId)
    (settings : Settings) {observers : List (Observer K)} (alone : observers.tail = [])
    (hears : ∀ k, .host k ∈ observers → E.observes k (.ofInstance σ.instances.length)) :
    E.Keeps σ (σ.newInstance p m settings observers).2 where
  memo _ := .inl rfl
  memos := le_refl _
  stores := by
    rintro j q ⟨x, found, has⟩
    rw [State.instances_newInstance] at found
    split at found
    · next fresh =>
      cases found
      cases has
      exact .inr (fresh ▸ may)
    · exact .inl ⟨x, found, has⟩
  history j := by
    left
    rw [State.history, State.history, State.instances_newInstance]
    split
    · next fresh => simp [fresh]
    · rfl
  place _ := .inl rfl
  mark _ := .inl rfl
  observes k source told := by
    cases source with
    | free id => exact .inl told
    | ofInstance j =>
      rw [State.Observes, State.observers_newInstance] at told
      split at told
      · next fresh => exact .inr (fresh ▸ hears k told)
      · exact .inl told
  hearsLater k source told := by
    cases source with
    | free id => exact told
    | ofInstance j =>
      rw [State.HearsLater, State.observers_newInstance] at told
      split at told
      · rw [alone] at told
        cases told
      · exact told

theorem mounted {p : K.Procedure} {k : ComponentId} (may : E.procedure σ.instances.length p)
    (observes : E.observes k (.ofInstance σ.instances.length)) (m : MemoId) (settings : Settings) :
    E.Keeps σ (σ.newInstance p m settings [.host k]).2 := by
  refine newInstance may m settings rfl fun k' told => ?_
  cases List.mem_singleton.mp told
  exact observes

theorem dismiss (keeps : E.Keeps σ σ') (k : ComponentId) (i : InstanceId) (may : E.place k) :
    E.Keeps σ (σ'.dismiss k (some i)) :=
  have stopped : E.Keeps σ (σ'.modifyInstance i (·.terminate)) :=
    keeps.modifyStatus i (fun _ => rfl) (fun _ => rfl) fun _ => .close
  stopped.movePlace k (fun _ => rfl) may

theorem dismisses (keeps : E.Keeps σ σ') {stack : Stack K s} {k : ComponentId} {y : Component K}
    (dismisses : σ'.Dismisses stack k y τ) (may : E.place k) : E.Keeps σ τ := by
  cases dismisses with
  | vacant => exact keeps
  | taken => exact keeps.dismiss k _ may

theorem newMemo (keeps : E.Keeps σ σ') : E.Keeps σ σ'.newMemo.2 where
  memo m := by
    rw [State.memo_newMemo]
    exact keeps.memo m
  memos := Nat.le_trans keeps.memos (by simp [State.newMemo])
  stores := keeps.stores
  history := keeps.history
  place := keeps.place
  mark := keeps.mark
  observes := keeps.observes
  hearsLater := keeps.hearsLater

theorem modifyRegistry (source : Source) {f : Registry (Observer K) → Registry (Observer K)}
    (thins : ∀ r : Registry (Observer K), r.Thins (f r)) : E.Keeps σ (σ.modifyRegistry source f) := by
  cases source with
  | ofInstance i =>
    exact (refl σ).modifyStatus i (fun _ => rfl) (fun _ => rfl) fun x => thins x.registry
  | free id =>
    have thins' : ∀ other, (σ.registry other).Thins
        ((σ.modifyRegistry (.free id) f).registry other) := by
      intro other
      cases other with
      | ofInstance i => exact .refl _
      | free id' =>
        change ((σ.registries[id']?).getD {}).Thins (((σ.registries.modify id f)[id']?).getD {})
        rw [List.getElem?_modify]
        cases σ.registries[id']? with
        | none => exact .refl _
        | some r =>
          change r.Thins (if id = id' then f r else r)
          split
          · exact thins r
          · exact .refl r
    exact { refl σ with
      observes := fun k other told => .inl ((thins' other).all k told)
      hearsLater := fun k other told => (thins' other).tail k told }

theorem newRegistry : E.Keeps σ σ.newRegistry.2 := by
  have thins : ∀ source, (σ.registry source).Thins (σ.newRegistry.2.registry source) := by
    intro source
    cases source with
    | ofInstance i => exact .refl _
    | free id =>
      change ((σ.registries[id]?).getD {}).Thins (((σ.registries ++ [({} : Registry (Observer K))])[id]?).getD {})
      rw [List.getElem?_append]
      split
      · exact .refl _
      · next beyond =>
        rw [List.getElem?_eq_none (Nat.le_of_not_lt beyond)]
        cases id - σ.registries.length <;> exact .refl _
  exact { refl σ with
    observes := fun k source told => .inl ((thins source).all k told)
    hearsLater := fun k source told => (thins source).tail k told }

end Exchange.Keeps

theorem Config.not_told_call {i : InstanceId} {c : Call K s} {frame : Frame K s w}
    {rest : Stack K w} {signal : Signal K.Artifact} :
    Config.deed? i ⟨s, σ, .call c, .push frame rest⟩ ≠ some (.tell signal) := by
  cases frame <;> simp [deed?, Frame.deed?, ownedBy]

theorem Config.of_told {i j : InstanceId} {signal signal' : Signal K.Artifact}
    {stack : Stack K .unit}
    (h : Config.deed? i ⟨.unit, σ, .emit (.ofInstance j) signal, stack⟩ = some (.tell signal')) :
    j = i ∧ signal' = signal ∧ ∀ h, signal ≠ .forked h := by
  cases signal with
  | forked h' => cases h
  | _ =>
    obtain ⟨same, told⟩ := Option.ite_none_right_eq_some.mp h
    cases told
    exact ⟨same, rfl, by simp⟩

namespace Passage

variable {E : Exchange K} {base : Stack K w}

theorem run {stack : Stack K s} {code : Code K (s.Answer K)} (keeps : E.Keeps σ σ')
    (stacked : base.Over stack) (idle : stack.calls = false) :
    Passage E σ base ⟨s, σ', .run code, stack⟩ :=
  ⟨.idle stacked idle, keeps.memo, keeps.memos, keeps.stores, keeps.history,
    by rintro _ _ ⟨⟩, by rintro _ _ _ ⟨⟩, by rintro _ _ ⟨⟩, fun k => (keeps.place k).imp_right .inr,
    keeps.mark, keeps.observes, keeps.hearsLater, by rintro _ ⟨⟩⟩

theorem advance {stack : Stack K .result} {i : InstanceId} (keeps : E.Keeps σ σ')
    (stacked : base.Over stack) : Passage E σ base ⟨.result, σ', .advance i, stack⟩ :=
  ⟨.idle stacked (Stack.calls_result _), keeps.memo, keeps.memos, keeps.stores,
    keeps.history, by rintro _ _ ⟨⟩, by rintro _ _ _ ⟨⟩, by rintro _ _ ⟨⟩,
    fun k => (keeps.place k).imp_right .inr, keeps.mark, keeps.observes, keeps.hearsLater,
    by rintro _ ⟨⟩⟩

theorem tell {stack : Stack K .unit} {i : InstanceId} {signal : Signal K.Artifact}
    (keeps : E.Keeps σ σ') (stacked : base.Over stack)
    (may : (∀ h, signal ≠ .forked h) → E.signal i signal)
    (trigger : ∀ h, signal = .forked h → E.trigger (.forked i h)) :
    Passage E σ base ⟨.unit, σ', .emit (.ofInstance i) signal, stack⟩ := by
  refine ⟨.idle stacked (Stack.calls_unit _), keeps.memo, keeps.memos, keeps.stores,
    keeps.history, by rintro _ _ ⟨⟩, by rintro _ _ _ ⟨⟩, fun j signal' told => ?_,
    fun k => (keeps.place k).imp_right .inr, keeps.mark, keeps.observes, keeps.hearsLater, fun a triggers => ?_⟩
  · obtain ⟨rfl, rfl, own⟩ := Config.of_told told
    exact may own
  · cases signal with
    | forked h =>
      cases triggers
      exact trigger h rfl
    | _ => cases triggers

theorem signals {stack : Stack K .unit} {i : InstanceId} {signal : Signal K.Artifact}
    (keeps : E.Keeps σ σ') (stacked : base.Over stack) (may : E.signal i signal)
    (own : ∀ h, signal ≠ .forked h) :
    Passage E σ base ⟨.unit, σ', .emit (.ofInstance i) signal, stack⟩ :=
  tell keeps stacked (fun _ => may) fun h forked => absurd forked (own h)

/-- A call that waits on a client's frame, and a signal of a registry. -/
theorem idle {stack : Stack K s} {control : Control K s} (stacked : base.Over stack)
    (idle : stack.calls = false) (hands : ∀ i p, ¬ Config.Hands i p ⟨s, σ, control, stack⟩)
    (asks : ∀ i n e, ¬ Config.Asks i n e ⟨s, σ, control, stack⟩)
    (signal : ∀ i signal, Config.deed? i ⟨s, σ, control, stack⟩ ≠ some (.tell signal))
    (triggers : Config.trigger? ⟨s, σ, control, stack⟩ = none) :
    Passage E σ base ⟨s, σ, control, stack⟩ :=
  ⟨.idle stacked idle, fun _ => .inl rfl, le_refl _, fun _ _ => .inl, fun _ => .inl rfl,
    fun i p h => absurd h (hands i p), fun i n e h => absurd h (asks i n e),
    fun i s h => absurd h (signal i s), fun _ => .inl rfl, fun _ => .inl rfl, fun _ _ => .inl,
    fun _ _ => id, fun a h => by rw [triggers] at h; cases h⟩

theorem call {s u : Shape} {frame : Frame K s u} {rest : Stack K u} {c : Call K s}
    (keeps : E.Keeps σ σ') (stacked : base.Over rest) (machine : frame.waits = false)
    (quiet : frame.source? = none) (fits : frame.Fits σ' rest c)
    (hands : ∀ i p, Config.Hands i p ⟨s, σ', .call c, .push frame rest⟩ →
      σ.Stores i p ∨ E.procedure i p)
    (asks : ∀ i n e, Config.Asks i n e ⟨s, σ', .call c, .push frame rest⟩ → E.ask i n e)
    (triggers : ∀ a, Config.trigger? ⟨s, σ', .call c, .push frame rest⟩ = some a → E.trigger a) :
    Passage E σ base ⟨s, σ', .call c, .push frame rest⟩ :=
  ⟨.call stacked machine quiet fits, keeps.memo, keeps.memos, keeps.stores,
    keeps.history, hands, asks, fun _ _ told => absurd told Config.not_told_call,
    fun k => (keeps.place k).imp_right .inr, keeps.mark, keeps.observes, keeps.hearsLater, triggers⟩

theorem outside {s u : Shape} {frame : Frame K s u} {rest : Stack K u} {c : Call K s}
    (keeps : E.Keeps σ σ') (stacked : base.Over rest) (machine : frame.waits = false)
    (quiet : frame.source? = none) (fits : frame.Fits σ' rest c) (none : frame.instance? = none)
    (triggers : ∀ a, Config.trigger? ⟨s, σ', .call c, .push frame rest⟩ = some a → E.trigger a) :
    Passage E σ base ⟨s, σ', .call c, .push frame rest⟩ := by
  refine call keeps stacked machine quiet fits ?_ ?_ triggers
  · rintro i p ⟨⟩ <;> cases none
  · rintro i n e ⟨⟩ <;> cases none

end Passage

end Resumable
