import Resumable.Proofs.Hosting

namespace Resumable

variable {K : Client} {β : Behaviour K} {σ σ' : State K} {i j : InstanceId} {c : ComponentId}

namespace Registry

variable {r : Registry (Observer K)}

theorem Orderly.hears (orderly : r.Orderly) (told : .host c ∈ r.observers) :
    ∃ rest, r.entries = (0, .host c) :: rest ∧ 0 < r.nextId ∧
      ∀ e ∈ rest, e.1 ≠ 0 ∧ e.2.IsClient := by
  obtain ⟨e, mem, same⟩ := List.mem_map.mp told
  rcases orderly.headed with clients | ⟨c', rest, entries, next, clients⟩
  · have client := clients e mem
    rw [same] at client
    exact client.elim
  · rw [entries] at mem
    rcases List.mem_cons.mp mem with rfl | mem
    · cases same
      exact ⟨rest, entries, next, clients⟩
    · have client := (clients e mem).2
      rw [same] at client
      exact client.elim

theorem Orderly.subscribe (orderly : r.Orderly) (o : K.Observer) :
    (r.subscribe (.client o)).2.Orderly where
  shut closed := by
    have closed' : r.closed = true := closed
    simp [Registry.subscribe, closed', orderly.shut closed']
  headed := by
    by_cases closed : r.closed = true
    · left
      simp [Registry.subscribe, closed, orderly.shut closed]
    · simp only [Registry.subscribe, closed]
      rcases orderly.headed with clients | ⟨c, rest, entries, next, clients⟩
      · left
        intro e mem
        rcases List.mem_append.mp mem with mem | mem
        · exact clients e mem
        · rw [List.mem_singleton.mp mem]
          trivial
      · right
        refine ⟨c, rest ++ [(r.nextId, .client o)], by simp [entries], Nat.succ_pos _, ?_⟩
        intro e mem
        rcases List.mem_append.mp mem with mem | mem
        · exact clients e mem
        · rw [List.mem_singleton.mp mem]
          exact ⟨Nat.ne_of_gt next, trivial⟩

theorem Orderly.unsubscribe (orderly : r.Orderly) (n : SubscriptionId) :
    (r.unsubscribe n).2.Orderly where
  shut closed := by
    have closed' : r.closed = true := closed
    simp [Registry.unsubscribe, orderly.shut closed']
  headed := by
    rcases orderly.headed with clients | ⟨c, rest, entries, next, clients⟩
    · exact .inl fun e mem => clients e (List.mem_filter.mp mem).1
    · simp only [Registry.unsubscribe, entries, List.filter_cons]
      split
      · exact .inr ⟨c, _, rfl, next, fun e mem => clients e (List.mem_filter.mp mem).1⟩
      · exact .inl fun e mem => (clients e (List.mem_filter.mp mem).1).2

theorem Orderly.hears_unsubscribe (orderly : r.Orderly) {n : SubscriptionId} (own : n ≠ 0)
    (told : .host c ∈ r.observers) : .host c ∈ (r.unsubscribe n).2.observers := by
  obtain ⟨rest, entries, -⟩ := orderly.hears told
  simp [Registry.unsubscribe, Registry.observers, entries, own.symm]

theorem hears_subscribe (o : K.Observer) (told : .host c ∈ r.observers) :
    .host c ∈ (r.subscribe (.client o)).2.observers := by
  unfold Registry.subscribe observers
  split
  · exact told
  · simpa [observers] using told

theorem clients_modify {l : List (Registry (Observer K))} {n : Nat}
    {f : Registry (Observer K) → Registry (Observer K)}
    (clients : ∀ r ∈ l, ∀ o ∈ r.observers, o.IsClient)
    (keeps : ∀ r : Registry (Observer K), (∀ o ∈ r.observers, o.IsClient) →
      ∀ o ∈ (f r).observers, o.IsClient) :
    ∀ r ∈ l.modify n f, ∀ o ∈ r.observers, o.IsClient := by
  intro r mem
  obtain ⟨m, lt, rfl⟩ := List.mem_iff_getElem.mp mem
  rw [List.getElem_modify]
  split
  · exact keeps _ (clients _ (List.getElem_mem _))
  · exact clients _ (List.getElem_mem _)

theorem orderly_close : r.close.Orderly :=
  ⟨fun _ => rfl, .inl fun _ mem => by cases mem⟩

theorem orderly_new : (({} : Registry (Observer K)).Orderly) :=
  ⟨fun _ => rfl, .inl fun _ mem => by cases mem⟩

theorem orderly_host (c : ComponentId) :
    ((({} : Registry (Observer K)).subscribe (.host c)).2).Orderly :=
  ⟨by rintro ⟨⟩, .inr ⟨c, [], rfl, Nat.zero_lt_one, fun _ mem => by cases mem⟩⟩

end Registry

theorem State.Owns.grows {setter : Setter K.Artifact} (owns : σ.Owns i setter)
    (grows : σ.Grows σ') : σ'.Owns i setter := by
  obtain ⟨owner, x, v, found, begins⟩ := owns
  obtain ⟨x', found', later⟩ := grows i x found
  exact ⟨owner, x', v, found', begins.trans later.history⟩

theorem State.Outlived.grows {setter : Setter K.Artifact} (gone : σ.Outlived setter)
    (grows : σ.Grows σ') : σ'.Outlived setter := by
  obtain ⟨x, found, closed⟩ := gone
  obtain ⟨x', found', later⟩ := grows _ x found
  exact ⟨x', found', later.closed closed⟩

namespace Host

variable {H : Host β} {a : Nat} {locks : List (Lock K)} {x : Instance K} {y : Component K}

theorem Keeps.grows {p : K.Procedure} (keeps : H.Keeps σ i p) (grows : σ.Grows σ') :
    H.Keeps σ' i p :=
  fun setter kept => (keeps setter kept).grows grows

theorem Shows.grows {answer : Except Fault K.Yielded} (shows' : H.Shows σ i answer)
    (grows : σ.Grows σ') : H.Shows σ' i answer :=
  fun artifact setter shown carried => (shows' artifact setter shown carried).grows grows

theorem Passed.grows {h : History K.Artifact} (passed : H.Passed σ h) (grows : σ.Grows σ') :
    H.Passed σ' h :=
  fun artifact setter mem carried => (passed artifact setter mem carried).grows grows

theorem Tenant.grows (tenant : H.Tenant a locks σ i x) (grows : σ.Grows σ')
    (current : σ'.current H.component = σ.current H.component)
    (memo : ∀ y', σ'.components[H.component]? = some y' →
      ∃ y, σ.components[H.component]? = some y ∧ y'.memo = y.memo) :
    H.Tenant a locks σ' i x where
  memo y' found := by
    obtain ⟨y, found', same⟩ := memo y' found
    rw [same]
    exact tenant.memo y found'
  kept p has := (tenant.kept p has).grows grows
  place := by
    rw [current]
    exact tenant.place
  adopted n artifact setter shown carried old :=
    (tenant.adopted n artifact setter shown carried old).grows grows
  own n artifact setter shown carried settled new :=
    (tenant.own n artifact setter shown carried settled new).grows grows

theorem StateOk.modifyInstance (ok : H.StateOk a locks σ) {f : Instance K → Instance K}
    (grows : ∀ x : Instance K, x.Grows (f x))
    (orderly : ∀ x : Instance K, x.registry.Orderly → (f x).registry.Orderly)
    (told : ∀ x, σ.instances[i]? = some x → x.Hears H.component →
      (f x).Hears H.component ∨ (H.strict = false ∧ (f x).registry.closed = true))
    (tenant : ∀ x, σ.instances[i]? = some x → x.Hears H.component → H.Tenant a locks σ i x →
      H.Tenant a locks (σ.modifyInstance i f) i (f x)) :
    H.StateOk a locks (σ.modifyInstance i f) := by
  have later : σ.Grows (σ.modifyInstance i f) := .modifyInstance i grows
  refine ⟨?_, ok.clients, ok.made, ?_, ok.single, ?_, ?_, ?_⟩
  · intro j x' found
    obtain ⟨x, origin, ⟨rfl, -⟩ | ⟨-, rfl⟩⟩ := State.of_instances_modifyInstance found
    · exact ok.orderly j x' origin
    · exact orderly x (ok.orderly j x origin)
  · intro c y j found current
    rw [State.length_modifyInstance]
    exact ok.present c y j found current
  · obtain ⟨y, made, settled⟩ := ok.settled
    refine ⟨y, made, settled.factory, settled.expected, settled.given, settled.vacant, ?_,
      settled.alone⟩
    intro j placed
    obtain ⟨x, origin, tells⟩ := settled.tells j placed
    refine ⟨if i = j then f x else x, ?_, ?_⟩
    · rw [State.instances_modifyInstance, origin]
      rfl
    · split
      · next same =>
        subst same
        rcases tells with hears | ⟨strict, closed⟩
        · exact told x origin hears
        · exact .inr ⟨strict, (grows x).closed closed⟩
      · exact tells
  · intro c y j x' made current found hears
    obtain ⟨x, origin, ⟨rfl, -⟩ | ⟨rfl, rfl⟩⟩ := State.of_instances_modifyInstance found
    · exact ok.apart c y j x' made current origin hears
    · exact ok.apart c y i x made current origin ((grows x).hears _ hears)
  · intro j x' found hears
    obtain ⟨x, origin, ⟨rfl, -⟩ | ⟨rfl, rfl⟩⟩ := State.of_instances_modifyInstance found
    · exact (ok.tenant j x' origin hears).grows later rfl fun y made => ⟨y, made, rfl⟩
    · have hears' := (grows x).hears _ hears
      exact tenant x origin hears' (ok.tenant i x origin hears')

theorem StateOk.modifyStatus (ok : H.StateOk a locks σ) {f : Instance K → Instance K}
    (same : ∀ x, (f x).memo = x.memo ∧ (f x).history = x.history ∧ (f x).registry = x.registry)
    (kept : H.Hands σ i f) :
    H.StateOk a locks (σ.modifyInstance i f) := by
  have later : σ.Grows (σ.modifyInstance i f) := .modifyStatus i same
  refine ok.modifyInstance (fun x => ?_) (fun x orderly => ?_) (fun x _ hears => .inl ?_)
    fun x found hears tenant => ?_
  · obtain ⟨memo, history, registry⟩ := same x
    refine ⟨memo, history ▸ List.prefix_refl _, fun shut => by rwa [registry], fun c told => ?_⟩
    rwa [Instance.Hears, registry] at told
  · rwa [(same x).2.2]
  · rwa [Instance.Hears, (same x).2.2]
  · have tenant' := tenant.grows later rfl fun y found => ⟨y, found, rfl⟩
    obtain ⟨memo, history, registry⟩ := same x
    refine ⟨?_, fun p has => ?_, ?_, ?_, ?_⟩
    · rw [memo]
      exact tenant'.memo
    · rcases kept x p found hears has with old | keeps
      · exact tenant'.kept p old
      · exact keeps.grows later
    · rw [history]
      exact tenant'.place
    · rw [history]
      exact tenant'.adopted
    · rw [history]
      exact tenant'.own

theorem StateOk.push (ok : H.StateOk a locks σ) {f : Instance K → Instance K}
    {e : Entry K.Artifact}
    (same : ∀ x, (f x).memo = x.memo ∧ (f x).history = x.history ++ [e] ∧
      (f x).registry = x.registry)
    (taken : H.Hands σ i f)
    (shown : H.Carries locks σ i e) :
    H.StateOk a locks (σ.modifyInstance i f) := by
  have goes : ∀ x : Instance K, x.Grows (f x) := by
    intro x
    obtain ⟨memo, history, registry⟩ := same x
    refine ⟨memo, history ▸ List.prefix_append _ _, fun shut => by rwa [registry], ?_⟩
    intro c told
    rwa [Instance.Hears, registry] at told
  have later : σ.Grows (σ.modifyInstance i f) := .modifyInstance i goes
  refine ok.modifyInstance goes (fun x orderly => ?_) (fun x _ hears => .inl ?_)
    fun x found hears tenant => ?_
  · rwa [(same x).2.2]
  · rwa [Instance.Hears, (same x).2.2]
  · have kept := tenant.grows later rfl fun y found => ⟨y, found, rfl⟩
    obtain ⟨memo, history, registry⟩ := same x
    -- An entry is an old one, or it is the one that is recorded.
    have entry : ∀ (n : Nat) artifact, (f x).history[n]? = some (.view artifact) →
        x.history[n]? = some (.view artifact) ∨ (n = x.history.length ∧ e = .view artifact) := by
      intro n artifact at_n
      rw [history, List.getElem?_append] at at_n
      split at at_n
      · exact .inl at_n
      · next beyond =>
        right
        obtain ⟨zero, eq⟩ := List.getElem?_eq_some_iff.mp at_n
        simp only [List.length_singleton, Nat.lt_one_iff] at zero
        refine ⟨by omega, ?_⟩
        simpa [zero] using eq
    refine ⟨?_, ?_, ?_, ?_, ?_⟩
    · rw [memo]
      exact kept.memo
    · intro p has
      rcases taken x p found hears has with old | keeps
      · exact kept.kept p old
      · exact keeps.grows later
    · refine kept.place.imp_right fun placed => ⟨placed.1, ?_⟩
      rw [history, List.length_append]
      exact Nat.le_add_right_of_le placed.2
    · intro n artifact setter at_n carried old
      rcases entry n artifact at_n with at_n | ⟨rfl, rfl⟩
      · exact kept.adopted n artifact setter at_n carried old
      · have fresh := shown x artifact setter found hears rfl carried
        by_cases adopting : .adopting i ∈ locks
        · exact (fresh.1 adopting).grows later
        · have le := (tenant.place.resolve_left adopting).2
          rcases old with adopting' | lt
          · exact absurd adopting' adopting
          · omega
    · intro n artifact setter at_n carried settled new
      rcases entry n artifact at_n with at_n | ⟨rfl, rfl⟩
      · exact kept.own n artifact setter at_n carried settled new
      · exact ((shown x artifact setter found hears rfl carried).2 settled).grows later

theorem StateOk.terminate (ok : H.StateOk a locks σ)
    (free : H.strict = true → ∀ x, σ.instances[i]? = some x → ¬ x.Hears H.component) :
    H.StateOk a locks (σ.modifyInstance i (·.terminate)) := by
  have later : σ.Grows (σ.modifyInstance i (·.terminate)) := .terminate i
  refine ok.modifyInstance
    (fun x => ⟨rfl, List.prefix_refl _, fun _ => rfl, fun _ told => by cases told⟩)
    (fun _ _ => Registry.orderly_close) (fun x found hears => .inr ⟨?_, rfl⟩)
    fun x found hears tenant => ?_
  · exact Bool.eq_false_iff.mpr fun strict => free strict x found hears
  · have tenant := tenant.grows later rfl fun y found => ⟨y, found, rfl⟩
    exact ⟨tenant.memo, tenant.kept, tenant.place, tenant.adopted, tenant.own⟩

theorem StateOk.of_objects (ok : H.StateOk a locks σ) (instances : σ'.instances = σ.instances)
    (components : σ'.components = σ.components)
    (clients : ∀ r ∈ σ'.registries, ∀ o ∈ r.observers, o.IsClient)
    (memos : σ.memos.length ≤ σ'.memos.length) : H.StateOk a locks σ' := by
  have later : σ.Grows σ' := .of_instances instances
  have current : σ'.current H.component = σ.current H.component := by
    rw [State.current, components, State.current]
  refine ⟨?_, clients, ?_, ?_, ok.single, ?_, ?_, ?_⟩
  · rw [instances]
    exact ok.orderly
  · rw [components]
    exact fun c y found => Nat.lt_of_lt_of_le (ok.made c y found) memos
  · rw [components, instances]
    exact ok.present
  · obtain ⟨y, found, settled⟩ := ok.settled
    refine ⟨y, by rwa [components], settled.factory, settled.expected, settled.given,
      settled.vacant, ?_, ?_⟩
    · rw [instances]
      exact settled.tells
    · rw [components]
      exact settled.alone
  · rw [components, instances]
    exact ok.apart
  · intro i x found hears
    rw [instances] at found
    refine (ok.tenant i x found hears).grows later current fun y found => ⟨y, ?_, rfl⟩
    rwa [components] at found

theorem StateOk.of_same (ok : H.StateOk a locks σ) (instances : σ'.instances = σ.instances)
    (components : σ'.components = σ.components) (registries : σ'.registries = σ.registries)
    (memos : σ'.memos.length = σ.memos.length) : H.StateOk a locks σ' :=
  ok.of_objects instances components (registries ▸ ok.clients) (Nat.le_of_eq memos.symm)

theorem StateOk.subscribe (ok : H.StateOk a locks σ) (source : Source) (o : K.Observer) :
    H.StateOk a locks (σ.modifyRegistry source fun r => (r.subscribe (.client o)).2) := by
  cases source with
  | free id =>
    refine ok.of_objects rfl rfl (Registry.clients_modify ok.clients fun r clients => ?_)
      (Nat.le_refl _)
    unfold Registry.subscribe Registry.observers
    split
    · exact clients
    · intro o' mem
      rw [List.map_append] at mem
      rcases List.mem_append.mp mem with mem | mem
      · exact clients o' mem
      · rw [List.mem_singleton.mp mem]
        trivial
  | ofInstance i =>
    have later : ∀ x : Instance K, x.Grows
        { x with registry := (x.registry.subscribe (.client o)).2 } := fun x =>
      (Instance.Change.subscribed x o).grows
    refine ok.modifyInstance later (fun x orderly => orderly.subscribe o)
      (fun x _ hears => .inl (Registry.hears_subscribe o hears)) fun x found hears tenant => ?_
    have tenant := tenant.grows (.modifyInstance i later) rfl fun y found => ⟨y, found, rfl⟩
    exact ⟨tenant.memo, tenant.kept, tenant.place, tenant.adopted, tenant.own⟩

theorem StateOk.unsubscribe (ok : H.StateOk a locks σ) (source : Source) (n : SubscriptionId)
    (own : ∀ i x, source = .ofInstance i → σ.instances[i]? = some x → x.Hears H.component →
      n ≠ 0) : H.StateOk a locks (σ.modifyRegistry source fun r => (r.unsubscribe n).2) := by
  cases source with
  | free id =>
    refine ok.of_objects rfl rfl (Registry.clients_modify ok.clients fun r clients => ?_)
      (Nat.le_refl _)
    intro o mem
    obtain ⟨e, listed, rfl⟩ := List.mem_map.mp mem
    exact clients _ (List.mem_map.mpr ⟨e, (List.mem_filter.mp listed).1, rfl⟩)
  | ofInstance i =>
    have later : ∀ x : Instance K, x.Grows
        { x with registry := (x.registry.unsubscribe n).2 } := fun x =>
      (Instance.Change.unsubscribed x n).grows
    refine ok.modifyInstance later (fun x orderly => orderly.unsubscribe n)
      (fun x found hears => .inl ?_) fun x found hears tenant => ?_
    · exact (ok.orderly i x found).hears_unsubscribe (own i x rfl found hears) hears
    · have tenant := tenant.grows (.modifyInstance i later) rfl fun y found => ⟨y, found, rfl⟩
      exact ⟨tenant.memo, tenant.kept, tenant.place, tenant.adopted, tenant.own⟩

theorem StateOk.closeRegistry (ok : H.StateOk a locks σ) (id : RegistryId) :
    H.StateOk a locks (σ.modifyRegistry (.free id) (·.close)) :=
  ok.of_objects rfl rfl (Registry.clients_modify ok.clients fun _ _ _ mem => by cases mem)
    (Nat.le_refl _)

theorem StateOk.newRegistry (ok : H.StateOk a locks σ) : H.StateOk a locks σ.newRegistry.2 := by
  refine ok.of_objects rfl rfl (fun r mem => ?_) (Nat.le_refl _)
  rcases List.mem_append.mp mem with mem | mem
  · exact ok.clients r mem
  · rw [List.mem_singleton.mp mem]
    exact fun _ mem => by cases mem

theorem StateOk.modifyComponent (ok : H.StateOk a locks σ) {f : Component K → Component K}
    (same : ∀ y, (f y).factory = y.factory ∧ (f y).inputs = y.inputs ∧
      (f y).current = y.current ∧ (f y).memo = y.memo) :
    H.StateOk a locks (σ.modifyComponent c f) := by
  have back : ∀ (d : ComponentId) y', (σ.modifyComponent c f).components[d]? = some y' →
      ∃ y, σ.components[d]? = some y ∧ y'.factory = y.factory ∧ y'.inputs = y.inputs ∧
        y'.current = y.current ∧ y'.memo = y.memo := by
    intro d y' found
    obtain ⟨y, origin, ⟨rfl, -⟩ | ⟨-, rfl⟩⟩ := State.of_components_modifyComponent found
    · exact ⟨y', origin, rfl, rfl, rfl, rfl⟩
    · exact ⟨y, origin, same y⟩
  have current : (σ.modifyComponent c f).current H.component = σ.current H.component := by
    rw [State.current, State.components_modifyComponent, State.current]
    cases σ.components[H.component]? with
    | none => rfl
    | some y =>
      simp only [Option.map_some, Option.bind_some]
      split
      · exact (same y).2.2.1
      · rfl
  refine ⟨ok.orderly, ok.clients, ?_, ?_, ok.single, ?_, ?_, ?_⟩
  · intro d y' found
    obtain ⟨y, origin, -, -, -, memo⟩ := back d y' found
    rw [memo]
    exact ok.made d y origin
  · intro d y' i found has
    obtain ⟨y, origin, -, -, same', -⟩ := back d y' found
    exact ok.present d y i origin (same' ▸ has)
  · obtain ⟨y, made, settled⟩ := ok.settled
    have found : (σ.modifyComponent c f).components[H.component]? =
        some (if c = H.component then f y else y) := by
      rw [State.components_modifyComponent, made]
      rfl
    obtain ⟨z, origin, factory, inputs, current, memo⟩ := back _ _ found
    rw [made] at origin
    cases origin
    refine ⟨_, found, factory ▸ settled.factory, inputs ▸ settled.expected, ?_, ?_, ?_, ?_⟩
    · rw [inputs, current]
      exact settled.given
    · rw [current]
      exact settled.vacant
    · rw [current]
      exact settled.tells
    · intro d y' found' same'
      obtain ⟨y'', origin, -, -, -, memo'⟩ := back d y' found'
      exact settled.alone d y'' origin (by rw [← memo', same', memo])
  · intro d y' i x found has found' hears
    obtain ⟨y, origin, -, -, same', -⟩ := back d y' found
    exact ok.apart d y i x origin (same' ▸ has) found' hears
  · intro i x found hears
    refine (ok.tenant i x found hears).grows (.of_instances rfl) current fun y' made => ?_
    obtain ⟨y, origin, -, -, -, memo⟩ := back _ y' made
    exact ⟨y, origin, memo⟩

theorem StateOk.modifyOther (ok : H.StateOk a locks σ) (other : c ≠ H.component)
    {f : Component K → Component K}
    (memo : ∀ y z, σ.components[c]? = some y → σ.components[H.component]? = some z →
      (f y).memo = y.memo ∨ ((f y).memo < σ.memos.length ∧ (f y).memo ≠ z.memo))
    (current : ∀ y i, σ.components[c]? = some y → (f y).current = some i →
      y.current = some i ∨ ∃ x, σ.instances[i]? = some x ∧ ¬ x.Hears H.component) :
    H.StateOk a locks (σ.modifyComponent c f) := by
  have mine : (σ.modifyComponent c f).components[H.component]? = σ.components[H.component]? :=
    State.components_modifyComponent_ne σ other f
  obtain ⟨z, made, settled⟩ := ok.settled
  refine ⟨ok.orderly, ok.clients, ?_, ?_, ok.single, ?_, ?_, ?_⟩
  · intro d y' found
    obtain ⟨y, origin, ⟨rfl, -⟩ | ⟨rfl, rfl⟩⟩ := State.of_components_modifyComponent found
    · exact ok.made d y' origin
    · rcases memo y z origin made with same | ⟨lt, -⟩
      · rw [same]
        exact ok.made c y origin
      · exact lt
  · intro d y' i found has
    obtain ⟨y, origin, ⟨rfl, -⟩ | ⟨rfl, rfl⟩⟩ := State.of_components_modifyComponent found
    · exact ok.present d y' i origin has
    · rcases current y i origin has with has | ⟨x, found', -⟩
      · exact ok.present c y i origin has
      · exact (List.getElem?_eq_some_iff.mp found').1
  · refine ⟨z, by rwa [mine], settled.factory, settled.expected, settled.given, settled.vacant,
      settled.tells, ?_⟩
    intro d y' found same
    obtain ⟨y, origin, ⟨rfl, -⟩ | ⟨rfl, rfl⟩⟩ := State.of_components_modifyComponent found
    · exact settled.alone d y' origin same
    · rcases memo y z origin made with kept | ⟨-, ne⟩
      · exact settled.alone c y origin (kept ▸ same)
      · exact absurd same ne
  · intro d y' i x found has found' hears
    obtain ⟨y, origin, ⟨rfl, -⟩ | ⟨rfl, rfl⟩⟩ := State.of_components_modifyComponent found
    · exact ok.apart d y' i x origin has found' hears
    · rcases current y i origin has with has | ⟨x', found'', deaf⟩
      · exact ok.apart c y i x origin has found' hears
      · cases Option.some.inj (found'.symm.trans found'')
        exact absurd hears deaf
  · intro i x found hears
    refine (ok.tenant i x found hears).grows (.of_instances rfl) ?_ fun y found => ⟨y, ?_, rfl⟩
    · rw [State.current, mine, State.current]
    · rwa [mine] at found

theorem StateOk.dismissOther (ok : H.StateOk a locks σ) (other : c ≠ H.component) {old : InstanceId}
    (made : σ.components[c]? = some y) (has : y.current = some old) :
    H.StateOk a locks (σ.dismiss c old) := by
  have free : H.strict = true → ∀ x, σ.instances[old]? = some x → ¬ x.Hears H.component :=
    fun _ x found hears => other (ok.apart c y old x made has found hears)
  exact (ok.terminate free).modifyOther other (fun _ _ _ _ => .inl rfl) fun _ _ _ none => by
    cases none

theorem StateOk.newComponent (ok : H.StateOk a locks σ) (factory : K.Factory)
    (callback : K.Callback) (settings : Settings) :
    H.StateOk a locks (σ.newComponent factory callback settings).2 := by
  let z : Component K :=
    { factory := factory, callback := callback, settings := settings, memo := σ.memos.length }
  have back : ∀ (d : ComponentId) y',
      (σ.newComponent factory callback settings).2.components[d]? = some y' →
      σ.components[d]? = some y' ∨ (d = σ.components.length ∧ y' = z) := by
    intro d y' found
    rw [show (σ.newComponent factory callback settings).2.components = σ.components ++ [z] from rfl,
      List.getElem?_append] at found
    split at found
    · exact .inl found
    · next beyond =>
      obtain ⟨lt, eq⟩ := List.getElem?_eq_some_iff.mp found
      simp only [List.length_singleton, Nat.lt_one_iff] at lt
      refine .inr ⟨Nat.le_antisymm (Nat.le_of_sub_eq_zero lt) (Nat.le_of_not_lt beyond), ?_⟩
      simpa [lt] using eq.symm
  obtain ⟨y, made, settled⟩ := ok.settled
  have lt : H.component < σ.components.length := (List.getElem?_eq_some_iff.mp made).1
  have mine : (σ.newComponent factory callback settings).2.components[H.component]? = some y :=
    (List.getElem?_append_left lt).trans made
  have grown : (σ.newComponent factory callback settings).2.memos.length = σ.memos.length + 1 :=
    List.length_append
  refine ⟨ok.orderly, ok.clients, ?_, ?_, ok.single, ?_, ?_, ?_⟩
  · intro d y' found
    rw [grown]
    rcases back d y' found with origin | ⟨-, rfl⟩
    · exact Nat.lt_succ_of_lt (ok.made d y' origin)
    · exact Nat.lt_succ_self _
  · intro d y' i found has
    rcases back d y' found with origin | ⟨-, rfl⟩
    · exact ok.present d y' i origin has
    · cases has
  · refine ⟨y, mine, settled.factory, settled.expected, settled.given, settled.vacant,
      settled.tells, ?_⟩
    intro d y' found same
    rcases back d y' found with origin | ⟨-, rfl⟩
    · exact settled.alone d y' origin same
    · have lt := ok.made _ y made
      rw [← same] at lt
      exact absurd lt (Nat.lt_irrefl _)
  · intro d y' i x found has found' hears
    rcases back d y' found with origin | ⟨-, rfl⟩
    · exact ok.apart d y' i x origin has found' hears
    · cases has
  · intro i x found hears
    refine (ok.tenant i x found hears).grows (.of_instances rfl) ?_ fun y' found => ⟨y', ?_, rfl⟩
    · rw [State.current, mine, State.current, made]
    · rw [made, ← mine, found]

theorem StateOk.newInstance (ok : H.StateOk a locks σ) (p : K.Procedure) (m : MemoId)
    (settings : Settings) {observers : List (Observer K)}
    (heads : observers = [] ∨ ∃ c, c ≠ H.component ∧ observers = [.host c]) :
    H.StateOk a locks (σ.newInstance p m settings observers).2 := by
  have later : σ.Grows (σ.newInstance p m settings observers).2 := .newInstance p m settings _
  let z : Instance K :=
    { procedure := some p, memo := m, settings := settings,
      registry := observers.foldl (fun r o => (r.subscribe o).2) {} }
  have back : ∀ (j : InstanceId) x',
      (σ.newInstance p m settings observers).2.instances[j]? = some x' →
      σ.instances[j]? = some x' ∨ (j = σ.instances.length ∧ x' = z) := by
    intro j x' found
    rw [State.instances_newInstance] at found
    split at found
    · next same => exact .inr ⟨same, (Option.some.inj found).symm⟩
    · exact .inl found
  have orderly : z.registry.Orderly := by
    rcases heads with rfl | ⟨c, -, rfl⟩
    · exact Registry.orderly_new
    · exact Registry.orderly_host c
  have deaf : ¬ z.Hears H.component := by
    rcases heads with rfl | ⟨c, other, rfl⟩
    · rintro ⟨⟩
    · intro hears
      cases List.mem_singleton.mp hears
      exact other rfl
  have gone : ∀ (j : InstanceId) (x : Instance K),
      (σ.newInstance p m settings observers).2.instances[j]? = some x →
      x.Hears H.component → σ.instances[j]? = some x := by
    intro j x found hears
    rcases back j x found with origin | ⟨-, rfl⟩
    · exact origin
    · exact absurd hears deaf
  refine ⟨?_, ok.clients, ok.made, ?_, ok.single, ?_, ?_, ?_⟩
  · intro j x' found
    rcases back j x' found with origin | ⟨-, rfl⟩
    · exact ok.orderly j x' origin
    · exact orderly
  · intro d y i found has
    rw [State.length_newInstance]
    exact Nat.lt_succ_of_lt (ok.present d y i found has)
  · obtain ⟨y, made, settled⟩ := ok.settled
    refine ⟨y, made, settled.factory, settled.expected, settled.given, settled.vacant, ?_,
      settled.alone⟩
    intro i placed
    obtain ⟨x, origin, tells⟩ := settled.tells i placed
    have lt : i < σ.instances.length := (List.getElem?_eq_some_iff.mp origin).1
    refine ⟨x, ?_, tells⟩
    rw [State.instances_newInstance, if_neg (Nat.ne_of_lt lt), origin]
  · intro d y i x found has found' hears
    exact ok.apart d y i x found has (gone i x found' hears) hears
  · intro j x found hears
    exact (ok.tenant j x (gone j x found hears) hears).grows later rfl
      fun y made => ⟨y, made, rfl⟩

end Host

end Resumable
