import Resumable.Proofs.HostingState

namespace Resumable

variable {K : Client} {β : Behaviour K} {σ : State K} {i old : InstanceId}

namespace State

theorem current_eq {c : ComponentId} {y : Component K} (made : σ.components[c]? = some y) :
    σ.current c = y.current := by
  simp [current, made]

theorem dismiss_newInstance (lt : old < σ.instances.length) (c : ComponentId) (p : K.Procedure)
    (m : MemoId) (settings : Settings) (observers : List (Observer K)) :
    (σ.newInstance p m settings observers).2.dismiss c old =
      ((σ.dismiss c old).newInstance p m settings observers).2 := by
  simp only [dismiss, newInstance, modifyInstance, modifyComponent]
  congr 1
  apply List.ext_getElem?
  intro j
  simp only [List.getElem?_modify, List.getElem?_append, List.length_modify]
  by_cases within : j < σ.instances.length
  · simp [within]
  · have ne : old ≠ j := fun same => within (same ▸ lt)
    simp [within, ne]

theorem components_dismiss_self {c : ComponentId} {y : Component K}
    (made : σ.components[c]? = some y) :
    (σ.dismiss c old).components[c]? = some { y with current := none } := by
  simp only [dismiss, components_modifyComponent_self]
  exact congrArg _ made

end State

namespace Host

variable {H : Host β} {a : Nat} {locks : List (Lock K)} {x : Instance K} {y : Component K}

/-- The component has no instance and is told by none. -/
structure Vacant (H : Host β) (σ : State K) : Prop where
  orderly : ∀ (i : InstanceId) x, σ.instances[i]? = some x → x.registry.Orderly
  clients : ∀ r ∈ σ.registries, ∀ o ∈ r.observers, o.IsClient
  made : ∀ (c : ComponentId) y, σ.components[c]? = some y → y.memo < σ.memos.length
  present : ∀ (c : ComponentId) y i, σ.components[c]? = some y → y.current = some i →
    i < σ.instances.length
  settled : ∃ y, σ.components[H.component]? = some y ∧ y.factory = H.factory ∧
    (∀ inputs, y.inputs = some inputs → H.expected inputs) ∧ y.current = none ∧
    ∀ (c : ComponentId) y', σ.components[c]? = some y' → y'.memo = y.memo → c = H.component
  deaf : ∀ (i : InstanceId) x, σ.instances[i]? = some x → ¬ x.Hears H.component

theorem StateOk.vacant (ok : H.StateOk a locks σ) (settled : ∀ i, .adopting i ∉ locks)
    (made : σ.components[H.component]? = some y) (none : y.current = none) : H.Vacant σ := by
  obtain ⟨z, made', kept⟩ := ok.settled
  rw [made] at made'
  cases made'
  refine ⟨ok.orderly, ok.clients, ok.made, ok.present,
    ⟨y, made, kept.factory, kept.expected, none, kept.alone⟩, fun i x found hears => ?_⟩
  rcases (ok.tenant i x found hears).place with adopting | ⟨current, -⟩
  · exact settled i adopting
  · rw [State.current_eq made, none] at current
    cases current

theorem StateOk.dismissed (ok : H.StateOk a locks σ) (settled : ∀ i, .adopting i ∉ locks)
    (made : σ.components[H.component]? = some y) (has : y.current = some old) :
    H.Vacant (σ.dismiss H.component old) := by
  obtain ⟨z, made', kept⟩ := ok.settled
  rw [made] at made'
  cases made'
  have back : ∀ (c : ComponentId) y', (σ.dismiss H.component old).components[c]? = some y' →
      ∃ y, σ.components[c]? = some y ∧ y'.memo = y.memo ∧
        (y'.current = y.current ∨ y'.current = none) := by
    intro c y' found
    obtain ⟨y, origin, ⟨rfl, -⟩ | ⟨-, rfl⟩⟩ := State.of_components_modifyComponent found
    · exact ⟨y', origin, rfl, .inl rfl⟩
    · exact ⟨y, origin, rfl, .inr rfl⟩
  have earlier : ∀ (i : InstanceId) x', (σ.dismiss H.component old).instances[i]? = some x' →
      ∃ x, σ.instances[i]? = some x ∧ (x' = x ∧ old ≠ i ∨ old = i ∧ x' = x.terminate) :=
    fun i x' found => State.of_instances_modifyInstance found
  refine ⟨?_, ok.clients, ?_, ?_, ?_, ?_⟩
  · intro i x' found
    obtain ⟨x, origin, ⟨rfl, -⟩ | ⟨-, rfl⟩⟩ := earlier i x' found
    · exact ok.orderly i x' origin
    · exact Registry.orderly_close
  · intro c y' found
    obtain ⟨y, origin, memo, -⟩ := back c y' found
    rw [memo]
    exact ok.made c y origin
  · intro c y' i found has
    obtain ⟨y, origin, -, same | none⟩ := back c y' found
    · simp only [State.dismiss, State.modifyComponent, State.length_modifyInstance]
      exact ok.present c y i origin (same ▸ has)
    · rw [none] at has
      cases has
  · refine ⟨_, State.components_dismiss_self made, kept.factory, kept.expected, rfl, ?_⟩
    intro c y' found same
    obtain ⟨y, origin, memo, -⟩ := back c y' found
    exact kept.alone c y origin (memo ▸ same)
  · intro i x' found hears
    obtain ⟨x, origin, ⟨rfl, ne⟩ | ⟨-, rfl⟩⟩ := earlier i x' found
    · rcases (ok.tenant i x' origin hears).place with adopting | ⟨current, -⟩
      · exact settled i adopting
      · rw [State.current_eq made, has] at current
        exact ne (Option.some.inj current)
    · cases hears

theorem StateOk.passed (ok : H.StateOk a locks σ) (settled : .adopting old ∉ locks)
    (found : σ.instances[old]? = some x) (hears : x.Hears H.component) {h : History K.Artifact}
    (genuine : Genuine x h) : H.Passed (σ.dismiss H.component old) h := by
  obtain ⟨before, v, w, rfl, begins⟩ := genuine
  have tenant := ok.tenant old x found hears
  have later : σ.Grows (σ.dismiss H.component old) := .dismiss σ _ old
  intro artifact setter mem carried
  have mem : .view artifact ∈ before := by simpa using mem
  obtain ⟨n, lt, at_n⟩ := List.mem_iff_getElem.mp mem
  have at_n : x.history[n]? = some (.view artifact) := by
    obtain ⟨later, eq⟩ := begins
    rw [← eq, List.append_assoc, List.getElem?_append_left lt, List.getElem?_eq_getElem lt, at_n]
  by_cases new : a ≤ n
  · obtain ⟨owner, -⟩ := tenant.own n artifact setter at_n carried settled new
    refine ⟨x.terminate, ?_, rfl⟩
    rw [owner]
    exact (State.instances_modifyInstance_self σ old _).trans (congrArg _ found)
  · exact (tenant.adopted n artifact setter at_n carried (.inr (Nat.lt_of_not_le new))).grows later

theorem Vacant.current (vacant : H.Vacant σ) : σ.current H.component = none := by
  obtain ⟨y, made, -, -, none, -⟩ := vacant.settled
  rw [State.current_eq made, none]

theorem Vacant.stateOk (vacant : H.Vacant σ) (a : Nat) (locks : List (Lock K))
    (single : locks.length ≤ 1) (settled : ∀ i, .adopting i ∉ locks)
    (given : (∃ lock ∈ locks, lock.Vacates) → ∀ y, σ.components[H.component]? = some y →
      y.inputs ≠ none) : H.StateOk a locks σ := by
  obtain ⟨y, made, factory, expected, none, alone⟩ := vacant.settled
  refine ⟨vacant.orderly, vacant.clients, vacant.made, vacant.present, single, ⟨y, made, factory,
    expected, ?_, fun _ => none, ?_, alone⟩, ?_, ?_⟩
  · rintro (has | vacates)
    · exact absurd none has
    · exact given vacates y made
  · rintro i (has | adopting)
    · rw [none] at has
      cases has
    · exact absurd adopting (settled i)
  · intro c y' i x found has found' hears
    exact absurd hears (vacant.deaf i x found')
  · intro i x found hears
    exact absurd hears (vacant.deaf i x found)

theorem Vacant.newInstance (vacant : H.Vacant σ) (p : K.Procedure) (m : MemoId)
    (settings : Settings) {x : Instance K}
    (found : (σ.newInstance p m settings [.host H.component]).2.instances[i]? = some x) :
    σ.instances[i]? = some x ∧ ¬ x.Hears H.component ∨
      i = σ.instances.length ∧ x = {
        procedure := some p, memo := m, settings := settings
        registry := (({} : Registry (Observer K)).subscribe (.host H.component)).2 } := by
  rw [State.instances_newInstance] at found
  split at found
  · next same => exact .inr ⟨same, (Option.some.inj found).symm⟩
  · exact .inl ⟨found, vacant.deaf i x found⟩

theorem Vacant.adopting (vacant : H.Vacant σ) (made : σ.components[H.component]? = some y)
    (given : y.inputs ≠ none) {p : K.Procedure} (built : H.built p) (settings : Settings)
    (a : Nat) : H.StateOk a [.adopting σ.instances.length]
      (σ.newInstance p y.memo settings [.host H.component]).2 := by
  obtain ⟨z, made', factory, expected, none, alone⟩ := vacant.settled
  rw [made] at made'
  cases made'
  refine ⟨?_, vacant.clients, vacant.made, ?_, Nat.le_refl _, ⟨y, made, factory, expected,
    fun _ => given, fun _ => none, ?_, alone⟩, ?_, ?_⟩
  · intro i x found
    rcases vacant.newInstance p y.memo settings found with ⟨origin, -⟩ | ⟨-, rfl⟩
    · exact vacant.orderly i x origin
    · exact Registry.orderly_host _
  · intro c y' i found has
    rw [State.length_newInstance]
    exact Nat.lt_succ_of_lt (vacant.present c y' i found has)
  · rintro i (has | adopting)
    · rw [none] at has
      cases has
    · cases List.mem_singleton.mp adopting
      exact ⟨_, (State.instances_newInstance σ p y.memo settings _ _).trans (if_pos rfl),
        .inl (List.mem_singleton_self (Observer.host H.component))⟩
  · intro c y' i x found has found' hears
    rcases vacant.newInstance p y.memo settings found' with ⟨-, deaf⟩ | ⟨rfl, -⟩
    · exact absurd hears deaf
    · exact absurd (vacant.present c y' _ found has) (Nat.lt_irrefl _)
  · intro i x found hears
    rcases vacant.newInstance p y.memo settings found with ⟨-, deaf⟩ | ⟨rfl, rfl⟩
    · exact absurd hears deaf
    · refine ⟨fun z made' => ?_, fun q has setter kept => ?_, .inl (List.mem_singleton_self _),
        by simp, by simp⟩
      · cases Option.some.inj (made.symm.trans made')
        rfl
      · cases has
        exact absurd kept (H.empty p setter built)

theorem Vacant.furnished (vacant : H.Vacant σ) {inputs : K.Inputs} (expected : H.expected inputs) :
    H.Vacant (σ.modifyComponent H.component ({ · with inputs := some inputs })) := by
  obtain ⟨y, made, factory, -, none, alone⟩ := vacant.settled
  have mine : (σ.modifyComponent H.component
      ({ · with inputs := some inputs })).components[H.component]? =
        some { y with inputs := some inputs } := by
    rw [State.components_modifyComponent_self, made]
    rfl
  have back : ∀ (c : ComponentId) y', (σ.modifyComponent H.component
      ({ · with inputs := some inputs })).components[c]? = some y' →
        ∃ z, σ.components[c]? = some z ∧ y'.memo = z.memo ∧ y'.current = z.current := by
    intro c y' found
    obtain ⟨z, origin, ⟨rfl, -⟩ | ⟨-, rfl⟩⟩ := State.of_components_modifyComponent found
    · exact ⟨y', origin, rfl, rfl⟩
    · exact ⟨z, origin, rfl, rfl⟩
  refine ⟨vacant.orderly, vacant.clients, ?_, ?_, ⟨_, mine, factory, ?_, none, ?_⟩, vacant.deaf⟩
  · intro c y' found
    obtain ⟨z, origin, memo, -⟩ := back c y' found
    exact memo ▸ vacant.made c z origin
  · intro c y' i found has
    obtain ⟨z, origin, -, current⟩ := back c y' found
    exact vacant.present c z i origin (current ▸ has)
  · rintro _ ⟨⟩
    exact expected
  · intro c y' found same
    obtain ⟨z, origin, memo, -⟩ := back c y' found
    exact alone c z origin (memo ▸ same)

theorem StateOk.adopted (ok : H.StateOk a [.adopting i] σ) (found : σ.instances[i]? = some x)
    {f : Component K → Component K}
    (same : ∀ y, (f y).factory = y.factory ∧ (f y).inputs = y.inputs ∧ (f y).memo = y.memo ∧
      (f y).current = some i) :
    H.StateOk x.history.length [] (σ.modifyComponent H.component f) := by
  obtain ⟨y, made, settled⟩ := ok.settled
  have mine : (σ.modifyComponent H.component f).components[H.component]? = some (f y) := by
    rw [State.components_modifyComponent_self, made]
    rfl
  have back : ∀ (c : ComponentId) y', (σ.modifyComponent H.component f).components[c]? = some y' →
      ∃ z, σ.components[c]? = some z ∧ y'.memo = z.memo ∧
        (y'.current = z.current ∨ c = H.component ∧ y'.current = some i) := by
    intro c y' found
    obtain ⟨z, origin, ⟨rfl, -⟩ | ⟨eq, rfl⟩⟩ := State.of_components_modifyComponent found
    · exact ⟨y', origin, rfl, .inl rfl⟩
    · exact ⟨z, origin, (same z).2.2.1, .inr ⟨eq.symm, (same z).2.2.2⟩⟩
  obtain ⟨factory, inputs, memo, current⟩ := same y
  refine ⟨ok.orderly, ok.clients, ?_, ?_, Nat.zero_le _, ⟨_, mine, factory ▸ settled.factory, ?_,
    fun _ => ?_, ?_, ?_, ?_⟩, ?_, ?_⟩
  · intro c y' made
    obtain ⟨z, origin, memo, -⟩ := back c y' made
    rw [memo]
    exact ok.made c z origin
  · intro c y' j made has
    obtain ⟨z, origin, -, same | ⟨-, new⟩⟩ := back c y' made
    · exact ok.present c z j origin (same ▸ has)
    · rw [new] at has
      cases has
      exact (List.getElem?_eq_some_iff.mp found).1
  · rw [inputs]
    exact settled.expected
  · rw [inputs]
    exact settled.given (.inr ⟨_, List.mem_singleton_self _, trivial⟩)
  · rintro ⟨_, mem, -⟩
    cases mem
  · rintro j (has | adopting)
    · rw [current] at has
      cases has
      exact settled.tells i (.inr (List.mem_singleton_self _))
    · cases adopting
  · intro c y' made same
    obtain ⟨z, origin, memo', -⟩ := back c y' made
    exact settled.alone c z origin (by rw [← memo', same, memo])
  · intro c y' j x' made has found' hears
    obtain ⟨z, origin, -, same | ⟨eq, -⟩⟩ := back c y' made
    · exact ok.apart c z j x' origin (same ▸ has) found' hears
    · exact eq
  · intro j x' found' hears
    have tenant := ok.tenant j x' found' hears
    rcases tenant.place with adopting | ⟨has, -⟩
    · cases List.mem_singleton.mp adopting
      cases Option.some.inj (found.symm.trans found')
      refine ⟨fun z made' => ?_, tenant.kept, .inr ⟨?_, Nat.le_refl _⟩, ?_, ?_⟩
      · cases Option.some.inj (mine.symm.trans made')
        rw [memo]
        exact tenant.memo y made
      · rw [State.current_eq mine, current]
      · exact fun n artifact setter shown carried _ =>
          tenant.adopted n artifact setter shown carried (.inl adopting)
      · intro n artifact setter shown carried _ beyond
        exact absurd (List.getElem?_eq_some_iff.mp shown).1 (Nat.not_lt_of_le beyond)
    · rw [State.current_eq made, settled.vacant ⟨_, List.mem_singleton_self _, trivial⟩] at has
      cases has

theorem Vacant.mounted (vacant : H.Vacant σ) (made : σ.components[H.component]? = some y)
    {p : K.Procedure} (built : H.built p) (settings : Settings) {inputs : K.Inputs}
    (expected : H.expected inputs) : H.StateOk 0 []
      ((σ.newInstance p y.memo settings [.host H.component]).2.modifyComponent H.component
        ({ · with current := some σ.instances.length, inputs := some inputs })) := by
  let τ := σ.modifyComponent H.component ({ · with inputs := some inputs })
  have made' : τ.components[H.component]? = some { y with inputs := some inputs } := by
    rw [State.components_modifyComponent_self, made]
    rfl
  have adopting := (vacant.furnished expected).adopting made' (by simp) built settings 0
  have adopted := adopting.adopted
    ((State.instances_newInstance τ p y.memo settings _ _).trans (if_pos rfl))
    (f := ({ · with current := some σ.instances.length })) fun _ => ⟨rfl, rfl, rfl, rfl⟩
  have once := State.modifyComponent_modifyComponent
    (σ.newInstance p y.memo settings [.host H.component]).2 H.component
    ({ · with inputs := some inputs }) ({ · with current := some σ.instances.length })
  exact once ▸ adopted

theorem Vacant.reset (vacant : H.Vacant σ) : H.Vacant
    (σ.newMemo.2.modifyComponent H.component ({ · with inputs := none, memo := σ.newMemo.1 })) := by
  obtain ⟨y, made, factory, -, none, alone⟩ := vacant.settled
  have grown : σ.newMemo.2.memos.length = σ.memos.length + 1 := List.length_append
  have mine : (σ.newMemo.2.modifyComponent H.component
      ({ · with inputs := Option.none, memo := σ.newMemo.1 })).components[H.component]? =
        some { y with inputs := Option.none, memo := σ.memos.length } := by
    rw [State.components_modifyComponent_self]
    exact congrArg _ made
  have back : ∀ (c : ComponentId) y', (σ.newMemo.2.modifyComponent H.component
      ({ · with inputs := Option.none, memo := σ.newMemo.1 })).components[c]? = some y' →
        ∃ z, σ.components[c]? = some z ∧ y'.current = z.current ∧
          (y'.memo = z.memo ∨ c = H.component ∧ y'.memo = σ.memos.length) := by
    intro c y' found
    obtain ⟨z, origin, ⟨rfl, -⟩ | ⟨eq, rfl⟩⟩ := State.of_components_modifyComponent found
    · exact ⟨y', origin, rfl, .inl rfl⟩
    · exact ⟨z, origin, rfl, .inr ⟨eq.symm, rfl⟩⟩
  refine ⟨vacant.orderly, vacant.clients, ?_, ?_, ⟨_, mine, factory, by simp, none, ?_⟩, vacant.deaf⟩
  · intro c y' found
    simp only [State.modifyComponent, grown]
    obtain ⟨z, origin, -, memo | ⟨-, memo⟩⟩ := back c y' found
    · rw [memo]
      exact Nat.lt_succ_of_lt (vacant.made c z origin)
    · rw [memo]
      exact Nat.lt_succ_self _
  · intro c y' i found has
    obtain ⟨z, origin, same, -⟩ := back c y' found
    exact vacant.present c z i origin (same ▸ has)
  · intro c y' found same
    obtain ⟨z, origin, -, memo | ⟨eq, -⟩⟩ := back c y' found
    · have lt := vacant.made c z origin
      rw [← memo, same] at lt
      exact absurd lt (Nat.lt_irrefl _)
    · exact eq

end Host

end Resumable
