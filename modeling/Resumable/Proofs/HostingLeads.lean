import Resumable.Proofs.HostingStep

namespace Resumable

variable {K : Client} {β : Behaviour K} {s w : Shape} {σ σ' : State K} {i : InstanceId}
  {c : ComponentId}

theorem State.Grows.deaf (grows : σ.Grows σ')
    (deaf : ∃ x, σ.instances[i]? = some x ∧ ¬ x.Hears c) :
    ∃ x, σ'.instances[i]? = some x ∧ ¬ x.Hears c := by
  obtain ⟨x, found, deaf⟩ := deaf
  obtain ⟨x', found', later⟩ := grows i x found
  exact ⟨x', found', fun hears => deaf (later.hears c hears)⟩

theorem Registry.Orderly.tail {r : Registry (Observer K)} (orderly : r.Orderly) :
    ∀ o ∈ r.observers.tail, o.IsClient := by
  rcases orderly.headed with clients | ⟨c, rest, entries, -, clients⟩
  · intro o mem
    obtain ⟨e, listed, rfl⟩ := List.mem_map.mp (List.mem_of_mem_tail mem)
    exact clients e listed
  · simp only [observers, entries, List.map_cons, List.tail_cons]
    intro o mem
    obtain ⟨e, listed, rfl⟩ := List.mem_map.mp mem
    exact (clients e listed).2

theorem State.hears_of_mem {c : ComponentId} {i : InstanceId}
    (told : .host c ∈ (σ.registry (.ofInstance i)).observers) :
    ∃ x, σ.instances[i]? = some x ∧ x.Hears c := by
  cases found : σ.instances[i]? with
  | none => simp [registry, found, Registry.observers] at told
  | some x =>
    simp only [registry, found, Option.map_some, Option.getD_some] at told
    exact ⟨x, rfl, told⟩

namespace Host

variable {H : Host β} {a : Nat} {locks : List (Lock K)} {y : Component K} {p : K.Procedure}

/-- A render of the component mounts another instance if there is none yet, or if the inputs have
changed. -/
def Remounts (H : Host β) (σ : State K) (c : ComponentId) (inputs : K.Inputs) : Prop :=
  c = H.component ∧ ∀ y, σ.components[c]? = some y → y.current = none ∨
    ∀ old, y.inputs = some old → K.sameInputs old inputs = false

/-- The steps that may take the component's instance or give it another one. -/
def Turns (H : Host β) : Config K → Prop
  | ⟨_, _, .run (.call request _), _⟩ =>
    match request with
    | .reset c => c = H.component
    | .unmount c => c = H.component
    | _ => False
  | ⟨_, σ, .run (.done _), .push (.entering c inputs) _⟩ => H.Remounts σ c inputs
  | ⟨_, _, .run (.done _), stack⟩ => stack.locks H.component ≠ []
  | ⟨_, σ, .emit (.ofInstance i) (.forked _), _⟩ =>
    ∃ x, σ.instances[i]? = some x ∧ x.Hears H.component
  | _ => False

def Leads (H : Host β) (a : Nat) (c d : Config K) : Prop :=
  H.Stays a (c.stack.locks H.component) c.state d ∨
    H.Turns c ∧ H.Inv (H.arrives a c.state d.state) d

theorem arrives_of_seat (same : σ'.seat H.component = σ.seat H.component) :
    H.arrives a σ σ' = a :=
  if_pos (State.current_of_seat same)

theorem arrives_eq {x : Instance K} (new : σ'.current H.component = some i)
    (other : σ.current H.component ≠ some i) (found : σ'.instances[i]? = some x) :
    H.arrives a σ σ' = x.history.length := by
  rw [arrives, new, if_neg other.symm]
  simp [found]

theorem Leads.inv {c d : Config K} (leads : H.Leads a c d) : H.Inv (H.arrives a c.state d.state) d := by
  rcases leads with stays | ⟨-, inv⟩
  · rw [arrives_of_seat stays.seat]
    exact stays.inv
  · exact inv

theorem StateOk.alone {frame : Frame K s w} {rest : Stack K w} {lock : Lock K}
    (ok : H.StateOk a ((Stack.push frame rest).locks H.component) σ)
    (locked : frame.lock? H.component = some lock) :
    rest.locks H.component = [] ∧ H.StateOk a [lock] σ := by
  have single := ok.single
  rw [Stack.locks, locked, Option.toList_some, List.singleton_append, List.length_cons] at single
  have alone : rest.locks H.component = [] := List.length_eq_zero_iff.mp (by omega)
  rw [Stack.locks, locked, alone] at ok
  exact ⟨alone, ok⟩

theorem StateOk.mounting (ok : H.StateOk a [] σ) : H.StateOk a [.mounting] σ := by
  obtain ⟨y, made, settled⟩ := ok.settled
  have idle : ∀ i, Lock.adopting i ∉ [Lock.mounting (K := K)] := by simp
  have vacates : ¬ ∃ lock ∈ [Lock.mounting (K := K)], lock.Vacates := by simp [Lock.Vacates]
  refine ⟨ok.orderly, ok.clients, ok.made, ok.present, Nat.le_refl _, ⟨y, made, settled.factory,
    settled.expected, ?_, fun locked => absurd locked vacates, ?_, settled.alone⟩, ok.apart,
    fun i x found hears => ?_⟩
  · rintro (has | locked)
    · exact settled.given (.inl has)
    · exact absurd locked vacates
  · rintro i (has | adopting)
    · exact settled.tells i (.inl has)
    · exact absurd adopting (idle i)
  · have tenant := ok.tenant i x found hears
    refine ⟨tenant.memo, tenant.kept, .inr ?_, ?_, ?_⟩
    · rcases tenant.place with adopting | place
      · cases adopting
      · exact place
    · rintro n artifact setter shown carried (adopting | early)
      · exact absurd adopting (idle i)
      · exact tenant.adopted n artifact setter shown carried (.inr early)
    · exact fun n artifact setter shown carried _ late =>
        tenant.own n artifact setter shown carried (List.not_mem_nil) late

theorem StateOk.building {frame : Frame K .procedure w} {rest : Stack K w} {lock : Lock K}
    (ok : H.StateOk a [lock] σ) (fits : H.StackOk σ rest) (free : H.Open rest)
    (locked : frame.lock? H.component = some lock) (alone : rest.locks H.component = [])
    (bears : H.strict = false → H.Bears (some lock)) (frameOk : H.FrameOk σ frame rest)
    (takes : ∀ r, (∀ p, r = .ok p → H.built p) → H.Takes σ frame r) {inputs : K.Inputs}
    (expected : H.expected inputs) :
    H.Inv a ⟨.procedure, σ, .call (.build H.factory inputs), .push frame rest⟩ where
  state := by
    rw [Stack.locks, locked, alone]
    exact ok
  stack := ⟨frameOk, .inl free, fits⟩
  control := (H.build inputs expected).imp takes
  top := by
    cases strict : H.strict with
    | false =>
      left
      rw [Open, Stack.lock?, locked]
      exact bears strict
    | true => exact .inr (.inr ⟨strict, H.silent strict inputs expected⟩)

theorem StateOk.vacates {stack : Stack K s} (ok : H.StateOk a locks σ)
    (settled : ∀ i, .adopting i ∉ locks) (made : σ.components[H.component]? = some y)
    (dismisses : σ.Dismisses stack H.component y σ') : H.Vacant σ' := by
  cases dismisses with
  | vacant none => exact ok.vacant settled made none
  | taken has => exact ok.dismissed settled made has

theorem At.modifyOther {stack : Stack K s} {before : State K} (at' : H.At a locks before σ stack)
    (other : c ≠ H.component) {f : Component K → Component K}
    (memo : ∀ y z, σ.components[c]? = some y → σ.components[H.component]? = some z →
      (f y).memo = y.memo ∨ ((f y).memo < σ.memos.length ∧ (f y).memo ≠ z.memo))
    (current : ∀ y i, σ.components[c]? = some y → (f y).current = some i →
      y.current = some i ∨ ∃ x, σ.instances[i]? = some x ∧ ¬ x.Hears H.component) :
    H.At a locks before (σ.modifyComponent c f) stack :=
  at'.change (at'.ok.modifyOther other memo current) (.of_instances rfl)
    (congrArg _ (State.components_modifyComponent_ne _ other _))

theorem At.dismisses {stack : Stack K s} {stack' : Stack K w} {before : State K}
    (at' : H.At a locks before σ stack) (other : c ≠ H.component)
    (made : σ.components[c]? = some y) (dismisses : σ.Dismisses stack' c y σ') :
    H.At a locks before σ' stack := by
  cases dismisses with
  | vacant => exact at'
  | taken has =>
    exact at'.change (at'.ok.dismissOther other made has) (.dismiss σ c _)
      (congrArg _ (State.components_modifyComponent_ne _ other _))

end Host

namespace Config

variable {H : Host β} {a : Nat} {c : Config K} {k : ComponentId} {source : Source}
  {signal : Signal K.Artifact} {observers : List (Observer K)} {stack : Stack K .unit}

theorem Delivering.upon (delivering : c.Delivering source signal observers stack)
    (inv : H.Inv a c) : H.Upon a c stack := by
  cases delivering with
  | sent => exact inv.upon id
  | further => exact inv.below rfl rfl

/-- Only an instance tells a component, and the component is the first to hear. -/
theorem Delivering.clients (delivering : c.Delivering source signal observers stack)
    (inv : H.Inv a c) : ∀ o ∈ observers.tail, o.IsClient := by
  cases delivering with
  | further => exact fun o mem => inv.stack.1 o (List.mem_of_mem_tail mem)
  | sent σ heard =>
    subst heard
    cases source with
    | free id =>
      simp only [State.registry]
      cases found : σ.registries[id]? with
      | none => exact nofun
      | some r =>
        exact fun o mem => inv.state.clients r (List.mem_of_getElem? found) o (List.mem_of_mem_tail mem)
    | ofInstance i =>
      simp only [State.registry]
      cases found : σ.instances[i]? with
      | none => exact nofun
      | some x => exact (inv.state.orderly i x found).tail

theorem Delivering.told (delivering : c.Delivering source signal observers stack)
    (inv : H.Inv a c) (mem : .host H.component ∈ observers) :
    ∃ (i : InstanceId) (x : Instance K), c.state.instances[i]? = some x ∧ x.Hears H.component ∧
      ∀ h, signal = .forked h → Host.Genuine x h ∧ H.Turns c := by
  cases delivering with
  | further => exact (inv.stack.1 _ mem).elim
  | sent σ heard =>
    subst heard
    cases source with
    | free id =>
      simp only [State.registry] at mem
      cases found : σ.registries[id]? with
      | none => simp [found, Registry.observers] at mem
      | some r =>
        rw [found] at mem
        exact (inv.state.clients r (List.mem_of_getElem? found) _ mem).elim
    | ofInstance i =>
      obtain ⟨x, found, hears⟩ := State.hears_of_mem mem
      refine ⟨i, x, found, hears, ?_⟩
      rintro h rfl
      exact ⟨inv.control x found hears, x, found, hears⟩

theorem Reacting.upon (reacting : c.Reacting k signal stack) (inv : H.Inv a c) :
    H.Upon a c stack := by
  cases reacting with
  | intro delivering => exact (delivering.upon inv).push (delivering.clients inv) rfl

theorem Reacting.told (reacting : c.Reacting H.component signal stack) (inv : H.Inv a c) :
    ∃ (i : InstanceId) (x : Instance K), c.state.instances[i]? = some x ∧ x.Hears H.component ∧
      ∀ h, signal = .forked h → Host.Genuine x h ∧ H.Turns c := by
  cases reacting with
  | intro delivering => exact delivering.told inv (List.mem_cons_self ..)

theorem Requesting.upon (requesting : c.Requesting k stack) (inv : H.Inv a c) :
    H.Upon a c stack := by
  cases requesting with
  | told reacting => exact reacting.upon inv
  | adopted => exact inv.below rfl rfl

end Config

namespace Host

variable {H : Host β} {a : Nat} {y : Component K} {p : K.Procedure} {c d : Config K}
  {k : ComponentId}

theorem forked_leads {stack : Stack K .unit} {h : History K.Artifact} {inputs : K.Inputs}
    (reacting : c.Reacting k (.forked h) stack) (inv : H.Inv a c)
    (unlocked : stack.locksComponent k = false) (made : c.state.components[k]? = some y)
    (given : y.inputs = some inputs) (dismisses : c.state.Dismisses stack k y σ) :
    H.Leads a c ⟨.procedure, σ, .call (.build y.factory inputs), .push (.forking k h) stack⟩ := by
  have at' := reacting.upon inv
  by_cases same : k = H.component
  · subst same
    obtain ⟨i, x, found, hears, forks⟩ := reacting.told inv
    obtain ⟨genuine, turns⟩ := forks h rfl
    have alone := Stack.locks_eq_nil_iff.mpr unlocked
    have idle : ∀ i, Lock.adopting i ∉ c.stack.locks H.component := by
      simp [← at'.locked, alone]
    obtain ⟨z, made', settled⟩ := at'.ok.settled
    cases Option.some.inj (made.symm.trans made')
    have has : y.current = some i := by
      rcases (at'.ok.tenant i x found hears).place with adopting | ⟨current, -⟩
      · exact absurd adopting (idle i)
      · rwa [State.current_eq made] at current
    cases dismisses with
    | vacant none => cases none.symm.trans has
    | taken has' =>
      cases has.symm.trans has'
      have vacant := at'.ok.dismissed idle made has
      have locked : (Frame.forking H.component h : Frame K .procedure .unit).lock? H.component =
          some (.forking h) := if_pos rfl
      have ok := vacant.stateOk (H.arrives a c.state (c.state.dismiss H.component i)) [.forking h]
        (Nat.le_refl _) (by simp) fun _ z made' none => by
          rw [State.components_dismiss_self made] at made'
          cases made'
          simp [given] at none
      rw [settled.factory]
      exact .inr ⟨turns, ok.building (at'.fits.grows (.dismiss c.state _ i)) at'.free locked alone id
        (fun _ => at'.ok.passed (idle i) found hears genuine)
        (fun r built p eq _ => built p eq) (settled.expected inputs given)⟩
  · exact .inl ((at'.dismisses same made dismisses).stays_push (fun same' => absurd same' same)
      (if_neg same) (Code.Ends.of_forall (fun r p _ same' => absurd same' same) _))

theorem signal_leads (step : Config.SignalStep c d) (inv : H.Inv a c) : H.Leads a c d := by
  cases step with
  | delivered delivering => exact .inl ((delivering.upon inv).answer trivial)
  | noticed delivering =>
    exact .inl ((delivering.upon inv).call (delivering.clients inv) rfl fun _ => trivial)
  | @unheld c source signal k others stack delivering =>
    have further := (delivering.upon inv).push (f := .emitting source others signal)
      (delivering.clients inv) rfl
    exact .inl (further.answer trivial)
  | marked requesting => exact .inl ((requesting.upon inv).answer trivial)
  | requested requesting => exact .inl ((requesting.upon inv).call trivial rfl fun _ => trivial)
  | bare reacting => exact .inl ((reacting.upon inv).answer trivial)
  | forked reacting unlocked made given dismisses =>
    exact forked_leads reacting inv unlocked made given dismisses
  | rejected reacting =>
    refine .inl (At.call ?_ trivial rfl fun _ => trivial)
    exact (reacting.upon inv).modifyComponent _ (fun _ => ⟨rfl, rfl, rfl, rfl⟩) fun _ => rfl
  | hosted => exact .inl ((inv.below rfl rfl).answer trivial)

theorem locks_ne_nil {frame : Frame K s w} {rest : Stack K w} {lock : Lock K}
    (locked : frame.lock? H.component = some lock) :
    (Stack.push frame rest).locks H.component ≠ [] := by
  simp [Stack.locks, locked]

section

variable {rest : Stack K .artifact} {inputs : K.Inputs}

theorem building_leads (inv : H.Inv a ⟨.unit, σ, .run (.done ()), .push (.entering k inputs) rest⟩)
    (unlocked : rest.locksComponent k = false) (made : σ.components[k]? = some y)
    (other : y.current = none ∨ ∀ old, y.inputs = some old → K.sameInputs old inputs = false) :
    H.Leads a ⟨.unit, σ, .run (.done ()), .push (.entering k inputs) rest⟩
      ⟨.procedure, σ, .call (.build y.factory inputs), .push (.mounting k inputs) rest⟩ := by
  have at' := inv.below rfl rfl
  have expected := inv.stack.1
  by_cases same : k = H.component
  · subst same
    refine .inr ⟨⟨rfl, fun z made' => ?_⟩, ?_⟩
    · cases Option.some.inj (made.symm.trans made')
      exact other
    · obtain ⟨z, made', settled⟩ := inv.state.settled
      cases Option.some.inj (made.symm.trans made')
      have alone := Stack.locks_eq_nil_iff.mpr unlocked
      have locked : (Frame.mounting H.component inputs : Frame K .procedure .artifact).lock?
          H.component = some .mounting := if_pos rfl
      have ok : H.StateOk a [] σ := alone ▸ inv.state
      rw [settled.factory, arrives_of_seat rfl]
      exact ok.mounting.building at'.fits at'.free locked alone id expected
        (fun r built p eq _ => built p eq) (expected rfl)
  · exact .inl (at'.stays_push (fun same' => absurd same' same) (if_neg same)
      (Code.Ends.of_forall (fun r p _ same' => absurd same' same) _))

theorem Vacant.rendering (vacant : H.Vacant σ) (made : σ.components[H.component]? = some y)
    (fits : H.StackOk σ rest) (free : H.Open rest) (alone : rest.locks H.component = [])
    (built : H.built p) (settings : Settings) (expected : H.expected inputs) {before : State K}
    (before' : before.current H.component ≠ some σ.instances.length) :
    H.Inv (H.arrives a before
      ((σ.newInstance p y.memo settings [.host H.component]).2.modifyComponent H.component
        ({ · with current := some σ.instances.length, inputs := some inputs })))
      ⟨.result, (σ.newInstance p y.memo settings [.host H.component]).2.modifyComponent H.component
        ({ · with current := some σ.instances.length, inputs := some inputs }),
        .advance σ.instances.length, .push (.rendering H.component σ.instances.length) rest⟩ := by
  have ok := vacant.mounted made built settings expected
  have placed : ((σ.newInstance p y.memo settings [.host H.component]).2.modifyComponent H.component
      ({ · with current := some σ.instances.length, inputs := some inputs })).current
        H.component = some σ.instances.length := by
    have made' : (σ.newInstance p y.memo settings [.host H.component]).2.components[
        H.component]? = some y := made
    rw [State.current, State.components_modifyComponent_self, made']
    rfl
  have arrived := arrives_eq (H := H) (a := a) placed before'
    ((State.instances_newInstance σ p y.memo settings _ _).trans (if_pos rfl))
  have later : σ.Grows (σ.newInstance p y.memo settings [.host H.component]).2 :=
    .newInstance p y.memo settings _
  rw [arrived]
  refine ⟨?_, ⟨trivial, .inl free, (fits.grows later).grows (.of_instances rfl)⟩, trivial,
    .inl trivial⟩
  rw [Stack.locks, alone]
  exact ok

theorem mounted_other {before : State K} {locks : List (Lock K)}
    (at' : H.At a locks before σ rest) (other : k ≠ H.component) (made : σ.components[k]? = some y)
    (dismisses : (σ.newInstance p y.memo y.settings [.host k]).2.Dismisses rest k y σ') :
    H.Stays a locks before ⟨.result, σ'.modifyComponent k
        ({ · with current := some σ.instances.length, inputs := some inputs }),
      .advance σ.instances.length, .push (.rendering k σ.instances.length) rest⟩ := by
  have fresh : ∃ x, (σ.newInstance p y.memo y.settings [.host k]).2.instances[
      σ.instances.length]? = some x ∧ ¬ x.Hears H.component := by
    refine ⟨_, (State.instances_newInstance σ p y.memo y.settings _ _).trans (if_pos rfl), ?_⟩
    intro hears
    cases List.mem_singleton.mp hears
    exact other rfl
  have born : H.At a locks before (σ.newInstance p y.memo y.settings [.host k]).2 rest :=
    at'.change (at'.ok.newInstance p y.memo y.settings (.inr ⟨k, other, rfl⟩))
      (.newInstance p y.memo y.settings _) rfl
  have kept := born.dismisses other made dismisses
  refine At.stays_push ?_ trivial rfl trivial
  refine kept.modifyOther other (fun _ _ _ _ => .inl rfl) ?_
  rintro z i - ⟨⟩
  exact .inr (dismisses.changes.grows.deaf fresh)

theorem mounted_leads
    (inv : H.Inv a ⟨.procedure, σ, .run (.done p), .push (.mounting k inputs) rest⟩)
    (made : σ.components[k]? = some y)
    (dismisses : (σ.newInstance p y.memo y.settings [.host k]).2.Dismisses rest k y σ') :
    H.Leads a ⟨.procedure, σ, .run (.done p), .push (.mounting k inputs) rest⟩
      ⟨.result, σ'.modifyComponent k
          ({ · with current := some σ.instances.length, inputs := some inputs }),
        .advance σ.instances.length, .push (.rendering k σ.instances.length) rest⟩ := by
  by_cases same : k = H.component
  · subst same
    have locked : (Frame.mounting H.component inputs : Frame K .procedure .artifact).lock?
        H.component = some .mounting := if_pos rfl
    have built : H.built p := inv.control p rfl rfl
    have expected := inv.stack.1 rfl
    have free := inv.stack.2.1.free rfl
    obtain ⟨alone, ok⟩ := inv.state.alone locked
    have idle : ∀ i, Lock.adopting i ∉ [Lock.mounting (K := K)] := by simp
    refine .inr ⟨locks_ne_nil locked, ?_⟩
    cases dismisses with
    | vacant none =>
      refine (ok.vacant idle made none).rendering made inv.stack.2.2 free alone built y.settings
        expected ?_
      simp [State.current_eq made, none]
    | @taken old x has =>
      have lt := ok.present H.component y old made has
      have length : (σ.dismiss H.component old).instances.length = σ.instances.length :=
        State.length_modifyInstance σ old _
      have other : σ.current H.component ≠ some (σ.dismiss H.component old).instances.length := by
        rw [State.current_eq made, has, length]
        exact fun same => Nat.lt_irrefl _ (Option.some.inj same ▸ lt)
      have rendered := (ok.dismissed idle made has).rendering (a := a)
        (State.components_dismiss_self made) (inv.stack.2.2.grows (.dismiss σ _ old)) free alone
        built y.settings expected other
      rw [length] at rendered
      rw [State.dismiss_newInstance lt]
      exact rendered
  · exact .inl (mounted_other (inv.below rfl (if_neg same)) same made dismisses)

end

section

variable {rest : Stack K .unit} {h : History K.Artifact} {i : InstanceId}

/-- A new instance is to take over a history. -/
structure Founds (H : Host β) (a : Nat) (σ : State K) (i : InstanceId) (h : History K.Artifact)
    (stack : Stack K .result) : Prop where
  ok : H.StateOk a (stack.locks H.component) σ
  fits : H.StackOk σ stack
  seated : ∀ e later, H.Seated (.replaying i e later) stack
  passed : ∀ x, σ.instances[i]? = some x → x.Hears H.component →
    .adopting i ∈ stack.locks H.component ∧ H.Passed σ h

theorem Inv.founds (inv : H.Inv a ⟨.procedure, σ, .run (.done p), .push (.forking k h) rest⟩)
    (made : σ.components[k]? = some y) :
    H.Founds a (σ.newInstance p y.memo y.settings [.host k]).2 σ.instances.length h
      (.push (.adopting k σ.instances.length) rest) := by
  have later : σ.Grows (σ.newInstance p y.memo y.settings [.host k]).2 :=
    .newInstance p y.memo y.settings _
  have fits := inv.stack.2.2.grows later
  have free := inv.stack.2.1.free rfl
  by_cases same : k = H.component
  · subst same
    obtain ⟨alone, ok⟩ := inv.state.alone (if_pos rfl)
    obtain ⟨z, made', settled⟩ := ok.settled
    cases Option.some.inj (made.symm.trans made')
    have forking : ∃ lock ∈ [Lock.forking h], lock.Vacates :=
      ⟨_, List.mem_singleton_self _, trivial⟩
    have vacant := ok.vacant (by simp) made (settled.vacant forking)
    have locks : (Stack.push (.adopting H.component σ.instances.length) rest).locks H.component =
        [.adopting σ.instances.length] := by
      simp [Stack.locks, Frame.lock?, alone]
    refine ⟨?_, ⟨fun other => absurd rfl other, .inl free, fits⟩,
      fun e later => .inr ⟨_, rfl, if_pos rfl⟩, fun x _ _ => ?_⟩
    · rw [locks]
      exact vacant.adopting made (settled.given (.inr forking)) (inv.control p rfl rfl) y.settings a
    · rw [locks]
      exact ⟨List.mem_singleton_self _, Passed.grows (inv.stack.1 rfl) later⟩
  · have deaf : ∀ x, (σ.newInstance p y.memo y.settings [.host k]).2.instances[
        σ.instances.length]? = some x → ¬ x.Hears H.component := by
      intro x found hears
      rw [State.instances_newInstance, if_pos rfl] at found
      cases found
      cases List.mem_singleton.mp hears
      exact same rfl
    have born := (State.instances_newInstance σ p y.memo y.settings [.host k] _).trans (if_pos rfl)
    have at' := inv.below rfl (if_neg same)
    have new := at'.change (at'.ok.newInstance p y.memo y.settings (.inr ⟨k, same, rfl⟩)) later rfl
    have adopting := new.push (f := .adopting k σ.instances.length)
      (fun _ => ⟨_, born, deaf _ born⟩) (if_neg same)
    exact ⟨adopting.locked ▸ adopting.ok, adopting.fits, fun e later => .inl adopting.free,
      fun x found hears => absurd hears (deaf x found)⟩

theorem Stays.founded {i : InstanceId}
    (stays : H.Stays a ((Stack.push (.adopting k i) rest).locks H.component) σ d) :
    H.Leads a ⟨.procedure, σ, .run (.done p), .push (.forking k h) rest⟩ d := by
  by_cases same : k = H.component
  · refine .inr ⟨locks_ne_nil (if_pos same), ?_⟩
    rw [arrives_of_seat stays.seat]
    exact stays.inv
  · have adopting : (Frame.adopting k i : Frame K .result .unit).lock? H.component = none :=
      if_neg same
    have forking : (Frame.forking k h : Frame K .procedure .unit).lock? H.component = none :=
      if_neg same
    refine .inl ?_
    rw [Stack.locks, adopting] at stays
    rw [Stack.locks, forking]
    exact stays

theorem StateOk.taken (ok : H.StateOk a [.adopting i] σ) (fits : H.StackOk σ rest)
    (free : H.Open rest) (alone : rest.locks H.component = []) {f : Component K → Component K}
    (same : ∀ y, (f y).factory = y.factory ∧ (f y).inputs = y.inputs ∧ (f y).memo = y.memo ∧
      (f y).current = some i) :
    H.Inv (H.arrives a σ (σ.modifyComponent H.component f)) ⟨.unit, σ.modifyComponent H.component f,
      .run (.done ()), .push (.requesting H.component) rest⟩ := by
  obtain ⟨y, made, settled⟩ := ok.settled
  obtain ⟨x, found, -⟩ := settled.tells i (.inr (List.mem_singleton_self _))
  have vacant := settled.vacant ⟨_, List.mem_singleton_self _, trivial⟩
  have there : H.At x.history.length [] (σ.modifyComponent H.component f)
      (σ.modifyComponent H.component f) rest :=
    ⟨ok.adopted found same, fits.grows (.of_instances rfl), free, rfl, alone⟩
  have pushed := there.push (f := .requesting H.component) trivial rfl
  have arrived : H.arrives a σ (σ.modifyComponent H.component f) = x.history.length := by
    refine arrives_eq (i := i) ?_ ?_ found
    · rw [State.current, State.components_modifyComponent_self, made]
      exact (same y).2.2.2
    · simp [State.current_eq made, vacant]
  rw [arrived]
  exact (pushed.answer trivial).inv

theorem adopted_leads {result : Except Fault Unit}
    (inv : H.Inv a ⟨.result, σ, .run (.done result), .push (.adopting k i) rest⟩) :
    H.Leads a ⟨.result, σ, .run (.done result), .push (.adopting k i) rest⟩
      ⟨.unit, σ.modifyComponent k (·.adopt i result), .run (.done ()),
        .push (.requesting k) rest⟩ := by
  by_cases same : k = H.component
  · subst same
    obtain ⟨alone, ok⟩ := inv.state.alone (if_pos rfl)
    refine .inr ⟨locks_ne_nil (if_pos rfl), ?_⟩
    exact ok.taken inv.stack.2.2 (inv.stack.2.1.free rfl) alone fun _ => ⟨rfl, rfl, rfl, rfl⟩
  · have put := (inv.below rfl (if_neg same)).modifyOther same (f := (·.adopt i result))
      (fun _ _ _ _ => .inl rfl) (by
        rintro z j - ⟨⟩
        exact .inr (inv.stack.1 same))
    exact .inl ((put.push (f := .requesting k) trivial rfl).answer trivial)

end

theorem host_leads (step : Config.HostStep c d) (inv : H.Inv a c) (admits : H.Admits c) :
    H.Leads a c d := by
  cases step with
  | @marked s σ k y inputs next stack =>
    have asked := (inv.upon id).push (f := .waiting next) inv.control rfl
    have marked := asked.modifyComponent k (f := ({ · with rendering := true }))
      (fun _ => ⟨rfl, rfl, rfl, rfl⟩) fun _ => rfl
    exact .inl ((marked.push (f := .entering k inputs) admits rfl).answer trivial)
  | continued => exact .inl ((inv.below rfl rfl).stays_push trivial rfl trivial)
  | building unlocked made other => exact building_leads inv unlocked made other
  | mounted inputs made dismisses => exact mounted_leads inv made dismisses
  | @unmarked σ k y i x result rest =>
    have cleared := (inv.below rfl rfl).modifyComponent k (f := ({ · with rendering := false }))
      (fun _ => ⟨rfl, rfl, rfl, rfl⟩) fun _ => rfl
    exact .inl ((cleared.push (f := .reviewing k) trivial rfl).answer trivial)
  | reviewed => exact .inl ((inv.below rfl rfl).answer trivial)
  | again => exact .inl ((inv.below rfl rfl).call trivial rfl fun _ => trivial)
  | rerendered => exact .inl ((inv.below rfl rfl).answer trivial)
  | @empty σ k y p rest made =>
    refine Stays.founded (i := σ.instances.length) ?_
    have founds := inv.founds made
    exact founds.fits.replayed founds.ok rfl
  | @replaying σ k y e later p rest made =>
    refine Stays.founded (i := σ.instances.length) ?_
    have founds := inv.founds made
    have born := (State.instances_newInstance σ p y.memo y.settings [.host k] _).trans (if_pos rfl)
    exact founds.fits.replay founds.ok (founds.seated e later) rfl born rfl (founds.passed _ born)
  | adopted => exact adopted_leads inv

end Host

end Resumable
