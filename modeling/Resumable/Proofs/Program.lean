import Resumable.Proofs.Firing
import Resumable.Proofs.Slots

namespace Resumable

variable {K : Client} {β : Behaviour K} {M : Meaning β}

/-- A component whose factory builds a deterministic procedure from some inputs. -/
structure Program (M : Meaning β) where
  component : ComponentId
  memo : MemoId
  factory : K.Factory
  inputs : K.Inputs
  start : K.Procedure
  settings : Settings
  build : (β.code (.build factory inputs)).Gives (.ok start)
  deterministic : M.procedures start start
  coherent : M.Coherent start settings

namespace Program

variable (P : Program M)

abbrev plan (firings : List (Position × Value)) : Plan K :=
  .slotted P.start P.settings (.fired firings)

abbrev family (slots : InstanceId → Slots) : Family M :=
  .slotted P.memo P.start P.settings P.deterministic P.coherent slots

abbrev host : Host β where
  component := P.component
  factory := P.factory
  expected := (· = P.inputs)
  built := (· = P.start)
  carried _ _ := False
  kept _ _ := False
  strict := true
  empty _ _ _ := id
  build := by
    rintro _ rfl
    refine P.build.ends.imp ?_
    rintro _ rfl p ⟨⟩
    rfl
  silent := by
    rintro - _ rfl
    exact P.build.imp fun _ given => ⟨_, given⟩
  resume p input := Code.Ends.of_forall (fun _ _ _ _ _ passes => by simp at passes) _

/-- The setter of the current instance that the client fires, and with which value. -/
def fired? : Config K → Option (Setter K.Artifact × Value)
  | ⟨_, σ, .run (.call (.fire setter v) _), _⟩ =>
    if σ.current P.component = some setter.owner then some (setter, v) else none
  | _ => none

/-- The positions of the slots whose setters have been fired along a run, and the values. -/
def firings (t : List (Config K × Config K)) : List (Position × Value) :=
  t.filterMap fun p => (P.fired? p.1).map fun (setter, v) => (setter.position, v)

def handed (t : List (Config K × Config K)) : History K.Artifact :=
  (t.filterMap fun p => (P.fired? p.1).map fun (setter, v) =>
    setter.before ++ [.state v]).getLast?.getD []

/-- What the current instance is about to hand on to the component. -/
def forked? : Config K → Option (History K.Artifact)
  | ⟨_, σ, .emit (.ofInstance i) (.forked h), _⟩ =>
    if σ.current P.component = some i then some h else none
  | _ => none

theorem firings_snoc (t : List (Config K × Config K)) (c d : Config K) :
    P.firings (t ++ [(c, d)]) = P.firings t ++
      ((P.fired? c).map fun (setter, v) => (setter.position, v)).toList := by
  simp only [firings, List.filterMap_append, List.filterMap_cons, List.filterMap_nil]
  cases P.fired? c <;> rfl

theorem handed_snoc (t : List (Config K × Config K)) (c d : Config K) :
    P.handed (t ++ [(c, d)]) =
      ((P.fired? c).map fun (setter, v) => setter.before ++ [.state v]).getD (P.handed t) := by
  simp only [handed, List.filterMap_append, List.filterMap_cons, List.filterMap_nil]
  cases P.fired? c <;> simp

def Other (σ : State K) (i : InstanceId) : Prop :=
  ∀ x, σ.instances[i]? = some x → x.memo ≠ P.memo

/-- What the client may ask for. It renders the component with the inputs alone, fires no setters of
its instance but those that the instance was fed, and leaves all else that is on the memo alone. -/
def Permits : Config K → Prop
  | ⟨_, σ, .run (.call request _), _⟩ =>
    match request with
    | .remember m _ _ _ => m ≠ P.memo
    | .newInstance _ m _ => m ≠ P.memo
    | .replay i _ => P.Other σ i
    | .terminate i => P.Other σ i
    | .unsubscribe (.ofInstance i) n => n ≠ 0 ∨ P.Other σ i
    | .fire setter _ => σ.current P.component = some setter.owner → ∃ x w,
      σ.instances[setter.owner]? = some x ∧ setter.before ++ [.state w] <+: x.history
    | .render c inputs => c = P.component → inputs = P.inputs
    | .reset c => c ≠ P.component
    | .unmount c => c ≠ P.component
    | _ => True
  | _ => True

/-- The client holds the component and does what it may. -/
structure Drives (c : Config K) : Prop where
  held : .ofComponent P.component ∈ c.state.held
  permits : P.Permits c

def Home (σ : State K) : Prop :=
  ∃ y, σ.components[P.component]? = some y ∧ y.memo = P.memo ∧ y.settings = P.settings

variable {P : Program M} {slots slots' : InstanceId → Slots} {firings : List (Position × Value)}
  {a : Nat} {c d : Config K} {s w : Shape} {σ : State K} {i : InstanceId} {x : Instance K}

theorem Home.memo (home : P.Home σ) {y : Component K} (made : σ.components[P.component]? = some y) :
    y.memo = P.memo := by
  obtain ⟨z, made', memo, -⟩ := home
  cases made.symm.trans made'
  exact memo

theorem memo_of_hears {locks : List (Lock K)} (ok : P.host.StateOk a locks σ) (home : P.Home σ)
    (found : σ.instances[i]? = some x) (hears : x.Hears P.component) : x.memo = P.memo := by
  obtain ⟨y, made, -⟩ := ok.settled
  rw [(ok.tenant i x found hears).memo y made, home.memo made]

theorem current_hears {locks : List (Lock K)} (ok : P.host.StateOk a locks σ)
    (current : σ.current P.component = some i) :
    ∃ x, σ.instances[i]? = some x ∧ x.Hears P.component := by
  obtain ⟨y, made, settled⟩ := ok.settled
  rw [State.current_eq made] at current
  obtain ⟨x, found, hears | ⟨none, -⟩⟩ := settled.tells i (.inl current)
  · exact ⟨x, found, hears⟩
  · cases none

theorem current_of_hears (ok : P.host.StateOk a [] σ) (found : σ.instances[i]? = some x)
    (hears : x.Hears P.component) : σ.current P.component = some i := by
  rcases (ok.tenant i x found hears).place with adopting | ⟨current, -⟩
  · cases adopting
  · exact current

theorem Permits.hosted (permits : P.Permits c) (ok : P.host.StateOk a [] c.state)
    (home : P.Home c.state) (alone : c.stack.locks P.component = []) : P.host.Admits c := by
  obtain ⟨s, σ, control, stack⟩ := c
  have memo : ∀ {i : InstanceId} {x : Instance K}, σ.instances[i]? = some x → x.Hears P.component →
      x.memo = P.memo := fun found hears => memo_of_hears ok home found hears
  cases control with
  | run code =>
    cases code with
    | panic payload => exact alone
    | call request next =>
      cases request with
      | unsubscribe source n =>
        cases source with
        | free id => trivial
        | ofInstance i =>
          intro x found hears
          rcases permits with own | other
          · exact own
          · exact absurd (memo found hears) (other x found)
      | replay i h => exact fun x found hears => permits x found (memo found hears)
      | terminate i => exact fun _ x found hears => permits x found (memo found hears)
      | fire setter v =>
        intro x found hears
        obtain ⟨x', w, found', begins⟩ := permits (current_of_hears ok found hears)
        cases found.symm.trans found'
        exact ⟨w, begins⟩
      | render c inputs => exact permits
      | _ => trivial
    | _ => trivial
  | _ => trivial

theorem admits_of_permits (permits : (P.family slots).Permits c) : (P.family slots).Admits c :=
  ⟨by rintro ⟨⟩, permits⟩

theorem Permits.family (permits : P.Permits c) (ok : P.host.StateOk a [] c.state)
    (home : P.Home c.state) (alone : c.stack.locks P.component = []) :
    (P.family slots).Admits c := by
  refine admits_of_permits ?_
  obtain ⟨s, σ, control, stack⟩ := c
  -- Other components have other memos.
  have apart : ∀ (c : ComponentId) y, σ.components[c]? = some y → y.memo = P.memo →
      c = P.component := by
    intro c y made same
    obtain ⟨z, made', settled⟩ := ok.settled
    exact settled.alone c y made (same.trans (home.memo made').symm)
  cases control with
  | run code =>
    cases code with
    | call request next =>
      cases request with
      | remember => exact permits
      | clearMemo => exact fun _ => rfl
      | newInstance => exact fun same => absurd same permits
      | replay i h => exact fun x member => absurd member.2 (permits x member.1)
      | _ => trivial
    | done answer =>
      cases stack with
      | empty => trivial
      | @push _ w frame rest =>
        cases frame with
        | mounting id inputs =>
          intro y made same
          cases apart id y made same
          simp [Stack.locks, Frame.lock?] at alone
        | forking id h =>
          intro y made same
          cases apart id y made same
          simp [Stack.locks, Frame.lock?] at alone
        | waiting next =>
          cases s
          case procedure => cases w <;> trivial
          all_goals trivial
        | _ => trivial
    | _ => trivial
  | _ => trivial

theorem hosted_of_only {control : Control K s} {Q : Except Payload (s.Answer K) → Prop}
    (only : control.Only β Q) (calm : ∀ payload, ¬ Q (.error payload)) (stack : Stack K s) :
    P.host.Admits ⟨s, σ, control, stack⟩ := by
  cases control with
  | run code =>
    cases code with
    | panic payload => exact absurd only (calm payload)
    | call => exact only.elim
    | _ => trivial
  | _ => trivial

theorem family_of_only {control : Control K s} {Q : Except Payload (s.Answer K) → Prop}
    (only : control.Only β Q) (unfinished : ∀ answer, control ≠ .run (.done answer))
    (stack : Stack K s) : (P.family slots).Admits ⟨s, σ, control, stack⟩ := by
  refine admits_of_permits ?_
  cases control with
  | run code =>
    cases code with
    | done answer => exact absurd rfl (unfinished answer)
    | call => exact only.elim
    | _ => trivial
  | _ => trivial

theorem Home.of_components {σ' : State K} (home : P.Home σ)
    (same : σ'.components = σ.components) : P.Home σ' := by
  obtain ⟨y, made, kept⟩ := home
  exact ⟨y, same ▸ made, kept⟩

theorem Home.of_seat {σ' : State K} (home : P.Home σ)
    (same : σ'.seat P.component = σ.seat P.component) : P.Home σ' := by
  obtain ⟨y, made, memo, settings⟩ := home
  simp only [State.seat, made, Option.map_some] at same
  obtain ⟨z, made', eq⟩ := Option.map_eq_some_iff.mp same
  simp only [Prod.mk.injEq] at eq
  exact ⟨z, made', eq.2.2.1.trans memo, eq.2.2.2.trans settings⟩

theorem Home.modify {f : Component K → Component K} (home : P.Home σ)
    (same : ∀ y, (f y).memo = y.memo ∧ (f y).settings = y.settings) :
    P.Home (σ.modifyComponent P.component f) := by
  obtain ⟨y, made, memo, settings⟩ := home
  refine ⟨f y, ?_, (same y).1.trans memo, (same y).2.trans settings⟩
  rw [State.components_modifyComponent_self, made]
  rfl

end Program

end Resumable
