import Resumable.Proofs.Hosting
import Resumable.Proofs.Passage

namespace Resumable

variable {K : Client} {β : Behaviour K} {s u w : Shape} {σ σ' : State K} {k id : ComponentId}
  {i : InstanceId}

def Frame.rendered? : Frame K s w → Option ComponentId
  | entering id _ => some id
  | mounting id _ => some id
  | rendering id _ => some id
  | _ => none

def Frame.revisited? : Frame K s w → Option ComponentId
  | entering id _ => some id
  | mounting id _ => some id
  | rendering id _ => some id
  | reviewing id => some id
  | requesting id => some id
  | _ => none

def Frame.requested? : Frame K s w → Option ComponentId
  | rerendering id _ => some id
  | hosting id => some id
  | _ => none

def Frame.adopted? : Frame K s w → Option (ComponentId × InstanceId)
  | adopting id fresh => some (id, fresh)
  | _ => none

theorem Frame.revisited?_of_rendered {frame : Frame K s w} (h : frame.rendered? = some k) :
    frame.revisited? = some k := by
  cases frame <;> first | exact h | cases h

namespace Stack

def renders (stack : Stack K s) (k : ComponentId) : Bool :=
  stack.any (·.rendered? = some k)

def revisits (stack : Stack K s) (k : ComponentId) : Bool :=
  stack.any (·.revisited? = some k)

def adopts (stack : Stack K s) (k : ComponentId) (i : InstanceId) : Bool :=
  stack.any (·.adopted? = some (k, i))

variable {frame : Frame K s w} {rest : Stack K w}

theorem renders_push (h : frame.rendered? ≠ some k) :
    (push frame rest).renders k = rest.renders k := by
  simp [renders, any, h]

theorem renders_push_self (h : frame.rendered? = some k) : (push frame rest).renders k = true := by
  simp [renders, any, h]

theorem revisits_push (h : frame.revisited? ≠ some k) :
    (push frame rest).revisits k = rest.revisits k := by
  simp [revisits, any, h]

theorem revisits_push_self (h : frame.revisited? = some k) :
    (push frame rest).revisits k = true := by
  simp [revisits, any, h]

theorem any_mono {p q : {s w : Shape} → Frame K s w → Bool} {stack : Stack K s}
    (imp : ∀ {s w : Shape} (frame : Frame K s w), p frame = true → q frame = true)
    (h : stack.any p = true) : stack.any q = true := by
  induction stack with
  | empty => exact h
  | push frame rest ih =>
    rcases Bool.or_eq_true _ _ ▸ h with own | below
    · rw [any, imp frame own, Bool.true_or]
    · rw [any, ih below, Bool.or_true]

theorem revisits_of_renders {stack : Stack K s} (h : stack.renders k = true) :
    stack.revisits k = true :=
  any_mono (fun _ own => decide_eq_true (Frame.revisited?_of_rendered (of_decide_eq_true own))) h

theorem adopts_push (h : frame.adopted? ≠ some (k, i)) :
    (push frame rest).adopts k i = rest.adopts k i := by
  simp [adopts, any, h]

theorem adopts_below (h : rest.adopts k i = true) : (push frame rest).adopts k i = true := by
  simp only [adopts, any] at h ⊢
  rw [h, Bool.or_true]

structure Alike (k : ComponentId) (stack : Stack K s) (other : Stack K w) : Prop where
  renders : stack.renders k = other.renders k
  revisits : stack.revisits k = other.revisits k
  adopts : ∀ i, stack.adopts k i = other.adopts k i

theorem Alike.refl (stack : Stack K s) : Alike k stack stack :=
  ⟨rfl, rfl, fun _ => rfl⟩

theorem Alike.symm {stack : Stack K s} {other : Stack K w} (h : Alike k stack other) :
    Alike k other stack :=
  ⟨h.renders.symm, h.revisits.symm, fun i => (h.adopts i).symm⟩

theorem Alike.trans {stack : Stack K s} {other : Stack K w} {third : Stack K u}
    (h : Alike k stack other) (h' : Alike k other third) : Alike k stack third :=
  ⟨h.renders.trans h'.renders, h.revisits.trans h'.revisits,
    fun i => (h.adopts i).trans (h'.adopts i)⟩

theorem Alike.push (revisited : frame.revisited? ≠ some k)
    (adopted : ∀ i, frame.adopted? ≠ some (k, i)) : Alike k (.push frame rest) rest where
  renders := renders_push fun h => revisited (Frame.revisited?_of_rendered h)
  revisits := revisits_push revisited
  adopts i := adopts_push (adopted i)

theorem Alike.over {third : Stack K u} (h : Alike k rest third)
    (revisited : frame.revisited? = none) (adopted : frame.adopted? = none) :
    Alike k (.push frame rest) third :=
  (Alike.push (by simp [revisited]) (by simp [adopted])).trans h

end Stack

def Instance.Reports (x : Instance K) (k : ComponentId) : Prop :=
  x.status = .terminated ∨ ∃ later, x.registry.entries = (0, .host k) :: later

namespace State

def Paused (σ : State K) (i : InstanceId) : Prop :=
  (σ.instances[i]?).map (·.status) = some .paused

def Reports (σ : State K) (k : ComponentId) (i : InstanceId) : Prop :=
  ∃ x, σ.instances[i]? = some x ∧ x.Reports k

end State

/-- The callback of a component is invoked on the component's account. -/
inductive Config.Invokes (k : ComponentId) : Config K → Prop
  | intro {w : Shape} (σ : State K) (y : Component K) (found : σ.components[k]? = some y)
    (frame : Frame K .unit w) (own : frame.requested? = some k) (rest : Stack K w) :
    Invokes k ⟨.unit, σ, .call (.rerender y.callback), .push frame rest⟩

/-- What a step can mean for a component, from a state and a stack on. A mark comes with a render and
goes when a render is answered; what is left of a render or a fork invokes the callback if the
instance is paused, unless it finds the mark of a render; and an instance that takes the place is
still to be looked at. -/
structure Visit (k : ComponentId) (σ : State K) (stack : Stack K s) (d : Config K) : Prop where
  marked : d.state.marked k = true → σ.marked k = true ∨ d.stack.renders k = true
  renders : stack.renders k = true → d.stack.renders k = true ∨ d.state.marked k = false
  revisits : stack.revisits k = true → d.stack.revisits k = true ∨ d.state.marked k = true ∨
    ∀ i, d.state.current k = some i → d.state.Paused i → d.Invokes k
  adopts : ∀ i, d.stack.adopts k i = true → stack.adopts k i = true ∨ d.state.Reports k i
  current : ∀ i, d.state.current k = some i → σ.current k = some i ∨
    ((stack.adopts k i = true ∨ d.state.Reports k i) ∧ d.stack.revisits k = true)

namespace Visit

variable {stack : Stack K s} {d : Config K}

theorem of_same (marked : d.state.marked k = σ.marked k)
    (current : ∀ i, d.state.current k = some i → σ.current k = some i)
    (frames : Stack.Alike k d.stack stack) : Visit k σ stack d where
  marked h := .inl (marked ▸ h)
  renders h := .inl (frames.renders ▸ h)
  revisits h := .inl (frames.revisits ▸ h)
  adopts i h := .inl (frames.adopts i ▸ h)
  current i h := .inl (current i h)

theorem of_kept (marked : d.state.marked k = σ.marked k)
    (current : d.state.current k = σ.current k) (frames : Stack.Alike k d.stack stack) :
    Visit k σ stack d :=
  .of_same marked (fun _ h => current.symm.trans h) frames

theorem of_components (components : d.state.components = σ.components)
    (frames : Stack.Alike k d.stack stack) : Visit k σ stack d :=
  .of_kept (by rw [State.marked, components, State.marked])
    (by rw [State.current, components, State.current]) frames

end Visit

namespace State

theorem current_modifyComponent_ne {f : Component K → Component K} (ne : id ≠ k) :
    (σ.modifyComponent id f).current k = σ.current k := by
  rw [current, components_modifyComponent_ne _ ne, current]

theorem current_modifyComponent {f : Component K → Component K}
    (same : ∀ y, (f y).current = y.current) :
    (σ.modifyComponent id f).current k = σ.current k := by
  simp only [current, components_modifyComponent]
  cases σ.components[k]? with
  | none => rfl
  | some y =>
    simp only [Option.map_some, Option.bind_some]
    split
    · exact same y
    · rfl

theorem marked_dismiss (old : Option InstanceId) : (σ.dismiss id old).marked k = σ.marked k := by
  cases old <;> exact marked_modifyComponent fun _ => rfl

theorem current_dismiss {old : Option InstanceId} (h : (σ.dismiss id old).current k = some i) :
    id ≠ k ∧ σ.current k = some i := by
  have components : (σ.dismiss id old).components =
      (σ.modifyComponent id fun y => { y with current := none }).components := by
    cases old <;> rfl
  simp only [current, components, components_modifyComponent] at h ⊢
  cases found : σ.components[k]? with
  | none => simp [found] at h
  | some y =>
    by_cases same : id = k
    · simp [found, same] at h
    · simpa [found, same] using h

theorem current_newComponent (factory : K.Factory) (callback : K.Callback) (settings : Settings) :
    (σ.newComponent factory callback settings).2.current k = σ.current k := by
  simp only [current, newComponent, newMemo, List.getElem?_append]
  split
  · rfl
  · next beyond =>
    rw [List.getElem?_eq_none (Nat.le_of_not_lt beyond)]
    cases k - σ.components.length <;> rfl

theorem reports_newInstance (p : K.Procedure) (m : MemoId) (settings : Settings) :
    (σ.newInstance p m settings [.host k]).2.Reports k σ.instances.length :=
  ⟨_, (instances_newInstance ..).trans (if_pos rfl), .inr ⟨[], rfl⟩⟩

theorem Reports.dismiss {old : InstanceId} (h : σ.Reports k i) : (σ.dismiss id old).Reports k i := by
  obtain ⟨x, found, reports⟩ := h
  refine ⟨_, (σ.instances_modifyInstance old i _).trans (congrArg _ found), ?_⟩
  split
  · exact .inl rfl
  · exact reports

theorem Reports.lend {j : InstanceId} (h : σ.Reports k i) :
    (σ.modifyInstance j (·.lend)).Reports k i := by
  obtain ⟨x, found, reports⟩ := h
  refine ⟨_, (σ.instances_modifyInstance j i _).trans (congrArg _ found), ?_⟩
  split
  · exact reports
  · exact reports

theorem current_modifyComponent_self {f : Component K → Component K} {fresh : InstanceId}
    (takes : ∀ y, (f y).current = some fresh) (h : (σ.modifyComponent k f).current k = some i) :
    i = fresh := by
  simp only [current, components_modifyComponent_self] at h
  cases found : σ.components[k]? with
  | none => simp [found] at h
  | some y =>
    simp only [found, Option.map_some, Option.bind_some, takes] at h
    exact (Option.some.inj h).symm

variable {stack : Stack K s} {y : Component K}

theorem Dismisses.marked (dismisses : σ.Dismisses stack id y σ') : σ'.marked k = σ.marked k := by
  cases dismisses with
  | vacant => rfl
  | taken => exact marked_dismiss _

theorem Dismisses.current (dismisses : σ.Dismisses stack id y σ')
    (h : σ'.current k = some i) : σ.current k = some i := by
  cases dismisses with
  | vacant => exact h
  | taken => exact (current_dismiss h).2

theorem Dismisses.current_ne (dismisses : σ.Dismisses stack id y σ') (ne : id ≠ k) :
    σ'.current k = σ.current k := by
  cases dismisses with
  | vacant => rfl
  | taken => exact current_modifyComponent_ne ne

theorem Dismisses.reports (dismisses : σ.Dismisses stack id y σ') (h : σ.Reports k i) :
    σ'.Reports k i := by
  cases dismisses with
  | vacant => exact h
  | taken => exact h.dismiss

end State

namespace Config

variable {c d : Config K} {stack : Stack K .unit}

theorem Draining.alike (draining : c.Draining stack) : Stack.Alike k stack c.stack := by
  cases draining <;> exact ⟨rfl, rfl, fun _ => rfl⟩

theorem Completes.alike {task : Task K} {outcome : Except Failure Value}
    (completes : c.Completes stack task outcome) : Stack.Alike k stack c.stack := by
  cases completes <;> exact ⟨rfl, rfl, fun _ => rfl⟩

theorem Delivering.alike {source : Source} {signal : Signal K.Artifact}
    {observers : List (Observer K)} (delivering : c.Delivering source signal observers stack) :
    Stack.Alike k stack c.stack := by
  cases delivering <;> exact ⟨rfl, rfl, fun _ => rfl⟩

theorem Reacting.alike {signal : Signal K.Artifact} (reacting : c.Reacting id signal stack) :
    Stack.Alike k stack c.stack := by
  cases reacting with
  | intro delivering => exact delivering.alike.over rfl rfl

theorem Requesting.alike (requesting : c.Requesting id stack) (other : id ≠ k) :
    Stack.Alike k stack c.stack := by
  cases requesting with
  | told reacting => exact reacting.alike
  | adopted =>
    exact (Stack.Alike.push (by simpa [Frame.revisited?] using other) (by simp [Frame.adopted?])).symm

/-- No panic passes a render of a component, or a fork that is still to request one. -/
def Spares (k : ComponentId) : Config K → Prop
  | ⟨_, _, .run (.panic _), .push frame _⟩ => frame.revisited? ≠ some k
  | _ => True

theorem CodeStep.visit (step : CodeStep β c d) (spares : c.Spares k) :
    Visit k c.state c.stack d := by
  have registry : ∀ (σ : State K) (source : Source)
      (f : Registry (Observer K) → Registry (Observer K)),
      (σ.modifyRegistry source f).components = σ.components := by
    intro σ source f
    cases source <;> rfl
  cases step with
  | replied replies =>
    cases replies with
    | subscribe source => exact .of_components (registry _ source _) ⟨rfl, rfl, fun _ => rfl⟩
    | unsubscribe source => exact .of_components (registry _ source _) ⟨rfl, rfl, fun _ => rfl⟩
    | newComponent =>
      exact .of_kept (State.marked_newComponent ..) (State.current_newComponent ..)
        ⟨rfl, rfl, fun _ => rfl⟩
    | reset _ _ dismisses =>
      refine .of_same (Eq.trans (State.marked_modifyComponent ?_) dismisses.marked) (fun i h => ?_)
        ⟨rfl, rfl, fun _ => rfl⟩
      · exact fun _ => rfl
      · refine dismisses.current (Eq.trans (Eq.symm (State.current_modifyComponent ?_)) h)
        exact fun _ => rfl
    | unmount _ _ dismisses =>
      exact .of_same dismisses.marked (fun _ => dismisses.current) ⟨rfl, rfl, fun _ => rfl⟩
    | takeFault =>
      exact .of_kept (State.marked_modifyComponent fun _ => rfl)
        (State.current_modifyComponent fun _ => rfl) ⟨rfl, rfl, fun _ => rfl⟩
    | _ => exact .of_components rfl ⟨rfl, rfl, fun _ => rfl⟩
  | dropped =>
    refine ⟨.inl, fun h => .inl ?_, fun h => .inl ?_, fun i h => .inl (Stack.adopts_below h),
      fun i h => .inl h⟩
    · rwa [Stack.renders_push fun h => spares (Frame.revisited?_of_rendered h)] at h
    · rwa [Stack.revisits_push spares] at h
  | _ => exact .of_components rfl ⟨rfl, rfl, fun _ => rfl⟩

theorem DriveStep.visit (step : DriveStep c d) : Visit k c.state c.stack d := by
  cases step <;> exact .of_components rfl ⟨rfl, rfl, fun _ => rfl⟩

theorem ReplayStep.visit (step : ReplayStep c d) : Visit k c.state c.stack d := by
  cases step <;> exact .of_components rfl ⟨rfl, rfl, fun _ => rfl⟩

theorem TaskStep.visit (step : TaskStep c d) : Visit k c.state c.stack d := by
  cases step with
  | gone completes => exact .of_components rfl completes.alike
  | ignored completes => exact .of_components rfl completes.alike
  | settled completes _ _ _ stored =>
    refine .of_components ?_ (completes.alike.over rfl rfl)
    rcases stored with rfl | ⟨keys, -, rfl⟩
    · rfl
    · rfl
  | rejected completes => exact .of_components rfl (completes.alike.over rfl rfl)
  | polled draining =>
    have under : Stack.Alike k (.push .draining _) c.stack := draining.alike.over rfl rfl
    exact .of_components rfl (under.over rfl rfl)
  | _ => exact .of_components rfl ⟨rfl, rfl, fun _ => rfl⟩

/-- A request that is not left out invokes the callback or finds a mark. -/
theorem SignalStep.visit (step : SignalStep c d) : Visit k c.state c.stack d := by
  cases step with
  | delivered delivering => exact .of_components rfl delivering.alike
  | noticed delivering => exact .of_components rfl (delivering.alike.over rfl rfl)
  | unheld delivering => exact .of_components rfl (delivering.alike.over rfl rfl)
  | @marked c id y stack requesting made rendering =>
    by_cases same : id = k
    · subst same
      cases requesting with
      | told reacting => exact .of_components rfl reacting.alike
      | adopted σ =>
        refine ⟨.inl, .inl, fun _ => .inr (.inl ?_), fun i h => .inl h, fun i => .inl⟩
        rw [State.marked, made, Option.any_some, rendering]
    · exact .of_components rfl (requesting.alike same)
  | @requested c id y stack requesting made =>
    have frames : Stack.Alike k (.push (.hosting id) stack) stack := ⟨rfl, rfl, fun _ => rfl⟩
    by_cases same : id = k
    · subst same
      cases requesting with
      | told reacting => exact .of_components rfl (frames.trans reacting.alike)
      | adopted σ =>
        refine ⟨.inl, .inl, fun _ => .inr (.inr fun i _ _ => ?_), fun i h => .inl h, fun i => .inl⟩
        exact .intro _ y made (.hosting id) rfl stack
    · exact .of_components rfl (frames.trans (requesting.alike same))
  | bare reacting => exact .of_components rfl reacting.alike
  | forked reacting _ _ _ dismisses =>
    exact .of_same dismisses.marked (fun _ => dismisses.current)
      (reacting.alike.over rfl rfl)
  | rejected reacting =>
    exact .of_kept (State.marked_modifyComponent fun _ => rfl)
      (State.current_modifyComponent fun _ => rfl) (reacting.alike.over rfl rfl)
  | hosted => exact .of_components rfl ⟨rfl, rfl, fun _ => rfl⟩

end Config

namespace Config

variable {c d : Config K}

/-- A new instance of a component is to be adopted, and reports to it. -/
theorem founded_visit {rest : Stack K .unit} {h : History K.Artifact} {fresh : InstanceId}
    (components : d.state.components = σ.components)
    (frames : Stack.Alike k d.stack (.push (.adopting id fresh) rest))
    (reports : id = k → d.state.Reports k fresh) :
    Visit k σ (.push (.forking id h) rest) d := by
  have marked : d.state.marked k = σ.marked k := by rw [State.marked, components, State.marked]
  have current : d.state.current k = σ.current k := by rw [State.current, components, State.current]
  refine ⟨fun h => .inl (marked ▸ h), fun h => .inl (frames.renders.trans h),
    fun h => .inl (frames.revisits.trans h), fun i h => ?_, fun i h => .inl (current ▸ h)⟩
  rw [frames.adopts i] at h
  rcases Bool.or_eq_true _ _ ▸ h with own | later
  · obtain ⟨same, rfl⟩ : id = k ∧ fresh = i := by simpa [Frame.adopted?] using own
    exact .inr (reports same)
  · exact .inl later

theorem mounted_visit {σ' : State K} {y : Component K} {p : K.Procedure} {inputs : K.Inputs}
    {rest : Stack K .artifact}
    (dismisses : (σ.newInstance p y.memo y.settings [.host id]).2.Dismisses rest id y σ') :
    Visit k σ (.push (.mounting id inputs) rest)
      ⟨.result, σ'.modifyComponent id
          ({ · with current := some σ.instances.length, inputs := some inputs }),
        .advance σ.instances.length, .push (.rendering id σ.instances.length) rest⟩ := by
  by_cases same : id = k
  · subst same
    refine ⟨fun _ => .inr (Stack.renders_push_self rfl), fun _ => .inl (Stack.renders_push_self rfl),
      fun _ => .inl (Stack.revisits_push_self rfl), fun i h => .inl h, fun i h => ?_⟩
    obtain rfl := State.current_modifyComponent_self (fun _ => rfl) h
    exact .inr ⟨.inr (dismisses.reports (State.reports_newInstance ..)), Stack.revisits_push_self rfl⟩
  · exact .of_kept ((State.marked_modifyComponent_ne same).trans dismisses.marked)
      ((State.current_modifyComponent_ne same).trans (dismisses.current_ne same))
      ⟨rfl, rfl, fun _ => rfl⟩

theorem unmarked_visit {y : Component K} {rest : Stack K .artifact}
    (made : σ.components[id]? = some y) (answer : Except Fault K.Artifact) :
    Visit k σ (.push (.rendering id i) rest)
      ⟨.artifact, σ.modifyComponent id ({ · with rendering := false }), .run (.done answer),
        .push (.reviewing id) rest⟩ := by
  have has : (σ.modifyComponent id ({ · with rendering := false })).current k = σ.current k :=
    State.current_modifyComponent fun _ => rfl
  by_cases same : id = k
  · subst same
    have unmarked : (σ.modifyComponent id ({ · with rendering := false })).marked id = false := by
      simp [State.marked, made]
    exact ⟨fun h => absurd h (by simp [unmarked]), fun _ => .inr unmarked,
      fun _ => .inl (Stack.revisits_push_self rfl), fun i h => .inl h,
      fun i h => .inl (has.symm.trans h)⟩
  · refine .of_kept (State.marked_modifyComponent_ne same) has (Stack.Alike.trans (.push ?_ ?_)
      (Stack.Alike.push ?_ ?_).symm) <;> simp [Frame.revisited?, Frame.adopted?, same]

theorem reviewed_visit {rest : Stack K .artifact} (same : d.state = σ)
    (frames : Stack.Alike k d.stack rest)
    (invokes : id = k → ∀ i, σ.current k = some i → σ.Paused i → d.Invokes k) :
    Visit k σ (.push (.reviewing id) rest) d := by
  subst same
  by_cases same : id = k
  · subst same
    exact ⟨.inl, fun h => .inl (frames.renders.trans h), fun _ => .inr (.inr (invokes rfl)),
      fun i h => .inl ((frames.adopts i).symm.trans h), fun i h => .inl h⟩
  · refine .of_components rfl (frames.trans (Stack.Alike.push ?_ ?_).symm) <;>
      simp [Frame.revisited?, Frame.adopted?, same]

theorem adopted_visit {rest : Stack K .unit} {fresh : InstanceId} (result : Except Fault Unit) :
    Visit k σ (.push (.adopting id fresh) rest)
      ⟨.unit, σ.modifyComponent id (·.adopt fresh result), .run (.done ()),
        .push (.requesting id) rest⟩ := by
  by_cases same : id = k
  · subst same
    refine ⟨fun h => .inl ((State.marked_modifyComponent ?_).symm.trans h), .inl,
      fun _ => .inl (Stack.revisits_push_self rfl), fun i h => .inl (Stack.adopts_below h),
      fun i h => ?_⟩
    · exact fun _ => rfl
    · obtain rfl := State.current_modifyComponent_self (fun _ => rfl) h
      refine .inr ⟨.inl ?_, Stack.revisits_push_self rfl⟩
      simp [Stack.adopts, Stack.any, Frame.adopted?]
  · refine .of_kept (State.marked_modifyComponent_ne same) (State.current_modifyComponent_ne same)
      (Stack.Alike.trans (.push ?_ ?_) (Stack.Alike.push ?_ ?_).symm) <;>
        simp [Frame.revisited?, Frame.adopted?, same]

theorem HostStep.visit (step : HostStep c d) : Visit k c.state c.stack d := by
  cases step with
  | @marked s σ id y inputs next stack =>
    have current : (σ.modifyComponent id ({ · with rendering := true })).current k = σ.current k :=
      State.current_modifyComponent fun _ => rfl
    by_cases same : id = k
    · have entering : (Frame.entering id inputs : Frame K .unit .artifact).rendered? = some k :=
        congrArg some same
      refine ⟨fun _ => .inr (Stack.renders_push_self entering),
        fun _ => .inl (Stack.renders_push_self entering),
        fun _ => .inl (Stack.revisits_push_self entering), fun i h => .inl ?_,
        fun i h => .inl (current.symm.trans h)⟩
      exact (Stack.adopts_push (by rintro ⟨⟩)).symm.trans h
    · exact .of_kept (State.marked_modifyComponent_ne same) current
        (.trans (.push (by simpa [Frame.revisited?] using same) (by rintro _ ⟨⟩))
          ⟨rfl, rfl, fun _ => rfl⟩)
  | mounted _ _ dismisses => exact mounted_visit dismisses
  | unmarked result _ _ made => exact unmarked_visit made _
  | @reviewed σ id y answer rest made awake =>
    refine reviewed_visit rfl (.refl rest) ?_
    rintro rfl i has paused
    obtain ⟨x, found, status⟩ := Option.map_eq_some_iff.mp paused
    refine absurd status (awake i x ?_ found)
    rwa [State.current, made, Option.bind_some] at has
  | @again σ id y i x answer rest made =>
    refine reviewed_visit rfl ⟨rfl, rfl, fun _ => rfl⟩ ?_
    rintro rfl _ - -
    exact .intro _ y made (.rerendering id answer) rfl rest
  | empty =>
    refine founded_visit rfl (.refl _) ?_
    rintro rfl
    exact State.reports_newInstance ..
  | replaying =>
    refine founded_visit rfl ⟨rfl, rfl, fun _ => rfl⟩ ?_
    rintro rfl
    exact (State.reports_newInstance ..).lend
  | adopted i result rest => exact adopted_visit result
  | _ => exact .of_components rfl ⟨rfl, rfl, fun _ => rfl⟩

theorem Transition.visit (transition : Transition β c d) (spares : c.Spares k) :
    Visit k c.state c.stack d := by
  cases transition with
  | code step => exact step.visit spares
  | drive step => exact step.visit
  | replay step => exact step.visit
  | task step => exact step.visit
  | signal step => exact step.visit
  | host step => exact step.visit

theorem follows_visit (spares : c.Spares k) (follows : Follows β c d) :
    Visit k c.state c.stack d :=
  follows.transition.visit spares

end Config

end Resumable
