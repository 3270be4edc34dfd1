import Resumable.Proofs.Calls
import Resumable.Proofs.Hosting

namespace Resumable

variable {K : Client} {β : Behaviour K} {k : ComponentId} {s u w : Shape}

namespace Stack

theorem locks_push {frame : Frame K s w} (free : frame.lock? k = none) (rest : Stack K w) :
    (push frame rest).locks k = rest.locks k := by
  rw [locks, free]
  rfl

theorem locks_push_self {frame : Frame K s w} {lock : Lock K} (locked : frame.lock? k = some lock)
    (rest : Stack K w) : (push frame rest).locks k = lock :: rest.locks k := by
  rw [locks, locked]
  rfl

theorem locks_mounting (inputs : K.Inputs) (rest : Stack K .artifact) :
    (push (.mounting k inputs) rest).locks k = .mounting :: rest.locks k :=
  locks_push_self (by simp [Frame.lock?]) rest

theorem locks_forking (h : History K.Artifact) (rest : Stack K .unit) :
    (push (.forking k h) rest).locks k = .forking h :: rest.locks k :=
  locks_push_self (by simp [Frame.lock?]) rest

theorem locks_adopting (i : InstanceId) (rest : Stack K .unit) :
    (push (.adopting k i) rest).locks k = .adopting i :: rest.locks k :=
  locks_push_self (by simp [Frame.lock?]) rest

theorem Over.locks {base : Stack K w} {stack : Stack K s} (stacked : base.Over stack) :
    stack.locks k = base.locks k := by
  induction stacked with
  | refl => rfl
  | push _ plain ih =>
    rw [locks_push (Frame.lock?_eq_none_iff.mpr (by simp [plain.unlocked])), ih]

theorem Rests.locks {base : Stack K w} {stack : Stack K s} (rests : base.Rests stack) :
    base.locks k <:+ stack.locks k := by
  induction rests with
  | refl => exact List.suffix_rfl
  | push _ frame ih => exact ih.trans (List.suffix_append _ _)

end Stack

def Place.Left (y : Place K) (σ : State K) : Prop :=
  ∀ old, y.current = some old → ∃ x, σ.instances[old]? = some x ∧ x.Stopped

namespace Config

inductive Resets (k : ComponentId) : Config K → Prop
  | asked {s : Shape} (σ : State K) (next : Shape.unit.Answer K → Code K (s.Answer K))
    (stack : Stack K s) : Resets k ⟨s, σ, .run (.call (.reset k) next), stack⟩

structure Quiet (k : ComponentId) (c : Config K) : Prop where
  founds : ∀ p, ¬ c.Founds k p
  resets : ¬ c.Resets k

/-- A panic drops a fork of a component in its replay, with the instance that was to take the
place. -/
inductive Abandons (k : ComponentId) : Config K → Prop
  | dropped (σ : State K) (payload : Payload) (i : InstanceId) (rest : Stack K .unit) :
    Abandons k ⟨.result, σ, .run (.panic payload), .push (.adopting k i) rest⟩

inductive Shift (k : ComponentId) (c d : Config K) : Prop
  | kept (place : d.state.place k = c.state.place k) (locks : d.stack.locks k = c.stack.locks k)
    (quiet : c.Quiet k)
  | made {y : Place K} (absent : c.state.place k = none) (place : d.state.place k = some y)
    (empty : y.current = none) (memo : y.memo < d.state.memos.length)
    (locks : d.stack.locks k = c.stack.locks k) (quiet : c.Quiet k)
  -- A procedure is to be built for a render.
  | mounting (place : d.state.place k = c.state.place k) (free : c.stack.locks k = [])
    (locks : d.stack.locks k = [.mounting]) (quiet : c.Quiet k)
  -- The instance is dismissed, for a fork or for good.
  | vacated {y : Place K} (found : c.state.place k = some y) (free : c.stack.locks k = [])
    (place : d.state.place k = some { y with current := none }) (left : y.Left d.state)
    (locks : d.stack.locks k = [] ∨ d.stack.locks k = [.mounting] ∨
      ∃ h, d.stack.locks k = [.forking h] ∧ y.inputs ≠ none) (quiet : c.Quiet k)
  | reset {y : Place K} (found : c.state.place k = some y) (free : c.stack.locks k = [])
    (place : d.state.place k = some ⟨y.factory, none, none, c.state.memos.length⟩)
    (memos : c.state.memos.length < d.state.memos.length) (left : y.Left d.state)
    (locks : d.stack.locks k = []) (resets : c.Resets k) (founds : ∀ p, ¬ c.Founds k p)
  -- An instance is made, for a render or for a fork.
  | mounted {y : Place K} {inputs : K.Inputs} {p : K.Procedure} {rest : Stack K .artifact}
    {x : Instance K} (found : c.state.place k = some y)
    (built : c = ⟨.procedure, c.state, .run (.done p), .push (.mounting k inputs) rest⟩)
    (place : d.state.place k =
      some ⟨y.factory, some inputs, some c.state.instances.length, y.memo⟩)
    (locks : c.stack.locks k = .mounting :: d.stack.locks k)
    (fresh : d.state.instances[c.state.instances.length]? = some x) (memo : x.memo = y.memo)
    (left : y.Left d.state)
  | built {y : Place K} {h : History K.Artifact} {p : K.Procedure} {rest : Stack K .unit}
    {x : Instance K} (found : c.state.place k = some y)
    (built : c = ⟨.procedure, c.state, .run (.done p), .push (.forking k h) rest⟩)
    (place : d.state.place k = some y)
    (locks : c.stack.locks k = .forking h :: rest.locks k)
    (locks' : d.stack.locks k = .adopting c.state.instances.length :: rest.locks k)
    (fresh : d.state.instances[c.state.instances.length]? = some x) (memo : x.memo = y.memo)
  -- A fork has replayed.
  | adopted {y : Place K} {i : InstanceId} (found : c.state.place k = some y)
    (place : d.state.place k = some { y with current := some i })
    (locks : c.stack.locks k = .adopting i :: d.stack.locks k) (quiet : c.Quiet k)
  | dropped {lock : Lock K} (place : d.state.place k = c.state.place k)
    (locks : c.stack.locks k = lock :: d.stack.locks k)
    (abandons : ∀ i, lock = .adopting i → c.Abandons k) (quiet : c.Quiet k)

end Config

namespace Next

variable {σ : State K} {y : Component K} {P : Config K → Prop}

/-- What a component and its instances are like when its instance, if it has one, is dismissed. -/
structure Dismissed (k : ComponentId) (y : Component K) (σ σ' : State K) : Prop where
  component : σ'.components[k]? = some { y with current := none }
  memos : σ'.memos = σ.memos
  left : y.place.Left σ'
  grows : σ.Grows σ'

theorem holds_dismissed {stack : Stack K s} {use : State K → Next K}
    (made : σ.components[k]? = some y)
    (then' : ∀ σ', Dismissed k y σ σ' → (use σ').Holds P) :
    (dismissing σ stack k y use).Holds P := by
  refine Holds.dismissing (fun vacant => ?_) fun old x current _ found => ?_
  · refine then' σ ⟨?_, rfl, fun old held => ?_, .refl σ⟩
    · rw [made, ← vacant]
    · exact absurd (vacant.symm.trans held) (by rintro ⟨⟩)
  · refine then' _ ⟨State.components_dismiss made, rfl, fun old' held => ?_, .dismiss σ k old⟩
    obtain rfl : old = old' := Option.some.inj (current.symm.trans held)
    refine ⟨x.terminate, ?_, rfl, rfl, rfl⟩
    change (σ.modifyInstance old (·.terminate)).instances[old]? = _
    rw [State.instances_modifyInstance_self, found]
    rfl

end Next

namespace Config

variable {σ : State K} {y : Component K}

theorem place_of_made (made : σ.components[k]? = some y) : σ.place k = some y.place := by
  rw [State.place, made]
  rfl

theorem newComponent_shift (factory : K.Factory) (callback : K.Callback) (settings : Settings)
    (next : Shape.number.Answer K → Code K (s.Answer K)) (stack : Stack K s) :
    (Next.serve σ (.push (.waiting next) stack) (.newComponent factory callback settings)).Holds
      (Shift σ.components.length
        ⟨s, σ, .run (.call (.newComponent factory callback settings) next), stack⟩) := by
  refine Next.holds_give.mpr (.made (y := ⟨factory, none, none, σ.memos.length⟩) ?_ ?_ rfl ?_ rfl
    ⟨by rintro _ ⟨⟩, by rintro ⟨⟩⟩)
  · simp [State.place]
  · exact congrArg (Option.map _) List.getElem?_concat_length
  · simp

theorem reset_shift (next : Shape.unit.Answer K → Code K (s.Answer K)) (stack : Stack K s) :
    (Next.serve σ (.push (.waiting next) stack) (.reset k)).Holds
      (Shift k ⟨s, σ, .run (.call (.reset k) next), stack⟩) := by
  refine Next.Holds.withComponent fun y unlocked made => Next.holds_dismissed made fun σ' gone => ?_
  have free : stack.locks k = [] := Stack.locks_eq_nil_iff.mpr unlocked
  refine Next.holds_give.mpr (.reset (place_of_made made) free ?_ ?_ gone.left free
    (.asked σ next stack) (by rintro _ ⟨⟩))
  · simp [State.place, gone.component, gone.memos, Component.place]
  · simp [State.modifyComponent, gone.memos]

theorem finishMount_shift (inputs : K.Inputs) (p : K.Procedure) (rest : Stack K .artifact) :
    (Next.finishMount σ rest k inputs p).Holds
      (Shift k ⟨.procedure, σ, .run (.done p), .push (.mounting k inputs) rest⟩) := by
  simp only [Next.finishMount]
  split
  · exact Next.holds_error
  · next y made =>
    refine Next.holds_dismissed (y := y) made fun σ' gone => ?_
    obtain ⟨x, found, grown⟩ := gone.grows σ.instances.length _
      (by rw [State.instances_newInstance, if_pos rfl])
    refine Next.holds_advance.mpr (.mounted (place_of_made made) rfl ?_
      (Stack.locks_mounting inputs rest) found grown.memo gone.left)
    simp [State.place, gone.component, Component.place]

theorem finishBuild_shift (h : History K.Artifact) (p : K.Procedure) (rest : Stack K .unit) :
    (Next.finishBuild σ rest k h p).Holds
      (Shift k ⟨.procedure, σ, .run (.done p), .push (.forking k h) rest⟩) := by
  intro d step
  cases Next.finishBuild_transition rest h d step with
  | empty _ _ made =>
    exact .built (place_of_made made) rfl (place_of_made made) (Stack.locks_forking [] rest)
      (Stack.locks_adopting _ rest) ((State.instances_newInstance ..).trans (if_pos rfl)) rfl
  | @replaying _ _ y e later _ _ made =>
    have fresh := (State.instances_newInstance σ p y.memo y.settings [.host k] _).trans (if_pos rfl)
    have lent := (State.instances_modifyInstance_self _ _ (·.lend)).trans (congrArg _ fresh)
    exact .built (place_of_made made) rfl (place_of_made made) (Stack.locks_forking _ rest)
      ((Stack.locks_push rfl _).trans (Stack.locks_adopting _ rest)) lent rfl

theorem finishFork_shift (i : InstanceId) (result : Except Fault Unit) (rest : Stack K .unit) :
    (Next.finishFork σ rest k i result).Holds
      (Shift k ⟨.result, σ, .run (.done result), .push (.adopting k i) rest⟩) := by
  have quiet : Quiet k ⟨.result, σ, .run (.done result), .push (.adopting k i) rest⟩ :=
    ⟨by rintro _ ⟨⟩, by rintro ⟨⟩⟩
  refine Next.Holds.finishFork fun y made => Next.holds_give.mpr ?_
  refine .adopted (i := i) (place_of_made made) ?_ ?_ quiet
  · simp [State.place, made, Component.place, Component.adopt]
  · rw [Stack.locks_adopting, Stack.locks_push rfl]

variable {c d : Config K} {base : Stack K w}

theorem Beneath.locks (beneath : c.Beneath base) (still : ¬ c.Moves k)
    (founds : ∀ p, ¬ c.Founds k p) : base.locks k = c.stack.locks k := by
  cases beneath with
  | same => rfl
  | asked => rfl
  | left σ _ rest _ unlocked =>
    exact (Stack.locks_push (Frame.lock?_eq_none_iff.mpr (by rw [unlocked]; rintro ⟨⟩)) _).symm
  | mounted σ k' inputs p =>
    have other : k' ≠ k := by
      rintro rfl
      exact still (.mounted σ inputs p _)
    have free : (Frame.mounting k' inputs : Frame K _ _).lock? k = none := if_neg other
    exact (Stack.locks_push free _).symm
  | built σ k' h p rest =>
    have other : k' ≠ k := by
      rintro rfl
      exact founds p (.forking σ h rest)
    have free : (Frame.forking k' h : Frame K _ _).lock? k = none := if_neg other
    have free' : (Frame.adopting k' σ.instances.length : Frame K _ _).lock? k = none := if_neg other
    exact (Stack.locks_push free' rest).trans (Stack.locks_push free rest).symm
  | adopted σ k' i result =>
    have other : k' ≠ k := by
      rintro rfl
      exact still (.adopted σ i result _)
    have free : (Frame.adopting k' i : Frame K _ _).lock? k = none := if_neg other
    exact (Stack.locks_push free _).symm
  | told => exact Stack.locks_push rfl _
  | passed => exact (Stack.locks_push rfl _).trans (Stack.locks_push rfl _).symm

theorem On.locks (on : d.On base) : d.stack.locks k = base.locks k ∨
    base.locks k = [] ∧ (d.stack.locks k = [.mounting] ∨ ∃ h y, d.stack.locks k = [.forking h] ∧
      d.state.place k = some y ∧ y.current = none ∧ y.inputs ≠ none) := by
  cases on with
  | idle stacked => exact .inl stacked.locks
  | @call s u σ call frame rest stacked machine _ fits =>
    cases lock : frame.lock? k with
    | none => exact .inl ((Stack.locks_push lock rest).trans stacked.locks)
    | some _ =>
      right
      rw [← stacked.locks]
      cases frame with
      | mounting k' inputs =>
        obtain ⟨rfl, same⟩ := Option.ite_none_right_eq_some.mp lock
        have free : rest.locks k' = [] := Stack.locks_eq_nil_iff.mpr fits.1
        exact ⟨free, .inl (by rw [Stack.locks_mounting, free])⟩
      | forking k' h =>
        obtain ⟨rfl, same⟩ := Option.ite_none_right_eq_some.mp lock
        obtain ⟨unlocked, y, inputs, made, vacant, given, -⟩ := fits
        have free : rest.locks k' = [] := Stack.locks_eq_nil_iff.mpr unlocked
        exact ⟨free, .inr ⟨h, y.place, by rw [Stack.locks_forking, free], place_of_made made,
          vacant, by simp [Component.place, given]⟩⟩
      | adopting => cases call
      | _ => cases lock

theorem of_moves (follows : Follows β c d) (moves : c.Moves k) : Shift k c d := by
  cases moves with
  | made σ factory callback settings next stack fresh =>
    subst fresh
    exact newComponent_shift factory callback settings next stack d
      (follows.step_eq (by rintro _ (_ | _) ⟨⟩))
  | reset σ next stack =>
    exact reset_shift next stack d (follows.step_eq (by rintro _ (_ | _) ⟨⟩))
  | mounted σ inputs p rest =>
    exact finishMount_shift inputs p rest d (follows.step_eq (by rintro _ _ ⟨⟩))
  | adopted σ i result rest =>
    exact finishFork_shift i result rest d (follows.step_eq (by rintro _ _ ⟨⟩))

theorem of_founds {p : K.Procedure} (follows : Follows β c d) (founds : c.Founds k p) :
    Shift k c d := by
  cases founds with
  | mounting σ inputs rest =>
    exact finishMount_shift inputs p rest d (follows.step_eq (by rintro _ _ ⟨⟩))
  | forking σ h rest =>
    exact finishBuild_shift h p rest d (follows.step_eq (by rintro _ _ ⟨⟩))

/-- Whatever a step means for a component is one of the shifts. -/
theorem follows_shift (follows : Follows β c d) (k : ComponentId) : Shift k c d := by
  by_cases moves : c.Moves k
  · exact of_moves follows moves
  by_cases founds : ∃ p, c.Founds k p
  · exact of_founds follows founds.choose_spec
  have quiet : c.Quiet k := by
    refine ⟨fun p found => founds ⟨p, found⟩, fun resets => ?_⟩
    obtain ⟨σ, next, stack⟩ := resets
    exact moves (.reset σ next stack)
  cases follows_transit follows with
  | entered => exact .kept rfl rfl quiet
  | read => exact .kept rfl rfl quiet
  | wrote => exact .kept rfl rfl quiet
  | answered σ next answer rest => exact .kept rfl (Stack.locks_push rfl rest).symm quiet
  | dropped σ payload frame rest =>
    cases lock : frame.lock? k with
    | none => exact .kept rfl (Stack.locks_push lock rest).symm quiet
    | some held =>
      refine .dropped rfl (Stack.locks_push_self lock rest) ?_ quiet
      rintro i rfl
      cases frame with
      | adopting k' j =>
        obtain ⟨rfl, same⟩ := Option.ite_none_right_eq_some.mp lock
        exact .dropped σ payload j rest
      | mounting => cases (Option.ite_none_right_eq_some.mp lock).2
      | forking => cases (Option.ite_none_right_eq_some.mp lock).2
      | _ => cases lock
  | acted beneath passage =>
    have below := beneath.locks moves (fun p found => founds ⟨p, found⟩)
    have place := passage.place k
    rcases passage.stack.locks (k := k) with kept | ⟨free, locks⟩
    · rcases place with same | ⟨unlocked, y, made, vacant, left⟩ | may
      · exact .kept same (kept.trans below) quiet
      · have free := Stack.locks_eq_nil_iff.mpr unlocked
        exact .vacated (place_of_made made) (below.symm.trans free) vacant left
          (.inl (kept.trans free)) quiet
      · exact absurd may moves
    · rcases place with same | ⟨-, y, made, vacant, left⟩ | may
      · rcases locks with locks | ⟨h, y, locks, found, empty, given⟩
        · exact .mounting same (below.symm.trans free) locks quiet
        · have same' : y = { y with current := none } := by rw [← empty]
          exact .vacated (same.symm.trans found) (below.symm.trans free) (same' ▸ found)
            (fun old held => absurd (empty.symm.trans held) (by rintro ⟨⟩))
            (.inr (.inr ⟨h, locks, given⟩)) quiet
      · refine .vacated (place_of_made made) (below.symm.trans free) vacant left (.inr ?_) quiet
        rcases locks with locks | ⟨h, y', locks, found, -, given⟩
        · exact .inl locks
        · cases vacant.symm.trans found
          exact .inr ⟨h, locks, given⟩
      · exact absurd may moves

end Config

end Resumable
