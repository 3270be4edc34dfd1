import Resumable.Proofs.Sketch
import Resumable.Proofs.Transit
import Resumable.Proofs.Visits
import Mathlib.Data.List.Induction

namespace Resumable

variable {K : Client} {β : Behaviour K} {G : Config K → Prop} {c d : Config K}
  {t u v : List (Config K × Config K)} {k : ComponentId} {b : Bool}

namespace Config

/-- A component takes the signal that its instance goes on or has completed, or a fork of it has come
to its end. -/
inductive Prompts (k : ComponentId) : Config K → Prop
  | ready {c : Config K} (tells : c.Tells k .ready) : Prompts k c
  | done {c : Config K} (tells : c.Tells k .done) : Prompts k c
  | forked (σ : State K) (rest : Stack K .unit) :
    Prompts k ⟨.unit, σ, .run (.done ()), .push (.requesting k) rest⟩

/-- A render of a component has taken the mark away and comes to see what its instance is like. -/
inductive Reviews (k : ComponentId) : Config K → Prop
  | intro (σ : State K) (answer : Except Fault K.Artifact) (rest : Stack K .artifact) :
    Reviews k ⟨.artifact, σ, .run (.done answer), .push (.reviewing k) rest⟩

/-- Whether the last render of a component that began or was answered along a run began. -/
def lastMark? (k : ComponentId) (t : List (Config K × Config K)) : Option Bool :=
  (t.filterMap fun p => p.1.mark? k).getLast?

@[simp]
theorem lastMark?_nil : lastMark? k ([] : List (Config K × Config K)) = none :=
  rfl

theorem lastMark?_snoc : lastMark? k (t ++ [(c, d)]) = (c.mark? k).or (lastMark? k t) := by
  rw [lastMark?, List.filterMap_append, List.getLast?_append, lastMark?]
  cases mark : c.mark? k <;> simp [mark]

theorem lastMark?_of_began {p : Config K × Config K} (began : p.1.mark? k = some true)
    (stays : ∀ q ∈ v, q.1.mark? k ≠ some false) : lastMark? k (u ++ p :: v) = some true := by
  induction v using List.reverseRecOn with
  | nil => rw [lastMark?_snoc, began, Option.some_or]
  | append_singleton v q ih =>
    have last := ih fun q mem => stays q (List.mem_append_left _ mem)
    have still := stays q (List.mem_append_right _ (List.mem_singleton_self q))
    rw [← List.cons_append, ← List.append_assoc, lastMark?_snoc, last]
    cases mark : q.1.mark? k with
    | none => rfl
    | some b =>
      rw [mark] at still
      cases b with
      | false => exact absurd rfl still
      | true => rfl

theorem begins_of_mark (marks : c.mark? k = some b) :
    (b = true ∧ ∃ (s : Shape) (σ : State K) (inputs : K.Inputs)
      (next : Shape.artifact.Answer K → Code K (s.Answer K)) (stack : Stack K s),
      c = ⟨s, σ, .run (.call (.render k inputs) next), stack⟩) ∨
    (b = false ∧ ∃ (σ : State K) (i : InstanceId) (result : Except Fault Unit)
      (rest : Stack K .artifact),
      c = ⟨.result, σ, .run (.done result), .push (.rendering k i) rest⟩) := by
  unfold mark? at marks
  split at marks
  · obtain ⟨rfl, begun⟩ := Option.ite_none_right_eq_some.mp marks
    exact .inl ⟨(Option.some.inj begun).symm, _, _, _, _, _, rfl⟩
  · obtain ⟨rfl, answered⟩ := Option.ite_none_right_eq_some.mp marks
    exact .inr ⟨(Option.some.inj answered).symm, _, _, _, _, rfl⟩
  · cases marks

end Config

namespace State

variable {σ : State K}

theorem marked_remark {y : Component K} (made : σ.components[k]? = some y) :
    (σ.modifyComponent k ({ · with rendering := b })).marked k = b := by
  rw [marked, components_modifyComponent_self, made]
  rfl

end State

namespace Next

variable {σ : State K}

theorem render_marks (stack : Stack K .artifact) (inputs : K.Inputs) :
    (render σ stack k inputs).Holds fun d => d.state.marked k = true :=
  Holds.render fun _ made => holds_give.mpr (State.marked_remark made)

theorem finishRender_marks (stack : Stack K .artifact) (i : InstanceId)
    (result : Except Fault Unit) :
    (finishRender σ stack k i result).Holds fun d => d.state.marked k = false :=
  Holds.finishRender fun _ _ _ made => holds_give.mpr (State.marked_remark made)

theorem requestRender_invokes (stack : Stack K .unit) :
    (requestRender σ stack k).Holds fun d => d.Invokes k ↔ σ.marked k = false := by
  have marked : ∀ {y}, σ.components[k]? = some y → σ.marked k = y.rendering := by
    intro y made
    rw [State.marked, made, Option.any_some]
  refine Holds.requestRender (fun y made rendering => ?_) fun y made rendering => ?_
  · refine holds_give.mpr ⟨by rintro ⟨⟩, fun unmarked => ?_⟩
    rw [marked made, rendering] at unmarked
    cases unmarked
  · exact holds_call.mpr ⟨fun _ => (marked made).trans rendering,
      fun _ => .intro σ y made (.hosting k) rfl stack⟩

end Next

namespace Config

theorem follows_marked (follows : Follows β c d) (k : ComponentId) :
    d.state.marked k = (c.mark? k).getD (c.state.marked k) := by
  cases mark : c.mark? k with
  | none => exact (follows_mark follows k).resolve_right (by rw [mark]; rintro ⟨⟩)
  | some b =>
    rcases begins_of_mark mark with ⟨rfl, s, σ, inputs, next, stack, rfl⟩ |
      ⟨rfl, σ, i, result, rest, rfl⟩
    · exact Next.render_marks _ inputs d
        (follows.step_eq (by rintro τ (payload | ⟨⟩) ⟨⟩))
    · exact Next.finishRender_marks rest i result d (follows.step_eq (by rintro τ result ⟨⟩))

/-- On every run from an empty machine a component is marked iff the last of its renders that began
or was answered began. -/
theorem Run.marked {memory : K.Memory} {ambient : Bool} {code : Code K Unit}
    (run : Run β G (start { memory := memory, ambient := ambient } code) t c) (k : ComponentId) :
    c.state.marked k = (lastMark? k t).getD false := by
  induction run with
  | refl => rfl
  | @snoc t c d _ _ follows ih =>
    rw [follows_marked follows k, ih, lastMark?_snoc]
    cases c.mark? k <;> rfl

theorem Tells.follows {signal : Signal K.Artifact} (tells : c.Tells k signal)
    (follows : Follows β c d) :
    ∃ (stack : Stack K .unit), Next.react c.state stack k signal = .ok d ∧
      c.state.componentAlive stack k = true := by
  cases tells with
  | @first σ source rest stack heard alive =>
    have step := follows.step_eq (by rintro τ result ⟨⟩)
    rw [step_emit, heard] at step
    exact ⟨_, step, alive⟩
  | later σ alive =>
    exact ⟨_, follows.step_eq (by rintro τ (payload | ⟨⟩) ⟨⟩), alive⟩

theorem Prompts.invokes (prompts : c.Prompts k) (follows : Follows β c d) :
    d.Invokes k ↔ c.state.marked k = false := by
  cases prompts with
  | ready tells =>
    obtain ⟨stack, reacts, alive⟩ := tells.follows follows
    simp only [Next.react, alive, if_true] at reacts
    exact Next.requestRender_invokes stack d reacts
  | done tells =>
    obtain ⟨stack, reacts, alive⟩ := tells.follows follows
    simp only [Next.react, alive, if_true] at reacts
    exact Next.requestRender_invokes stack d reacts
  | forked σ rest =>
    exact Next.requestRender_invokes rest d (follows.step_eq (by rintro τ (_ | _) ⟨⟩))

theorem of_invokes (invokes : d.Invokes k) (follows : Follows β c d) :
    (c.Prompts k ∧ c.state.marked k = false) ∨ (∃ fault, c.Tells k (.rejected fault)) ∨
      c.Reviews k := by
  obtain ⟨τ, y, made, frame, own, rest⟩ := invokes
  cases frame with
  | rerendering k' answer =>
    cases own
    cases follows_trigger follows (a := .rerender k) rfl with
    | told _ begins => cases begins
    | rendered σ k answer rest => exact .inr (.inr (.intro σ answer rest))
  | hosting k' =>
    cases own
    cases follows_trigger follows (a := .request k) rfl with
    | told tells begins =>
      cases begins with
      | ready unmarked => exact .inl ⟨.ready tells, unmarked⟩
      | done unmarked => exact .inl ⟨.done tells, unmarked⟩
      | rejected fault => exact .inr (.inl ⟨fault, tells⟩)
    | adopted σ k rest unmarked => exact .inl ⟨.forked σ rest, unmarked⟩
  | _ => cases own

end Config

open Config in
/-- Along every run from an empty machine: inside a render of a component, until a render of it is
answered, its callback is invoked for no other signal than a fault. Whatever else is told to the
component, and whenever a fork of it ends, the callback is invoked iff the last of its renders that
began or was answered was answered. -/
theorem requests_inside_renders {memory : K.Memory} {ambient : Bool} {code : Code K Unit}
    {before after : List (Config K × Config K)} {p : Config K × Config K}
    (run : Run β (fun _ => True) (start { memory := memory, ambient := ambient } code)
      (before ++ p :: after) d) (k : ComponentId) :
    (∀ u q v, before = u ++ q :: v → q.1.mark? k = some true →
      (∀ r ∈ v, r.1.mark? k ≠ some false) → ¬ p.1.Reviews k → p.2.Invokes k →
        ∃ fault, p.1.Tells k (.rejected fault)) ∧
    (p.1.Prompts k → (p.2.Invokes k ↔ lastMark? k before ≠ some true)) ∧
    (p.2.Invokes k → (p.1.Prompts k ∧ lastMark? k before ≠ some true) ∨
      (∃ fault, p.1.Tells k (.rejected fault)) ∨ p.1.Reviews k) := by
  obtain ⟨ran, -, follows, -⟩ := run.split rfl
  have unmarked : p.1.state.marked k = false ↔ lastMark? k before ≠ some true := by
    rw [ran.marked k]
    rcases lastMark? k before with _ | _ | _ <;> simp
  refine ⟨?_, fun prompts => (prompts.invokes follows).trans unmarked, fun invokes => ?_⟩
  · rintro u q v rfl began stays still invokes
    rcases of_invokes invokes follows with ⟨-, free⟩ | rejected | answered
    · exact absurd (lastMark?_of_began began stays) (unmarked.mp free)
    · exact rejected
    · exact absurd answered still
  · exact (of_invokes invokes follows).imp_left fun ⟨prompts, free⟩ => ⟨prompts, unmarked.mp free⟩

namespace Sketch

def nesting : Behaviour client where
  code
    | .resume p input => .call (.render 0 (.int 0)) fun _ => .done (p.resume input)
    | c => behaviour.code c

def nestingCode : Code client Unit :=
  .call (.newComponent (fun _ => { moves := [.show, .await (.int 3) none, .finish] }) () {})
    fun k => .call (.retain (.ofComponent k)) fun _ => .call (.render k (.int 0)) fun _ => .done ()

def nestingStart : Config client :=
  .start { memory := (), ambient := true } nestingCode

/-- The callback is invoked inside the first render, on the signal that its instance goes on, since
the render inside of its first step has been answered. -/
theorem nesting_requests : ∃ before p, Config.trail nesting 18 nestingStart = before ++ [p] ∧
    p.1.Tells 0 .ready ∧ p.1.stack.renders 0 = true ∧
    Config.lastMark? 0 before = some false ∧ p.2.Invokes 0 := by
  have told : (Config.after nesting 17 nestingStart).Tells 0 .ready := .first _ rfl rfl
  have answered : Config.lastMark? 0 (Config.trail nesting 17 nestingStart) = some false := by
    decide +kernel
  have run : Config.Run nesting (fun _ => True) nestingStart
      (Config.trail nesting 17 nestingStart ++ [(Config.after nesting 17 nestingStart,
        Config.after nesting 18 nestingStart)]) (Config.after nesting 18 nestingStart) :=
    .walk_all 18 nestingStart
  obtain ⟨-, asks, -⟩ := requests_inside_renders run 0
  exact ⟨_, _, rfl, told, by decide +kernel, answered,
    (asks (.ready told)).mpr (by rw [answered]; rintro ⟨⟩)⟩

end Sketch

end Resumable
