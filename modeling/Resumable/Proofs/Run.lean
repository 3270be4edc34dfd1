import Resumable.Machine.Step
import Mathlib.Logic.Relation

namespace Resumable

variable {K : Client}

def Code.ended {α : Type} : Except Payload α → Code K α
  | .ok answer => .done answer
  | .error payload => .panic payload

namespace Next

def Holds (n : Next K) (P : Config K → Prop) : Prop :=
  ∀ c, n = .ok c → P c

variable {P : Config K → Prop} {σ : State K} {s w : Shape} {stack : Stack K s}

@[simp]
theorem holds_ok {c : Config K} : Holds (.ok c) P ↔ P c :=
  ⟨fun h => h c rfl, fun h _ e => Except.ok.inj e ▸ h⟩

@[simp]
theorem holds_error {o : Outcome} : Holds (.error o : Next K) P :=
  fun _ h => by cases h

@[simp]
theorem holds_run {code : Code K (s.Answer K)} :
    (run σ stack code).Holds P ↔ P ⟨s, σ, .run code, stack⟩ :=
  holds_ok

@[simp]
theorem holds_give {answer : s.Answer K} :
    (give σ stack answer).Holds P ↔ P ⟨s, σ, .run (.done answer), stack⟩ :=
  holds_ok

@[simp]
theorem holds_call {frame : Frame K s w} {rest : Stack K w} {c : Call K s} :
    (call σ frame rest c).Holds P ↔ P ⟨s, σ, .call c, .push frame rest⟩ :=
  holds_ok

@[simp]
theorem holds_emit {stack : Stack K .unit} {source : Source} {signal : Signal K.Artifact} :
    (emit σ stack source signal).Holds P ↔ P ⟨.unit, σ, .emit source signal, stack⟩ :=
  holds_ok

@[simp]
theorem holds_advance {stack : Stack K .result} {id : InstanceId} :
    (advance σ stack id).Holds P ↔ P ⟨.result, σ, .advance id, stack⟩ :=
  holds_ok

theorem Holds.withInstance {id : InstanceId} {use : Instance K → Next K}
    (h : ∀ x, stack.locksInstance id = false → σ.instances[id]? = some x → (use x).Holds P) :
    (withInstance σ stack id use).Holds P := by
  unfold Next.withInstance
  split
  · simp
  · next unlocked =>
    split
    · next x found => exact h x (by simpa using unlocked) found
    · simp

theorem Holds.withComponent {id : ComponentId} {use : Component K → Next K}
    (h : ∀ y, stack.locksComponent id = false → σ.components[id]? = some y → (use y).Holds P) :
    (withComponent σ stack id use).Holds P := by
  unfold Next.withComponent
  split
  · simp
  · next unlocked =>
    split
    · next y found => exact h y (by simpa using unlocked) found
    · simp

theorem Holds.dismissing {id : ComponentId} {y : Component K} {use : State K → Next K}
    (vacant : y.current = none → (use σ).Holds P)
    (taken : ∀ old x, y.current = some old → stack.locksInstance old = false →
      σ.instances[old]? = some x → (use (σ.dismiss id old)).Holds P) :
    (dismissing σ stack id y use).Holds P := by
  unfold Next.dismissing
  split
  · next none => exact vacant none
  · next old some => exact Holds.withInstance fun x unlocked found => taken old x some unlocked found

theorem Holds.imp {n : Next K} {Q : Config K → Prop} (h : n.Holds P) (imp : ∀ c, P c → Q c) :
    n.Holds Q :=
  fun c e => imp c (h c e)

end Next

namespace Config

variable (β : Behaviour K)

variable {β} {s w : Shape} (σ : State K)

theorem step_emit (source : Source) (signal : Signal K.Artifact) (stack : Stack K .unit) :
    step β ⟨.unit, σ, .emit source signal, stack⟩ =
      Next.deliver σ stack source signal (σ.registry source).observers :=
  rfl

theorem step_advance (id : InstanceId) (stack : Stack K .result) :
    step β ⟨.result, σ, .advance id, stack⟩ = Next.startStep σ stack id :=
  rfl

theorem step_request (request : Request K w) (next : w.Answer K → Code K (s.Answer K))
    (stack : Stack K s) : step β ⟨s, σ, .run (.call request next), stack⟩ =
      Next.serve σ (.push (.waiting next) stack) request :=
  rfl

theorem step_done (answer : s.Answer K) (frame : Frame K s w) (rest : Stack K w) :
    step β ⟨s, σ, .run (.done answer), .push frame rest⟩ = Next.resume σ rest frame answer := by
  rw [step]

theorem step_panic (payload : Payload) (frame : Frame K s w) (rest : Stack K w) :
    step β ⟨s, σ, .run (.panic payload), .push frame rest⟩ = Next.unwind σ rest payload frame := by
  rw [step]

variable (β)

/-- The configurations that follow one: the next step of its operation, or the start of another
operation when its own has ended and no frame is left. Between operations the client's memory and
the runtime around its calls may change. -/
inductive Follows : Config K → Config K → Prop where
  | step {c d : Config K} (h : c.step β = .ok d) : Follows c d
  | next (σ : State K) (result : Except Payload Unit) (memory : K.Memory) (ambient : Bool)
      (code : Code K Unit) : Follows ⟨.unit, σ, .run (.ended result), .empty⟩
        (start { σ with memory := memory, ambient := ambient } code)

/-- Runs from a configuration in which every configuration that is left satisfies a guard, with
the pairs of configurations that followed one another. -/
inductive Run (G : Config K → Prop) (c : Config K) : List (Config K × Config K) → Config K → Prop
  | refl : Run G c [] c
  | snoc {t : List (Config K × Config K)} {d e : Config K} (run : Run G c t d) (guard : G d)
      (follows : Follows β d e) : Run G c (t ++ [(d, e)]) e

abbrev Reaches : Config K → Config K → Prop :=
  Relation.ReflTransGen fun c d => c.step β = .ok d

def after : Nat → Config K → Config K
  | 0, c => c
  | n + 1, c =>
    match c.step β with
    | .ok d => after n d
    | .error _ => c

def trail : Nat → Config K → List (Config K × Config K)
  | 0, _ => []
  | n + 1, c =>
    match c.step β with
    | .ok d => (c, d) :: trail n d
    | .error _ => []

variable {β} {G : Config K → Prop} {c d e : Config K} {t u v : List (Config K × Config K)}

theorem Follows.step_eq (follows : Follows β c d)
    (unfinished : ∀ σ result, c ≠ ⟨.unit, σ, .run (.ended result), .empty⟩) :
    c.step β = .ok d := by
  cases follows with
  | step h => exact h
  | next σ result => exact absurd rfl (unfinished σ result)

theorem Run.append (first : Run β G c t d) (second : Run β G d u e) : Run β G c (t ++ u) e := by
  induction second with
  | refl => simpa using first
  | snoc _ guard follows ih => simpa [List.append_assoc] using Run.snoc ih guard follows

theorem Run.imp {H : Config K → Prop} (run : Run β G c t d) (imp : ∀ c, G c → H c) :
    Run β H c t d := by
  induction run with
  | refl => exact .refl
  | snoc _ guard follows ih => exact ih.snoc (imp _ guard) follows

theorem Run.split {p : Config K × Config K} (run : Run β G c t e) (at' : t = u ++ p :: v) :
    Run β G c u p.1 ∧ G p.1 ∧ Follows β p.1 p.2 ∧ Run β G p.2 v e := by
  induction run generalizing v with
  | refl => simp at at'
  | @snoc t d e run guard follows ih =>
    rcases List.eq_nil_or_concat v with rfl | ⟨v, q, rfl⟩
    · obtain ⟨rfl, rfl⟩ : t = u ∧ (d, e) = p := by simpa using at'
      exact ⟨run, guard, follows, .refl⟩
    · have parts : t ++ [(d, e)] = (u ++ p :: v) ++ [q] := by simpa using at'
      obtain ⟨rfl, same⟩ := List.append_inj' parts rfl
      obtain ⟨before, guard', follows', after⟩ := ih rfl
      obtain rfl : (d, e) = q := by simpa using same
      exact ⟨before, guard', follows', List.concat_eq_append ▸ after.snoc guard follows⟩

theorem Run.prior {p : Config K × Config K} (run : Run β G c t e) (prior : u ++ [p] <+: t) :
    Run β G c u p.1 ∧ G p.1 ∧ Follows β p.1 p.2 ∧ ∃ v, Run β G p.2 v e := by
  obtain ⟨v, rfl⟩ := prior
  obtain ⟨first, guard, follows, since⟩ := run.split (v := v) (List.append_assoc u [p] v)
  exact ⟨first, guard, follows, v, since⟩

theorem Run.uncons (run : Run β G c t e) :
    t = [] ∧ e = c ∨ ∃ d u, t = (c, d) :: u ∧ Follows β c d ∧ Run β G d u e := by
  induction run with
  | refl => exact .inl ⟨rfl, rfl⟩
  | snoc _ guard follows ih =>
    rcases ih with ⟨rfl, rfl⟩ | ⟨d, u, rfl, first, later⟩
    · exact .inr ⟨_, [], rfl, follows, .refl⟩
    · exact .inr ⟨d, u ++ [_], rfl, first, later.snoc guard follows⟩

theorem Run.walk {passes : Config K → Bool} (guard : ∀ c, passes c = true → G c) (n : Nat) :
    ∀ c, ((trail β n c).all fun p => passes p.1) = true → Run β G c (trail β n c) (after β n c) := by
  induction n with
  | zero => exact fun c _ => .refl
  | succ n ih =>
    intro c checked
    rw [trail] at checked
    rw [trail, after]
    cases step : c.step β with
    | error o => exact .refl
    | ok d =>
      rw [step, List.all_cons, Bool.and_eq_true] at checked
      exact Run.append (t := [(c, d)]) (.snoc .refl (guard c checked.1) (.step step)) (ih d checked.2)

theorem Reaches.after {o : Outcome} (reaches : Reaches β c d) :
    ∀ n, (Config.after β n c).step β = .error o → ∃ k ≤ n, Config.after β k c = d := by
  induction reaches using Relation.ReflTransGen.head_induction_on with
  | refl => exact fun n _ => ⟨0, Nat.zero_le n, rfl⟩
  | head step _ ih =>
    intro n ended
    cases n with
    | zero => cases step.symm.trans ended
    | succ n =>
      rw [Config.after, step] at ended
      obtain ⟨k, le, rfl⟩ := ih n ended
      exact ⟨k + 1, Nat.succ_le_succ le, by rw [Config.after, step]⟩

theorem Run.walk_all (n : Nat) (c : Config K) :
    Run β (fun _ => True) c (trail β n c) (after β n c) :=
  walk (fun _ (_ : true = true) => trivial) n c (List.all_eq_true.mpr fun _ _ => rfl)

end Config

end Resumable
