import Resumable.Proofs.FamilyRun

namespace Resumable.Sketch

inductive Picture where
  | mk (label : Value) (setters : List (Setter Picture))

namespace Picture

def label : Picture → Value
  | mk label _ => label

def setters : Picture → List (Setter Picture)
  | mk _ setters => setters

end Picture

inductive Move where
  | hold (initial : Value)
  | show
  | compute (value : Value) (keys : List Value)
  | await (value : Value) (keys : Option (List Value))
  | finish
  | fail (fault : Fault)
  deriving DecidableEq

structure Drawing where
  moves : List Move
  label : Value := .unit
  setters : List (Setter Picture) := []

abbrev client : Client where
  Artifact := Picture
  blank := .mk .unit []
  Inputs := Value
  sameInputs := Value.same
  Memory := Unit
  Procedure := Drawing
  Computation := Value
  Producer := Value
  Future := Value
  Observer := Unit
  Factory := Value → Drawing
  Callback := Unit

namespace Drawing

def fed (p : Drawing) : Option (Resumption Picture) → Drawing
  | none => p
  | some (.value v) => { p with label := v }
  | some (.cell c) => { p with label := c.value, setters := c.setter :: p.setters }

def picture (p : Drawing) : Picture :=
  .mk p.label p.setters

def answer (p : Drawing) : Move → Except Fault (Client.Yielded client)
  | .hold initial => .ok (.effect (.hold initial))
  | .show => .ok (.effect (.render p.picture))
  | .compute value keys => .ok (.effect (.compute value keys))
  | .await value keys => .ok (.effect (.await value keys))
  | .finish => .ok (.complete p.picture)
  | .fail fault => .error fault

def resume (p : Drawing) (input : Option (Resumption Picture)) :
    Drawing × Except Fault (Client.Yielded client) :=
  let p := p.fed input
  match p.moves with
  | [] => (p, .error (.contract 0 (.exhausted 0)))
  | move :: moves => ({ p with moves := moves }, p.answer move)

end Drawing

def behaviour : Behaviour client where
  code
    | .resume p input => .done (p.resume input)
    | .compute value => .done value
    | .produce value => .done value
    | .poll value => .done (.ready (.ok value))
    | .notice _ _ => .done ()
    | .build factory inputs => .done (factory inputs)
    | .rerender _ => .done ()

def meaning : Meaning behaviour where
  artifacts :=
    { r := fun a b => a.label = b.label ∧ a.setters.length = b.setters.length
      iseqv :=
        ⟨fun _ => ⟨rfl, rfl⟩, fun h => ⟨h.1.symm, h.2.symm⟩,
          fun h h' => ⟨h.1.trans h'.1, h.2.trans h'.2⟩⟩ }
  procedures p q := p.moves = q.moves ∧ p.label = q.label ∧ p.setters.length = q.setters.length
  computed value := some (.ok value)
  produced value := some (.ok value)
  settled value := some (.ok value)

theorem fed_alike {p q : Drawing} {input input' : Option (Resumption Picture)}
    (alike : meaning.procedures p q) (inputs : Resumption.Alike meaning.artifacts.r input input') :
    meaning.procedures (p.fed input) (q.fed input') := by
  obtain ⟨moves, label, setters⟩ := alike
  cases inputs with
  | nothing => exact ⟨moves, label, setters⟩
  | value v => exact ⟨moves, rfl, setters⟩
  | cell v i j before => exact ⟨moves, rfl, by simp [Drawing.fed, setters]⟩

theorem meaning_sound : meaning.Sound where
  resume {p q input input'} alike inputs := by
    obtain ⟨moves, label, setters⟩ := fed_alike alike inputs
    refine ⟨.ok (p.resume input), .ok (q.resume input'), rfl, rfl, ?_⟩
    simp only [Drawing.resume, ← moves]
    cases (p.fed input).moves with
    | nil => exact .failed _ _ _
    | cons move rest =>
      have rest_alike : meaning.procedures { p.fed input with moves := rest }
          { q.fed input' with moves := rest } := ⟨rfl, label, setters⟩
      cases move with
      | hold initial => exact .yielded rest_alike (.hold initial)
      | «show» => exact .yielded rest_alike (.render ⟨label, setters⟩)
      | compute value keys => exact .yielded rest_alike (.compute keys rfl rfl)
      | await value keys => exact .yielded rest_alike (.await keys rfl rfl)
      | finish => exact .completed _ _ ⟨label, setters⟩
      | fail fault => exact .failed _ _ fault
  compute h := by cases h; rfl
  produce h := h
  poll h := by cases h; rfl

theorem deterministic (p : Drawing) : meaning.procedures p p :=
  ⟨rfl, rfl, rfl⟩

abbrev plan (moves : List Move) : Plan client :=
  .plain { moves := moves } {} []

theorem Drawing.moves_fed (p : Drawing) (input : Option (Resumption Picture)) :
    (p.fed input).moves = p.moves := by
  cases input with
  | none => rfl
  | some input => cases input <;> rfl

theorem Drawing.asked {p q : Drawing} {input : Option (Resumption Picture)}
    {e : Effect Picture Value Value} (h : p.resume input = (q, .ok (.effect e))) :
    ∃ move, p.moves = move :: q.moves ∧ (p.fed input).answer move = .ok (.effect e) := by
  rw [← p.moves_fed input]
  simp only [Drawing.resume] at h
  generalize p.fed input = p at h
  cases moves : p.moves with
  | nil => simp [moves] at h
  | cons move rest =>
    simp only [moves, Prod.mk.injEq] at h
    exact ⟨move, by rw [← h.1], h.2⟩

theorem course_moves {π : Plan client} {i : InstanceId} {h : History client.Artifact}
    {p : client.Procedure} (course : meaning.Course π i h p) :
    p.moves = π.start.moves.drop h.length := by
  induction course with
  | start => rfl
  | @record h p q e entry course room step records ih =>
    obtain ⟨move, next, -⟩ := Drawing.asked (Except.ok.inj step)
    rw [List.length_append, List.length_singleton, ← List.drop_drop, ← ih, next]
    rfl

def Move.cached? : Move → Option (List Value × Value)
  | compute value keys => some (keys, value)
  | await value keys => keys.map fun keys => (keys, value)
  | _ => none

theorem Drawing.answer_cached {p : Drawing} {move : Move} {e : Effect Picture Value Value}
    {keys : List Value} (answer : p.answer move = .ok (.effect e)) (keyed : e.keys? = some keys) :
    ∃ value, move.cached? = some (keys, value) ∧ meaning.upshot e = some (.ok value) := by
  cases move with
  | hold initial => cases answer; cases keyed
  | «show» => cases answer; cases keyed
  | compute value keys' => cases answer; cases keyed; exact ⟨value, rfl, rfl⟩
  | await value keys' =>
    cases answer
    have same : keys' = some keys := keyed
    exact ⟨value, by rw [same]; rfl, rfl⟩
  | finish => cases answer
  | fail fault => cases answer

def family (memo : MemoId) (programs : InstanceId → List Move)
    (agree : ∀ i j (n : Nat) (move move' : Move) keys keys' value value',
      (programs i)[n]? = some move → (programs j)[n]? = some move' →
      move.cached? = some (keys, value) → move'.cached? = some (keys', value') →
      Value.sameKeys keys keys' = true → value = value') : Family meaning where
  memo := memo
  programs := { π | ∃ i, plan (programs i) = π }
  plan i := plan (programs i)
  attended := true
  replays := false
  listed i := ⟨i, rfl⟩
  stores := by rintro _ ⟨i, rfl⟩; rfl
  deterministic := by rintro _ ⟨i, rfl⟩; exact deterministic _
  coherent := by
    rintro _ ⟨a, rfl⟩ _ ⟨b, rfl⟩ i j h k e e' q q' ⟨p, course, -, step⟩ ⟨p', course', -, step'⟩
      length keys keys' keyed keyed' same
    obtain ⟨move, next, answer⟩ := Drawing.asked (Except.ok.inj step)
    obtain ⟨move', next', answer'⟩ := Drawing.asked (Except.ok.inj step')
    obtain ⟨value, cached, upshot⟩ := Drawing.answer_cached answer keyed
    obtain ⟨value', cached', upshot'⟩ := Drawing.answer_cached answer' keyed'
    have at_move : (programs a)[h.length]? = some move := by
      rw [← List.head?_drop, ← course_moves course, next]
      rfl
    have at_move' : (programs b)[h.length]? = some move' := by
      rw [length, ← List.head?_drop, ← course_moves course', next']
      rfl
    rw [upshot, upshot', agree a b _ _ _ _ _ _ _ at_move at_move' cached cached' same]

def conforms (programs : InstanceId → List Move) (c : Config client) : Bool :=
  c.state.ambient &&
    match c with
    | ⟨_, σ, .run (.call request _), _⟩ =>
      match request with
      | .remember _ _ _ _ => false
      | .clearMemo _ => false
      | .newInstance ⟨moves, label, setters⟩ _ settings =>
        moves = programs σ.instances.length && label = .unit && setters.isEmpty && settings = {}
      | .replay _ _ => false
      | _ => true
    | ⟨_, _, .run (.done _), .push (.mounting _ _) _⟩ => false
    | ⟨_, _, .run (.done _), .push (.forking _ _) _⟩ => false
    | _ => true

theorem conforms_admits {F : Family meaning} (programs : InstanceId → List Move)
    (runs : ∀ i, F.plan i = plan (programs i)) (c : Config client)
    (h : conforms programs c = true) : F.Admits c := by
  simp only [conforms, Bool.and_eq_true] at h
  refine ⟨fun _ => h.1, ?_⟩
  obtain ⟨s, σ, control, stack⟩ := c
  cases control with
  | run code =>
    cases code with
    | call request next =>
      cases request with
      | remember => cases h.2
      | clearMemo => cases h.2
      | replay => cases h.2
      | newInstance p m settings =>
        obtain ⟨moves, label, setters⟩ := p
        simp only [Bool.and_eq_true, decide_eq_true_eq, List.isEmpty_iff] at h
        obtain ⟨-, ⟨⟨rfl, rfl⟩, rfl⟩, rfl⟩ := h
        exact fun _ => ⟨⟨by rw [runs], by rw [runs]⟩, by rw [runs]; exact fun _ _ => rfl⟩
      | _ => trivial
    | done answer =>
      cases stack with
      | empty => trivial
      | @push _ w frame rest =>
        cases frame with
        | mounting => cases h.2
        | forking => cases h.2
        | waiting =>
          cases s
          case procedure => cases w <;> trivial
          all_goals trivial
        | _ => trivial
    | _ => trivial
  | _ => trivial

end Resumable.Sketch
