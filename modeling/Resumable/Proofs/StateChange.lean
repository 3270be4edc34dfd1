import Resumable.Proofs.Phases
import Resumable.Proofs.ShownSetters

namespace Resumable

variable {K : Client} {β : Behaviour K} {M : Meaning β}

/-- A computation or a producer is called for an instance at a position. -/
inductive Config.Supplies (i : InstanceId) (n : Position) : Config K → Prop
  | compute (σ : State K) (c : K.Computation) (keys : List Value) (rest : Stack K .result) :
    Supplies i n ⟨.value, σ, .call (.compute c), .push (.computing i n keys) rest⟩
  | produce (σ : State K) (p : K.Producer) (keys : Option (List Value)) (rest : Stack K .result) :
    Supplies i n ⟨.future, σ, .call (.produce p), .push (.launching i n keys) rest⟩

namespace Program

variable {P : Program M} {slots : InstanceId → Slots} {firings : List (Position × Value)}
  {kept : History K.Artifact} {c d : Config K} {σ : State K} {i : InstanceId} {x : Instance K}

/-- The component has yet to be rendered, and nobody else uses its memo. -/
structure Fresh (P : Program M) (σ : State K) : Prop where
  vacant : P.host.Vacant σ
  home : P.Home σ
  unused : ∀ (i : InstanceId) x, σ.instances[i]? = some x → x.memo ≠ P.memo
  empty : σ.memo P.memo = []
  tasks : ∀ task ∈ σ.tasks, ∃ x, σ.instances[task.owner]? = some x

theorem Fresh.along (fresh : P.Fresh σ) (code : Code K Unit) :
    P.Along (fun _ => .empty) [] [] (.start σ code) where
  hosted := ⟨0, fresh.vacant.start code⟩
  family := by
    refine ⟨fun _ => [], .quiet ⟨⟨[], ?_, by simp⟩, fun i x member => ?_, fun i x member => ?_,
      fun task mem => ?_⟩ trivial⟩
    · rw [List.append_nil]
      exact fresh.empty
    · exact absurd member.2 (fresh.unused i x member.1)
    · exact absurd member.2 (fresh.unused i x member.1)
    · obtain ⟨x, found⟩ := fresh.tasks task mem
      exact .foreign ⟨x, found, fresh.unused _ x found⟩
  home := fresh.home
  measured := rfl
  phase := by
    have vacant := fresh.vacant.current
    refine .calm rfl rfl (fun _ => ⟨rfl, rfl⟩) fun i x current _ => ?_
    cases vacant.symm.trans current

theorem Along.run (sound : M.Sound) (unchanged : K.sameInputs P.inputs P.inputs = true)
    (along : P.Along slots [] [] c) {t : List (Config K × Config K)}
    (run : Config.Run β P.Drives c t d) :
    ∃ slots', P.Along slots' (P.firings t) (P.handed t) d := by
  induction run with
  | refl => exact ⟨slots, along⟩
  | snoc run drives follows ih =>
    obtain ⟨slots', along'⟩ := ih
    rw [firings_snoc, handed_snoc]
    exact (along'.follows sound unchanged drives follows).1

theorem vacant_of_locks {a : Nat} (hosted : P.host.Inv a c) (lock : Lock K)
    (locked : lock ∈ c.stack.locks P.component) (vacates : lock.Vacates) :
    c.state.current P.component = none := by
  obtain ⟨y, made, settled⟩ := hosted.state.settled
  rw [State.current_eq made]
  exact settled.vacant ⟨lock, locked, vacates⟩

theorem Along.current (along : P.Along slots firings kept c) (idle : P.forked? c = none)
    (current : c.state.current P.component = some i) (found : c.state.instances[i]? = some x) :
    M.Recorded (P.plan firings) i x.history ∧ kept <+: x.history ∧ x.memo = P.memo := by
  obtain ⟨base, phase⟩ := along
  obtain ⟨a, hosted⟩ := base.hosted
  cases phase with
  | calm alone _ vacant has =>
    obtain ⟨assigned, begins⟩ := has i x current found
    obtain ⟨recorded, memo⟩ := base.recorded current found assigned
    exact ⟨recorded, begins, memo⟩
  | mounting _ vacant => cases vacant.symm.trans current
  | handing _ current' => simp [forked?, current'] at idle
  | forking =>
    have vacant := vacant_of_locks hosted (.forking kept) (by simp [Stack.locks, Frame.lock?]) trivial
    cases vacant.symm.trans current
  | @replaying _ _ _ j =>
    have vacant := vacant_of_locks hosted (.adopting j) (by simp [Stack.locks, Frame.lock?]) trivial
    cases vacant.symm.trans current
  | @adopting _ _ j =>
    have vacant := vacant_of_locks hosted (.adopting j) (by simp [Stack.locks, Frame.lock?]) trivial
    cases vacant.symm.trans current

theorem Phase.alone_of_supplies {n : Position} (phase : P.Phase slots firings kept c)
    (supplies : c.Supplies i n) : c.stack.locks P.component = [] := by
  cases phase with
  | calm alone => exact alone
  | mounting => cases supplies
  | handing => cases supplies
  | forking => cases supplies
  | replaying => cases supplies
  | adopting => cases supplies

theorem Phase.unfilled_of_vacant (phase : P.Phase slots firings kept c)
    (alone : c.stack.locks P.component = []) (none : c.state.current P.component = none) :
    firings = [] := by
  cases phase with
  | calm _ _ vacant => exact (vacant none).1
  | mounting _ _ unfilled => exact unfilled.1
  | handing _ current => cases none.symm.trans current
  | forking => simp [Stack.locks, Frame.lock?] at alone
  | replaying => simp [Stack.locks, Frame.lock?] at alone
  | adopting => simp [Stack.locks, Frame.lock?] at alone

theorem position_of_supplies {F : Family M} {seen : InstanceId → List Event}
    {n : Position} (inv : F.Inv seen c) (supplies : c.Supplies i n) (member : F.Member c.state i x) :
    n = x.history.length := by
  cases supplies with
  | compute =>
    cases inv with
    | quiet ok clear => exact ((clear.top rfl).not_member member).elim
    | computing ok clear member' => rw [member'.unique member.1]
  | produce =>
    cases inv with
    | quiet ok clear => exact ((clear.top rfl).not_member member).elim
    | launching ok clear member' => rw [member'.unique member.1]

/-- An instance has recorded what the procedure records by itself under the slots filled along a run.
It begins with the entries before the slot whose setter was fired last and with the value it was
fired with, and no computation and no producer is called for it before that slot or at it. -/
structure Shows (P : Program M) (t : List (Config K × Config K)) (c : Config K) (i : InstanceId)
    (x : Instance K) : Prop where
  recorded : M.Recorded (P.plan (P.firings t)) i x.history
  agrees (j : InstanceId) (h : History K.Artifact)
    (other : M.Recorded (P.plan (P.firings t)) j h) :
    M.HistoryAlike (x.history.take h.length) (h.take x.history.length)
  begins : P.handed t <+: x.history
  supplied (n : Position) (supplies : c.Supplies i n) : keptBy (P.firings t) ≤ n

/-- The setter of a slot of the current instance is fired with a value, and what the instance has
recorded before the slot is handed on at once, with the value in the slot. -/
structure Fires (P : Program M) (c d : Config K) (setter : Setter K.Artifact) (v : Value) : Prop where
  current : c.state.current P.component = some setter.owner
  slot : ∃ x w, c.state.instances[setter.owner]? = some x ∧
    x.history[setter.position]? = some (.state w) ∧ x.history.take setter.position = setter.before
  forked : P.forked? d = some (setter.before ++ [.state v])

theorem fires_of_follows (sound : M.Sound) (unchanged : K.sameInputs P.inputs P.inputs = true)
    (along : P.Along slots firings kept c) (drives : P.Drives c) (follows : Config.Follows β c d)
    {setter : Setter K.Artifact} {v : Value} (fired : P.fired? c = some (setter, v)) :
    P.Fires c d setter v := by
  have forked := (along.follows sound unchanged drives follows).2 setter v fired
  obtain ⟨s, σ, next, stack, rfl, current⟩ := fired?_eq_some fired
  obtain ⟨x, w, found, slot⟩ := drives.permits current
  obtain ⟨there, before⟩ := setter.slot_of_prefix slot
  exact ⟨current, ⟨x, w, found, there, before⟩, forked⟩

/-- Along every run in which the client renders a component with inputs that equal themselves and
fires setters that its current instance was fed, the current instance shows what the procedure
records under the slots filled so far, from the moment in which the component has heard of the last
of them. While an instance makes way for another no computation and no producer is called. -/
theorem state_change (sound : M.Sound) (P : Program M)
    (unchanged : K.sameInputs P.inputs P.inputs = true) {σ₀ : State K} (fresh : P.Fresh σ₀)
    {code : Code K Unit} {t : List (Config K × Config K)} {c : Config K}
    (run : Config.Run β P.Drives (.start σ₀ code) t c) :
    (∀ i x, P.forked? c = none → c.state.current P.component = some i →
      c.state.instances[i]? = some x → P.Shows t c i x) ∧
    (∀ p ∈ t, ∀ setter v, P.fired? p.1 = some (setter, v) → P.Fires p.1 p.2 setter v) ∧
    (c.stack.locks P.component = [] → c.state.current P.component = none → P.firings t = []) ∧
    (∀ i n, c.Supplies i n → c.stack.locks P.component = []) := by
  have : Nonempty K.Memory := ⟨σ₀.memory⟩
  obtain ⟨slots, along⟩ := (fresh.along code).run sound unchanged run
  refine ⟨fun i x idle current found => ?_, fun p mem setter v fired => ?_,
    fun alone none => along.phase.unfilled_of_vacant alone none,
    fun i n supplies => along.phase.alone_of_supplies supplies⟩
  · obtain ⟨recorded, begins, memo⟩ := along.current idle current found
    refine ⟨recorded, fun j h other => recorded.agree sound P.deterministic other, begins,
      fun n supplies => ?_⟩
    obtain ⟨seen, family⟩ := along.family
    rw [position_of_supplies family supplies ⟨found, memo⟩, ← along.measured]
    exact begins.length_le
  · obtain ⟨u, v, rfl⟩ := List.append_of_mem mem
    obtain ⟨before, drives, follows, -⟩ := run.split rfl
    obtain ⟨slots', along'⟩ := (fresh.along code).run sound unchanged before
    exact fires_of_follows sound unchanged along' drives follows fired

end Program

namespace Sketch

theorem coherent (p : Drawing) (settings : Settings) : meaning.Coherent p settings := by
  rintro slots slots' i j h k e e' q q' ⟨a, course, -, step⟩ ⟨b, course', -, step'⟩ length keys
    keys' keyed keyed' -
  obtain ⟨move, next, answer⟩ := Drawing.asked (Except.ok.inj step)
  obtain ⟨move', next', answer'⟩ := Drawing.asked (Except.ok.inj step')
  have same : move :: q.moves = move' :: q'.moves := by
    rw [← next, ← next', course_moves course, course_moves course', length]
  cases (List.cons.inj same).1
  obtain ⟨value, cached, upshot⟩ := Drawing.answer_cached answer keyed
  obtain ⟨value', cached', upshot'⟩ := Drawing.answer_cached answer' keyed'
  cases cached.symm.trans cached'
  rw [upshot, upshot']

def program (moves : List Move) (inputs : Value) : Program meaning where
  component := 0
  memo := 0
  factory := fun _ => { moves := moves }
  inputs := inputs
  start := { moves := moves }
  settings := {}
  build := rfl
  deterministic := deterministic _
  coherent := coherent _ _

theorem drawn_fresh (moves : List Move) (inputs : Value) :
    (program moves inputs).Fresh (drawnState moves) where
  vacant := drawn_vacant moves rfl rfl
  home := ⟨_, rfl, rfl, rfl⟩
  unused i x found := by cases found
  empty := rfl
  tasks task mem := by cases mem

def drives (inputs : Value) (c : Config client) : Bool :=
  c.state.held.contains (.ofComponent 0) &&
    match c with
    | ⟨_, _, .run (.call request _), _⟩ =>
      match request with
      | .render _ given => given = inputs
      | .instanceView _ => true
      | _ => false
    | _ => true

theorem drives_of_drives {moves : List Move} {inputs : Value} (c : Config client)
    (h : drives inputs c = true) : (program moves inputs).Drives c := by
  simp only [drives, Bool.and_eq_true] at h
  refine ⟨List.contains_iff_mem.mp h.1, ?_⟩
  obtain ⟨s, σ, control, stack⟩ := c
  cases control with
  | run code =>
    cases code with
    | call request next =>
      cases request with
      | render id given => exact fun _ => of_decide_eq_true h.2
      | instanceView => trivial
      | _ => cases h.2
    | _ => trivial
  | _ => trivial

theorem drives_fire {moves : List Move} {inputs : Value} {σ : State client} {s : Shape}
    {stack : Stack client s} {next : Shape.unit.Answer client → Code client (s.Answer client)}
    {i : InstanceId} {x : Instance client} {n : Nat} {v w : Value}
    (held : .ofComponent 0 ∈ σ.held) (found : σ.instances[i]? = some x)
    (slot : x.history[n]? = some (.state w)) :
    (program moves inputs).Drives
      ⟨s, σ, .run (.call (.fire ⟨i, x.history.take n⟩ v) next), stack⟩ := by
  refine ⟨held, fun _ => ⟨x, w, found, ?_⟩⟩
  obtain ⟨lt, at_n⟩ := List.getElem?_eq_some_iff.mp slot
  have begins := List.take_prefix (n + 1) x.history
  rwa [List.take_succ_eq_append_getElem lt, at_n] at begins

theorem run_fired {moves : List Move} {inputs : Value} {c d : Config client}
    {t : List (Config client × Config client)}
    (run : Config.Run behaviour (program moves inputs).Drives c t d)
    (fires : (program moves inputs).Drives d) (n : Nat)
    (step : d.step behaviour = .ok (Config.after behaviour 1 d))
    (checked : ((Config.trail behaviour n (Config.after behaviour 1 d)).all fun p =>
      drives inputs p.1) = true) :
    Config.Run behaviour (program moves inputs).Drives c
      (t ++ [(d, Config.after behaviour 1 d)] ++
        Config.trail behaviour n (Config.after behaviour 1 d))
      (Config.after behaviour n (Config.after behaviour 1 d)) :=
  (run.snoc fires (.step step)).append (.walk drives_of_drives n _ checked)

def survey : List Move :=
  [.compute (.int 7) [.int 1], .hold (.int 3), .show, .hold (.int 4), .finish]

def surveyCode : Code client Unit :=
  .call (.render 0 (.int 1)) fun _ =>
    .call (.instanceView 0) fun view =>
      .call (.fire ⟨0, view.history.take 1⟩ (.int 9)) fun _ =>
        .call (.render 0 (.int 1)) fun _ =>
          .call (.instanceView 1) fun view =>
            .call (.fire ⟨1, view.history.take 3⟩ (.int 8)) fun _ =>
              .call (.render 0 (.int 1)) fun _ => .done ()

def surveyed : Config client :=
  Config.after behaviour 42 (.start (drawnState survey) surveyCode)

def resurveyed : Config client :=
  Config.after behaviour 39 (Config.after behaviour 1 surveyed)

/-- When both have been fired and the component has been rendered again, its instance shows what the
moves draw with the two values in the slots. -/
theorem survey_state_change : ∃ c t i x,
    Config.Run behaviour (program survey (.int 1)).Drives (.start (drawnState survey) surveyCode)
      t c ∧
    (program survey (.int 1)).firings t = [(1, .int 9), (3, .int 8)] ∧
    c.state.current 0 = some i ∧ c.state.instances[i]? = some x ∧ x.history.length = 5 ∧
    meaning.Recorded ((program survey (.int 1)).plan [(1, .int 9), (3, .int 8)]) i x.history := by
  have first : Config.Run behaviour (program survey (.int 1)).Drives
      (.start (drawnState survey) surveyCode)
      (Config.trail behaviour 42 (.start (drawnState survey) surveyCode)) surveyed :=
    .walk drives_of_drives _ _ (by decide +kernel)
  have fires : (program survey (.int 1)).Drives surveyed :=
    drives_fire (x := surveyed.state.instances.get ⟨0, by decide +kernel⟩) (n := 1) (w := .int 3)
      (.head _) rfl rfl
  have second := run_fired first fires 39 rfl (by decide +kernel)
  have refires : (program survey (.int 1)).Drives resurveyed :=
    drives_fire (x := resurveyed.state.instances.get ⟨1, by decide +kernel⟩) (n := 3) (w := .int 4)
      (.head _) rfl rfl
  have run := run_fired second refires 29 rfl (by decide +kernel)
  obtain ⟨shows, -⟩ := Program.state_change meaning_sound (program survey (.int 1)) rfl
    (drawn_fresh _ _) run
  have recorded := (shows 2 _ rfl rfl rfl).recorded
  exact ⟨_, _, 2, _, run, rfl, rfl, rfl, rfl, recorded⟩

def nan : Value :=
  .float ⟨0x7ff8000000000000⟩

def remountCode : Code client Unit :=
  .call (.render 0 nan) fun _ =>
    .call (.instanceView 0) fun view =>
      .call (.fire ⟨0, view.history.take 0⟩ (.int 9)) fun _ =>
        .call (.render 0 nan) fun _ => .done ()

def remounting : Config client :=
  Config.after behaviour 22 (.start (drawnState [.hold (.int 1), .finish]) remountCode)

/-- Inputs that do not equal themselves mount another instance with every render: the slot that was
filled is back to what it asks for. -/
theorem remount_forgets : (program [.hold (.int 1), .finish] nan).Fresh
    (drawnState [.hold (.int 1), .finish]) ∧ ∃ c t i x,
    Config.Run behaviour (program [.hold (.int 1), .finish] nan).Drives
      (.start (drawnState [.hold (.int 1), .finish]) remountCode) t c ∧
    (program [.hold (.int 1), .finish] nan).firings t = [(0, .int 9)] ∧
    c.state.current 0 = some i ∧ c.state.instances[i]? = some x ∧
    ¬ meaning.Recorded ((program [.hold (.int 1), .finish] nan).plan
      ((program [.hold (.int 1), .finish] nan).firings t)) i x.history := by
  have first : Config.Run behaviour (program [.hold (.int 1), .finish] nan).Drives
      (.start (drawnState [.hold (.int 1), .finish]) remountCode)
      (Config.trail behaviour 22 (.start (drawnState [.hold (.int 1), .finish]) remountCode))
      remounting :=
    .walk drives_of_drives _ _ (by decide +kernel)
  have fires : (program [.hold (.int 1), .finish] nan).Drives remounting :=
    drives_fire (x := remounting.state.instances.get ⟨0, by decide +kernel⟩) (n := 0) (w := .int 1)
      (.head _) rfl rfl
  have run := run_fired first fires 31 rfl (by decide +kernel)
  refine ⟨drawn_fresh _ _, _, _, 2, _, run, rfl, rfl, rfl, fun recorded => ?_⟩
  have held : Value.int 1 = .int 9 := recorded.filled (n := 0) rfl rfl
  cases held

end Sketch

end Resumable
