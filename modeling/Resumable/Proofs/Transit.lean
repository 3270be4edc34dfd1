import Resumable.Proofs.Passage

namespace Resumable

variable {K : Client} {s w : Shape} {σ : State K}

namespace Config

/-- A client stores a value in a memo by itself, or clears it. -/
inductive ClientWrites (m : MemoId) : Config K → Prop
  | remembers {s : Shape} (σ : State K) (n : Position) (keys : List Value) (v : Value)
    (next : Shape.unit.Answer K → Code K (s.Answer K)) (stack : Stack K s) :
    ClientWrites m ⟨s, σ, .run (.call (.remember m n keys v) next), stack⟩
  | clears {s : Shape} (σ : State K) (next : Shape.unit.Answer K → Code K (s.Answer K))
    (stack : Stack K s) : ClientWrites m ⟨s, σ, .run (.call (.clearMemo m) next), stack⟩

/-- A computation or a cached producer of an instance comes to a value. -/
inductive Brings (i : InstanceId) (n : Position) (keys : List Value) (v : Value) :
    Config K → Prop
  | computed (σ : State K) (stack : Stack K .result) :
    Brings i n keys v ⟨.value, σ, .run (.done v), .push (.computing i n keys) stack⟩
  | settled {c : Config K} {stack : Stack K .unit} {task : Task K}
    (completes : c.Completes stack task (.ok v)) (owner : task.owner = i)
    (position : task.position = n) (cached : task.keys = some keys) : Brings i n keys v c

inductive GivesBack (i : InstanceId) (p : K.Procedure) : Config K → Prop
  | step (σ : State K) (n : Position) (answer : Except Fault K.Yielded) (rest : Stack K .result) :
    GivesBack i p ⟨.step, σ, .run (.done (p, answer)), .push (.stepping i n) rest⟩
  | replay (σ : State K) (e : Entry K.Artifact) (later : History K.Artifact)
    (answer : Except Fault K.Yielded) (rest : Stack K .result) :
    GivesBack i p ⟨.step, σ, .run (.done (p, answer)), .push (.replaying i e later) rest⟩

inductive Founds (k : ComponentId) (p : K.Procedure) : Config K → Prop
  | mounting (σ : State K) (inputs : K.Inputs) (rest : Stack K .artifact) :
    Founds k p ⟨.procedure, σ, .run (.done p), .push (.mounting k inputs) rest⟩
  | forking (σ : State K) (h : History K.Artifact) (rest : Stack K .unit) :
    Founds k p ⟨.procedure, σ, .run (.done p), .push (.forking k h) rest⟩

def Provides (k : ComponentId) (i : InstanceId) (c : Config K) : Prop :=
  (∃ p, c.Founds k p) ∧ c.state.instances.length = i

inductive Makes (i : InstanceId) (p : K.Procedure) : Config K → Prop
  | client {s : Shape} (σ : State K) (next : i = σ.instances.length) (m : MemoId)
    (settings : Settings) (then' : Shape.number.Answer K → Code K (s.Answer K)) (stack : Stack K s) :
    Makes i p ⟨s, σ, .run (.call (.newInstance p m settings) then'), stack⟩
  | host {c : Config K} {k : ComponentId} (founds : c.Founds k p)
    (next : i = c.state.instances.length) : Makes i p c

inductive Yields (i : InstanceId) (n : Position)
    (effect : Effect K.Artifact K.Producer K.Computation) : Config K → Prop
  | step (σ : State K) (p : K.Procedure) (rest : Stack K .result) : Yields i n effect
      ⟨.step, σ, .run (.done (p, .ok (.effect effect))), .push (.stepping i n) rest⟩

inductive Enters (i : InstanceId) : Entry K.Artifact → Config K → Prop
  | recorded {c : Config K} {n : Position} {effect : Effect K.Artifact K.Producer K.Computation}
    {e : Entry K.Artifact} {x : Instance K} (yields : c.Yields i n effect)
    (found : c.state.instances[i]? = some x)
    (records : effect.Records ((c.state.memo x.memo).lookup n) e) : Enters i e c
  | completed (σ : State K) (n : Position) (p : K.Procedure) (a : K.Artifact)
    (rest : Stack K .result) : Enters i (.view a)
      ⟨.step, σ, .run (.done (p, .ok (.complete a))), .push (.stepping i n) rest⟩
  | computed (σ : State K) (n : Position) (keys : List Value) (v : Value) (rest : Stack K .result) :
    Enters i (.yielded v) ⟨.value, σ, .run (.done v), .push (.computing i n keys) rest⟩
  | settled {c : Config K} {stack : Stack K .unit} {task : Task K} {v : Value}
    (completes : c.Completes stack task (.ok v)) (owner : task.owner = i) :
    Enters i (.yielded v) c
  | replayed (σ : State K) {e : Entry K.Artifact} (later : History K.Artifact) (p : K.Procedure)
    {effect : Effect K.Artifact K.Producer K.Computation} (rest : Stack K .result)
    (fits : e.recordedBy effect.kind = true) : Enters i e
      ⟨.step, σ, .run (.done (p, .ok (.effect effect))), .push (.replaying i e later) rest⟩
  | replayCompleted (σ : State K) (a b : K.Artifact) (p : K.Procedure) (rest : Stack K .result) :
    Enters i (.view a)
      ⟨.step, σ, .run (.done (p, .ok (.complete b))), .push (.replaying i (.view a) []) rest⟩

inductive Announces (i : InstanceId) : Signal K.Artifact → Config K → Prop
  | recorded (σ : State K) (n : Position) (p : K.Procedure)
    (e : Effect K.Artifact K.Producer K.Computation) (rest : Stack K .result) :
    Announces i .ready ⟨.step, σ, .run (.done (p, .ok (.effect e))), .push (.stepping i n) rest⟩
  | completed (σ : State K) (n : Position) (p : K.Procedure) (a : K.Artifact)
    (rest : Stack K .result) :
    Announces i .done ⟨.step, σ, .run (.done (p, .ok (.complete a))), .push (.stepping i n) rest⟩
  | computed (σ : State K) (n : Position) (keys : List Value) (v : Value) (rest : Stack K .result) :
    Announces i .ready ⟨.value, σ, .run (.done v), .push (.computing i n keys) rest⟩
  | settled {c : Config K} {stack : Stack K .unit} {task : Task K} {v : Value}
    (completes : c.Completes stack task (.ok v)) (owner : task.owner = i) : Announces i .ready c
  | rejected {c : Config K} {stack : Stack K .unit} {task : Task K} {failure : Failure}
    (completes : c.Completes stack task (.error failure)) (owner : task.owner = i) :
    Announces i (.rejected (.producer task.position failure)) c

inductive Moves (k : ComponentId) : Config K → Prop
  | made {s : Shape} (σ : State K) (factory : K.Factory) (callback : K.Callback)
    (settings : Settings) (next : Shape.number.Answer K → Code K (s.Answer K)) (stack : Stack K s)
    (fresh : k = σ.components.length) :
    Moves k ⟨s, σ, .run (.call (.newComponent factory callback settings) next), stack⟩
  | reset {s : Shape} (σ : State K) (next : Shape.unit.Answer K → Code K (s.Answer K))
    (stack : Stack K s) : Moves k ⟨s, σ, .run (.call (.reset k) next), stack⟩
  | mounted (σ : State K) (inputs : K.Inputs) (p : K.Procedure) (rest : Stack K .artifact) :
    Moves k ⟨.procedure, σ, .run (.done p), .push (.mounting k inputs) rest⟩
  | adopted (σ : State K) (i : InstanceId) (result : Except Fault Unit) (rest : Stack K .unit) :
    Moves k ⟨.result, σ, .run (.done result), .push (.adopting k i) rest⟩

def mark? (k : ComponentId) : Config K → Option Bool
  | ⟨_, _, .run (.call (.render id _) _), _⟩ => if id = k then some true else none
  | ⟨_, _, .run (.done _), .push (.rendering id _) _⟩ => if id = k then some false else none
  | _ => none

/-- A living component is the next one to take a signal. -/
inductive Tells (k : ComponentId) (signal : Signal K.Artifact) : Config K → Prop
  | first (σ : State K) {source : Source} {rest : List (Observer K)} {stack : Stack K .unit}
    (heard : (σ.registry source).observers = .host k :: rest)
    (alive : σ.componentAlive (.push (.emitting source rest signal) stack) k = true) :
    Tells k signal ⟨.unit, σ, .emit source signal, stack⟩
  | later (σ : State K) {source : Source} {rest : List (Observer K)} {stack : Stack K .unit}
    (alive : σ.componentAlive (.push (.emitting source rest signal) stack) k = true) :
    Tells k signal ⟨.unit, σ, .run (.done ()), .push (.emitting source (.host k :: rest) signal) stack⟩

inductive Triggers : Config K → Trigger K → Prop
  | told {c : Config K} {k : ComponentId} {signal : Signal K.Artifact} {a : Trigger K}
    (tells : c.Tells k signal) (begins : c.state.Begins k signal a) : Triggers c a
  | adopted (σ : State K) (k : ComponentId) (rest : Stack K .unit) (unmarked : σ.marked k = false) :
    Triggers ⟨.unit, σ, .run (.done ()), .push (.requesting k) rest⟩ (.request k)
  | rendered (σ : State K) (k : ComponentId) (answer : Except Fault K.Artifact)
    (rest : Stack K .artifact) :
    Triggers ⟨.artifact, σ, .run (.done answer), .push (.reviewing k) rest⟩ (.rerender k)
  | built (σ : State K) (k : ComponentId) (e : Entry K.Artifact) (later : History K.Artifact)
    (p : K.Procedure) (rest : Stack K .unit) :
    Triggers ⟨.procedure, σ, .run (.done p), .push (.forking k (e :: later)) rest⟩
      (.replay σ.instances.length e later (.push (.adopting k σ.instances.length) rest))
  | replayed (σ : State K) (i : InstanceId) (e next : Entry K.Artifact)
    (others : History K.Artifact) (p : K.Procedure)
    (effect : Effect K.Artifact K.Producer K.Computation) (rest : Stack K .result) :
    Triggers ⟨.step, σ, .run (.done (p, .ok (.effect effect))),
      .push (.replaying i e (next :: others)) rest⟩ (.replay i next others rest)
  | asked {s : Shape} (σ : State K) (i : InstanceId) (e : Entry K.Artifact)
    (later : History K.Artifact) (next : Shape.result.Answer K → Code K (s.Answer K))
    (stack : Stack K s) :
    Triggers ⟨s, σ, .run (.call (.replay i (e :: later)) next), stack⟩
      (.replay i e later (.push (.waiting next) stack))
  | fired {s : Shape} (σ : State K) (setter : Setter K.Artifact) (v : Value)
    (next : Shape.unit.Answer K → Code K (s.Answer K)) (stack : Stack K s) :
    Triggers ⟨s, σ, .run (.call (.fire setter v) next), stack⟩
      (.forked setter.owner (setter.forked v))

/-- What the next step may exchange. -/
def exchange (c : Config K) : Exchange K where
  memo m table := c.ClientWrites m ∨ ∃ i n keys v x, c.Brings i n keys v ∧
    c.state.instances[i]? = some x ∧ x.memo = m ∧ table = (c.state.memo m).remember n keys v
  procedure i p := c.GivesBack i p ∨ c.Makes i p
  entry i e := c.Enters i e
  ask i n effect := c.Yields i n effect
  signal i signal := c.Announces i signal
  place k := c.Moves k
  mark k b := c.mark? k = some b
  observes k source := ∃ i, source = .ofInstance i ∧ c.Provides k i
  trigger a := c.Triggers a

/-- The stack that the next step goes on from. -/
inductive Beneath : Config K → {w : Shape} → Stack K w → Prop
  | same (c : Config K) : Beneath c c.stack
  | asked {s w : Shape} (σ : State K) (request : Request K w)
    (next : w.Answer K → Code K (s.Answer K)) (stack : Stack K s) :
    Beneath ⟨s, σ, .run (.call request next), stack⟩ (.push (.waiting next) stack)
  | left {s w : Shape} (σ : State K) {control : Control K s} {frame : Frame K s w}
    (ended : ∃ result, control = .run (.ended result)) (rest : Stack K w)
    (waits : frame.waits = false) (unlocked : frame.lockedComponent? = none)
    (own : frame.ofThread = false) :
    Beneath ⟨s, σ, control, .push frame rest⟩ rest
  | mounted (σ : State K) (k : ComponentId) (inputs : K.Inputs) (p : K.Procedure)
    (rest : Stack K .artifact) :
    Beneath ⟨.procedure, σ, .run (.done p), .push (.mounting k inputs) rest⟩ rest
  | built (σ : State K) (k : ComponentId) (h : History K.Artifact) (p : K.Procedure)
    (rest : Stack K .unit) :
    Beneath ⟨.procedure, σ, .run (.done p), .push (.forking k h) rest⟩
      (.push (.adopting k σ.instances.length) rest)
  | adopted (σ : State K) (k : ComponentId) (i : InstanceId) (result : Except Fault Unit)
    (rest : Stack K .unit) :
    Beneath ⟨.result, σ, .run (.done result), .push (.adopting k i) rest⟩ rest
  | told (σ : State K) (source : Source) (signal : Signal K.Artifact) {o : Observer K}
    {others : List (Observer K)} (stack : Stack K .unit)
    (heard : (σ.registry source).observers = o :: others) :
    Beneath ⟨.unit, σ, .emit source signal, stack⟩ (.push (.emitting source others signal) stack)
  | passed (σ : State K) (source : Source) (signal : Signal K.Artifact) (o : Observer K)
    (others : List (Observer K)) (stack : Stack K .unit) :
    Beneath ⟨.unit, σ, .run (.done ()), .push (.emitting source (o :: others) signal) stack⟩
      (.push (.emitting source others signal) stack)

variable (β : Behaviour K)

inductive Transit : Config K → Config K → Prop
  | entered {s : Shape} (σ : State K) (c : Call K s) (stack : Stack K s) :
    Transit ⟨s, σ, .call c, stack⟩ ⟨s, σ, .run (β.code c), stack⟩
  | read {s : Shape} (σ : State K) (next : K.Memory → Code K (s.Answer K)) (stack : Stack K s) :
    Transit ⟨s, σ, .run (.read next), stack⟩ ⟨s, σ, .run (next σ.memory), stack⟩
  | wrote {s : Shape} (σ : State K) (memory : K.Memory) (next : Code K (s.Answer K))
    (stack : Stack K s) :
    Transit ⟨s, σ, .run (.write memory next), stack⟩
      ⟨s, { σ with memory := memory }, .run next, stack⟩
  | answered {s w : Shape} (σ : State K) (next : s.Answer K → Code K (w.Answer K))
    (answer : s.Answer K) (rest : Stack K w) :
    Transit ⟨s, σ, .run (.done answer), .push (.waiting next) rest⟩ ⟨w, σ, .run (next answer), rest⟩
  | dropped {s w : Shape} (σ : State K) (payload : Payload) (frame : Frame K s w)
    (rest : Stack K w) (own : frame.ofThread = false) :
    Transit ⟨s, σ, .run (.panic payload), .push frame rest⟩ ⟨w, σ, .run (.panic payload), rest⟩
  | acted {c d : Config K} {w : Shape} {base : Stack K w} (beneath : c.Beneath base)
    (passage : Passage c.exchange c.state base d) : Transit c d

end Config

namespace Config

variable {β : Behaviour K} {c d : Config K}

section

variable {k : ComponentId} {source : Source} {signal : Signal K.Artifact} {stack : Stack K .unit}

theorem Delivering.beneath {o : Observer K} {others : List (Observer K)}
    (delivering : c.Delivering source signal (o :: others) stack) :
    c.Beneath (.push (.emitting source others signal) stack) := by
  cases delivering with
  | sent σ heard => exact .told σ source signal stack heard
  | further σ => exact .passed σ source signal o others stack

theorem Reacting.beneath (reacting : c.Reacting k signal stack) : c.Beneath stack := by
  cases reacting with
  | intro delivering => exact delivering.beneath

theorem Reacting.tells (reacting : c.Reacting k signal stack) : c.Tells k signal := by
  cases reacting with
  | intro delivering alive =>
    cases delivering with
    | sent σ heard => exact .first σ heard alive
    | further σ => exact .later σ alive

theorem Requesting.beneath (requesting : c.Requesting k stack) : c.Beneath stack := by
  cases requesting with
  | told reacting => exact reacting.beneath
  | adopted σ => exact .left σ ⟨.ok _, rfl⟩ stack rfl rfl rfl

theorem Requesting.triggers (requesting : c.Requesting k stack)
    (unmarked : c.state.marked k = false) : c.Triggers (.request k) := by
  cases requesting with
  | told reacting ready =>
    rcases ready with rfl | rfl
    · exact .told reacting.tells (.ready unmarked)
    · exact .told reacting.tells (.done unmarked)
  | adopted σ => exact .adopted σ k stack unmarked

theorem Draining.beneath (draining : c.Draining stack) : c.Beneath stack := by
  cases draining with
  | asked σ next stack => exact .asked σ .drain next stack
  | again σ => exact .left σ ⟨.ok _, rfl⟩ stack rfl rfl rfl

theorem Completes.beneath {task : Task K} {outcome : Except Failure Value}
    (completes : c.Completes stack task outcome) : c.Beneath stack := by
  cases completes with
  | answered σ r => exact .left σ ⟨.ok _, rfl⟩ stack rfl rfl rfl
  | panicked σ payload => exact .left σ ⟨.error _, rfl⟩ stack rfl rfl rfl

end

theorem replied_transit {next : w.Answer K → Code K (s.Answer K)} {stack : Stack K s}
    {request : Request K w} {σ' : State K} {answer : w.Answer K}
    (replies : σ.Replies (.push (.waiting next) stack) request σ' answer) :
    Transit β ⟨s, σ, .run (.call request next), stack⟩
      ⟨w, σ', .run (.done answer), .push (.waiting next) stack⟩ := by
  refine .acted (.asked σ request next stack) ?_
  cases replies with
  | newMemo => exact .run ((Exchange.Keeps.refl σ).newMemo) .refl rfl
  | remember m n keys v => exact .run (.remember (.inl (.remembers σ n keys v next stack))) .refl rfl
  | clearMemo m => exact .run (.clearMemo (.inl (.clears σ next stack))) .refl rfl
  | newRegistry => exact .run .newRegistry .refl rfl
  | subscribe source o => exact .run (.modifyRegistry source fun _ => .subscribe o) .refl rfl
  | unsubscribe source n => exact .run (.modifyRegistry source fun _ => .unsubscribe n) .refl rfl
  | closeRegistry id => exact .run (.modifyRegistry (.free id) fun _ => .close) .refl rfl
  | newInstance p m settings =>
    exact .run (.newInstance (Or.inr (.client σ rfl m settings next stack)) m settings rfl
      fun _ told => absurd told List.not_mem_nil) .refl rfl
  | terminate =>
    exact .run ((Exchange.Keeps.refl σ).modifyStatus _ (fun _ => rfl) (fun _ => rfl)
      fun _ => .close) .refl rfl
  | newComponent factory callback settings =>
    exact .run (.newComponent factory callback settings
      (.made σ factory callback settings next stack rfl)) .refl rfl
  | @reset σ' k y _ _ dismisses =>
    have place : (exchange ⟨s, σ, .run (.call (.reset k) next), stack⟩).place k :=
      .reset σ next stack
    exact .run ((((Exchange.Keeps.refl σ).dismisses dismisses place).newMemo).movePlace k
      (fun _ => rfl) place) .refl rfl
  | @unmount _ k y unlocked made dismisses =>
    exact .vacates (k := k) (.run ((Exchange.Keeps.refl σ).dismisses dismisses (.inr rfl)) .refl rfl)
      (dismisses.vacates unlocked made)
  | takeFault => exact .run ((Exchange.Keeps.refl σ).modifyComponent _ fun _ => ⟨rfl, rfl⟩) .refl rfl
  | _ => exact .run (.of_same rfl rfl rfl rfl) .refl rfl

theorem CodeStep.transit (step : CodeStep β c d) : Transit β c d := by
  cases step with
  | entered σ call stack => exact .entered σ call stack
  | read σ next stack => exact .read σ next stack
  | wrote σ memory next stack => exact .wrote σ memory next stack
  | replied replies => exact replied_transit replies
  | called σ call next stack =>
    exact .acted (.asked σ (.call call) next stack) (.idle .refl rfl (by rintro _ _ ⟨⟩)
      (by rintro _ _ _ ⟨⟩) (fun _ _ => not_told_call) rfl)
  | emitted σ id signal next stack =>
    exact .acted (.asked σ (.emit id signal) next stack) (.idle .refl rfl (by rintro _ _ ⟨⟩)
      (by rintro _ _ _ ⟨⟩) (by rintro _ _ ⟨⟩) rfl)
  | @fired s σ setter v next stack =>
    refine .acted (.asked σ (.fire setter v) next stack) (.tell (.refl σ) .refl
      (fun own => absurd rfl (own _)) ?_)
    rintro _ ⟨⟩
    exact .fired σ setter v next stack
  | driven σ i next stack =>
    exact .acted (.asked σ (.proceed i) next stack) (.advance (.refl σ) .refl)
  | answered σ next answer rest => exact .answered σ next answer rest
  | @dropped s w σ payload frame rest uncaught =>
    refine .dropped σ payload frame rest ?_
    cases frame <;> first | rfl | cases uncaught
  | begun σ result memory ambient code =>
    exact .acted (.same _) (.run (.of_same rfl rfl rfl rfl) .refl rfl)

theorem DriveStep.transit (step : DriveStep c d) : Transit β c d := by
  cases step with
  | idle => exact .acted (.same _) (.run (.refl _) .refl (by simp))
  | refused =>
    exact .acted (.same _) (.run ((Exchange.Keeps.refl _).modifyStatus _ (fun _ => rfl)
      (fun _ => rfl) fun _ => .refl _) .refl (by simp))
  | @started σ i x p stack _ found _ _ has =>
    refine .acted (.same _) (.call ((Exchange.Keeps.refl σ).modifyInstance i (by rintro _ _ ⟨⟩)
      (fun _ => rfl) fun _ => .refl _) .refl rfl rfl
      ⟨{ x.lend with status := .running }, p, ?_, rfl, rfl⟩ ?_ (by rintro _ _ _ ⟨⟩) (by rintro _ ⟨⟩))
    · rw [State.instances_modifyInstance_self, found]
      rfl
    · rintro _ _ ⟨⟩
      exact .inl ⟨x, found, has⟩
  | @overtaken σ i x n p answer rest =>
    exact .acted (.left σ ⟨.ok _, rfl⟩ rest rfl rfl rfl) (.run ((Exchange.Keeps.refl σ).takeBack
      (p := p) (Or.inl (.step σ n answer rest)) (fun _ => rfl) (fun _ => rfl) fun _ => .refl _) .refl
      (by simp))
  | @failed σ i x n p fault rest =>
    exact .acted (.left σ ⟨.ok _, rfl⟩ rest rfl rfl rfl) (.run ((Exchange.Keeps.refl σ).takeBack
      (p := p) (Or.inl (.step σ n (.error fault) rest)) (fun _ => rfl) (fun _ => rfl)
      fun _ => .refl _) .refl (by simp))
  | @completed σ i x n p a rest =>
    exact .acted (.left σ ⟨.ok _, rfl⟩ rest rfl rfl rfl) (.signals (.appendBack (p := p) (e := .view a)
      (Or.inl (.step σ n _ rest)) (Enters.completed σ n p a rest) (fun _ => rfl) (fun _ => rfl)
      fun _ => .refl _) (.push .refl ⟨rfl, rfl, rfl, rfl⟩) (.completed σ n p a rest)
      (by rintro _ ⟨⟩))
  | @recorded σ i x n p effect e rest found alive records =>
    exact .acted (.left σ ⟨.ok _, rfl⟩ rest rfl rfl rfl) (.signals (.appendBack (p := p) (e := e)
      (Or.inl (.step σ n _ rest)) (Enters.recorded (.step σ p rest) found records) (fun _ => rfl)
      (fun _ => rfl) fun _ => .refl _) (.push .refl ⟨rfl, rfl, rfl, rfl⟩)
      (.recorded σ n p effect rest) (by rintro _ ⟨⟩))
  | @computing σ i x n p computation keys rest =>
    refine .acted (.left σ ⟨.ok _, rfl⟩ rest rfl rfl rfl) (.call ((Exchange.Keeps.refl σ).takeBack
      (p := p) (Or.inl (.step σ n _ rest)) (fun _ => rfl) (fun _ => rfl) fun _ => .refl _) .refl rfl
      rfl trivial (by rintro _ _ ⟨⟩) ?_ (by rintro _ ⟨⟩))
    rintro _ _ _ ⟨⟩
    exact .step σ p rest
  | @launching σ i x n p producer keys rest =>
    refine .acted (.left σ ⟨.ok _, rfl⟩ rest rfl rfl rfl) (.call ((Exchange.Keeps.refl σ).takeBack
      (p := p) (Or.inl (.step σ n _ rest)) (fun _ => rfl) (fun _ => rfl) fun _ => .refl _) .refl rfl
      rfl trivial (by rintro _ _ ⟨⟩) ?_ (by rintro _ ⟨⟩))
    rintro _ _ _ ⟨⟩
    exact .step σ p rest
  | @stranded σ i x n p producer keys rest =>
    exact .acted (.left σ ⟨.ok _, rfl⟩ rest rfl rfl rfl) (.run ((Exchange.Keeps.refl σ).takeBack
      (p := p) (Or.inl (.step σ n _ rest)) (fun _ => rfl) (fun _ => rfl) fun _ => .refl _) .refl
      (by simp))
  | @outdated σ i x n keys v rest found =>
    exact .acted (.left σ ⟨.ok _, rfl⟩ rest rfl rfl rfl) (.run (.remember
      (.inr ⟨i, n, keys, v, x, .computed σ rest, found, rfl, rfl⟩)) .refl (by simp))
  | @computed σ i x n keys v rest found =>
    have keeps := Exchange.Keeps.remember (E := exchange
      ⟨.value, σ, .run (.done v), .push (.computing i n keys) rest⟩)
      (Or.inr ⟨i, n, keys, v, x, .computed σ rest, found, rfl, rfl⟩)
    exact .acted (.left σ ⟨.ok _, rfl⟩ rest rfl rfl rfl) (.signals (keeps.append rfl (fun _ _ => .inl)
      (fun _ => rfl) (fun _ => .refl _) (.computed σ n keys v rest)) (.push .refl ⟨rfl, rfl, rfl, rfl⟩)
      (.computed σ n keys v rest) (by rintro _ ⟨⟩))
  | launched σ i n keys future rest =>
    exact .acted (.left σ ⟨.ok _, rfl⟩ rest rfl rfl rfl) (.run (.of_same rfl rfl rfl rfl) .refl (by simp))
  | proceeded σ i rest => exact .acted (.left σ ⟨.ok _, rfl⟩ rest rfl rfl rfl) (.advance (.refl σ) .refl)

theorem ReplayStep.transit (step : ReplayStep c d) : Transit β c d := by
  cases step with
  | @started s σ i x p e later next stack found fresh _ has =>
    refine .acted (.asked σ (.replay i (e :: later)) next stack) (.call
      ((Exchange.Keeps.refl σ).modifyInstance i (by rintro _ _ ⟨⟩) (fun _ => rfl) fun _ => .refl _)
      .refl rfl rfl ⟨x.lend, p, ?_, ?_⟩ ?_ (by rintro _ _ _ ⟨⟩) ?_)
    · rw [State.instances_modifyInstance_self, found]
      rfl
    · rw [Instance.lend, fresh]
      rfl
    · rintro _ _ ⟨⟩
      exact .inl ⟨x, found, has⟩
    · rintro _ ⟨⟩
      exact .asked σ i e later next stack
  | @diverged σ i x e later p answer rest =>
    exact .acted (.left σ ⟨.ok _, rfl⟩ rest rfl rfl rfl) (.run ((Exchange.Keeps.refl σ).takeBack
      (p := p) (Or.inl (.replay σ e later answer rest)) (fun _ => rfl) (fun _ => rfl)
      fun _ => .refl _) .refl (by simp))
  | @completed σ i x a b p rest =>
    exact .acted (.left σ ⟨.ok _, rfl⟩ rest rfl rfl rfl) (.run (.appendBack (p := p) (e := .view a)
      (Or.inl (.replay σ _ _ _ rest)) (Enters.replayCompleted σ a b p rest) (fun _ => rfl) (fun _ => rfl)
      fun _ => .refl _) .refl (by simp))
  | @ended σ i x e p effect rest found fits =>
    exact .acted (.left σ ⟨.ok _, rfl⟩ rest rfl rfl rfl) (.run (.appendBack (p := p) (e := e)
      (Or.inl (.replay σ _ _ _ rest)) (Enters.replayed σ [] p rest fits) (fun _ => rfl) (fun _ => rfl)
      fun _ => .refl _) .refl (by simp))
  | @resumed σ i x e later others p effect rest found fits =>
    refine .acted (.left σ ⟨.ok _, rfl⟩ rest rfl rfl rfl) (.call ((Exchange.Keeps.refl σ).append rfl
      (fun _ _ => .inl) (fun _ => rfl) (fun _ => .refl _) (.replayed σ _ p rest fits)) .refl rfl rfl
      ⟨x.record e, p, ?_, ?_⟩ ?_ (by rintro _ _ _ ⟨⟩) ?_)
    · rw [State.instances_modifyInstance_self, found]
      rfl
    · rw [Instance.record, Resumption.next?_push]
    · rintro _ _ ⟨⟩
      exact .inr (.inl (.replay σ e _ _ rest))
    · rintro _ ⟨⟩
      exact .replayed σ i e later others p effect rest

theorem TaskStep.transit (step : TaskStep c d) : Transit β c d := by
  cases step with
  | gone completes => exact .acted completes.beneath (.run (.refl _) .refl (by simp))
  | ignored completes => exact .acted completes.beneath (.run (.refl _) .refl (by simp))
  | @settled c stack task v x σ completes found _ _ stored =>
    obtain ⟨keeps, still⟩ : c.exchange.Keeps c.state σ ∧
        σ.history task.owner = c.state.history task.owner := by
      rcases stored with rfl | ⟨keys, cached, rfl⟩
      · exact ⟨.refl _, rfl⟩
      · exact ⟨.remember (.inr ⟨task.owner, task.position, keys, v, x,
          .settled completes rfl rfl cached, found, rfl, rfl⟩), rfl⟩
    exact .acted completes.beneath (.signals (keeps.append still (fun _ _ => .inl) (fun _ => rfl)
      (fun _ => .refl _) (.settled completes rfl)) (.push .refl ⟨rfl, rfl, rfl, rfl⟩)
      (.settled completes rfl) (by rintro _ ⟨⟩))
  | rejected completes =>
    exact .acted completes.beneath (.signals ((Exchange.Keeps.refl _).modifyStatus _ (fun _ => rfl)
      (fun _ => rfl) fun _ => .refl _) (.push .refl ⟨rfl, rfl, rfl, rfl⟩) (.rejected completes rfl)
      (by rintro _ ⟨⟩))
  | told σ i rest => exact .acted (.left σ ⟨.ok _, rfl⟩ rest rfl rfl rfl) (.run (.refl σ) .refl (by simp))
  | spared σ payload i rest =>
    exact .acted (.left σ ⟨.error _, rfl⟩ rest rfl rfl rfl) (.run (.refl σ) .refl (by simp))
  | postponed σ task future rest =>
    exact .acted (.left σ ⟨.ok _, rfl⟩ rest rfl rfl rfl) (.run (.of_same rfl rfl rfl rfl) .refl (by simp))
  | parked σ task gate future rest =>
    exact .acted (.left σ ⟨.ok _, rfl⟩ rest rfl rfl rfl) (.run (.of_same rfl rfl rfl rfl) .refl (by simp))
  | polled draining =>
    exact .acted draining.beneath (.outside (.of_same rfl rfl rfl rfl)
      (.push .refl ⟨rfl, rfl, rfl, rfl⟩) rfl rfl trivial rfl (by rintro _ ⟨⟩))
  | @drained σ rest =>
    exact .acted (.left σ ⟨.ok _, rfl⟩ rest rfl rfl rfl) (.run (.refl σ) .refl (by simp))

theorem SignalStep.transit (step : SignalStep c d) : Transit β c d := by
  cases step with
  | delivered delivering =>
    cases delivering with
    | sent => exact .acted (.same _) (.run (.refl _) .refl (by simp))
    | further σ => exact .acted (.left σ ⟨.ok _, rfl⟩ _ rfl rfl rfl) (.run (.refl σ) .refl (by simp))
  | noticed delivering =>
    exact .acted delivering.beneath (.idle .refl rfl (by rintro _ _ ⟨⟩) (by rintro _ _ _ ⟨⟩)
      (by rintro _ _ ⟨⟩) rfl)
  | unheld delivering => exact .acted delivering.beneath (.run (.refl _) .refl (by simp))
  | marked requesting => exact .acted requesting.beneath (.run (.refl _) .refl (by simp))
  | requested requesting made unmarked =>
    refine .acted requesting.beneath (.outside (.refl _) .refl rfl rfl trivial rfl ?_)
    rintro _ ⟨⟩
    exact requesting.triggers (by simp [State.marked, made, unmarked])
  | bare reacting => exact .acted reacting.beneath (.run (.refl _) .refl (by simp))
  | @forked c k h y inputs σ stack reacting unlocked made given dismisses =>
    refine .acted reacting.beneath (.vacates (k := k) (.outside ((Exchange.Keeps.refl _).dismisses
      dismisses (.inr rfl)) .refl rfl rfl
      ⟨unlocked, _, inputs, dismisses.component made, rfl, given, rfl⟩ rfl ?_)
      (dismisses.vacates unlocked made))
    rintro _ ⟨⟩
    exact .told reacting.tells (.forked h)
  | @rejected c k fault y stack reacting made =>
    refine .acted reacting.beneath (.outside ((Exchange.Keeps.refl _).modifyComponent k
      fun _ => ⟨rfl, rfl⟩) .refl rfl rfl trivial rfl ?_)
    rintro _ ⟨⟩
    exact .told reacting.tells (.rejected fault)
  | hosted σ k rest => exact .acted (.left σ ⟨.ok _, rfl⟩ rest rfl rfl rfl) (.run (.refl σ) .refl (by simp))

theorem HostStep.transit (step : HostStep c d) : Transit β c d := by
  cases step with
  | @marked s σ k y inputs next stack =>
    exact .acted (.asked σ (.render k inputs) next stack) (.run (.remark (if_pos rfl))
      (.push .refl ⟨rfl, rfl, rfl, rfl⟩) rfl)
  | @continued σ k y i old inputs rest =>
    exact .acted (.left σ ⟨.ok _, rfl⟩ rest rfl rfl rfl) (.advance (.refl σ) (.push .refl ⟨rfl, rfl, rfl, rfl⟩))
  | @building σ k y inputs rest unlocked made =>
    exact .acted (.left σ ⟨.ok _, rfl⟩ rest rfl rfl rfl) (.outside (.refl σ) .refl rfl rfl
      ⟨unlocked, y, made, rfl⟩ rfl (by rintro _ ⟨⟩))
  | @mounted σ σ' k y p inputs rest made dismisses =>
    have place : (exchange ⟨.procedure, σ, .run (.done p), .push (.mounting k inputs) rest⟩).place k :=
      .mounted σ inputs p rest
    have keeps := Exchange.Keeps.mounted (σ := σ) (p := p) (k := k)
      (E := exchange ⟨.procedure, σ, .run (.done p), .push (.mounting k inputs) rest⟩)
      (Or.inr (.host (.mounting σ inputs rest) rfl)) ⟨_, rfl, ⟨_, .mounting σ inputs rest⟩, rfl⟩
      y.memo y.settings
    exact .acted (.mounted σ k inputs p rest) (.advance ((keeps.dismisses dismisses place).movePlace k
      (fun _ => rfl) place) (.push .refl ⟨rfl, rfl, rfl, rfl⟩))
  | @unmarked σ k y i x result rest =>
    exact .acted (.left σ ⟨.ok _, rfl⟩ rest rfl rfl rfl) (.run (.remark (if_pos rfl))
      (.push .refl ⟨rfl, rfl, rfl, rfl⟩) (by simp))
  | @reviewed σ k y answer rest =>
    exact .acted (.left σ ⟨.ok _, rfl⟩ rest rfl rfl rfl) (.run (.refl σ) .refl (by simp))
  | @again σ k y i x answer rest =>
    refine .acted (.left σ ⟨.ok _, rfl⟩ rest rfl rfl rfl) (.outside (.refl σ) .refl rfl rfl trivial rfl ?_)
    rintro _ ⟨⟩
    exact .rendered σ k answer rest
  | rerendered σ k answer rest =>
    exact .acted (.left σ ⟨.ok _, rfl⟩ rest rfl rfl rfl) (.run (.refl σ) .refl (by simp))
  | @empty σ k y p rest =>
    have keeps := Exchange.Keeps.mounted (σ := σ) (p := p) (k := k)
      (E := exchange ⟨.procedure, σ, .run (.done p), .push (.forking k []) rest⟩)
      (Or.inr (.host (.forking σ [] rest) rfl)) ⟨_, rfl, ⟨_, .forking σ [] rest⟩, rfl⟩
      y.memo y.settings
    exact .acted (.built σ k [] p rest) (.run keeps .refl (by simp))
  | @replaying σ k y e later p rest =>
    have keeps := Exchange.Keeps.mounted (σ := σ) (p := p) (k := k)
      (E := exchange ⟨.procedure, σ, .run (.done p), .push (.forking k (e :: later)) rest⟩)
      (Or.inr (.host (.forking σ _ rest) rfl)) ⟨_, rfl, ⟨_, .forking σ _ rest⟩, rfl⟩ y.memo y.settings
    refine .acted (.built σ k (e :: later) p rest) (.call (keeps.modifyInstance _
      (by rintro _ _ ⟨⟩) (fun _ => rfl) fun _ => .refl _) .refl rfl rfl
      ⟨_, p, (State.instances_modifyInstance_self ..).trans (congrArg _
        ((State.instances_newInstance ..).trans (if_pos rfl))), rfl⟩ ?_ (by rintro _ _ _ ⟨⟩) ?_)
    · rintro _ _ ⟨⟩
      exact .inr (.inr (.host (.forking σ _ rest) rfl))
    · rintro _ ⟨⟩
      exact .built σ k e later p rest
  | @adopted σ k y i result rest =>
    exact .acted (.adopted σ k i result rest) (.run ((Exchange.Keeps.refl σ).movePlace k
      (fun _ => rfl) (.adopted σ i result rest)) (.push .refl ⟨rfl, rfl, rfl, rfl⟩) (by simp))

/-- Whatever follows a configuration does so in one of the few ways of a transit. -/
theorem Transition.transit : Transition β c d → Transit β c d
  | code step => step.transit
  | drive step => step.transit
  | replay step => step.transit
  | task step => step.transit
  | signal step => step.transit
  | host step => step.transit

theorem follows_transit (follows : Follows β c d) : Transit β c d :=
  follows.transition.transit

/-- A memo changes only when a client changes it, or when an instance that uses it comes to a value.
-/
theorem follows_memo (follows : Follows β c d) (m : MemoId) :
    d.state.memo m = c.state.memo m ∨ c.ClientWrites m ∨
      ∃ i n keys v x, c.Brings i n keys v ∧ c.state.instances[i]? = some x ∧ x.memo = m ∧
        d.state.memo m = (c.state.memo m).remember n keys v := by
  cases follows_transit follows with
  | acted _ passage => exact passage.memo m
  | _ => exact .inl rfl

theorem follows_memos (follows : Follows β c d) :
    c.state.memos.length ≤ d.state.memos.length := by
  cases follows_transit follows with
  | acted _ passage => exact passage.memos
  | _ => exact le_refl _

theorem follows_stores (follows : Follows β c d) {i : InstanceId} {p : K.Procedure}
    (stores : d.state.Stores i p) : c.state.Stores i p ∨ c.GivesBack i p ∨ c.Makes i p := by
  cases follows_transit follows with
  | acted _ passage => exact passage.stores i p stores
  | _ => exact .inl stores

theorem follows_hands (follows : Follows β c d) {i : InstanceId} {p : K.Procedure}
    (hands : d.Hands i p) : c.state.Stores i p ∨ c.GivesBack i p ∨ c.Makes i p := by
  cases follows_transit follows with
  | acted _ passage => exact passage.hands i p hands
  | _ => cases hands

theorem follows_history (follows : Follows β c d) (i : InstanceId) :
    d.state.history i = c.state.history i ∨
      ∃ e, c.Enters i e ∧ d.state.history i = c.state.history i ++ [e] := by
  cases follows_transit follows with
  | acted _ passage => exact passage.history i
  | _ => exact .inl rfl

theorem follows_asks (follows : Follows β c d) {i : InstanceId} {n : Position}
    {effect : Effect K.Artifact K.Producer K.Computation} (asks : d.Asks i n effect) :
    c.Yields i n effect := by
  cases follows_transit follows with
  | acted _ passage => exact passage.asks i n effect asks
  | _ => cases asks

theorem follows_signal (follows : Follows β c d) {i : InstanceId} {signal : Signal K.Artifact}
    (told : d.deed? i = some (.tell signal)) : c.Announces i signal := by
  cases follows_transit follows with
  | acted _ passage => exact passage.signal i signal told
  | _ => cases told

theorem follows_mark (follows : Follows β c d) (k : ComponentId) :
    d.state.marked k = c.state.marked k ∨ c.mark? k = some (d.state.marked k) := by
  cases follows_transit follows with
  | acted _ passage => exact passage.mark k
  | _ => exact .inl rfl

theorem follows_observes (follows : Follows β c d) {k : ComponentId} {source : Source}
    (observes : d.state.Observes k source) :
    c.state.Observes k source ∨ ∃ i, source = .ofInstance i ∧ c.Provides k i := by
  cases follows_transit follows with
  | acted _ passage => exact passage.observes k source observes
  | _ => exact .inl observes

theorem follows_hearsLater (follows : Follows β c d) {k : ComponentId} {source : Source}
    (hearsLater : d.state.HearsLater k source) : c.state.HearsLater k source := by
  cases follows_transit follows with
  | acted _ passage => exact passage.hearsLater k source hearsLater
  | _ => exact hearsLater

theorem follows_trigger (follows : Follows β c d) {a : Trigger K} (trigger : d.trigger? = some a) :
    c.Triggers a := by
  cases follows_transit follows with
  | acted _ passage => exact passage.triggers a trigger
  | _ => cases trigger

theorem Run.sprung {G : Config K → Prop} {t : List (Config K × Config K)} {code : Code K Unit}
    (run : Run β G (start σ code) t d) {a : Trigger K} (trigger : d.trigger? = some a) :
    ∃ u c, t = u ++ [(c, d)] ∧ Run β G (start σ code) u c ∧ G c ∧ Follows β c d ∧ c.Triggers a := by
  cases run with
  | refl => cases trigger
  | snoc run guard follows =>
    exact ⟨_, _, rfl, run, guard, follows, follows_trigger follows trigger⟩

end Config

end Resumable
