import Resumable.Proofs.Ending

namespace Resumable

variable {K : Client} {β : Behaviour K}

/-- The instances that use one memo and the plan of each. Two effects that the programs ask for at
one position under agreeing keys come to the same. -/
structure Family (M : Meaning β) where
  memo : MemoId
  stored : Memo := []
  programs : Set (Plan K)
  plan : InstanceId → Plan K
  /-- Whether all operations come with a runtime. -/
  attended : Bool
  /-- Whether members may be put at the end of histories of their plans. -/
  replays : Bool
  listed : ∀ i, plan i ∈ programs
  stores : ∀ π ∈ programs, π.stored = stored
  deterministic : ∀ π ∈ programs, M.procedures π.start π.start
  coherent : ∀ π ∈ programs, ∀ π' ∈ programs, ∀ i j h k e e' q q',
    M.Asks π i h e q → M.Asks π' j k e' q' → h.length = k.length →
    ∀ keys keys', e.keys? = some keys → e'.keys? = some keys' →
    Value.sameKeys keys keys' = true → M.upshot e = M.upshot e'

def Frame.worker? {s w : Shape} : Frame K s w → Option InstanceId
  | .stepping i _ => some i
  | .computing i _ _ => some i
  | .launching i _ _ => some i
  | .replaying i _ _ => some i
  | .polling task => some task.owner
  | _ => none

def State.Keeps (σ σ' : State K) : Prop :=
  ∀ (i : InstanceId) (x : Instance K), σ.instances[i]? = some x →
    ∃ x' : Instance K, σ'.instances[i]? = some x' ∧ x'.memo = x.memo

namespace Family

variable {M : Meaning β} (F : Family M)

def Member (σ : State K) (i : InstanceId) (x : Instance K) : Prop :=
  σ.instances[i]? = some x ∧ x.memo = F.memo

def Foreign (σ : State K) (i : InstanceId) : Prop :=
  ∃ x, σ.instances[i]? = some x ∧ x.memo ≠ F.memo

def Clear {s : Shape} (σ : State K) (stack : Stack K s) : Prop :=
  stack.All fun frame => ∀ i, frame.worker? = some i → F.Foreign σ i

def Lawful (i : InstanceId) (h : History K.Artifact) : Prop :=
  (F.plan i).Untouched h.length ∧ ∃ j, M.Recorded (F.plan i) j h

/-- How a member stands between the steps of the machine, with all that was seen of it. The one
that a history is being replayed into, if there is one, has no procedure of its own meanwhile. -/
inductive Standing (replayed : Option InstanceId) (i : InstanceId) (seen : List Event)
    (x : Instance K) : Prop
  | paused {p : K.Procedure} (status : x.status = .paused) (procedure : x.procedure = some p)
      (course : M.Course (F.plan i) i x.history p)
      (untouched : (F.plan i).Untouched x.history.length) (seen : seen = paces x.history.length)
  | running {p : K.Procedure} (status : x.status = .running)
      (course : M.Course (F.plan i) i x.history p)
      (untouched : (F.plan i).Untouched x.history.length)
      (seen : seen = paces x.history.length ++ [.start])
  | ended (status : x.status = .terminated)
      (ends : M.Ends (F.plan i) F.attended i x.history seen)
  | stopped (status : x.status = .terminated) (closed : x.registry.closed = true)
      (recorded : M.Recorded (F.plan i) i x.history)
  | fed {p : K.Procedure} (status : x.status = .paused) (chosen : replayed = some i)
      (course : M.Course (F.plan i) i x.history p) (seen : seen = paces x.history.length)

inductive Awaits (task : Task K) (o : Except Failure Value) (x : Instance K) : Prop
  | gone (status : x.status = .terminated)
  | past (lt : task.position < x.history.length)
  | waits {p : K.Producer} {q : K.Procedure} (status : x.status = .running)
      (procedure : x.procedure = some q) (position : task.position = x.history.length)
      (asks : M.Asks (F.plan task.owner) task.owner x.history (.await p task.keys) q)
      (produced : M.produced p = some o)
      (missed : task.keys.bind (F.stored.lookup x.history.length) = none)

inductive TaskOk (σ : State K) (task : Task K) : Prop
  | foreign (owner : F.Foreign σ task.owner)
  | own {x : Instance K} {o : Except Failure Value} (owner : F.Member σ task.owner x)
      (settled : M.settled task.future = some o) (awaits : F.Awaits task o x)

def Backed (e : MemoEntry) : Prop :=
  ∃ π ∈ F.programs, ∃ i h effect q, M.Asks π i h effect q ∧ h.length = e.position ∧
    effect.keys? = some e.keys ∧ M.upshot effect = some (.ok e.value)

structure StateOk (seen : InstanceId → List Event) (replayed : Option InstanceId)
    (σ : State K) : Prop where
  memo : ∃ added, σ.memo F.memo = F.stored ++ added ∧ ∀ e ∈ added, F.Backed e
  settings : ∀ i x, F.Member σ i x → x.settings = (F.plan i).settings
  standing : ∀ i x, F.Member σ i x → F.Standing replayed i (seen i) x
  tasks : ∀ task ∈ σ.tasks, F.TaskOk σ task

/-- The invariant, by what the machine is at: something that does not work for a member, or silent
code that does. -/
inductive Inv (seen : InstanceId → List Event) : Config K → Prop
  | quiet {s : Shape} {σ : State K} {control : Control K s} {stack : Stack K s}
      (ok : F.StateOk seen none σ) (clear : F.Clear σ stack) : Inv seen ⟨s, σ, control, stack⟩
  | stepping {σ : State K} {control : Control K .step} {rest : Stack K .result} {i : InstanceId}
      {x : Instance K} {r : Except Payload (K.Procedure × Except Fault K.Yielded)}
      (ok : F.StateOk seen none σ) (clear : F.Clear σ rest) (member : F.Member σ i x)
      (status : x.status = .running) (lent : x.procedure = none)
      (answers : M.Answers (F.plan i) i x.history r) (gives : control.Only β (· = r)) :
      Inv seen ⟨.step, σ, control, .push (.stepping i x.history.length) rest⟩
  | computing {σ : State K} {control : Control K .value} {rest : Stack K .result}
      {i : InstanceId} {x : Instance K} {c : K.Computation} {keys : List Value}
      {q : K.Procedure} {o : Except Failure Value} (ok : F.StateOk seen none σ)
      (clear : F.Clear σ rest) (member : F.Member σ i x) (status : x.status = .running)
      (procedure : x.procedure = some q)
      (asks : M.Asks (F.plan i) i x.history (.compute c keys) q)
      (computed : M.computed c = some o)
      (missed : F.stored.lookup x.history.length keys = none)
      (gives : control.Only β fun r => r.mapError .panicked = o) :
      Inv seen ⟨.value, σ, control, .push (.computing i x.history.length keys) rest⟩
  | launching {σ : State K} {control : Control K .future} {rest : Stack K .result}
      {i : InstanceId} {x : Instance K} {p : K.Producer} {keys : Option (List Value)}
      {q : K.Procedure} {o : Except Failure Value} (ok : F.StateOk seen none σ)
      (clear : F.Clear σ rest) (member : F.Member σ i x) (status : x.status = .running)
      (procedure : x.procedure = some q)
      (asks : M.Asks (F.plan i) i x.history (.await p keys) q)
      (produced : M.produced p = some o)
      (missed : keys.bind (F.stored.lookup x.history.length) = none)
      (gives : control.Only β fun
        | .ok future => M.settled future = some o
        | .error payload => .error (.panicked payload) = o) :
      Inv seen ⟨.future, σ, control, .push (.launching i x.history.length keys) rest⟩
  | polling {σ : State K} {control : Control K .progress} {rest : Stack K .unit}
      {x : Instance K} {task : Task K} {o : Except Failure Value} (ok : F.StateOk seen none σ)
      (clear : F.Clear σ rest) (member : F.Member σ task.owner x) (awaits : F.Awaits task o x)
      (gives : control.Only β (M.Polled o)) :
      Inv seen ⟨.progress, σ, control, .push (.polling task) rest⟩
  | replaying {σ : State K} {control : Control K .step} {rest : Stack K .result}
      {i : InstanceId} {x : Instance K} {entry : Entry K.Artifact}
      {later : History K.Artifact} {r : Except Payload (K.Procedure × Except Fault K.Yielded)}
      (allowed : F.replays = true) (ok : F.StateOk seen (some i) σ) (clear : F.Clear σ rest)
      (member : F.Member σ i x) (status : x.status = .paused)
      (lawful : F.Lawful i (x.history ++ entry :: later))
      (answers : M.Answers (F.plan i) i x.history r) (gives : control.Only β (· = r)) :
      Inv seen ⟨.step, σ, control, .push (.replaying i entry later) rest⟩

def Joins (σ : State K) (p : K.Procedure) (settings : Settings) : Prop :=
  p = (F.plan σ.instances.length).start ∧ settings = (F.plan σ.instances.length).settings

/-- What the client may do, as far as it concerns the family. -/
def Permits : Config K → Prop
  | ⟨_, σ, .run (.call request _), _⟩ =>
    match request with
    | .remember id _ _ _ => id ≠ F.memo
    | .clearMemo id => id = F.memo → F.stored = []
    | .newInstance p id settings => id = F.memo → F.Joins σ p settings ∧
      (F.plan σ.instances.length).Untouched 0
    | .replay i h => ∀ x, F.Member σ i x → h = [] ∨ (F.replays = true ∧ F.Lawful i h)
    | _ => True
  | ⟨_, σ, .run (.done answer), .push (.mounting id _) _⟩ =>
    ∀ y, σ.components[id]? = some y → y.memo = F.memo → F.Joins σ answer y.settings ∧
      (F.plan σ.instances.length).Untouched 0
  | ⟨_, σ, .run (.done answer), .push (.forking id h) _⟩ =>
    ∀ y, σ.components[id]? = some y → y.memo = F.memo → F.Joins σ answer y.settings ∧
      F.replays = true ∧ F.Lawful σ.instances.length h
  | _ => True

/-- What the client may do, and that there is a runtime around it if the family relies on one. -/
structure Admits (c : Config K) : Prop where
  ambient : F.attended = true → c.state.ambient = true
  permits : F.Permits c

def uniform [Nonempty K.Memory] (sound : M.Sound) (memo : MemoId) (π : Plan K)
    (deterministic : M.procedures π.start π.start) (attended : Bool) : Family M where
  memo := memo
  stored := π.stored
  programs := {π}
  plan _ := π
  attended := attended
  replays := false
  listed _ := rfl
  stores := by rintro _ rfl; rfl
  deterministic := by rintro _ rfl; exact deterministic
  coherent := by
    rintro _ rfl _ rfl i j h k e e' q q' asks asks' length keys keys' - - -
    obtain ⟨-, results⟩ :=
      asks.alike sound deterministic asks' length (Plan.Agree.refl _ _)
    cases results with
    | yielded _ effects =>
      cases effects with
      | render => rfl
      | hold => rfl
      | await _ left right => exact left.trans right.symm
      | compute _ left right => exact left.trans right.symm

end Family

end Resumable
