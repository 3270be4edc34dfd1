import Resumable.Machine.State

namespace Resumable

inductive Control (K : Client) : Shape → Type where
  | run {s : Shape} (code : Code K (s.Answer K)) : Control K s
  | call {s : Shape} (call : Call K s) : Control K s
  /-- A signal starts on its way to everyone who observes its source now. -/
  | emit (source : Source) (signal : Signal K.Artifact) : Control K .unit
  | advance (id : InstanceId) : Control K .result

namespace Control

variable {K : Client} {s : Shape}

def instance? : Control K s → Option InstanceId
  | advance id => some id
  | _ => none

def source? : Control K s → Option Source
  | emit source _ => some source
  | _ => none

end Control

/-- What is left to do when the code that runs now has ended. A frame waits for an answer of one
shape and ends in an answer of another, for the frame below it. -/
inductive Frame (K : Client) : Shape → Shape → Type where
  | waiting {s w : Shape} (next : s.Answer K → Code K (w.Answer K)) : Frame K s w
  | stepping (id : InstanceId) (position : Position) : Frame K .step .result
  | computing (id : InstanceId) (position : Position) (keys : List Value) : Frame K .value .result
  | launching (id : InstanceId) (position : Position) (keys : Option (List Value)) :
      Frame K .future .result
  | proceeding (id : InstanceId) : Frame K .unit .result
  | replaying (id : InstanceId) (entry : Entry K.Artifact) (rest : History K.Artifact) :
      Frame K .step .result
  | emitting (source : Source) (rest : List (Observer K)) (signal : Signal K.Artifact) :
      Frame K .unit .unit
  /-- A render has marked its component and comes to the instance. -/
  | entering (id : ComponentId) (inputs : K.Inputs) : Frame K .unit .artifact
  | mounting (id : ComponentId) (inputs : K.Inputs) : Frame K .procedure .artifact
  | rendering (id : ComponentId) (current : InstanceId) : Frame K .result .artifact
  /-- A render has its answer, and its component is no longer marked. -/
  | reviewing (id : ComponentId) : Frame K .artifact .artifact
  /-- A render that has its answer asks for another one. -/
  | rerendering (id : ComponentId) (answer : Except Fault K.Artifact) : Frame K .unit .artifact
  | forking (id : ComponentId) (history : History K.Artifact) : Frame K .procedure .unit
  | adopting (id : ComponentId) (fresh : InstanceId) : Frame K .result .unit
  /-- A fork has put its instance in place. -/
  | requesting (id : ComponentId) : Frame K .unit .unit
  /-- A component asks for a render on account of a signal. -/
  | hosting (id : ComponentId) : Frame K .unit .unit
  | polling (task : Task K) : Frame K .progress .unit
  /-- A task signals what became of its instance. -/
  | settling (id : InstanceId) : Frame K .unit .unit
  /-- The tasks after the current one. -/
  | draining : Frame K .unit .unit
  /-- Another thread waits for its turn, with the frames below. -/
  | suspended {s : Shape} (control : Control K s) : Frame K .unit s

namespace Frame

variable {K : Client} {s w : Shape}

/-- The instance that a frame works on and so keeps alive. -/
def instance? : Frame K s w → Option InstanceId
  | stepping id _ => some id
  | computing id _ _ => some id
  | launching id _ _ => some id
  | proceeding id => some id
  | replaying id _ _ => some id
  | rendering _ current => some current
  | adopting _ fresh => some fresh
  | settling id => some id
  | suspended control => control.instance?
  | _ => none

def component? : Frame K s w → Option ComponentId
  | entering id _ => some id
  | mounting id _ => some id
  | rendering id _ => some id
  | reviewing id => some id
  | rerendering id _ => some id
  | forking id _ => some id
  | adopting id _ => some id
  | requesting id => some id
  | hosting id => some id
  | _ => none

def lockedInstance? : Frame K s w → Option InstanceId
  | launching id _ _ => some id
  | replaying id _ _ => some id
  | _ => none

def lockedComponent? : Frame K s w → Option ComponentId
  | mounting id _ => some id
  | forking id _ => some id
  | adopting id _ => some id
  | _ => none

def source? : Frame K s w → Option Source
  | emitting source _ _ => some source
  | suspended control => control.source?
  | _ => none

def ofTasks : Frame K s w → Bool
  | draining => true
  | _ => false

def ofThread : Frame K s w → Bool
  | suspended _ => true
  | _ => false

end Frame

/-- The frames of a thread, innermost first, and below them those of the threads that wait. -/
inductive Stack (K : Client) : Shape → Type where
  | empty : Stack K .unit
  | push {s w : Shape} (frame : Frame K s w) (rest : Stack K w) : Stack K s

namespace Stack

variable {K : Client}

def any (p : {s w : Shape} → Frame K s w → Bool) : {s : Shape} → Stack K s → Bool
  | _, empty => false
  | _, push frame rest => p frame || rest.any p

variable {s : Shape}

def usesInstance (stack : Stack K s) (id : InstanceId) : Bool :=
  stack.any (·.instance? = some id)

def usesComponent (stack : Stack K s) (id : ComponentId) : Bool :=
  stack.any (·.component? = some id)

def locksInstance (stack : Stack K s) (id : InstanceId) : Bool :=
  stack.any (·.lockedInstance? = some id)

def locksComponent (stack : Stack K s) (id : ComponentId) : Bool :=
  stack.any (·.lockedComponent? = some id)

def emitsFrom (stack : Stack K s) (source : Source) : Bool :=
  stack.any (·.source? = some source)

/-- The thread that runs polls tasks. -/
def onTask : {s : Shape} → Stack K s → Bool
  | _, empty => false
  | _, push frame rest => !frame.ofThread && (frame.ofTasks || rest.onTask)

end Stack

namespace State

variable {K : Client} {s : Shape}

def componentAlive (σ : State K) (stack : Stack K s) (id : ComponentId) : Bool :=
  σ.held.contains (.ofComponent id) || stack.usesComponent id

/-- An instance is alive while the client holds it, a frame works on it or a living component has
it. -/
def instanceAlive (σ : State K) (stack : Stack K s) (id : InstanceId) : Bool :=
  σ.held.contains (.ofInstance id) || stack.usesInstance id ||
    (σ.components.zipIdx.any fun (y, c) => y.current = some id && σ.componentAlive stack c)

/-- A signal from an instance reaches its observers while the instance is alive or still signals.
-/
def sourceAlive (σ : State K) (stack : Stack K s) (id : InstanceId) : Bool :=
  σ.instanceAlive stack id || stack.emitsFrom (.ofInstance id)

end State

end Resumable
