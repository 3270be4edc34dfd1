import Resumable.Machine.Interpret
import Resumable.Machine.Replay

namespace Resumable

namespace Next

variable {K : Client}

def requestRender (σ : State K) (stack : Stack K .unit) (id : ComponentId) : Next K :=
  match σ.components[id]? with
  | none => .error .blocked
  | some y =>
    if y.rendering then give σ stack ()
    else call σ (.hosting id) stack (.rerender y.callback)

/-- Replaces the instance of a component by one for a forked history. A component without inputs
has nothing to build it from. -/
def fork (σ : State K) (stack : Stack K .unit) (id : ComponentId) (h : History K.Artifact) :
    Next K :=
  withComponent σ stack id fun y =>
    match y.inputs with
    | none => give σ stack ()
    | some inputs =>
      dismissing σ stack id y fun σ => call σ (.forking id h) stack (.build y.factory inputs)

/-- How a component takes a signal of its own instance. A component that nobody holds any more
takes none. -/
def react (σ : State K) (stack : Stack K .unit) (id : ComponentId) (signal : Signal K.Artifact) :
    Next K :=
  if σ.componentAlive stack id then
    match signal with
    | .ready => requestRender σ stack id
    | .done => requestRender σ stack id
    | .forked h => fork σ stack id h
    | .rejected fault =>
      match σ.components[id]? with
      | none => .error .blocked
      | some y =>
        call (σ.modifyComponent id ({ · with fault := some fault })) (.hosting id) stack
          (.rerender y.callback)
  else give σ stack ()

def render (σ : State K) (stack : Stack K .artifact) (id : ComponentId) (inputs : K.Inputs) :
    Next K :=
  match σ.components[id]? with
  | none => .error .blocked
  | some _ =>
    give (σ.modifyComponent id ({ · with rendering := true })) (.push (.entering id inputs) stack) ()

/-- Goes on with the instance of a component as long as the inputs stay the same, and builds a
procedure for another one when they change. -/
def enter (σ : State K) (stack : Stack K .artifact) (id : ComponentId) (inputs : K.Inputs) : Next K :=
  withComponent σ stack id fun y =>
    let unchanged := match y.inputs with
      | some old => K.sameInputs old inputs
      | none => false
    match y.current, unchanged with
    | some current, true => advance σ (.push (.rendering id current) stack) current
    | _, _ => call σ (.mounting id inputs) stack (.build y.factory inputs)

def finishMount (σ : State K) (stack : Stack K .artifact) (id : ComponentId) (inputs : K.Inputs)
    (procedure : K.Procedure) : Next K :=
  match σ.components[id]? with
  | none => .error .blocked
  | some y =>
    let (fresh, σ) := σ.newInstance procedure y.memo y.settings [.host id]
    dismissing σ stack id y fun σ =>
      let σ := σ.modifyComponent id ({ · with current := some fresh, inputs := some inputs })
      advance σ (.push (.rendering id fresh) stack) fresh

/-- Ends a render: the answer is there, and the mark goes. -/
def finishRender (σ : State K) (stack : Stack K .artifact) (id : ComponentId)
    (current : InstanceId) (result : Except Fault Unit) : Next K :=
  withInstance σ stack current fun x =>
    match σ.components[id]? with
    | none => .error .blocked
    | some _ =>
      give (σ.modifyComponent id ({ · with rendering := false })) (.push (.reviewing id) stack)
        (result.map fun _ => x.artifact)

/-- If the instance of a component is paused after a render, so that it could be driven on, another
render is asked for before the answer is given. -/
def review (σ : State K) (stack : Stack K .artifact) (id : ComponentId)
    (answer : Except Fault K.Artifact) : Next K :=
  withComponent σ stack id fun y =>
    match y.current with
    | none => give σ stack answer
    | some current =>
      withInstance σ stack current fun x =>
        if x.status = .paused then
          call σ (.rerendering id answer) stack (.rerender y.callback)
        else give σ stack answer

def finishBuild (σ : State K) (stack : Stack K .unit) (id : ComponentId)
    (h : History K.Artifact) (procedure : K.Procedure) : Next K :=
  match σ.components[id]? with
  | none => .error .blocked
  | some y =>
    let (fresh, σ) := σ.newInstance procedure y.memo y.settings [.host id]
    replay σ (.push (.adopting id fresh) stack) fresh h

/-- Ends a fork: the new instance takes its place whether or not the replay went through, and a
fault is recorded. -/
def finishFork (σ : State K) (stack : Stack K .unit) (id : ComponentId) (fresh : InstanceId)
    (result : Except Fault Unit) : Next K :=
  match σ.components[id]? with
  | none => .error .blocked
  | some _ =>
    give (σ.modifyComponent id (·.adopt fresh result)) (.push (.requesting id) stack) ()

def reset (σ : State K) (stack : Stack K .unit) (id : ComponentId) : Next K :=
  withComponent σ stack id fun y =>
    dismissing σ stack id y fun σ =>
      let (memo, σ) := σ.newMemo
      give (σ.modifyComponent id ({ · with inputs := none, memo := memo })) stack ()

def unmount (σ : State K) (stack : Stack K .unit) (id : ComponentId) : Next K :=
  withComponent σ stack id fun y => dismissing σ stack id y fun σ => give σ stack ()

end Next

end Resumable
