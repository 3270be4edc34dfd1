import Resumable.Scenario.Perform

namespace Resumable.Scenario

open Script

namespace Procedure

def save (p : Procedure) : Script Unit :=
  match p.home with
  | none => pure ()
  | some home => update fun w => { w with procedures := w.procedures.set home p }

def withLocals (p : Procedure) (locals : Locals Artifact) : Procedure :=
  { p with sequence := { p.sequence with locals := locals } }

def scope (p : Procedure) (input : Option (Resumption Artifact)) : Scope :=
  ⟨p.sequence.locals, input, p.props⟩

def advance (p : Procedure) : Except Fault (Step × Procedure) :=
  let s := p.sequence
  if p.repeats then
    match s.steps[min s.cursor (s.size - 1)]? with
    | some (_, step) => .ok (step, { p with sequence := { s with cursor := s.cursor + 1 } })
    | none => .error (.contract 0 (.exhausted 0))
  else
    s.advance.map fun (step, moved) => (step, { p with sequence := moved })

end Procedure

/-- Performs one action of a step. It may change the locals, and a fault in it ends the step. -/
def Action.act (p : Procedure) (input : Option (Resumption Artifact)) :
    Action → Script (Except Fault (Locals Artifact))
  | bind name =>
    pure ((Resumption.expectValue input).map fun v => p.sequence.locals.set name v)
  | bindCell name =>
    pure ((Resumption.expectCell input).map fun c => p.sequence.locals.bindCell name c)
  | set name value => do
    let v ← evaluate (value.eval (p.scope input))
    pure (v.map fun v => p.sequence.locals.set name v)
  | fire name value => do
    let v ← evaluate (value.eval (p.scope input))
    match v with
    | .error fault => pure (.error fault)
    | .ok v => do
      match p.sequence.locals.setter? name with
      | some s => ask (.fire s v)
      | none => pure ()
      pure (.ok p.sequence.locals)
  | get name => do
    Script.log (.got name (p.sequence.locals.get? name) (p.sequence.locals.setter? name))
    pure (.ok p.sequence.locals)
  | Action.log value => do
    let v ← evaluate (value.eval (p.scope input))
    match v with
    | .error fault => pure (.error fault)
    | .ok v => do
      Script.log (.logged v)
      pure (.ok p.sequence.locals)
  | logInput => do
    Script.log (.input input)
    pure (.ok p.sequence.locals)
  | Action.panic payload => Script.panic payload
  | perform command => do
    performAll [command]
    pure (.ok p.sequence.locals)

def Step.run (input : Option (Resumption Artifact)) (ending : Ending) :
    List Action → Procedure → Script (Procedure × Except Fault (Client.Yielded client))
  | [], p => do
    let answer ← evaluate (ending.eval (p.scope input))
    pure (p, answer)
  | action :: rest, p => do
    let result ← action.act p input
    match result with
    | .error fault => pure (p, .error fault)
    | .ok locals => do
      let p := p.withLocals locals
      p.save
      Step.run input ending rest p

def Procedure.resume (p : Procedure) (input : Option (Resumption Artifact)) :
    Script (Procedure × Except Fault (Client.Yielded client)) :=
  match p.advance with
  | .error fault => pure (p, .error fault)
  | .ok (step, p) => do
    p.save
    Step.run input step.ending step.actions p

def Computation.run (c : Computation) : Script Value := do
  Script.log (.computed c.computing.name)
  performAll c.computing.body
  panicWith c.computing.panic
  numbered c.computing.counter c.value

def Producer.call (p : Producer) : Script Future := do
  Script.log (.produced p.awaiting.name)
  panicWith p.awaiting.callPanic
  pure ⟨p, p.awaiting.yields⟩

namespace Future

def ownResolution (f : Future) : Resolution :=
  let a := f.producer.awaiting
  match a.panic, a.failure with
  | some payload, _ => .panic payload
  | none, some message => .error message
  | none, none => .value f.producer.value

def finish (f : Future) (resolution : Resolution) : Script (Progress Future) := do
  let a := f.producer.awaiting
  performAll a.body
  match resolution with
  | .panic payload => Script.panic payload
  | .error message => pure (.ready (.error message))
  | .value v => do
    let v ← numbered a.counter v
    pure (.ready (.ok v))

def poll (f : Future) : Script (Progress Future) :=
  match f.yields with
  | yields + 1 => pure (.later { f with yields := yields })
  | 0 =>
    match f.producer.awaiting.gate with
    | none => f.finish f.ownResolution
    | some gate => do
      let w ← world
      match w.gates.lookup gate with
      | none => pure (.parked gate f)
      | some resolution => f.finish resolution

end Future

def allowed (times : Option Nat) (before : Nat) : Bool :=
  match times with
  | none => true
  | some limit => before < limit

def Observing.notice (o : Observing) (signal : Signal Artifact) : Script Unit := do
  let watcher := o.watcher
  Script.log (.heard watcher.tag signal)
  match signal with
  | .forked h => store watcher.save (.history h)
  | _ => pure ()
  if (watcher.signal.getD signal.name) = signal.name then
    let before ← tally o.hits
    if allowed watcher.times before then
      performAll watcher.body
      panicWith watcher.panic

def Factory.build (f : Factory) (props : Value) : Script Procedure := do
  let number ← tally f.built
  Script.log (.built number props)
  match f.programs[min number (f.programs.length - 1)]? with
  | none => Script.panic .other
  | some program => do
    panicWith program.panic
    pure (Procedure.ofProgram program props none)

def Asking.ask (a : Asking) : Script Unit := do
  let before ← tally a.asked
  Script.log (.asked (before + 1))
  if allowed a.reaction.times before then
    performAll a.reaction.body
    panicWith a.reaction.panic

def codeOf {s : Shape} : Call client s → Script (s.Answer client)
  | .resume procedure input => Procedure.resume procedure input
  | .compute computation => Computation.run computation
  | .produce producer => Producer.call producer
  | .poll future => Future.poll future
  | .notice observer signal => Observing.notice observer signal
  | .build factory props => Factory.build factory props
  | .rerender callback => Asking.ask callback

/-- How scenarios behave as a client of the machine. -/
def conduct : Behaviour client :=
  ⟨codeOf⟩

end Resumable.Scenario
