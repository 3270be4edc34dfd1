import Resumable.Machine.Client
import Resumable.Scenario.Expr

namespace Resumable.Scenario

inductive Format where
  | status
  | stepKind
  | effectKind
  | entry
  | timeline

inductive ValueOp where
  | describe (value : Value)
  | equal (left right : Value)
  | equalKeys (left right : List Value)
  | fault (fault : Fault)
  | read (format : Format) (text : String)

inductive MemoOp where
  | create (target : Option String)
  | share (memo : String) (target : Option String)
  | remember (memo : String) (position : Position) (keys : List Value) (value : Value)
  | lookup (memo : String) (position : Position) (keys : List Value)
  | size (memo : String)
  | clear (memo : String)
  | same (left right : String)

inductive HistoryOp where
  | create (target : Option String) (entries : History Artifact)
  | push (history : String) (entry : Entry Artifact)
  | fork (history : String) (length : Nat) (value : Value) (target : Option String)
  | cut (history : String) (length : Nat) (target : Option String)
  | get (history : String) (position : Position)
  | report (history : String)
  | equal (left right : String)
  | timeline (history : String) (status : Status)

inductive SignalSpec where
  | ready
  | done
  | rejected (fault : Fault)
  | forked (history : String)

inductive RegistryOp where
  | create (target : Option String)
  | unsubscribe (registry subscription : String)
  | emit (registry : String) (signal : SignalSpec)
  | close (registry : String)
  | report (registry : String)

inductive InstanceOp where
  | proceed (id : String)
  | replay (id history : String)
  | terminate (id : String)
  | state (id : String)
  | artifact (id : String)
  | describe (id : String)
  | history (id : String) (target : Option String)
  | timeline (id : String)
  | memo (id : String) (target : Option String)
  | unsubscribe (id subscription : String)

inductive ComponentOp where
  | render (id : String) (inputs : Value)
  | artifact (id : String)
  | current (id : String) (target : Option String)
  | reset (id : String)
  | unmount (id : String)
  | takeFault (id : String)
  | describe (id : String)

/-- Where a setter is taken from: the artifact of an instance or of a component. -/
inductive SetterHolder where
  | ofInstance (id : String)
  | ofComponent (id : String)

inductive SetterOp where
  | grab (holder : SetterHolder) (name : String) (target : Option String)
  | fire (setter : String) (value : Value)

inductive Resolution where
  | value (value : Value)
  | error (message : String)
  | panic (payload : Payload)

inductive TaskOp where
  | run
  | resolve (gate : String) (resolution : Resolution)

/-- What a procedure alone is fed; the setter of a state slot is named. -/
inductive Feed where
  | value (value : Value)
  | state (value : Value) (setter : String)

inductive ProcedureOp where
  | resume (procedure : String) (input : Option Feed) (run : Bool)
  | expectValue (input : Option Feed)
  | expectCell (input : Option Feed)

mutual

structure Computing where
  name : String
  value : Expr
  counter : Option String
  body : List Command
  panic : Option Payload

/-- A producer and its future, which yields a number of times, waits for its gate, runs operations
and then panics, fails or gives the value. -/
structure Awaiting where
  name : String
  value : Expr
  failure : Option String
  panic : Option Payload
  callPanic : Option Payload
  gate : Option String
  yields : Nat
  counter : Option String
  body : List Command

inductive Action where
  | bind (name : String)
  | bindCell (name : String)
  | set (name : String) (value : Expr)
  | fire (name : String) (value : Expr)
  | get (name : String)
  | log (value : Expr)
  | logInput
  | panic (payload : Payload)
  | perform (command : Command)

inductive Ending where
  | render (text : Expr) (setters : List String)
  | complete (text : Expr) (setters : List String)
  | hold (value : Expr)
  | compute (computing : Computing) (keys : List Expr)
  | await (awaiting : Awaiting) (keys : Option (List Expr))
  | fail (fault : Fault)

structure Step where
  label : String
  actions : List Action
  ending : Ending

/-- The steps of a procedure. One that `repeats` runs its last step for ever. -/
structure Program where
  steps : List Step
  repeats : Bool
  panic : Option Payload

structure Watcher where
  tag : String
  signal : Option String
  times : Option Nat
  save : Option String
  body : List Command
  panic : Option Payload

structure Reaction where
  body : List Command
  times : Option Nat
  panic : Option Payload

inductive Operation where
  | values (op : ValueOp)
  | memos (op : MemoOp)
  | histories (op : HistoryOp)
  | registries (op : RegistryOp)
  | instances (op : InstanceOp)
  | components (op : ComponentOp)
  | setters (op : SetterOp)
  | tasks (op : TaskOp)
  | procedures (op : ProcedureOp)
  | drop (name : String)
  | observeRegistry (registry : String) (target : Option String) (watcher : Watcher)
  | observeInstance (id : String) (target : Option String) (watcher : Watcher)
  | createInstance (target : Option String) (program : Program) (memo : Option String)
      (props : Value) (settings : Settings)
  | createComponent (target : Option String) (programs : List Program) (reaction : Reaction)
      (settings : Settings)
  | createProcedure (target : Option String) (program : Program)
  | evaluate (ending : Ending) (run : Bool)

structure Command where
  name : String
  operation : Operation

end

end Resumable.Scenario
