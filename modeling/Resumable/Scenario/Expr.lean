import Resumable.Scenario.Artifact

namespace Resumable.Scenario

inductive Expr where
  | literal (value : Value)
  | named (name : String)
  | input
  | cell
  | props
  | counter (name : String)
  | fresh (tag : String)
  | text (parts : List Expr)
  | sum (parts : List Expr)

abbrev Counters := List (String × Nat)

namespace Counters

def next (c : Counters) (name : String) : Nat × Counters :=
  let number := (c.lookup name).getD 0 + 1
  (number, (name, number) :: c.filter (·.1 ≠ name))

end Counters

structure Scope where
  locals : Locals Artifact := {}
  input : Option (Resumption Artifact) := none
  props : Value := .unit

abbrev Eval := ExceptT Fault (StateM Counters)

namespace Eval

def ofExcept {α : Type} (result : Except Fault α) : Eval α :=
  ExceptT.mk (pure result)

def count (name : String) : Eval Nat :=
  modifyGetThe Counters (·.next name)

end Eval

namespace Expr

def total (values : List Value) : Value :=
  .int (values.foldl (fun n v => n + v.asInt?.getD 0) 0)

mutual

def eval (scope : Scope) : Expr → Eval Value
  | literal v => pure v
  | named name => Eval.ofExcept (scope.locals.get name)
  | input => Eval.ofExcept (Resumption.expectValue scope.input)
  | cell => do
    let c ← Eval.ofExcept (Resumption.expectCell scope.input)
    pure c.value
  | props => pure scope.props
  | counter name => do
    let number ← Eval.count name
    pure (.int (Int64.ofNat number))
  | fresh tag => do
    let number ← Eval.count ("fresh " ++ tag)
    pure (.shared (tag ++ "." ++ toString number))
  | text parts => do
    let values ← evalAll scope parts
    pure (.str (String.join (values.map Value.plain)))
  | sum parts => do
    let values ← evalAll scope parts
    pure (total values)

def evalAll (scope : Scope) : List Expr → Eval (List Value)
  | [] => pure []
  | e :: rest => do
    let v ← e.eval scope
    let values ← evalAll scope rest
    pure (v :: values)

end

end Expr

end Resumable.Scenario
