import Resumable.History

namespace Resumable

inductive Signal (A : Type) where
  | ready
  | forked (history : History A)
  | done
  | rejected (fault : Fault)

def Signal.name {A : Type} : Signal A → String
  | ready => "readyToContinue"
  | forked _ => "forked"
  | done => "done"
  | rejected _ => "rejected"

abbrev SubscriptionId := Nat

/-- The observers in order of subscription, the number of the next one, and whether the registry
has been closed. -/
structure Registry (Observer : Type) where
  nextId : SubscriptionId := 0
  entries : List (SubscriptionId × Observer) := []
  closed : Bool := false

namespace Registry

variable {O : Type}

def subscribe (r : Registry O) (observer : O) : SubscriptionId × Registry O :=
  (r.nextId,
    { r with
      nextId := r.nextId + 1
      entries := if r.closed then r.entries else r.entries ++ [(r.nextId, observer)] })

def unsubscribe (r : Registry O) (id : SubscriptionId) : Bool × Registry O :=
  (r.entries.any (·.1 = id), { r with entries := r.entries.filter (·.1 ≠ id) })

/-- Drops every subscription and refuses later ones. -/
def close (r : Registry O) : Registry O :=
  { r with entries := [], closed := true }

def observers (r : Registry O) : List O :=
  r.entries.map (·.2)

def size (r : Registry O) : Nat :=
  r.entries.length

def display (r : Registry O) : String :=
  "ObserverRegistry \x7b observers: " ++ toString r.size ++ ", closed: " ++ toString r.closed ++
    " \x7d"

end Registry

end Resumable
