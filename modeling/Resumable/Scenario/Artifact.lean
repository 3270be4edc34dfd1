import Resumable.Procedure.StepSequence

namespace Resumable.Scenario

inductive Artifact where
  | mk (text : String) (setters : List (String × Setter Artifact))

namespace Artifact

def text : Artifact → String
  | mk text _ => text

def setters : Artifact → List (String × Setter Artifact)
  | mk _ setters => setters

def ofText (text : String) : Artifact :=
  mk text []

def blank : Artifact :=
  ofText ""

def setter? (a : Artifact) (name : String) : Option (Setter Artifact) :=
  a.setters.lookup name

def same (a b : Artifact) : Bool :=
  a.text == b.text

def display (a : Artifact) : String :=
  Text.quoted a.text

end Artifact

end Resumable.Scenario
