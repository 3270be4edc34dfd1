import Resumable.Value.Binary64

namespace Resumable

/-- A value; `shared` stands for a composite, told apart from all others by its identity alone. -/
inductive Value where
  | unit
  | bool (b : Bool)
  | int (n : Int64)
  | float (x : Binary64)
  | str (s : String)
  | shared (identity : String)
  deriving DecidableEq, Inhabited

inductive ValueKind where
  | unit | bool | int | float | str | shared
  deriving DecidableEq, Repr

def ValueKind.name : ValueKind → String
  | .unit => "unit"
  | .bool => "bool"
  | .int => "int"
  | .float => "float"
  | .str => "str"
  | .shared => "shared"

namespace Value

def kind : Value → ValueKind
  | unit => .unit
  | bool _ => .bool
  | int _ => .int
  | float _ => .float
  | str _ => .str
  | shared _ => .shared

def isUnit (v : Value) : Bool :=
  v.kind = .unit

def asBool? : Value → Option Bool
  | bool b => some b
  | _ => none

def asInt? : Value → Option Int64
  | int n => some n
  | _ => none

def asFloat? : Value → Option Binary64
  | float x => some x
  | _ => none

def asStr? : Value → Option String
  | str s => some s
  | _ => none

def identity? : Value → Option String
  | shared name => some name
  | _ => none

/-- Shallow comparison: values of two kinds differ, floats compare arithmetically, shared values
by identity, and all others by content. -/
def same : Value → Value → Bool
  | unit, unit => true
  | bool a, bool b => a == b
  | int a, int b => a == b
  | float a, float b => a.same b
  | str a, str b => a == b
  | shared a, shared b => a == b
  | _, _ => false

def sameKeys : List Value → List Value → Bool
  | [], [] => true
  | a :: as, b :: bs => a.same b && sameKeys as bs
  | _, _ => false

theorem same_comm (a b : Value) : a.same b = b.same a := by
  cases a <;> cases b <;> simp only [same]
  all_goals first
    | exact Binary64.same_comm _ _
    | exact BEq.comm

theorem same_trans {a b c : Value} (hab : a.same b = true) (hbc : b.same c = true) :
    a.same c = true := by
  cases a <;> cases b <;> simp only [same, Bool.false_eq_true] at hab <;>
    cases c <;> simp only [same, Bool.false_eq_true] at hbc ⊢
  case float.float.float => exact Binary64.same_trans hab hbc
  all_goals simp_all

theorem sameKeys_comm (as bs : List Value) : sameKeys as bs = sameKeys bs as := by
  induction as generalizing bs with
  | nil => cases bs <;> rfl
  | cons a as ih =>
    cases bs with
    | nil => rfl
    | cons b bs => simp only [sameKeys, same_comm a b, ih bs]

theorem sameKeys_trans {as bs cs : List Value} (hab : sameKeys as bs = true)
    (hbc : sameKeys bs cs = true) : sameKeys as cs = true := by
  induction as generalizing bs cs with
  | nil =>
    cases bs with
    | nil => exact hbc
    | cons => simp [sameKeys] at hab
  | cons a as ih =>
    cases bs with
    | nil => simp [sameKeys] at hab
    | cons b bs =>
      cases cs with
      | nil => simp [sameKeys] at hbc
      | cons c cs =>
        simp only [sameKeys, Bool.and_eq_true] at hab hbc ⊢
        exact ⟨same_trans hab.1 hbc.1, ih hab.2 hbc.2⟩

end Value

end Resumable
