import Resumable.Fault
import Resumable.Value.Text

namespace Resumable

structure MemoEntry where
  position : Position
  keys : List Value
  value : Value
  deriving DecidableEq

def MemoEntry.answers (e : MemoEntry) (position : Position) (keys : List Value) : Bool :=
  e.position = position && Value.sameKeys e.keys keys

abbrev Memo := List MemoEntry

namespace Memo

def lookup (m : Memo) (position : Position) (keys : List Value) : Option Value :=
  (m.find? (·.answers position keys)).map (·.value)

/-- Stores a value unless the position holds one under agreeing keys. -/
def remember (m : Memo) (position : Position) (keys : List Value) (value : Value) : Memo :=
  if m.any (·.answers position keys) then m else m ++ [⟨position, keys, value⟩]

def displayAt (m : Memo) (position : Position) : String :=
  let items := m.filter (·.position = position)
  toString position ++ ": " ++
    bracketed (items.map fun e => "(" ++ Value.displayKeys e.keys ++ ", " ++ e.value.display ++ ")")

def positions (m : Memo) : List Position :=
  (m.map (·.position)).eraseDups

def display (m : Memo) : String :=
  "Memo \x7b table: Mutex \x7b data: MemoTable \x7b by_position: \x7b" ++
    String.intercalate ", " (m.positions.map m.displayAt) ++
    "\x7d \x7d, poisoned: false, .. \x7d \x7d"

theorem remember_of_lookup {m : Memo} {position : Position} {keys : List Value} {stored : Value}
    (h : m.lookup position keys = some stored) (value : Value) :
    m.remember position keys value = m := by
  unfold lookup at h
  unfold remember
  rw [if_pos]
  cases found : m.find? (·.answers position keys) with
  | none => simp [found] at h
  | some e => exact List.any_eq_true.mpr ⟨e, List.mem_of_find?_eq_some found, by
      simpa using List.find?_some found⟩

theorem length_remember_of_lookup_eq_none {m : Memo} {position : Position} {keys : List Value}
    (h : m.lookup position keys = none) (value : Value) :
    (m.remember position keys value).length = m.length + 1 := by
  have none_answers : m.any (·.answers position keys) = false := by
    simpa [lookup] using h
  simp [remember, none_answers]

end Memo

end Resumable
