namespace Resumable.Text

/-- A set of characters: its first member, the first code point after it that is outside, the next
member, and so on upwards. -/
structure CharSet where
  changes : List Nat

/-- A code point belongs to the set iff membership has changed an odd number of times up to it. -/
def CharSet.containsCode (s : CharSet) (code : Nat) : Bool :=
  (s.changes.takeWhile (· ≤ code)).length % 2 = 1

def CharSet.contains (s : CharSet) (c : Char) : Bool :=
  s.containsCode c.toNat

end Resumable.Text
