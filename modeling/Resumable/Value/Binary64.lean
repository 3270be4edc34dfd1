namespace Resumable

/-- A number in the binary64 interchange format: one sign bit, eleven exponent bits, 52 fraction
bits. -/
structure Binary64 where
  bits : UInt64
  deriving DecidableEq, Repr, Inhabited

namespace Binary64

def negative (x : Binary64) : Bool :=
  x.bits.toNat / Nat.pow 2 63 = 1

def exponentField (x : Binary64) : Nat :=
  x.bits.toNat / Nat.pow 2 52 % Nat.pow 2 11

def fractionField (x : Binary64) : Nat :=
  x.bits.toNat % Nat.pow 2 52

def isNaN (x : Binary64) : Bool :=
  x.exponentField = 2047 && x.fractionField ≠ 0

def isInfinite (x : Binary64) : Bool :=
  x.exponentField = 2047 && x.fractionField = 0

def isZero (x : Binary64) : Bool :=
  x.exponentField = 0 && x.fractionField = 0

/-- The integer significand of a finite number, whose magnitude is `significand * 2 ^ scale`. -/
def significand (x : Binary64) : Nat :=
  if x.exponentField = 0 then x.fractionField else x.fractionField + Nat.pow 2 52

def scale (x : Binary64) : Int :=
  if x.exponentField = 0 then -1074 else (x.exponentField : Int) - 1075

/-- Whether the gap to the next smaller magnitude is half the gap to the next larger one, as at
the powers of two above the subnormals. -/
def atBinade (x : Binary64) : Bool :=
  x.fractionField = 0 && 1 < x.exponentField

/-- Arithmetic comparison: a NaN equals nothing, itself included, and `0` equals `-0`. -/
def same (x y : Binary64) : Bool :=
  !x.isNaN && !y.isNaN && (x == y || (x.isZero && y.isZero))

theorem same_comm (x y : Binary64) : x.same y = y.same x := by
  unfold same
  rw [show (x == y) = (y == x) from BEq.comm, Bool.and_comm (!x.isNaN), Bool.and_comm x.isZero]

theorem same_self (x : Binary64) : x.same x = !x.isNaN := by
  simp [same]

theorem same_trans {x y z : Binary64} (hxy : x.same y = true) (hyz : y.same z = true) :
    x.same z = true := by
  simp only [same, Bool.and_eq_true, Bool.or_eq_true, beq_iff_eq] at hxy hyz ⊢
  obtain ⟨⟨hx, _⟩, hxy⟩ := hxy
  obtain ⟨⟨_, hz⟩, hyz⟩ := hyz
  refine ⟨⟨hx, hz⟩, ?_⟩
  rcases hxy with rfl | ⟨zx, zy⟩
  · exact hyz
  · rcases hyz with rfl | ⟨_, zz⟩
    · exact .inr ⟨zx, zy⟩
    · exact .inr ⟨zx, zz⟩

end Binary64

end Resumable
