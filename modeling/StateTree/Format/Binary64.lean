/-
Module: StateTree.Format.Binary64
Purpose: Floating-point numbers of 64 bits as they are stored. A value that is no number has a sign
  and a payload there, which arithmetic does not see and storing has to keep.
-/

namespace StateTree

/-- A floating-point number by its bits. -/
structure Binary64 where
  bits : UInt64
deriving DecidableEq

namespace Binary64

/-- The bits of a number; what is none has one pattern. -/
def ofFloat (x : Float) : Binary64 := ⟨x.toBits⟩

/-- The number to calculate with. -/
def toFloat (x : Binary64) : Float := Float.ofBits x.bits

/-- Whether the sign is a minus, be it that of zero or of what is no number. -/
def isNegative (x : Binary64) : Bool := x.bits >>> 63 == 1

/-- The stored exponent, which is 2047 where there is no finite number. -/
def exponent (x : Binary64) : Nat := ((x.bits >>> 52) &&& 0x7ff).toNat

/-- The 52 stored bits of the significand. -/
def fraction (x : Binary64) : Nat := (x.bits &&& 0xfffffffffffff).toNat

end Binary64

end StateTree
