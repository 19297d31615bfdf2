import SqlCompose.Number.BinaryFormat

/-! Floating-point numbers of double and single precision. -/
namespace SqlCompose.Number

structure Binary64 where
  bits : UInt64
  deriving DecidableEq

namespace Binary64

def ofPattern (pattern : Nat) : Binary64 := ⟨pattern.toUInt64⟩

def pattern (number : Binary64) : Nat := number.bits.toNat

def isNaN (number : Binary64) : Bool := BinaryFormat.double.isNaN number.pattern

def isFinite (number : Binary64) : Bool := BinaryFormat.double.isFinite number.pattern

def isNegative (number : Binary64) : Bool := BinaryFormat.double.isNegative number.pattern

def unsigned (number : Binary64) : Nat := number.pattern % BinaryFormat.double.signBit

/-- Equality of numbers: both zeros are equal and a not-a-number differs from itself. -/
def same (first second : Binary64) : Bool :=
  !first.isNaN && !second.isNaN &&
    (first.bits = second.bits || (first.unsigned = 0 && second.unsigned = 0))

def ofFraction (negative : Bool) (numerator denominator : Nat) : Binary64 :=
  ofPattern (BinaryFormat.double.withSign negative
    (BinaryFormat.double.nearest numerator denominator))

def ofInt (value : Int) : Binary64 := ofFraction (value < 0) value.natAbs 1

def magnitude (number : Binary64) : Nat × Nat := BinaryFormat.double.magnitude number.pattern

def times (first second : Binary64) : Binary64 :=
  let (numerator, denominator) := first.magnitude
  let (factor, divisor) := second.magnitude
  ofFraction false (numerator * factor) (denominator * divisor)

def dividedBy (first second : Binary64) : Binary64 :=
  let (numerator, denominator) := first.magnitude
  let (factor, divisor) := second.magnitude
  ofFraction false (numerator * divisor) (denominator * factor)

def negated (number : Binary64) : Binary64 := ⟨number.bits ^^^ 0x8000000000000000⟩

end Binary64

structure Binary32 where
  bits : UInt32
  deriving DecidableEq

def Binary32.widen (number : Binary32) : Binary64 :=
  .ofPattern (BinaryFormat.single.convert .double number.bits.toNat)

def Binary64.narrow (number : Binary64) : Binary32 :=
  ⟨(BinaryFormat.double.convert .single number.pattern).toUInt32⟩

end SqlCompose.Number
