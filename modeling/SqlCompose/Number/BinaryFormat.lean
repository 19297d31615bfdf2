/-! Binary floating-point formats as bit patterns. A pattern is a natural number; rounding and
decoding are exact integer arithmetic on it. -/
namespace SqlCompose.Number

def roundHalfEven (numerator denominator : Nat) : Nat :=
  let quotient := numerator / denominator
  let twice := 2 * (numerator % denominator)
  if twice > denominator || (twice = denominator && quotient % 2 = 1) then quotient + 1
  else quotient

def scaled (value : Nat) (exponent : Int) : Nat × Nat :=
  (value * Nat.pow 2 exponent.toNat, Nat.pow 2 (-exponent).toNat)

structure BinaryFormat where
  fractionBits : Nat
  exponentBits : Nat

namespace BinaryFormat

def single : BinaryFormat := ⟨23, 8⟩

def double : BinaryFormat := ⟨52, 11⟩

def minExponent (format : BinaryFormat) : Int :=
  2 - (Nat.pow 2 (format.exponentBits - 1) : Nat) - format.fractionBits

def fractionLimit (format : BinaryFormat) : Nat := Nat.pow 2 format.fractionBits

def exponentLimit (format : BinaryFormat) : Nat := Nat.pow 2 format.exponentBits

def infinityBits (format : BinaryFormat) : Nat := (format.exponentLimit - 1) * format.fractionLimit

def signBit (format : BinaryFormat) : Nat := format.exponentLimit * format.fractionLimit

def quietBit (format : BinaryFormat) : Nat := format.fractionLimit / 2

def fraction (format : BinaryFormat) (bits : Nat) : Nat := bits % format.fractionLimit

def exponentField (format : BinaryFormat) (bits : Nat) : Nat :=
  bits / format.fractionLimit % format.exponentLimit

def isNegative (format : BinaryFormat) (bits : Nat) : Bool := bits / format.signBit % 2 = 1

def isFinite (format : BinaryFormat) (bits : Nat) : Bool :=
  format.exponentField bits ≠ format.exponentLimit - 1

def isNaN (format : BinaryFormat) (bits : Nat) : Bool :=
  !format.isFinite bits && format.fraction bits ≠ 0

/-- A finite pattern's magnitude is the first component times two to the second. -/
def decode (format : BinaryFormat) (bits : Nat) : Nat × Int :=
  match format.exponentField bits with
  | 0 => (format.fraction bits, format.minExponent)
  | field + 1 => (format.fractionLimit + format.fraction bits, format.minExponent + field)

def magnitude (format : BinaryFormat) (bits : Nat) : Nat × Nat :=
  let (value, exponent) := format.decode bits
  scaled value exponent

/-- The pattern, without its sign, of the value nearest to a fraction; ties go to the even
pattern, and what is too large is infinity. -/
def nearest (format : BinaryFormat) (numerator denominator : Nat) : Nat :=
  if numerator = 0 then 0 else
    let estimate : Int := (numerator.log2 : Int) - denominator.log2
    let (above, below) := scaled denominator estimate
    let leading := if above ≤ numerator * below then estimate else estimate - 1
    let exponent := max (leading - format.fractionBits) format.minExponent
    let (unit, parts) := scaled denominator exponent
    let rounded := roundHalfEven (numerator * parts) unit
    min ((exponent - format.minExponent).toNat * format.fractionLimit + rounded)
      format.infinityBits

def withSign (format : BinaryFormat) (negative : Bool) (bits : Nat) : Nat :=
  if negative then format.signBit + bits else bits

/-- The same value in another format, rounded to nearest. A not-a-number becomes quiet and keeps
the leading bits of its payload. -/
def convert (source target : BinaryFormat) (bits : Nat) : Nat :=
  let payload :=
    source.fraction bits * target.fractionLimit / source.fractionLimit
  let unsigned :=
    if source.isNaN bits then
      target.infinityBits + target.quietBit + payload % target.quietBit
    else if source.isFinite bits then
      let (numerator, denominator) := source.magnitude bits
      target.nearest numerator denominator
    else target.infinityBits
  target.withSign (source.isNegative bits) unsigned

end BinaryFormat

end SqlCompose.Number
