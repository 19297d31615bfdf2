import SqlCompose.Number.Binary64

/-! The fewest decimal digits that read back as the same number, and their plain text. -/
namespace SqlCompose.Number

/-- The numbers that round to value · 2 ^ exponent, in quarters of the last place. The side below
a power of two is half as wide; the ends belong to the range when the value is even. -/
structure RoundingRange where
  below : Nat
  centre : Nat
  above : Nat
  closed : Bool
  exponent : Int

def RoundingRange.ofBits (format : BinaryFormat) (bits : Nat) : RoundingRange :=
  let (value, exponent) := format.decode bits
  let narrow := format.fraction bits = 0 && format.exponentField bits > 1
  { below := 4 * value - (if narrow then 1 else 2)
    centre := 4 * value
    above := 4 * value + 2
    closed := value % 2 = 0
    exponent := exponent - 2 }

def RoundingRange.contains (range : RoundingRange) (digits : Nat) (power : Int) : Bool :=
  let (unit, parts) := scaled 1 range.exponent
  let candidate := digits * Nat.pow 10 power.toNat * parts
  let grid := unit * Nat.pow 10 (-power).toNat
  if range.closed then range.below * grid ≤ candidate && candidate ≤ range.above * grid
  else range.below * grid < candidate && candidate < range.above * grid

/-- The position of the decimal point: the least power of ten above the fraction, searched
upwards from the given number of places behind the point. -/
def decimalPoint (numerator denominator : Nat) : Int :=
  if denominator ≤ numerator then ((Nat.toDigits 10 (numerator / denominator)).length : Int)
  else
    let rec places (fuel shifted : Nat) : Int :=
      match fuel with
      | 0 => 0
      | fuel + 1 => if denominator ≤ shifted * 10 then 0 else places fuel (shifted * 10) - 1
    places denominator numerator

/-- Of the two neighbours on a decimal grid those in the range, the nearer first; a tie goes to
the even one. -/
def RoundingRange.onGrid (range : RoundingRange) (power : Int) : Option Nat :=
  let (unit, parts) := scaled 1 range.exponent
  let numerator := range.centre * unit * Nat.pow 10 (-power).toNat
  let grid := parts * Nat.pow 10 power.toNat
  let nearest := roundHalfEven numerator grid
  let other := if nearest * grid ≤ numerator then nearest + 1 else nearest - 1
  if range.contains nearest power then some nearest
  else if range.contains other power then some other
  else none

/-- The digits and the power of ten of the shortest decimal that reads back. -/
def shortest (format : BinaryFormat) (bits : Nat) : Nat × Int :=
  let range := RoundingRange.ofBits format bits
  let (numerator, denominator) := format.magnitude bits
  let point := decimalPoint numerator denominator
  let found := (List.range 17).findSome? fun (index : Nat) =>
    let power := point - (index : Int) - 1
    (range.onGrid power).map fun digits => (digits, power)
  found.getD (numerator, 0)

structure DecimalStyle where
  leastPoint : Int
  greatestPoint : Int

def DecimalStyle.write (style : DecimalStyle) (digits : List Char) (point : Int) : List Char :=
  let zeros (count : Int) := List.replicate count.toNat '0'
  if style.leastPoint ≤ point && point ≤ style.greatestPoint then
    if point ≤ 0 then '0' :: '.' :: zeros (-point) ++ digits
    else if (digits.length : Int) ≤ point then
      digits ++ zeros (point - digits.length) ++ ['.', '0']
    else digits.take point.toNat ++ '.' :: digits.drop point.toNat
  else
    let exponent := point - 1
    let mantissa := match digits with
      | first :: second :: rest => first :: '.' :: second :: rest
      | short => short
    mantissa ++ 'e' :: (if exponent < 0 then '-' else '+') :: Nat.toDigits 10 exponent.natAbs

def significant (digits : List Char) : List Char :=
  (digits.reverse.dropWhile (· = '0')).reverse

def Binary64.decimal (style : DecimalStyle) (number : Binary64) : List Char :=
  let sign := if number.isNegative then ['-'] else []
  if number.unsigned = 0 then sign ++ ['0', '.', '0'] else
    let (value, power) := shortest .double number.unsigned
    let digits := Nat.toDigits 10 value
    sign ++ style.write (significant digits) (digits.length + power)

end SqlCompose.Number
