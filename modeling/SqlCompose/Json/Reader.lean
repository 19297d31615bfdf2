import SqlCompose.Json.Basic
import SqlCompose.Json.Written

/-! The values of written JSON. A string must be proper Unicode, a number must be finite and arrays
and objects nest at most 127 deep. -/
namespace SqlCompose.Json

open Number

/-- Joins code units to characters; a surrogate without its partner is refused. -/
def characters? : List StringUnit → Option (List Char)
  | [] => some []
  | .char char :: rest => (characters? rest).map (char :: ·)
  | .unit high :: .unit low :: rest =>
    if 0xd800 ≤ high && high ≤ 0xdbff then
      if 0xdc00 ≤ low && low ≤ 0xdfff then
        (characters? rest).map
          (Char.ofNat ((high - 0xd800) * 0x400 + (low - 0xdc00) + 0x10000) :: ·)
      else none
    else if 0xdc00 ≤ high && high ≤ 0xdfff then none
    else (characters? (.unit low :: rest)).map (Char.ofNat high :: ·)
  | .unit code :: rest =>
    if 0xd800 ≤ code && code ≤ 0xdfff then none
    else (characters? rest).map (Char.ofNat code :: ·)

def string? (units : List StringUnit) : Option String := (characters? units).map String.ofList

def wordLimit : Nat := 0x10000000000000000

/-- Appends digits to a number while 64 bits hold it; the digits left over are given too. -/
def appendDigits (value : Nat) : List Nat → Nat × List Nat
  | [] => (value, [])
  | digit :: rest =>
    if value * 10 + digit < wordLimit then appendDigits (value * 10 + digit) rest
    else (value, digit :: rest)

def powerOfTen (exponent : Nat) : Binary64 := Binary64.ofFraction false (Nat.pow 10 exponent) 1

def greatestPower : Nat := 308

def dividedByPower (number : Binary64) (places : Nat) : Binary64 :=
  if places ≤ greatestPower then number.dividedBy (powerOfTen places)
  else if number.unsigned = 0 then number
  else dividedByPower (number.dividedBy (powerOfTen greatestPower)) (places - greatestPower)
termination_by places
decreasing_by simp only [greatestPower] at *; omega

def scaledByPower? (value : Nat) (exponent : Int) : Option Binary64 :=
  let number := Binary64.ofInt value
  if exponent < 0 then some (dividedByPower number exponent.natAbs)
  else if exponent ≤ greatestPower then
    let product := number.times (powerOfTen exponent.natAbs)
    if product.isFinite then some product else none
  else if value = 0 then some number
  else none

def signed (negative : Bool) (number : Binary64) : Binary64 :=
  if negative then number.negated else number

/-- From here on an exponent is not computed with: the number is zero or out of range. -/
def exponentLimit : Nat := 0x80000000

/-- An integer that 64 bits hold stays an integer, except minus zero. Any other number is read in
floating point: its leading digits, as many as fit 64 bits, scaled by a power of ten. -/
def number? (text : NumberText) : Option JsonNumber := do
  let (leading, dropped) := appendDigits 0 text.whole
  if dropped.isEmpty && text.fraction.isEmpty && text.exponent.isNone then
    if !text.negative then some (.int leading)
    else if leading = 0 || wordLimit < 2 * leading then some (.float (Binary64.ofInt leading).negated)
    else some (.int (-leading))
  else
    let (value, cut) := appendDigits leading text.fraction
    let power : Int := dropped.length - (text.fraction.length - cut.length : Nat)
    match text.exponent with
    | none => (scaledByPower? value power).map fun number => .float (signed text.negative number)
    | some (negative, digits) =>
      let exponent : Nat := digits.foldl (fun number digit => number * 10 + digit) 0
      if exponentLimit ≤ exponent then
        if value ≠ 0 && !negative then none
        else some (.float (signed text.negative (Binary64.ofInt 0)))
      else
        let shift : Int := if negative then -exponent else exponent
        (scaledByPower? value (power + shift)).map
          fun number => .float (signed text.negative number)

def greatestDepth : Nat := 127

mutual
def resolve? : Nat → Written → Option Json
  | _, .null => some .null
  | _, .bool value => some (.bool value)
  | _, .number text => (number? text).map .number
  | _, .string units => (string? units).map .string
  | 0, .array _ => none
  | room + 1, .array items => (resolveItems? room items).map .array
  | 0, .object _ => none
  | room + 1, .object members => (resolveMembers? room members).map ofMembers

def resolveItems? : Nat → List Written → Option (List Json)
  | _, [] => some []
  | room, item :: items => do
    let item ← resolve? room item
    let items ← resolveItems? room items
    some (item :: items)

def resolveMembers? : Nat → List (List StringUnit × Written) → Option (List (String × Json))
  | _, [] => some []
  | room, (key, item) :: members => do
    let key ← string? key
    let item ← resolve? room item
    let members ← resolveMembers? room members
    some ((key, item) :: members)
end

def read? (text : String) : Option Json := do
  let written ← Written.ofText? text
  resolve? greatestDepth written

end SqlCompose.Json
