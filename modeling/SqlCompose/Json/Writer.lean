import SqlCompose.Json.Basic
import SqlCompose.Number.Shortest

/-! JSON text in compact form. -/
namespace SqlCompose.Json

/-- Numbers are positional from 1e-5 up to 1e16. -/
def decimalStyle : Number.DecimalStyle := ⟨-4, 16⟩

def hexDigit (value : Nat) : Char := Nat.digitChar value

def escapeChar (char : Char) : List Char :=
  if char = '\x22' then ['\x5c', '\x22']
  else if char = '\x5c' then ['\x5c', '\x5c']
  else if char = '\x08' then ['\x5c', 'b']
  else if char = '\x0c' then ['\x5c', 'f']
  else if char = '\n' then ['\x5c', 'n']
  else if char = '\r' then ['\x5c', 'r']
  else if char = '\t' then ['\x5c', 't']
  else if char.toNat < 0x20 then
    ['\x5c', 'u', '0', '0', hexDigit (char.toNat / 16), hexDigit (char.toNat % 16)]
  else [char]

def writeString (text : String) : List Char :=
  '\x22' :: text.toList.flatMap escapeChar ++ ['\x22']

def writeInt (value : Int) : List Char :=
  if value < 0 then '-' :: Nat.toDigits 10 value.natAbs else Nat.toDigits 10 value.natAbs

/-- Infinities and not-a-numbers have no number text and are written as null. -/
def writeFloat (number : Number.Binary64) : List Char :=
  if number.isFinite then number.decimal decimalStyle else ['n', 'u', 'l', 'l']

def writeNumber : JsonNumber → List Char
  | .int value => writeInt value
  | .float value => writeFloat value

mutual
def writeChars : Json → List Char
  | .null => ['n', 'u', 'l', 'l']
  | .bool true => ['t', 'r', 'u', 'e']
  | .bool false => ['f', 'a', 'l', 's', 'e']
  | .number value => writeNumber value
  | .string text => writeString text
  | .array [] => ['[', ']']
  | .array (item :: items) => '[' :: writeChars item ++ writeItems items
  | .object [] => ['\x7b', '\x7d']
  | .object ((key, item) :: members) =>
    '\x7b' :: writeString key ++ ':' :: writeChars item ++ writeMembers members

def writeItems : List Json → List Char
  | [] => [']']
  | item :: items => ',' :: writeChars item ++ writeItems items

def writeMembers : List (String × Json) → List Char
  | [] => ['\x7d']
  | (key, item) :: members =>
    ',' :: writeString key ++ ':' :: writeChars item ++ writeMembers members
end

def write (json : Json) : String := String.ofList (writeChars json)

end SqlCompose.Json
