/-! JSON text read by its grammar alone: numbers stay digits and escapes stay code units. Text that
a reader skips needs no more than this form; any other is given its value afterwards. -/
namespace SqlCompose.Json

/-- The digits of a number. An empty fraction stands for a number without a point. -/
structure NumberText where
  negative : Bool
  whole : List Nat
  fraction : List Nat
  exponent : Option (Bool × List Nat)

inductive StringUnit
  | char (value : Char)
  | unit (value : Nat)

inductive Written
  | null
  | bool (value : Bool)
  | number (value : NumberText)
  | string (value : List StringUnit)
  | array (items : List Written)
  | object (members : List (List StringUnit × Written))

def isSpace (char : Char) : Bool := char = ' ' || char = '\n' || char = '\t' || char = '\r'

def skipSpace (text : List Char) : List Char := text.dropWhile isSpace

def digitValue (char : Char) : Nat := char.toNat - '0'.toNat

def readDigits (text : List Char) : List Nat × List Char :=
  ((text.takeWhile Char.isDigit).map digitValue, text.dropWhile Char.isDigit)

def hexValue? (char : Char) : Option Nat :=
  if char.isDigit then some (digitValue char)
  else if 'a' ≤ char && char ≤ 'f' then some (char.toNat - 'a'.toNat + 10)
  else if 'A' ≤ char && char ≤ 'F' then some (char.toNat - 'A'.toNat + 10)
  else none

def simpleEscape? (char : Char) : Option Char :=
  if char = '\x22' || char = '\x5c' || char = '/' then some char
  else if char = 'b' then some '\x08'
  else if char = 'f' then some '\x0c'
  else if char = 'n' then some '\n'
  else if char = 'r' then some '\r'
  else if char = 't' then some '\t'
  else none

def readString : List Char → Option (List StringUnit × List Char)
  | [] => none
  | '\x22' :: rest => some ([], rest)
  | '\x5c' :: 'u' :: first :: second :: third :: fourth :: rest => do
    let first ← hexValue? first
    let second ← hexValue? second
    let third ← hexValue? third
    let fourth ← hexValue? fourth
    let (units, rest) ← readString rest
    some (.unit (((first * 16 + second) * 16 + third) * 16 + fourth) :: units, rest)
  | '\x5c' :: char :: rest => do
    let char ← simpleEscape? char
    let (units, rest) ← readString rest
    some (.char char :: units, rest)
  | char :: rest => do
    guard (0x20 ≤ char.toNat && char ≠ '\x5c')
    let (units, rest) ← readString rest
    some (.char char :: units, rest)

def readWhole (text : List Char) : Option (List Nat × List Char) :=
  match readDigits text with
  | ([], _) => none
  | (0 :: _ :: _, _) => none
  | read => some read

def readFraction : List Char → Option (List Nat × List Char)
  | '.' :: text =>
    match readDigits text with
    | ([], _) => none
    | read => some read
  | text => some ([], text)

def readExponentSign : List Char → Bool × List Char
  | '-' :: text => (true, text)
  | '+' :: text => (false, text)
  | text => (false, text)

def readExponent : List Char → Option (Option (Bool × List Nat) × List Char)
  | [] => some (none, [])
  | mark :: text =>
    if mark = 'e' || mark = 'E' then
      let (negative, text) := readExponentSign text
      match readDigits text with
      | ([], _) => none
      | (digits, rest) => some (some (negative, digits), rest)
    else some (none, mark :: text)

def readUnsigned (negative : Bool) (text : List Char) : Option (NumberText × List Char) := do
  let (whole, text) ← readWhole text
  let (fraction, text) ← readFraction text
  let (exponent, text) ← readExponent text
  some (⟨negative, whole, fraction, exponent⟩, text)

def readNumber : List Char → Option (NumberText × List Char)
  | '-' :: text => readUnsigned true text
  | text => readUnsigned false text

mutual
/-- Reads one value; the fuel exceeds the number of characters. -/
def readValue : Nat → List Char → Option (Written × List Char)
  | 0, _ => none
  | fuel + 1, text =>
    match skipSpace text with
    | 'n' :: 'u' :: 'l' :: 'l' :: rest => some (.null, rest)
    | 't' :: 'r' :: 'u' :: 'e' :: rest => some (.bool true, rest)
    | 'f' :: 'a' :: 'l' :: 's' :: 'e' :: rest => some (.bool false, rest)
    | '\x22' :: rest => (readString rest).map fun (units, rest) => (.string units, rest)
    | '[' :: rest =>
      match skipSpace rest with
      | ']' :: rest => some (.array [], rest)
      | rest => do
        let (item, rest) ← readValue fuel rest
        let (items, rest) ← readItems fuel rest
        some (.array (item :: items), rest)
    | '\x7b' :: rest =>
      match skipSpace rest with
      | '\x7d' :: rest => some (.object [], rest)
      | rest => do
        let (member, rest) ← readMember fuel rest
        let (members, rest) ← readMembers fuel rest
        some (.object (member :: members), rest)
    | rest => (readNumber rest).map fun (number, rest) => (.number number, rest)

def readItems : Nat → List Char → Option (List Written × List Char)
  | 0, _ => none
  | fuel + 1, text =>
    match skipSpace text with
    | ']' :: rest => some ([], rest)
    | ',' :: rest => do
      let (item, rest) ← readValue fuel rest
      let (items, rest) ← readItems fuel rest
      some (item :: items, rest)
    | _ => none

def readMember : Nat → List Char → Option ((List StringUnit × Written) × List Char)
  | 0, _ => none
  | fuel + 1, text =>
    match skipSpace text with
    | '\x22' :: rest => do
      let (key, rest) ← readString rest
      match skipSpace rest with
      | ':' :: rest => do
        let (item, rest) ← readValue fuel rest
        some ((key, item), rest)
      | _ => none
    | _ => none

def readMembers : Nat → List Char → Option (List (List StringUnit × Written) × List Char)
  | 0, _ => none
  | fuel + 1, text =>
    match skipSpace text with
    | '\x7d' :: rest => some ([], rest)
    | ',' :: rest => do
      let (member, rest) ← readMember fuel rest
      let (members, rest) ← readMembers fuel rest
      some (member :: members, rest)
    | _ => none
end

def Written.ofText? (text : String) : Option Written := do
  let chars := text.toList
  let (written, rest) ← readValue (chars.length + 1) chars
  guard (skipSpace rest).isEmpty
  some written

end SqlCompose.Json
