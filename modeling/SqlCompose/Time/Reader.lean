import SqlCompose.Text.Blank
import SqlCompose.Time.Timestamp

/-! Two readers of timestamps. The strict one takes fixed widths throughout; the lenient one also
takes short fields, blanks between the parts, signed years and the zone name UTC. -/
namespace SqlCompose.Time

open Text

def number (digits : List Char) : Nat :=
  digits.foldl (fun value digit => value * 10 + (digit.toNat - '0'.toNat)) 0

def readNumber? (least most : Nat) (text : List Char) : Option (Nat × List Char) :=
  let digits := (text.take most).takeWhile Char.isDigit
  if least ≤ digits.length then some (number digits, text.drop digits.length) else none

def readChar? (char : Char) : List Char → Option (List Char)
  | first :: rest => if first = char then some rest else none
  | [] => none

def readMark? : List Char → Option (List Char)
  | first :: rest => if first = 'T' || first = 't' || first = ' ' then some rest else none
  | [] => none

/-- Nanoseconds behind a point. Digits past the ninth are dropped. -/
def readNanos? : List Char → Option (Nat × List Char)
  | '.' :: text =>
    let digits := text.takeWhile Char.isDigit
    let kept := digits.take 9
    if digits.isEmpty then none
    else some (number kept * Nat.pow 10 (9 - kept.length), text.drop digits.length)
  | text => some (0, text)

/-- A sign, where the minus sign of typography counts as a hyphen. -/
def readSign? : List Char → Option (Int × List Char)
  | first :: rest =>
    if first = '+' then some (1, rest)
    else if first = '-' || first = '\u2212' then some (-1, rest)
    else none
  | [] => none

def readOffset? (separator : List Char → Option (List Char)) (text : List Char) :
    Option (Int × List Char) :=
  match text with
  | 'Z' :: rest => some (0, rest)
  | 'z' :: rest => some (0, rest)
  | _ => do
    let (sign, text) ← readSign? text
    let (hours, text) ← readNumber? 2 2 text
    let text ← separator text
    let (minutes, text) ← readNumber? 2 2 text
    guard (hours ≤ 23 && minutes ≤ 59)
    some (sign * (hours * 3600 + minutes * 60 : Nat), text)

def Timestamp.readStrict? (text : List Char) : Option Timestamp := do
  let (year, text) ← readNumber? 4 4 text
  let text ← readChar? '-' text
  let (month, text) ← readNumber? 2 2 text
  let text ← readChar? '-' text
  let (day, text) ← readNumber? 2 2 text
  let text ← readMark? text
  let (hour, text) ← readNumber? 2 2 text
  let text ← readChar? ':' text
  let (minute, text) ← readNumber? 2 2 text
  let text ← readChar? ':' text
  let (second, text) ← readNumber? 2 2 text
  let (nanos, text) ← readNanos? text
  let (offset, text) ← readOffset? (readChar? ':') text
  guard text.isEmpty
  Timestamp.ofFields? ⟨⟨year, month, day⟩, hour, minute, second, nanos, offset⟩

/-- A year of up to four digits, or a sign and any number of digits. -/
def readLenientYear? (text : List Char) : Option (Int × List Char) :=
  match trimStart text with
  | '-' :: rest => (readNumber? 1 rest.length rest).map fun (year, rest) => (-(year : Int), rest)
  | '+' :: rest => (readNumber? 1 rest.length rest).map fun (year, rest) => ((year : Int), rest)
  | rest => (readNumber? 1 4 rest).map fun (year, rest) => ((year : Int), rest)

def readShort? (text : List Char) : Option (Nat × List Char) := readNumber? 1 2 (trimStart text)

def skipSeparators (text : List Char) : List Char :=
  text.dropWhile fun char => char = ':' || isBlank char

def readLenientOffset? (text : List Char) : Option (Int × List Char) :=
  let text := trimStart text
  if (text.take 3).map Char.toUpper = ['U', 'T', 'C'] then some (0, text.drop 3)
  else readOffset? (fun text => some (skipSeparators text)) text

def Timestamp.readLenient? (text : List Char) : Option Timestamp := do
  let (year, text) ← readLenientYear? text
  let text ← readChar? '-' (trimStart text)
  let (month, text) ← readShort? text
  let text ← readChar? '-' (trimStart text)
  let (day, text) ← readShort? text
  let text ← readMark? text
  let (hour, text) ← readShort? text
  let text ← readChar? ':' (trimStart text)
  let (minute, text) ← readShort? text
  let text ← readChar? ':' (trimStart text)
  let (second, text) ← readShort? text
  let (nanos, text) ← readNanos? text
  let (offset, text) ← readLenientOffset? text
  guard (trimStart text).isEmpty
  Timestamp.ofFields? ⟨⟨year, month, day⟩, hour, minute, second, nanos, offset⟩

end SqlCompose.Time
