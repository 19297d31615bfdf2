import SqlCompose.Text.Place

/-! Literals and groups in byte strings, which need not be the bytes of a text: what they are, and
the loops that pass over them. -/
namespace SqlCompose.Octets

open Text

def ofText (text : List Char) : List UInt8 := text.flatMap String.utf8EncodeChar

def isQuote (octet : UInt8) : Bool :=
  octet = '\x27'.toUInt8 || octet = '\x22'.toUInt8 || octet = '\x60'.toUInt8

inductive Quoted (quote : UInt8) : List UInt8 → Prop
  | nil : Quoted quote []
  | escape (octet : UInt8) (rest : List UInt8) (quoted : Quoted quote rest) :
      Quoted quote ('\x5c'.toUInt8 :: octet :: rest)
  | plain (octet : UInt8) (rest : List UInt8) (unescaped : octet ≠ '\x5c'.toUInt8)
      (inside : octet ≠ quote) (quoted : Quoted quote rest) : Quoted quote (octet :: rest)

inductive Literal : List UInt8 → Prop
  | intro (quote : UInt8) (part : List UInt8) (opens : isQuote quote = true)
      (quoted : Quoted quote part) : Literal (quote :: (part ++ [quote]))

inductive Grouped : List UInt8 → Prop
  | nil : Grouped []
  | literal (part rest : List UInt8) (literal : Literal part) (grouped : Grouped rest) :
      Grouped (part ++ rest)
  | group (part rest : List UInt8) (inner : Grouped part) (grouped : Grouped rest) :
      Grouped ('('.toUInt8 :: (part ++ [')'.toUInt8]) ++ rest)
  | plain (octet : UInt8) (rest : List UInt8) (unquoted : isQuote octet = false)
      (ungrouped : octet ≠ '('.toUInt8 ∧ octet ≠ ')'.toUInt8) (grouped : Grouped rest) :
      Grouped (octet :: rest)

inductive Group : List UInt8 → Prop
  | intro (part : List UInt8) (grouped : Grouped part) :
      Group ('('.toUInt8 :: (part ++ [')'.toUInt8]))

/-- What stands from one place up to another is of a kind. -/
structure Spans (Kind : List UInt8 → Prop) (octets : List UInt8) (start stop : Nat) : Prop where
  ordered : start ≤ stop
  inside : stop ≤ octets.length
  kind : Kind (octets.extract start stop)

def octetAt (octets : List UInt8) (place : Nat) : Checked UInt8 :=
  match octets[place]? with
  | some octet => .ok octet
  | none => .error (.outside place)

def literalTurn (octets : List UInt8) (quote : UInt8) (place : Nat) (_ : Unit) :
    Checked (Turn Unit (Option Nat)) := do
  let octet ← octetAt octets place
  if octet = '\x5c'.toUInt8 then return .on (place + 2) ()
  else if octet = quote then return .done (some (place + 1))
  else return .on (place + 1) ()

def skipLiteral (octets : List UInt8) (start : Nat) : Checked (Option Nat) := do
  let quote ← octetAt octets start
  scan octets.length (literalTurn octets quote) (fun _ _ => return none) (start + 1) ()

def groupTurn (octets : List UInt8) (place depth : Nat) : Checked (Turn Nat (Option Nat)) := do
  let octet ← octetAt octets place
  if octet = '('.toUInt8 then return .on (place + 1) (depth + 1)
  else if octet = ')'.toUInt8 then
    match depth with
    | 0 => throw (.unopened place)
    | 1 => return .done (some (place + 1))
    | depth + 2 => return .on (place + 1) (depth + 1)
  else if isQuote octet then
    match ← skipLiteral octets place with
    | none => return .done none
    | some next => return .on next depth
  else return .on (place + 1) depth

def skipGroup (octets : List UInt8) (start : Nat) : Checked (Option Nat) :=
  scan octets.length (groupTurn octets) (fun _ _ => return none) start 0

/-- A reader finds where the only thing of a kind ends that begins at a place, or that there is
none. -/
structure Finds (Kind : List UInt8 → Prop) (octets : List UInt8) (start : Nat)
    (found : Checked (Option Nat)) : Prop where
  some_iff : ∀ stop, found = .ok (some stop) ↔ Spans Kind octets start stop
  none_iff : found = .ok none ↔ ¬∃ stop, Spans Kind octets start stop
  unique : ∀ stop other, Spans Kind octets start stop → Spans Kind octets start other → other = stop

end SqlCompose.Octets
