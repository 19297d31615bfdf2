import SqlCompose.Text.Bytes

/-! Texts read by the places of their bytes. Every access is checked: a byte is read inside the text
only, the text is cut between two characters only, and a loop only goes forward. -/
namespace SqlCompose.Text

inductive Slip
  /-- Reading or cutting beyond the end. -/
  | outside (place : Nat)
  /-- Cutting within a character. -/
  | divided (place : Nat)
  /-- Closing a group where none is open. -/
  | unopened (place : Nat)
  /-- Turning a loop without going forward. -/
  | stalled (place : Nat)
  deriving DecidableEq

abbrev Checked (Result : Type) := Except Slip Result

def byteAt (text : List Char) (place : Nat) : Checked Char :=
  match (bytes text)[place]? with
  | some byte => .ok byte
  | none => .error (.outside place)

def bytesFrom (text : List Char) (place : Nat) : Checked (List Char) :=
  if place ≤ byteSize text then .ok ((bytes text).drop place) else .error (.outside place)

def bytesTo (bytes : List Char) (stop : Nat) : Checked (List Char) :=
  if stop ≤ bytes.length then .ok (bytes.take stop) else .error (.outside stop)

def cutAt? : Nat → List Char → Option (List Char × List Char)
  | 0, text => some ([], text)
  | _ + 1, [] => none
  | place + 1, char :: rest =>
    if char.utf8Size ≤ place + 1 then
      (cutAt? (place + 1 - char.utf8Size) rest).map fun (front, back) => (char :: front, back)
    else none

def cutAt (place : Nat) (text : List Char) : Checked (List Char × List Char) :=
  match cutAt? place text with
  | some parts => .ok parts
  | none => .error (if place ≤ byteSize text then .divided place else .outside place)

def textFrom (text : List Char) (start : Nat) : Checked (List Char) := do
  let (_, back) ← cutAt start text
  return back

def textTo (text : List Char) (stop : Nat) : Checked (List Char) := do
  let (front, _) ← cutAt stop text
  return front

def slice (text : List Char) (start stop : Nat) : Checked (List Char) := do
  let front ← textTo text stop
  textFrom front start

def find? (mark : List Char) : List Char → Option Nat
  | [] => if mark.isEmpty then some 0 else none
  | char :: rest =>
    if mark.isPrefixOf (char :: rest) then some 0
    else (find? mark rest).map (char.utf8Size + ·)

inductive Turn (State Result : Type)
  | done (result : Result)
  | on (place : Nat) (state : State)

def scan {State Result : Type} (size : Nat) (turn : Nat → State → Checked (Turn State Result))
    (atEnd : Nat → State → Checked Result) (place : Nat) (state : State) : Checked Result :=
  if place < size then
    match turn place state with
    | .error slip => .error slip
    | .ok (.done result) => .ok result
    | .ok (.on next later) =>
      if place < next then scan size turn atEnd next later else .error (.stalled place)
  else atEnd place state
termination_by size - place

/-- The longest beginning of a text, in whole characters, that fits a budget of bytes. -/
structure LongestWithin (budget : Nat) (text front : List Char) : Prop where
  begins : front <+: text
  fits : byteSize front ≤ budget
  longest : ∀ other, other <+: text → byteSize other ≤ budget → other <+: front

/-- The bytes of a wide character behind its first one lie in this range, and no first byte does. -/
def isContinuation (byte : Char) : Bool := 128 ≤ byte.toNat && byte.toNat < 192

/-- Whether a text can be cut at a place: at its ends, and where a byte is the first of a character. -/
def isBoundary (text : List Char) (place : Nat) : Bool :=
  place = 0 || place = byteSize text || (bytes text)[place]?.any fun byte => !isContinuation byte

/-- Goes back from a place to the nearest one where the text can be cut. At the beginning the search
can go back no further; if the text could not be cut there, the search would be stalled. -/
def backToBoundary (text : List Char) : Nat → Checked Nat
  | 0 => if isBoundary text 0 then .ok 0 else .error (.stalled 0)
  | place + 1 => if isBoundary text (place + 1) then .ok (place + 1) else backToBoundary text place

def shorten (text : List Char) (budget : Nat) : Checked (List Char) :=
  if byteSize text ≤ budget then return text
  else do
    let stop ← backToBoundary text budget
    textTo text stop

end SqlCompose.Text
