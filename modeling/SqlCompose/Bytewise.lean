import SqlCompose.Chunk
import SqlCompose.Script
import SqlCompose.Statement.Basic
import SqlCompose.Text.Place

/-! The readers of SQL texts as loops over the places of bytes: the tokenizer, the keyword and the
body of a chunk, the reader of scripts, and the numbering of placeholders. -/
namespace SqlCompose.Bytewise

open Text

def literalTurn (text : List Char) (quote : Char) (place : Nat) (_ : Unit) :
    Checked (Turn Unit (Option Nat)) := do
  let byte ← byteAt text place
  if byte = '\x5c' then return .on (place + 2) ()
  else if byte = quote then return .done (some (place + 1))
  else return .on (place + 1) ()

/-- The place behind the literal whose quote stands at a place, unless it is left open. A backslash
takes the byte behind it along, which need not be a whole character. -/
def skipLiteral (text : List Char) (start : Nat) : Checked (Option Nat) := do
  let quote ← byteAt text start
  scan (byteSize text) (literalTurn text quote) (fun _ _ => return none) (start + 1) ()

def groupTurn (text : List Char) (place depth : Nat) : Checked (Turn Nat (Option Nat)) := do
  let byte ← byteAt text place
  if byte = '(' then return .on (place + 1) (depth + 1)
  else if byte = ')' then
    match depth with
    | 0 => throw (.unopened place)
    | 1 => return .done (some (place + 1))
    | depth + 2 => return .on (place + 1) (depth + 1)
  else if isQuote byte then
    match ← skipLiteral text place with
    | none => return .done none
    | some next => return .on next depth
  else return .on (place + 1) depth

def skipGroup (text : List Char) (start : Nat) : Checked (Option Nat) :=
  scan (byteSize text) (groupTurn text) (fun _ _ => return none) start 0

def keywordAt (text : List Char) (place : Nat) : Checked (Option Clause) := do
  let rest ← bytesFrom text place
  Clause.all.findM? fun clause =>
    if clause.keyword.length ≤ rest.length then do
      let spelled ← bytesTo rest clause.keyword.length
      return spelled.map Char.toUpper = clause.keyword.toList &&
        rest[clause.keyword.length]?.all isAsciiBlank
    else return false

/-- Where the tokenizer is: the chunks behind it, the clause of the chunk that it reads and where
that chunk begins, and whether a keyword would count. -/
structure Lexing where
  chunks : List Chunk := []
  clause : Option Clause := none
  start : Nat := 0
  boundary : Bool := true

namespace Lexing

def close (state : Lexing) (text : List Char) : List Chunk :=
  let chunk : Chunk := ⟨state.clause, String.ofList text⟩
  if state.clause.isSome || !chunk.body.isEmpty then state.chunks ++ [chunk] else state.chunks

def tags (state : Lexing) : List String :=
  state.chunks.map Chunk.tag ++ state.clause.toList.map Clause.keyword

def keyed (state : Lexing) (text : List Char) (place : Nat) : Checked (Option Clause) :=
  if state.boundary then keywordAt text place else return none

end Lexing

def tokenizeTurn (sql : String) (place : Nat) (state : Lexing) :
    Checked (Turn Lexing (Except Error (List Chunk))) := do
  match ← state.keyed sql.toList place with
  | some clause =>
    let text ← slice sql.toList state.start place
    return .on (place + clause.keyword.length)
      ⟨state.close text, some clause, place, state.boundary⟩
  | none =>
    let byte ← byteAt sql.toList place
    if isQuote byte then
      match ← skipLiteral sql.toList place with
      | none => return .done (.error (.parse (.unterminatedQuote place) state.tags sql))
      | some next => return .on next { state with boundary := false }
    else if byte = '(' then
      match ← skipGroup sql.toList place with
      | none => return .done (.error (.parse (.unbalancedParenthesis place) state.tags sql))
      | some next => return .on next { state with boundary := false }
    else return .on (place + 1) { state with boundary := isAsciiBlank byte }

def tokenizeEnd (sql : String) (_ : Nat) (state : Lexing) :
    Checked (Except Error (List Chunk)) := do
  let text ← textFrom sql.toList state.start
  return .ok (state.close text)

def tokenize (sql : String) : Checked (Except Error (List Chunk)) :=
  scan (byteSize sql.toList) (tokenizeTurn sql) (tokenizeEnd sql) 0 {}

def keyword (chunk : Chunk) : Checked String :=
  match chunk.clause with
  | some clause => do
    let spelled ← textTo chunk.text.toList clause.keyword.length
    return String.ofList spelled
  | none => return ""

/-- Without a character behind the keyword there is no body to cut out. -/
def body (chunk : Chunk) : Checked String :=
  match chunk.clause with
  | some clause =>
    if clause.keyword.length + 1 ≤ byteSize chunk.text.toList then do
      let text ← textFrom chunk.text.toList (clause.keyword.length + 1)
      return String.ofList (trim text)
    else return ""
  | none => return trimmed chunk.text

/-- Where the reader of scripts is: the statements behind it, what it has of the current one, and
where the text begins that it has not taken yet. -/
structure Splitting where
  found : List String := []
  current : List Char := []
  start : Nat := 0

def push (found : List String) (text : List Char) : List String :=
  if (trim text).isEmpty then found else found ++ [String.ofList (trim text)]

def lineStop (text : List Char) (place : Nat) : Checked Nat := do
  let rest ← textFrom text place
  match find? ['\n'] rest with
  | some offset => return place + offset
  | none => return byteSize text

def blockStop (text : List Char) (place : Nat) : Checked (Option Nat) := do
  let rest ← textFrom text (place + 2)
  return (find? ['*', '/'] rest).map fun offset => place + 2 + offset + 2

def statementsTurn (script : String) (place : Nat) (state : Splitting) :
    Checked (Turn Splitting (Except Error (List String))) := do
  let byte ← byteAt script.toList place
  let next? := (bytes script.toList)[place + 1]?
  if byte = ';' then
    let text ← slice script.toList state.start place
    return .on (place + 1) ⟨push state.found (state.current ++ text), [], place + 1⟩
  else if byte = '-' ∧ next? = some '-' then
    let text ← slice script.toList state.start place
    let stop ← lineStop script.toList place
    return .on stop ⟨state.found, state.current ++ text, stop⟩
  else if byte = '/' ∧ next? = some '*' then
    let text ← slice script.toList state.start place
    match ← blockStop script.toList place with
    | none => return .done (.error (.parse (.unterminatedComment place) [] script))
    | some stop => return .on stop ⟨state.found, state.current ++ text ++ [' '], stop⟩
  else if isQuote byte then
    match ← skipLiteral script.toList place with
    | none => return .done (.error (.parse (.unterminatedQuote place) [] script))
    | some next => return .on next state
  else return .on (place + 1) state

def statementsEnd (script : String) (_ : Nat) (state : Splitting) :
    Checked (Except Error (List String)) := do
  let text ← textFrom script.toList state.start
  return .ok (push state.found (state.current ++ text))

def statements (script : String) : Checked (Except Error (List String)) :=
  scan (byteSize script.toList) (statementsTurn script) (statementsEnd script) 0 {}

section Placeholders

variable {State : Type}

def placeholdersTurn (text : List Char) (mark : Nat → State → Checked State) (place : Nat)
    (state : State) : Checked (Turn State State) := do
  let byte ← byteAt text place
  if byte = '?' then
    let later ← mark place state
    return .on (place + 1) later
  else if isQuote byte then
    match ← skipLiteral text place with
    | none => return .done state
    | some next => return .on next state
  else return .on (place + 1) state

def scanPlaceholders (text : List Char) (mark : Nat → State → Checked State) (state : State) :
    Checked State :=
  scan (byteSize text) (placeholdersTurn text mark) (fun _ state => return state) 0 state

end Placeholders

structure Numbering where
  out : List Char := []
  start : Nat := 0
  count : Nat := 0

def numberMark (text : List Char) (place : Nat) (state : Numbering) : Checked Numbering := do
  let piece ← slice text state.start place
  return ⟨state.out ++ piece ++ '$' :: Nat.toDigits 10 (state.count + 1), place + 1,
    state.count + 1⟩

def renderDollar (statement : Statement) : Checked String := do
  let state ← scanPlaceholders statement.sql.toList (numberMark statement.sql.toList) {}
  let rest ← textFrom statement.sql.toList state.start
  return String.ofList (state.out ++ rest)

end SqlCompose.Bytewise
