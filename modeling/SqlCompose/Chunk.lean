import SqlCompose.Clause
import SqlCompose.Error
import SqlCompose.Text.Group
import SqlCompose.Text.Bytes

/-! SQL text cut into chunks at the clause keywords. Literals and groups are read whole, so that a
keyword inside them is none. -/
namespace SqlCompose

/-- A part of a text that begins with the keyword of its clause. A chunk without a clause is what
stands before the first keyword. -/
structure Chunk where
  clause : Option Clause
  text : String

namespace Chunk

def keyword (chunk : Chunk) : String :=
  match chunk.clause with
  | some clause => String.ofList (chunk.text.toList.take clause.keyword.length)
  | none => ""

/-- The text behind the keyword and one character, trimmed. -/
def body (chunk : Chunk) : String :=
  match chunk.clause with
  | some clause =>
    String.ofList (Text.trim (chunk.text.toList.drop (clause.keyword.length + 1)))
  | none => Text.trimmed chunk.text

def tag (chunk : Chunk) : String :=
  match chunk.clause with
  | some clause => clause.keyword
  | none => "<untagged>"

end Chunk

inductive Unclosed
  | quote
  | group
  deriving DecidableEq

def Unclosed.fault (unclosed : Unclosed) (place : Nat) : ParseFault :=
  match unclosed with
  | .quote => .unterminatedQuote place
  | .group => .unbalancedParenthesis place

/-- What has been read of a text: the part before the first keyword, the parts that begin with a
keyword, and what was left open behind them. -/
structure Lexed where
  lead : List Char
  parts : List (Clause × List Char)
  unclosed : Option Unclosed

namespace Lexed

def finished : Lexed := ⟨[], [], none⟩

def stopped (unclosed : Unclosed) : Lexed := ⟨[], [], some unclosed⟩

def behind (text : List Char) (lexed : Lexed) : Lexed := { lexed with lead := text ++ lexed.lead }

def startingWith (clause : Clause) (lexed : Lexed) : Lexed :=
  { lexed with lead := [], parts := (clause, lexed.lead) :: lexed.parts }

/-- Reads a text. A keyword counts at a boundary, which is the beginning and every place behind an
ASCII blank. -/
def ofText (boundary : Bool) : List Char → Lexed
  | [] => finished
  | char :: rest =>
    if Text.isQuote char then
      match _found : Text.literal? char rest with
      | none => stopped .quote
      | some (part, left) => (ofText false left).behind (char :: part)
    else if char = '(' then
      match _found : Text.group? rest with
      | none => stopped .group
      | some (part, left) => (ofText false left).behind (char :: part)
    else
      let lexed := (ofText (Text.isAsciiBlank char) rest).behind [char]
      match if boundary then Clause.at? (char :: rest) else none with
      | some clause => lexed.startingWith clause
      | none => lexed
termination_by text => text.length
decreasing_by
  · have := Text.literal?_shorter char rest part left _found
    simp only [List.length_cons]
    omega
  · have := Text.group?_shorter rest part left _found
    simp only [List.length_cons]
    omega
  · simp

def text (lexed : Lexed) : List Char := lexed.lead ++ lexed.parts.flatMap Prod.snd

def leading (lexed : Lexed) : List Chunk :=
  if (Text.trim lexed.lead).isEmpty then [] else [⟨none, String.ofList lexed.lead⟩]

def tagged (lexed : Lexed) : List Chunk :=
  lexed.parts.map fun part => ⟨some part.1, String.ofList part.2⟩

def chunks (lexed : Lexed) : List Chunk := lexed.leading ++ lexed.tagged

/-- The tags of what stands before the place where reading stopped. Text counts among them once a
keyword has ended it. -/
def tags (lexed : Lexed) : List String :=
  if lexed.parts.isEmpty then [] else lexed.chunks.map Chunk.tag

end Lexed

def tokenize (sql : String) : Except Error (List Chunk) :=
  let lexed := Lexed.ofText true sql.toList
  match lexed.unclosed with
  | none => .ok lexed.chunks
  | some unclosed => .error (.parse (unclosed.fault (Text.byteSize lexed.text)) lexed.tags sql)

end SqlCompose
