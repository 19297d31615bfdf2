import SqlCompose.Chunk
import SqlCompose.Text.Group
import SqlCompose.Text.Bytes

/-! Where keywords stand in a text that has been read, where chunks begin, and how a chunk falls into
its keyword and its body. -/
namespace SqlCompose

/-- A text begins with a keyword, in any case of its letters, if a blank follows or nothing. -/
def Clause.Begins (clause : Clause) (text : List Char) : Prop :=
  ∃ spelled rest, text = spelled ++ rest ∧ spelled.map Char.toUpper = clause.keyword.toList ∧
    ∀ char ∈ rest.head?, Text.isAsciiBlank char = true

def Clause.Ends (clause : Clause) (text : List Char) : Prop :=
  ∃ front blank spelled, text = front ++ blank :: spelled ∧ Text.isAsciiBlank blank = true ∧
    spelled.map Char.toUpper = clause.keyword.toList

/-- A keyword stands at a place where an atom begins: at the very beginning, if that is a boundary,
or behind a blank. -/
def KeywordAt (boundary : Bool) (atoms : List (List Char)) (rest : List Char) (place : Nat)
    (clause : Clause) : Prop :=
  ∃ before atom after, atoms = before ++ atom :: after ∧ place = before.flatten.length ∧
    (before = [] ∧ boundary = true ∨
      ∃ front blank, before = front ++ [[blank]] ∧ Text.isAsciiBlank blank = true) ∧
    clause.Begins ((atom :: after).flatten ++ rest)

structure Keywords (boundary : Bool) (atoms : List (List Char)) (rest : List Char)
    (keywords : List (Nat × Clause)) : Prop where
  ordered : keywords.Pairwise fun first second => first.1 < second.1
  complete : ∀ place clause,
    (place, clause) ∈ keywords ↔ KeywordAt boundary atoms rest place clause

namespace Chunk

def starts : Nat → List Chunk → List (Nat × Option Clause)
  | _, [] => []
  | place, chunk :: rest =>
    (place, chunk.clause) :: starts (place + (Text.bytes chunk.text.toList).length) rest

def untagged (text : String) : List Chunk :=
  if (Text.trim text.toList).isEmpty then [] else [⟨none, text⟩]

/-- A chunk of a clause is its keyword, in any case of its letters, and what follows it, which is
nothing or begins with a blank. The body is what follows, trimmed. -/
structure Divides (chunk : Chunk) (clause : Clause) (behind : String) : Prop where
  text : chunk.text = chunk.keyword ++ behind
  spelled : chunk.keyword.toList.map Char.toUpper = clause.keyword.toList
  blank : ∀ char ∈ behind.toList.head?, Text.isAsciiBlank char = true
  body : chunk.body = Text.trimmed behind

end Chunk

end SqlCompose
