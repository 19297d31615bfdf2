import SqlCompose.History.Select
import SqlCompose.Select.Parser

/-! The calls that give a new statement, one by one, what it would be given by parsing, and the
histories whose text can be read back. -/
namespace SqlCompose

namespace Clause

def part : Clause → SelectStatement.Part
  | .select => .columns
  | .source => .source
  | .join => .joins
  | .condition => .condition
  | .groupBy => .grouping
  | .having => .groupCondition
  | .orderBy => .ordering
  | .offset => .offset
  | .limit => .limit

theorem part_injective : Function.Injective part := by
  intro first second same
  cases first <;> cases second <;> first | rfl | cases same

end Clause

/-- The call that writes a text to a clause. The text of a count is read as a decimal number. -/
def SelectStatement.callOf (clause : Clause) (body : String) : Call :=
  match clause with
  | .select => .column body
  | .source => .source body
  | .join => .join .plain body []
  | .condition => .condition (.expression .and body [])
  | .groupBy => .groupBy body
  | .having => .groupCondition (.expression .and body [])
  | .orderBy => .orderBy body
  | .offset => .offset (UInt64.ofNat (Nat.ofDigitChars 10 body.toList 0))
  | .limit => .limit (UInt64.ofNat (Nat.ofDigitChars 10 body.toList 0))

namespace Chunk

def call? (chunk : Chunk) : Option SelectStatement.Call :=
  if chunk.body.isEmpty then none
  else chunk.clause.map fun clause => SelectStatement.callOf clause chunk.body

/-- A chunk that a call can stand for: its keyword is written in capitals, a join has a text, and a
count, if there is one, is a decimal number of 64 bits as it is printed. -/
structure Callable (chunk : Chunk) (clause : Clause) : Prop where
  capital : chunk.keyword = clause.keyword
  joined : clause = .join → chunk.body ≠ ""
  counted : clause = .offset ∨ clause = .limit →
    chunk.body = "" ∨ ∃ count : UInt64, chunk.body = toString count.toNat

end Chunk

/-- Whether a text is read by itself as one chunk without a keyword, and has no blanks around it. -/
structure Chunk.Freestanding (text : String) : Prop where
  filled : text ≠ ""
  trimmed : Text.trimmed text = text
  untagged : ∃ chunk, tokenize text = .ok [chunk] ∧ chunk.clause = none

/-- Every text that was added to a clause is free-standing, for a join the text behind its keyword;
there is one join at most, without further words; and a condition is not the beginning. -/
structure SelectStatement.Rereadable (calls : List Call) : Prop where
  texts : ∀ part, part ≠ .joins → ∀ offer ∈ offered part calls, ∀ fragment,
    offer.content = .ok fragment → Chunk.Freestanding fragment.text
  joined : ∀ kind text params, .join kind text params ∈ calls → text ≠ "" →
    kind = .plain ∧ Chunk.Freestanding text
  joinedQuery : ∀ template query fragment, .joinQuery template query ∈ calls →
    substitute template query = .ok fragment → Chunk.Freestanding fragment.text
  single : (Offer.links (offered .joins calls)).length ≤ 1
  headed : given calls .condition = true →
    given calls .columns = true ∨ given calls .source = true ∨ given calls .joins = true

end SqlCompose
