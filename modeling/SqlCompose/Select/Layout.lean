import SqlCompose.Chunk
import SqlCompose.Select.Basic

/-! The chunks of a statement as they are written, and the order in which they stand, told without
taking them. -/
namespace SqlCompose

def Clause.place (clause : Clause) : Nat := all.idxOf clause

namespace Chunk

def Ordered (chunks : List Chunk) : Prop :=
  ∃ clauses : List Clause, chunks.map clause = clauses.map some ∧
    clauses.Pairwise fun earlier later => earlier.place < later.place

/-- Whether a chunk is out of order behind the chunk before it, if there is one. -/
def Strays (before : Option Chunk) (chunk : Chunk) : Prop :=
  chunk.clause = none ∨
  ∃ previous earlier later, before = some previous ∧ previous.clause = some earlier ∧
    chunk.clause = some later ∧ later.place ≤ earlier.place

structure CutAtStray (chunks taken : List Chunk) (stray : Chunk) (left : List Chunk) : Prop where
  split : chunks = taken ++ stray :: left
  orderly : ∀ front chunk back, taken = front ++ chunk :: back → ¬ chunk.Strays front.getLast?
  strays : stray.Strays taken.getLast?

def triple (chunk : Chunk) : Option Clause × String × String :=
  (chunk.clause, chunk.keyword, chunk.body)

/-- Whether a chunk leaves text in a statement. A JOIN does so even without a body. -/
def kept (chunk : Chunk) : Bool := chunk.clause = some .join || !chunk.body.isEmpty

def written (chunk : Chunk) : String := chunk.keyword ++ " " ++ chunk.body

def headed (leaves : Chunk → Bool) (chunks : List Chunk) : Bool :=
  chunks.any fun chunk => (chunk.clause = some .select || chunk.clause = some .source ||
    chunk.clause = some .join) && leaves chunk

/-- A chunk as it stands in a statement. A condition that is not headed loses its keyword. -/
def line (headed : Bool) (chunk : Chunk) : String :=
  if chunk.clause = some .condition && !headed then chunk.body else chunk.written

def layout (leaves : Chunk → Bool) (chunks : List Chunk) : String :=
  " ".intercalate ((chunks.filter leaves).map (line (headed leaves chunks)))

def bodied (chunk : Chunk) : Bool := !chunk.body.isEmpty

def Rereads (chunk : Chunk) : Prop :=
  ∃ again, tokenize chunk.written = .ok [again] ∧ again.triple = chunk.triple

end Chunk

/-- Whether the condition stands behind its keyword, if it has any text: something must be selected,
or come from somewhere, or be joined. -/
def SelectStatement.Headed (chunks : List Chunk) : Prop :=
  (∃ chunk ∈ chunks, (chunk.clause = some .select ∨ chunk.clause = some .source) ∧
    chunk.body ≠ "") ∨
  (∃ chunk ∈ chunks, chunk.clause = some .join) ∨
  ∀ chunk ∈ chunks, chunk.clause = some .condition → chunk.body = ""

end SqlCompose
