import SqlCompose.Chunk
import SqlCompose.Select.Basic

/-! SELECT statements read from text. Every clause stands at most once, in statement order. -/
namespace SqlCompose.SelectStatement

def hydrate (statement : SelectStatement) (clause : Clause) (keyword body : String) :
    SelectStatement :=
  let lead := keyword ++ " "
  match clause with
  | .select => { statement with columns := statement.columns.hydrate lead body }
  | .source => { statement with source := statement.source.hydrate lead body }
  | .join => { statement with joins := statement.joins.hydrate "" (lead ++ body) }
  | .condition => { statement with condition := statement.condition.hydrate lead body }
  | .groupBy => { statement with grouping := statement.grouping.hydrate lead body }
  | .having => { statement with groupCondition := statement.groupCondition.hydrate lead body }
  | .orderBy => { statement with ordering := statement.ordering.hydrate lead body }
  | .offset => { statement with offset := statement.offset.hydrate lead body }
  | .limit => { statement with limit := statement.limit.hydrate lead body }

/-- Takes the chunks of the clauses in their order, and gives the chunks left over. -/
def takeChunks : List Clause → List Chunk → SelectStatement → SelectStatement × List Chunk
  | clause :: clauses, chunk :: chunks, statement =>
    if chunk.clause = some clause then
      takeChunks clauses chunks (statement.hydrate clause chunk.keyword chunk.body)
    else takeChunks clauses (chunk :: chunks) statement
  | _, chunks, statement => (statement, chunks)

def parse (sql : String) : Except Error SelectStatement := do
  let chunks ← tokenize sql
  match takeChunks Clause.all chunks {} with
  | (statement, []) => return statement
  | (_, left) => throw (.parse .disorder (left.map Chunk.tag) sql)

end SqlCompose.SelectStatement
