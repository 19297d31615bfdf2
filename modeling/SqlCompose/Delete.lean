import SqlCompose.Condition

/-! DELETE statements. -/
namespace SqlCompose

structure DeleteStatement where
  table : Phrase := .clause "DELETE FROM " none
  condition : Condition := .clauseOf "WHERE "
  returning : Phrase := .clause "RETURNING " (some ", ")
  deriving BEq

namespace DeleteStatement

inductive Call
  | table (table : String)
  | condition (call : Condition.Call)
  | returning (columns : String)

def call (statement : DeleteStatement) : Call → DeleteStatement
  | .table table => { statement with table := statement.table.append table }
  | .condition call => { statement with condition := statement.condition.add call }
  | .returning columns => { statement with returning := statement.returning.append columns }

/-- Without a table the condition stands without its keyword. -/
def render (statement : DeleteStatement) : Except Error String := do
  let table ← statement.table.render
  let condition ← statement.condition.renderHeaded (!table.isEmpty)
  let returning ← statement.returning.render
  return joinClauses [table, condition, returning]

def params (statement : DeleteStatement) : List Value := statement.condition.params

def rendering (statement : DeleteStatement) : Rendering :=
  { text := statement.render, params := statement.params }

end DeleteStatement

def deleteFrom (table : String) : DeleteStatement := DeleteStatement.call {} (.table table)

end SqlCompose
