import SqlCompose.Condition

/-! UPDATE statements. -/
namespace SqlCompose

structure UpdateStatement where
  table : Phrase := .clause "UPDATE " none
  assignments : BoundPhrase := { phrase := .clause "SET " (some ", ") }
  condition : Condition := .clauseOf "WHERE "
  returning : Phrase := .clause "RETURNING " (some ", ")
  deriving BEq

namespace UpdateStatement

inductive Call
  | table (table : String)
  | set (column : String) (value : Value)
  | setOptional (column : String) (value : Option Value)
  | assignment (expression : String) (params : List Value)
  | condition (call : Condition.Call)
  | returning (columns : String)

def assign (statement : UpdateStatement) (expression : String) (params : List Value) :
    UpdateStatement :=
  { statement with assignments := statement.assignments.add ⟨expression, params⟩ }

def set (statement : UpdateStatement) (column : String) (value : Value) : UpdateStatement :=
  statement.assign (column ++ " = ?") [value]

def call (statement : UpdateStatement) : Call → UpdateStatement
  | .table table => { statement with table := statement.table.append table }
  | .set column value => statement.set column value
  | .setOptional column (some value) => statement.set column value
  | .setOptional _ none => statement
  | .assignment expression params => statement.assign expression params
  | .condition call => { statement with condition := statement.condition.add call }
  | .returning columns => { statement with returning := statement.returning.append columns }

/-- Without table and assignments the condition stands without its keyword. -/
def render (statement : UpdateStatement) : Except Error String := do
  let table ← statement.table.render
  let assignments ← statement.assignments.render
  let condition ← statement.condition.renderHeaded (!table.isEmpty || !assignments.isEmpty)
  let returning ← statement.returning.render
  return joinClauses [table, assignments, condition, returning]

def params (statement : UpdateStatement) : List Value :=
  statement.assignments.params ++ statement.condition.params

def rendering (statement : UpdateStatement) : Rendering :=
  { text := statement.render, params := statement.params }

end UpdateStatement

def updateTable (table : String) : UpdateStatement := UpdateStatement.call {} (.table table)

end SqlCompose
