import SqlCompose.Rendering

/-! INSERT statements. -/
namespace SqlCompose

structure InsertStatement where
  table : Phrase := .clause "INSERT INTO " none
  columns : Phrase := .wrapped "(" (some ", ") ")"
  values : BoundPhrase := { phrase := .wrapped "VALUES (" (some ", ") ")" }
  defaults : Phrase := .clause "" none
  query : BoundPhrase := { phrase := .clause "" none }
  returning : Phrase := .clause "RETURNING " (some ", ")
  deriving BEq

namespace InsertStatement

inductive Call
  | table (table : String)
  | set (column : String) (value : Value)
  | setOptional (column : String) (value : Option Value)
  | setExpression (column expression : String) (params : List Value)
  | columns (columns : List String)
  | defaultValues
  | query (query : Rendering)
  | returning (columns : String)

def setExpression (statement : InsertStatement) (column expression : String)
    (params : List Value) : InsertStatement :=
  { statement with
    columns := statement.columns.append column
    values := statement.values.add ⟨expression, params⟩ }

def set (statement : InsertStatement) (column : String) (value : Value) : InsertStatement :=
  statement.setExpression column "?" [value]

def call (statement : InsertStatement) : Call → InsertStatement
  | .table table => { statement with table := statement.table.append table }
  | .set column value => statement.set column value
  | .setOptional column (some value) => statement.set column value
  | .setOptional _ none => statement
  | .setExpression column expression params => statement.setExpression column expression params
  | .columns columns => { statement with columns := statement.columns.appendAll columns }
  | .defaultValues => { statement with defaults := statement.defaults.append "DEFAULT VALUES" }
  | .query query => { statement with query := statement.query.take query.fragment }
  | .returning columns => { statement with returning := statement.returning.append columns }

def render (statement : InsertStatement) : Except Error String := do
  let table ← statement.table.render
  let columns ← statement.columns.render
  let values ← statement.values.render
  let defaults ← statement.defaults.render
  let query ← statement.query.render
  let returning ← statement.returning.render
  return joinClauses [table, columns, values, defaults, query, returning]

def params (statement : InsertStatement) : List Value :=
  statement.values.params ++ statement.query.params

def rendering (statement : InsertStatement) : Rendering :=
  { text := statement.render, params := statement.params }

end InsertStatement

def insertInto (table : String) : InsertStatement := InsertStatement.call {} (.table table)

end SqlCompose
