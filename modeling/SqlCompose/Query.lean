import SqlCompose.Delete
import SqlCompose.Insert
import SqlCompose.Select.Parser
import SqlCompose.Union
import SqlCompose.Update

/-! Builders of every kind under one type. -/
namespace SqlCompose

inductive Query
  | select (statement : SelectStatement)
  | union (statement : UnionStatement)
  | insert (statement : InsertStatement)
  | update (statement : UpdateStatement)
  | delete (statement : DeleteStatement)
  | condition (built : Condition)
  deriving BEq

def Query.rendering : Query → Rendering
  | .select statement => statement.rendering
  | .union statement => statement.rendering
  | .insert statement => statement.rendering
  | .update statement => statement.rendering
  | .delete statement => statement.rendering
  | .condition built => built.rendering

end SqlCompose
