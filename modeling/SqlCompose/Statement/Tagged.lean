import SqlCompose.Statement.Basic
import SqlCompose.Value.Tagged

/-! Statements as JSON objects with the fields sql and params. -/
namespace SqlCompose.Statement

def writeParams : List Value → List Char
  | [] => []
  | [value] => value.writeTaggedChars
  | value :: values => value.writeTaggedChars ++ ',' :: writeParams values

def writeTagged (statement : Statement) : String :=
  String.ofList ('\x7b' :: Json.writeString "sql" ++ ':' :: Json.writeString statement.sql ++
    ',' :: Json.writeString "params" ++ ':' :: '[' :: writeParams statement.params ++
    [']', '\x7d'])

def params? : Nat → Json.Written → Option (List Value)
  | room + 1, .array items => items.mapM (Value.ofWritten? room)
  | _, _ => none

/-- Reads an object with both fields, or an array of text and parameters. -/
def ofWritten? : Nat → Json.Written → Option Statement
  | room + 1, .object members => do
    let members ← Json.keyed? members
    let sql ← Json.field? "sql" members
    let params ← Json.field? "params" members
    let sql ← sql.bind Json.text?
    let params ← params.bind (params? room)
    some ⟨sql, params⟩
  | room + 1, .array [sql, params] => do
    let sql ← Json.text? sql
    let params ← params? room params
    some ⟨sql, params⟩
  | _, _ => none

def readTagged? (text : String) : Option Statement := do
  let written ← Json.Written.ofText? text
  ofWritten? Json.greatestDepth written

end SqlCompose.Statement
