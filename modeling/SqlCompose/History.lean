import SqlCompose.History.Change
import SqlCompose.History.Select
import SqlCompose.History.Union
import SqlCompose.Query

/-! Histories of builders of every kind: the calls made on one since it was new. -/
namespace SqlCompose

inductive History
  | select (calls : List SelectStatement.Call)
  | union (calls : List UnionStatement.Call)
  | insert (calls : List InsertStatement.Call)
  | update (calls : List UpdateStatement.Call)
  | delete (calls : List DeleteStatement.Call)
  | condition (calls : List Condition.Call)

namespace History

def query : History → Query
  | .select calls => .select (.ofCalls calls)
  | .union calls => .union (.ofCalls calls)
  | .insert calls => .insert (.ofCalls calls)
  | .update calls => .update (.ofCalls calls)
  | .delete calls => .delete (.ofCalls calls)
  | .condition calls => .condition (.ofCalls calls)

def rendering (history : History) : Rendering := history.query.rendering

def misuses : History → List (Option Error)
  | .select calls => SelectStatement.misuses calls
  | .union calls => UnionStatement.misuses calls
  | .insert calls => InsertStatement.misuses calls
  | .update calls => UpdateStatement.misuses calls
  | .delete calls => DeleteStatement.misuses calls
  | .condition calls => [(Condition.ledger calls).misuse?]

def misuse? (history : History) : Option Error := history.misuses.findSome? id

def ledgers : History → List Ledger
  | .select calls => SelectStatement.ledgers calls
  | .union calls => UnionStatement.ledgers calls
  | .insert calls => InsertStatement.ledgers calls
  | .update calls => UpdateStatement.ledgers calls
  | .delete calls => DeleteStatement.ledgers calls
  | .condition calls => [Condition.ledger calls]

end History

end SqlCompose
