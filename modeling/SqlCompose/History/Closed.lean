import SqlCompose.History.Tree
import SqlCompose.Text.Closed

/-! Builders to which closed texts are handed over, down to those nested in them. -/
namespace SqlCompose

def Condition.Call.template? : Call → Option String
  | .query _ template _ => some template
  | _ => none

def SelectStatement.Call.template? : Call → Option String
  | .sourceQuery template _ => some template
  | .joinQuery template _ => some template
  | .condition call => call.template?
  | .groupCondition call => call.template?
  | _ => none

def UpdateStatement.Call.template? : Call → Option String
  | .condition call => call.template?
  | _ => none

def DeleteStatement.Call.template? : Call → Option String
  | .condition call => call.template?
  | _ => none

namespace History

def templates : History → List String
  | .select calls => calls.filterMap SelectStatement.Call.template?
  | .union _ => []
  | .insert _ => []
  | .update calls => calls.filterMap UpdateStatement.Call.template?
  | .delete calls => calls.filterMap DeleteStatement.Call.template?
  | .condition calls => calls.filterMap Condition.Call.template?

/-- All texts are closed, templates among them, and each template has one slot outside literals. -/
structure Closed (history : History) : Prop where
  texts : ∀ handed ∈ history.supplies.flatMap Supply.texts, Text.Closed handed.text.toList
  slots : ∀ template ∈ history.templates, Text.Quoting.plain.placeholders template.toList = 1

end History

def Tree.All (holds : History → Prop) : {rendering : Rendering} → Tree rendering → Prop
  | _, .node history nested => holds history ∧ ∀ place, (nested place).All holds

end SqlCompose
