import SqlCompose.Condition
import SqlCompose.History.Ledger

/-! What a history of calls leaves in a condition, what its calls bring to it, and how the texts of
these are chained. -/
namespace SqlCompose.Condition

def Call.offer (call : Call) : Offer := ⟨some call.operator.text, call.fragment⟩

def ofCalls (calls : List Call) : Condition := calls.foldl add standalone

def ledger (calls : List Call) : Ledger := ⟨"(", ")", calls.map Call.offer⟩

/-- Nothing stands in the clause of a statement yet, as in a new statement, in one that was parsed
without a condition, and after calls that brought no text. Parameters may have come without text. -/
def Vacant (condition : Condition) : Prop :=
  ∃ keyword separator, condition.clause.phrase = .clause keyword separator

/-- What a call brings: its expression, the text of another condition, or its template with a query,
in parentheses, in place of the only question mark; each with the parameters that go with it. -/
inductive Call.Brings : Call → Fragment → Prop
  | expression (operator : Connective) (text : String) (params : List Value) :
      Brings (.expression operator text params) ⟨text, params⟩
  | group (operator : Connective) (nested : Condition) (text : String)
      (rendered : nested.render = .ok text) :
      Brings (.group operator nested) ⟨text, nested.params⟩
  | query (operator : Connective) (front back : String) (query : Rendering) (text : String)
      (before : '?' ∉ front.toList) (behind : '?' ∉ back.toList)
      (rendered : query.text = .ok text) :
      Brings (.query operator (front ++ "?" ++ back) query)
        ⟨front ++ (if query.enclosed then text else "(" ++ text ++ ")") ++ back, query.params⟩

/-- Texts in parentheses, all but the first behind their own operators. -/
def chain : List (Connective × String) → String
  | [] => ""
  | (_, first) :: rest =>
    "(" ++ first ++ String.join (rest.map fun (operator, text) => operator.text ++ text) ++ ")"

def links (calls : List Call) (brought : List Fragment) : List (Connective × String) :=
  ((calls.map Call.operator).zip (brought.map Fragment.text)).filter fun link => link.2 ≠ ""

end SqlCompose.Condition
