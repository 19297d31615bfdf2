import SqlCompose.Rendering

/-! Conditions joined by AND and OR. Each call brings the operator that stands before its own
text; nothing is regrouped by precedence. -/
namespace SqlCompose

inductive Connective
  | and
  | or
  deriving DecidableEq

def Connective.text : Connective → String
  | .and => " AND "
  | .or => " OR "

structure Condition where
  clause : BoundPhrase
  deriving BEq

namespace Condition

def standalone : Condition := ⟨{ phrase := .wrapped "(" none ")" }⟩

def clauseOf (keyword : String) : Condition := ⟨{ phrase := .clause keyword none }⟩

def isEmpty (condition : Condition) : Bool := condition.clause.phrase.isEmpty

def params (condition : Condition) : List Value := condition.clause.params

def render (condition : Condition) : Except Error String := condition.clause.render

def renderHeaded (condition : Condition) (headed : Bool) : Except Error String :=
  if headed then condition.render else condition.clause.phrase.renderHeadless

/-- A condition brings its own parentheses into another statement. -/
def rendering (condition : Condition) : Rendering :=
  ⟨condition.render, true, condition.params⟩

def hydrate (condition : Condition) (lead body : String) : Condition :=
  ⟨condition.clause.hydrate lead body⟩

inductive Call
  | expression (operator : Connective) (expression : String) (params : List Value)
  | group (operator : Connective) (nested : Condition)
  | query (operator : Connective) (template : String) (query : Rendering)

namespace Call

def operator : Call → Connective
  | .expression operator _ _ => operator
  | .group operator _ => operator
  | .query operator _ _ => operator

def fragment : Call → Except Error Fragment
  | .expression _ text params => .ok ⟨text, params⟩
  | .group _ nested => nested.rendering.fragment
  | .query _ template rendering => substitute template rendering

end Call

/-- Adds a text behind the operator of its call, which is kept for the next one if the text is
empty. -/
def add (condition : Condition) (call : Call) : Condition :=
  ⟨condition.clause.takeBehind call.operator.text call.fragment⟩

end Condition

end SqlCompose
