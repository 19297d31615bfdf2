import SqlCompose.Clause
import SqlCompose.Condition

/-! SELECT statements put together clause by clause. -/
namespace SqlCompose

inductive JoinKind
  | plain
  | inner
  | left
  | right
  deriving DecidableEq

def JoinKind.keyword : JoinKind → String
  | .plain => "JOIN"
  | .inner => "INNER JOIN"
  | .left => "LEFT JOIN"
  | .right => "RIGHT JOIN"

structure SelectStatement where
  quantifier : Phrase := .clause "" none
  columns : Phrase := .clause "SELECT " (some ", ")
  source : BoundPhrase := { phrase := .clause "FROM " (some ", ") }
  joins : BoundPhrase := { phrase := .clause "" (some " ") }
  condition : Condition := .clauseOf "WHERE "
  grouping : Phrase := .clause "GROUP BY " (some ", ")
  groupCondition : Condition := .clauseOf "HAVING "
  ordering : Phrase := .clause "ORDER BY " (some ", ")
  offset : Phrase := .clause "OFFSET " none
  limit : Phrase := .clause "LIMIT " none
  deriving BEq

namespace SelectStatement

inductive Call
  | column (expression : String)
  | columns (expressions : List String)
  | distinct
  | all
  | source (table : String)
  | sourceQuery (template : String) (query : Rendering)
  | join (kind : JoinKind) (expression : String) (params : List Value)
  | joinQuery (template : String) (query : Rendering)
  | condition (call : Condition.Call)
  | groupBy (expression : String)
  | groupCondition (call : Condition.Call)
  | orderBy (expression : String)
  | offset (count : UInt64)
  | limit (count : UInt64)
  | withoutOffset
  | withoutLimit

/-- A join without an expression has no text, but it binds its parameters all the same. -/
def joinFragment (kind : JoinKind) (expression : String) (params : List Value) : Fragment :=
  ⟨if expression.isEmpty then "" else kind.keyword ++ " " ++ expression, params⟩

theorem joinFragment_empty (kind : JoinKind) (params : List Value) :
    joinFragment kind "" params = ⟨"", params⟩ := rfl

theorem joinFragment_filled (kind : JoinKind) (expression : String) (params : List Value)
    (filled : expression ≠ "") :
    joinFragment kind expression params = ⟨kind.keyword ++ " " ++ expression, params⟩ := by
  simp [joinFragment, filled]

def joinQuery (template : String) (query : Rendering) : Except Error Fragment :=
  (substitute template query).map fun fragment =>
    { fragment with text := JoinKind.plain.keyword ++ " " ++ fragment.text }

theorem joinQuery_eq_ok_iff (template : String) (query : Rendering) (fragment : Fragment) :
    joinQuery template query = .ok fragment ↔ ∃ inner, substitute template query = .ok inner ∧
      fragment = ⟨JoinKind.plain.keyword ++ " " ++ inner.text, inner.params⟩ := by
  unfold joinQuery
  cases substitute template query <;> simp [Except.map, eq_comm]

theorem joinQuery_eq_error_iff (template : String) (query : Rendering) (error : Error) :
    joinQuery template query = .error error ↔ substitute template query = .error error := by
  unfold joinQuery
  cases substitute template query <;> simp [Except.map]

def call (statement : SelectStatement) : Call → SelectStatement
  | .column expression => { statement with columns := statement.columns.append expression }
  | .columns expressions => { statement with columns := statement.columns.appendAll expressions }
  | .distinct => { statement with quantifier := statement.quantifier.append "DISTINCT" }
  | .all => { statement with quantifier := statement.quantifier.append "ALL" }
  | .source table => { statement with source := statement.source.add ⟨table, []⟩ }
  | .sourceQuery template query =>
    { statement with source := statement.source.take (substitute template query) }
  | .join kind expression params =>
    { statement with joins := statement.joins.add (joinFragment kind expression params) }
  | .joinQuery template query =>
    { statement with joins := statement.joins.take (joinQuery template query) }
  | .condition call => { statement with condition := statement.condition.add call }
  | .groupBy expression => { statement with grouping := statement.grouping.append expression }
  | .groupCondition call =>
    { statement with groupCondition := statement.groupCondition.add call }
  | .orderBy expression => { statement with ordering := statement.ordering.append expression }
  | .offset count => { statement with offset := statement.offset.append (toString count.toNat) }
  | .limit count => { statement with limit := statement.limit.append (toString count.toNat) }
  | .withoutOffset => { statement with offset := statement.offset.reset }
  | .withoutLimit => { statement with limit := statement.limit.reset }

def renderColumns (statement : SelectStatement) : Except Error String :=
  if statement.quantifier.isEmpty then statement.columns.render
  else do
    let quantifier ← statement.quantifier.render
    match statement.columns.lead with
    | none => throw (.misuse .noSelectLead)
    | some lead => statement.columns.renderWith (some (lead ++ quantifier ++ " "))

/-- The clauses in statement order. Without columns, tables and joins the condition stands without
its keyword, as a fragment for use elsewhere. -/
def render (statement : SelectStatement) : Except Error String := do
  let columns ← statement.renderColumns
  let source ← statement.source.render
  let joins ← statement.joins.render
  let headed := !columns.isEmpty || !source.isEmpty || !joins.isEmpty
  let condition ← statement.condition.renderHeaded headed
  let grouping ← statement.grouping.render
  let groupCondition ← statement.groupCondition.render
  let ordering ← statement.ordering.render
  let offset ← statement.offset.render
  let limit ← statement.limit.render
  return joinClauses
    [columns, source, joins, condition, grouping, groupCondition, ordering, offset, limit]

def params (statement : SelectStatement) : List Value :=
  statement.source.params ++ statement.joins.params ++ statement.condition.params ++
    statement.groupCondition.params

def rendering (statement : SelectStatement) : Rendering :=
  { text := statement.render, params := statement.params }

end SelectStatement

end SqlCompose
