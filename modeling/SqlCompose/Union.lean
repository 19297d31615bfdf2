import SqlCompose.Rendering

/-! Unions of queries, each in parentheses. -/
namespace SqlCompose

structure UnionStatement where
  branches : BoundPhrase := { phrase := .clause "" none }
  ordering : Phrase := .clause "ORDER BY " (some ", ")
  offset : Phrase := .clause "OFFSET " none
  limit : Phrase := .clause "LIMIT " none
  deriving BEq

inductive UnionKind
  | distinct
  | all
  deriving DecidableEq

def UnionKind.operator : UnionKind → String
  | .distinct => " UNION "
  | .all => " UNION ALL "

namespace UnionStatement

inductive Call
  | branch (kind : UnionKind) (query : Rendering)
  | orderBy (expression : String)
  | offset (count : UInt64)
  | limit (count : UInt64)

/-- What a query adds to a union. One without text adds nothing, not even parameters. -/
def branch? (query : Rendering) : Except Error (Option Fragment) := do
  let text ← query.text
  if text.isEmpty then return none
  let nested ← query.nested
  return some ⟨nested, query.params⟩

def addBranch (branches : BoundPhrase) (kind : UnionKind) (query : Rendering) : BoundPhrase :=
  match branch? query with
  | .ok (some fragment) => branches.takeBehind kind.operator (.ok fragment)
  | .ok none => branches
  | .error error => branches.fail error

def call (statement : UnionStatement) : Call → UnionStatement
  | .branch kind query =>
    { statement with branches := addBranch statement.branches kind query }
  | .orderBy expression => { statement with ordering := statement.ordering.append expression }
  | .offset count => { statement with offset := statement.offset.append (toString count.toNat) }
  | .limit count => { statement with limit := statement.limit.append (toString count.toNat) }

def render (statement : UnionStatement) : Except Error String := do
  let branches ← statement.branches.render
  let ordering ← statement.ordering.render
  let offset ← statement.offset.render
  let limit ← statement.limit.render
  return joinClauses [branches, ordering, offset, limit]

def params (statement : UnionStatement) : List Value := statement.branches.params

def rendering (statement : UnionStatement) : Rendering :=
  { text := statement.render, params := statement.params }

end UnionStatement

end SqlCompose
