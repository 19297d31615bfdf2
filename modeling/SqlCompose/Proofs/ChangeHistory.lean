import SqlCompose.History.Change
import SqlCompose.Proofs.Ledger

/-! INSERT, UPDATE and DELETE statements follow their calls clause by clause, and render as their
clauses are laid out. -/
namespace SqlCompose

namespace InsertStatement

def held (statement : InsertStatement) : Part → BoundPhrase
  | .table => ⟨statement.table, []⟩
  | .columns => ⟨statement.columns, []⟩
  | .values => statement.values
  | .defaults => ⟨statement.defaults, []⟩
  | .query => statement.query
  | .returning => ⟨statement.returning, []⟩

theorem turn_setExpression (statement : InsertStatement) (column expression : String)
    (params : List Value) (offers : List Offer) (part : Part) :
    BoundPhrase.Turn part.separator? (statement.held part) offers
      ((statement.setExpression column expression params).held part)
      (offers ++ Call.offers part (.setExpression column expression params)) := by
  cases part with
  | columns => exact .taken _ rfl (.ok ⟨column, []⟩)
  | values => exact .taken _ rfl (.ok ⟨expression, params⟩)
  | _ => exact .kept _ (List.append_nil _)

theorem turn_call (statement : InsertStatement) (before : List Call) (made : Call) (part : Part) :
    BoundPhrase.Turn part.separator? (statement.held part)
      (before.flatMap (Call.offers part)) ((statement.call made).held part)
      ((before ++ [made]).flatMap (Call.offers part)) := by
  rw [List.flatMap_append, List.flatMap_singleton]
  cases made with
  | table text =>
    cases part with
    | table => exact .taken _ rfl (.ok ⟨text, []⟩)
    | _ => exact .kept _ (List.append_nil _)
  | set column value =>
    have turn := turn_setExpression statement column "?" [value]
      (before.flatMap (Call.offers part)) part
    cases part <;> exact turn
  | setOptional column value? =>
    cases value? with
    | none => cases part <;> exact .kept _ (List.append_nil _)
    | some value =>
      have turn := turn_setExpression statement column "?" [value]
        (before.flatMap (Call.offers part)) part
      cases part <;> exact turn
  | setExpression column expression params =>
    exact turn_setExpression statement column expression params _ part
  | columns texts =>
    cases part with
    | columns => exact .texts _ rfl _ rfl texts
    | _ => exact .kept _ (List.append_nil _)
  | defaultValues =>
    cases part with
    | defaults => exact .taken _ rfl (.ok ⟨"DEFAULT VALUES", []⟩)
    | _ => exact .kept _ (List.append_nil _)
  | query rendering =>
    cases part with
    | query => exact .taken _ rfl rendering.fragment
    | _ => exact .kept _ (List.append_nil _)
  | returning text =>
    cases part with
    | returning => exact .taken _ rfl (.ok ⟨text, []⟩)
    | _ => exact .kept _ (List.append_nil _)

theorem follows_new (part : Part) :
    (held {} part).Follows part.separator? part.lead part.trail [] := by
  refine ⟨?_, ?_⟩
  · cases part <;> exact ⟨Phrase.holds_wrapped _ _ _, rfl⟩
  · intro separator separated
    cases part <;> exact Option.some.inj separated

theorem follows_ofCalls (calls : List Call) (part : Part) :
    ((ofCalls calls).held part).Follows part.separator? part.lead part.trail
      (ledger calls part).offers :=
  foldl_follows InsertStatement.call held Part.lead Part.trail Part.separator?
    (fun part before => before.flatMap (Call.offers part)) {} follows_new turn_call calls part

theorem params_part (calls : List Call) (part : Part) :
    ((ofCalls calls).held part).params = (ledger calls part).params :=
  (follows_ofCalls calls part).holds.params

theorem render_part (calls : List Call) (part : Part) :
    ((ofCalls calls).held part).phrase.render =
      outcome [(ledger calls part).misuse?] ((ledger calls part).text?.getD "") :=
  (follows_ofCalls calls part).holds.phrase.render_eq

theorem render_ofCalls (calls : List Call) :
    (ofCalls calls).render = outcome (misuses calls) (Ledger.layout (ledgers calls)) := by
  unfold render
  rw [show (ofCalls calls).table.render = _ from render_part calls .table]
  refine outcome_bind [_] _ _ _ _ ?_
  rw [show (ofCalls calls).columns.render = _ from render_part calls .columns]
  refine outcome_bind [_] _ _ _ _ ?_
  rw [show (ofCalls calls).values.render = _ from render_part calls .values]
  refine outcome_bind [_] _ _ _ _ ?_
  rw [show (ofCalls calls).defaults.render = _ from render_part calls .defaults]
  refine outcome_bind [_] _ _ _ _ ?_
  rw [show (ofCalls calls).query.render = _ from render_part calls .query]
  refine outcome_bind [_] _ _ _ _ ?_
  rw [show (ofCalls calls).returning.render = _ from render_part calls .returning]
  refine outcome_bind [_] [] _ _ _ ?_
  rw [← Ledger.joinClauses_texts]
  rfl

end InsertStatement

namespace UpdateStatement

def held (statement : UpdateStatement) : Part → BoundPhrase
  | .table => ⟨statement.table, []⟩
  | .assignments => statement.assignments
  | .condition => statement.condition.clause
  | .returning => ⟨statement.returning, []⟩

theorem turn_call (statement : UpdateStatement) (before : List Call) (made : Call) (part : Part) :
    BoundPhrase.Turn part.separator? (statement.held part)
      (before.flatMap (Call.offers part)) ((statement.call made).held part)
      ((before ++ [made]).flatMap (Call.offers part)) := by
  rw [List.flatMap_append, List.flatMap_singleton]
  cases made with
  | table text =>
    cases part with
    | table => exact .taken _ rfl (.ok ⟨text, []⟩)
    | _ => exact .kept _ (List.append_nil _)
  | set column value =>
    cases part with
    | assignments => exact .taken _ rfl (.ok ⟨column ++ " = ?", [value]⟩)
    | _ => exact .kept _ (List.append_nil _)
  | setOptional column value? =>
    cases value? with
    | none => cases part <;> exact .kept _ (List.append_nil _)
    | some value =>
      cases part with
      | assignments => exact .taken _ rfl (.ok ⟨column ++ " = ?", [value]⟩)
      | _ => exact .kept _ (List.append_nil _)
  | assignment text params =>
    cases part with
    | assignments => exact .taken _ rfl (.ok ⟨text, params⟩)
    | _ => exact .kept _ (List.append_nil _)
  | condition call =>
    cases part with
    | condition => exact .behind rfl call.operator.text call.fragment
    | _ => exact .kept _ (List.append_nil _)
  | returning text =>
    cases part with
    | returning => exact .taken _ rfl (.ok ⟨text, []⟩)
    | _ => exact .kept _ (List.append_nil _)

theorem follows_new (part : Part) : (held {} part).Follows part.separator? part.lead "" [] := by
  refine ⟨?_, ?_⟩
  · cases part <;> exact ⟨Phrase.holds_clause _ _, rfl⟩
  · intro separator separated
    cases part <;> first | exact Option.some.inj separated | cases separated

theorem follows_ofCalls (calls : List Call) (part : Part) :
    ((ofCalls calls).held part).Follows part.separator? part.lead "" (ledger calls part).offers :=
  foldl_follows UpdateStatement.call held Part.lead (fun _ => "") Part.separator?
    (fun part before => before.flatMap (Call.offers part)) {} follows_new turn_call calls part

theorem params_part (calls : List Call) (part : Part) :
    ((ofCalls calls).held part).params = (ledger calls part).params :=
  (follows_ofCalls calls part).holds.params

theorem render_part (calls : List Call) (part : Part) :
    ((ofCalls calls).held part).phrase.render =
      outcome [(ledger calls part).misuse?] ((ledger calls part).text?.getD "") :=
  (follows_ofCalls calls part).holds.phrase.render_eq

theorem render_condition (calls : List Call) (headed : Bool) :
    (ofCalls calls).condition.renderHeaded headed =
      outcome [(ledger calls .condition).misuse?]
        ((Ledger.text? { ledger calls .condition with
          lead := if headed then "WHERE " else "" }).getD "") :=
  Condition.renderHeaded_eq (follows_ofCalls calls .condition).holds.phrase headed

theorem render_ofCalls (calls : List Call) :
    (ofCalls calls).render = outcome (misuses calls) (Ledger.layout (ledgers calls)) := by
  unfold render
  rw [show (ofCalls calls).table.render = _ from render_part calls .table]
  refine outcome_bind [_] _ _ _ _ ?_
  rw [show (ofCalls calls).assignments.render = _ from render_part calls .assignments]
  refine outcome_bind [_] _ _ _ _ ?_
  simp only [Ledger.text?_getD_isEmpty]
  rw [render_condition]
  refine outcome_bind [_] _ _ _ _ ?_
  rw [show (ofCalls calls).returning.render = _ from render_part calls .returning]
  refine outcome_bind [_] [] _ _ _ ?_
  rw [← Ledger.joinClauses_texts]
  rfl

end UpdateStatement

namespace DeleteStatement

def held (statement : DeleteStatement) : Part → BoundPhrase
  | .table => ⟨statement.table, []⟩
  | .condition => statement.condition.clause
  | .returning => ⟨statement.returning, []⟩

theorem turn_call (statement : DeleteStatement) (before : List Call) (made : Call) (part : Part) :
    BoundPhrase.Turn part.separator? (statement.held part)
      (before.flatMap (Call.offers part)) ((statement.call made).held part)
      ((before ++ [made]).flatMap (Call.offers part)) := by
  rw [List.flatMap_append, List.flatMap_singleton]
  cases made with
  | table text =>
    cases part with
    | table => exact .taken _ rfl (.ok ⟨text, []⟩)
    | _ => exact .kept _ (List.append_nil _)
  | condition call =>
    cases part with
    | condition => exact .behind rfl call.operator.text call.fragment
    | _ => exact .kept _ (List.append_nil _)
  | returning text =>
    cases part with
    | returning => exact .taken _ rfl (.ok ⟨text, []⟩)
    | _ => exact .kept _ (List.append_nil _)

theorem follows_new (part : Part) : (held {} part).Follows part.separator? part.lead "" [] := by
  refine ⟨?_, ?_⟩
  · cases part <;> exact ⟨Phrase.holds_clause _ _, rfl⟩
  · intro separator separated
    cases part <;> first | exact Option.some.inj separated | cases separated

theorem follows_ofCalls (calls : List Call) (part : Part) :
    ((ofCalls calls).held part).Follows part.separator? part.lead "" (ledger calls part).offers :=
  foldl_follows DeleteStatement.call held Part.lead (fun _ => "") Part.separator?
    (fun part before => before.flatMap (Call.offers part)) {} follows_new turn_call calls part

theorem params_part (calls : List Call) (part : Part) :
    ((ofCalls calls).held part).params = (ledger calls part).params :=
  (follows_ofCalls calls part).holds.params

theorem render_part (calls : List Call) (part : Part) :
    ((ofCalls calls).held part).phrase.render =
      outcome [(ledger calls part).misuse?] ((ledger calls part).text?.getD "") :=
  (follows_ofCalls calls part).holds.phrase.render_eq

theorem render_condition (calls : List Call) (headed : Bool) :
    (ofCalls calls).condition.renderHeaded headed =
      outcome [(ledger calls .condition).misuse?]
        ((Ledger.text? { ledger calls .condition with
          lead := if headed then "WHERE " else "" }).getD "") :=
  Condition.renderHeaded_eq (follows_ofCalls calls .condition).holds.phrase headed

theorem render_ofCalls (calls : List Call) :
    (ofCalls calls).render = outcome (misuses calls) (Ledger.layout (ledgers calls)) := by
  unfold render
  rw [show (ofCalls calls).table.render = _ from render_part calls .table]
  refine outcome_bind [_] _ _ _ _ ?_
  simp only [Ledger.text?_getD_isEmpty]
  rw [render_condition]
  refine outcome_bind [_] _ _ _ _ ?_
  rw [show (ofCalls calls).returning.render = _ from render_part calls .returning]
  refine outcome_bind [_] [] _ _ _ ?_
  rw [← Ledger.joinClauses_texts]
  rfl

end DeleteStatement

end SqlCompose
