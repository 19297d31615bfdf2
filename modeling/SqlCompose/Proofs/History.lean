import SqlCompose.History
import SqlCompose.Proofs.ChangeHistory
import SqlCompose.Proofs.CombinedHistory
import SqlCompose.Proofs.SelectHistory

/-! Every history renders to the layout of its clauses or to its first misuse, and binds the
parameters of its clauses in their order. -/
namespace SqlCompose

theorem SelectStatement.params_ofCalls (calls : List Call) :
    (ofCalls calls).params = (ledgers calls).flatMap Ledger.params := by
  have columns : Ledger.params ⟨"SELECT " ++ quantifierWord calls, "", offered .columns calls⟩ =
      [] := (params_part calls .columns).symm
  have source : (ofCalls calls).source.params = _ := params_part calls .source
  have joins : (ofCalls calls).joins.params = _ := params_part calls .joins
  have condition : (ofCalls calls).condition.params = _ := params_part calls .condition
  have grouping : [] = _ := params_part calls .grouping
  have groupCondition : (ofCalls calls).groupCondition.params = _ :=
    params_part calls .groupCondition
  have ordering : [] = _ := params_part calls .ordering
  have offset : [] = _ := params_part calls .offset
  have limit : [] = _ := params_part calls .limit
  simp only [ledgers, List.flatMap_cons, List.flatMap_nil, columns, ← grouping, ← ordering,
    ← offset, ← limit, List.nil_append, List.append_nil]
  rw [SelectStatement.params, source, joins, condition, groupCondition]
  simp only [List.append_assoc]
  rfl

theorem UnionStatement.params_ofCalls (calls : List Call) :
    (ofCalls calls).params = (ledgers calls).flatMap Ledger.params := by
  have branches : (ofCalls calls).branches.params = _ := params_part calls .branches
  have ordering : [] = _ := params_part calls .ordering
  have offset : [] = _ := params_part calls .offset
  have limit : [] = _ := params_part calls .limit
  simp only [ledgers, Part.all, List.map_cons, List.map_nil, List.flatMap_cons, List.flatMap_nil,
    ← ordering, ← offset, ← limit, List.append_nil]
  exact branches

theorem InsertStatement.params_ofCalls (calls : List Call) :
    (ofCalls calls).params = (ledgers calls).flatMap Ledger.params := by
  have table : [] = _ := params_part calls .table
  have columns : [] = _ := params_part calls .columns
  have values : (ofCalls calls).values.params = _ := params_part calls .values
  have defaults : [] = _ := params_part calls .defaults
  have query : (ofCalls calls).query.params = _ := params_part calls .query
  have returning : [] = _ := params_part calls .returning
  simp only [ledgers, Part.all, List.map_cons, List.map_nil, List.flatMap_cons, List.flatMap_nil,
    ← table, ← columns, ← defaults, ← returning, List.nil_append, List.append_nil]
  rw [InsertStatement.params, values, query]

theorem UpdateStatement.params_ofCalls (calls : List Call) :
    (ofCalls calls).params = (ledgers calls).flatMap Ledger.params := by
  have table : [] = _ := params_part calls .table
  have assignments : (ofCalls calls).assignments.params = _ := params_part calls .assignments
  have condition : (ofCalls calls).condition.params = _ := params_part calls .condition
  have returning : [] = _ := params_part calls .returning
  simp only [ledgers, List.flatMap_cons, List.flatMap_nil, ← table, ← returning, List.nil_append,
    List.append_nil]
  rw [UpdateStatement.params, assignments, condition]
  rfl

theorem DeleteStatement.params_ofCalls (calls : List Call) :
    (ofCalls calls).params = (ledgers calls).flatMap Ledger.params := by
  have table : [] = _ := params_part calls .table
  have condition : (ofCalls calls).condition.params = _ := params_part calls .condition
  have returning : [] = _ := params_part calls .returning
  simp only [ledgers, List.flatMap_cons, List.flatMap_nil, ← table, ← returning, List.nil_append,
    List.append_nil]
  exact condition

namespace History

theorem text_rendering (history : History) :
    history.rendering.text = outcome history.misuses (Ledger.layout history.ledgers) := by
  cases history with
  | select calls => exact SelectStatement.render_ofCalls calls
  | union calls => exact UnionStatement.render_ofCalls calls
  | insert calls => exact InsertStatement.render_ofCalls calls
  | update calls => exact UpdateStatement.render_ofCalls calls
  | delete calls => exact DeleteStatement.render_ofCalls calls
  | condition calls => exact Condition.render_ofCalls calls

theorem params_rendering (history : History) :
    history.rendering.params = history.ledgers.flatMap Ledger.params := by
  cases history with
  | select calls => exact SelectStatement.params_ofCalls calls
  | union calls => exact UnionStatement.params_ofCalls calls
  | insert calls => exact InsertStatement.params_ofCalls calls
  | update calls => exact UpdateStatement.params_ofCalls calls
  | delete calls => exact DeleteStatement.params_ofCalls calls
  | condition calls => exact Condition.params_ofCalls calls

end History

end SqlCompose
