import SqlCompose.Proofs.History
import SqlCompose.Proofs.Layout

/-! INSERT, UPDATE and DELETE statements that build are laid out by what was offered to each of their
clauses, so that calls to different clauses can be made in any order. -/
namespace SqlCompose

/-- A statement without parentheses of its own depends on its calls clause by clause. -/
theorem History.rendering_of_makers {Part Made : Type} (history : List Made → History)
    (offers : Part → Made → List Offer) (ledger : List Made → Part → Ledger)
    (bare : ∀ calls, (history calls).rendering.enclosed = false)
    (offered : ∀ {calls others : List Made} {part : Part},
      others.flatMap (offers part) = calls.flatMap (offers part) →
      ledger others part = ledger calls part)
    (clauses : ∀ {calls others : List Made}, ledger others = ledger calls →
      (history others).misuses = (history calls).misuses ∧
      (history others).ledgers = (history calls).ledgers)
    (calls others : List Made)
    (same : ∀ part, Offer.makers (offers part) others = Offer.makers (offers part) calls) :
    (history others).rendering = (history calls).rendering := by
  have kept : ledger others = ledger calls :=
    funext fun part => offered (Offer.flatMap_congr_makers (same part))
  obtain ⟨misuses, ledgers⟩ := clauses kept
  have text : (history others).rendering.text = (history calls).rendering.text := by
    rw [text_rendering, text_rendering, misuses, ledgers]
  have params : (history others).rendering.params = (history calls).rendering.params := by
    rw [params_rendering, params_rendering, ledgers]
  calc (history others).rendering
      = ⟨(history others).rendering.text, (history others).rendering.enclosed,
          (history others).rendering.params⟩ := rfl
    _ = (history calls).rendering := by rw [text, params, bare others, ← bare calls]

namespace InsertStatement

theorem offers_joint (calls : List Call) (part : Part) (joint : Option String)
    (separated : part.separator? = some joint) :
    ∀ offer ∈ (ledger calls part).offers, offer.joint = joint := by
  intro offer member
  obtain ⟨made, _, offered⟩ := List.mem_flatMap.mp member
  unfold Call.offers at offered
  split at offered
  case h_5 texts =>
    obtain ⟨text, _, rfl⟩ := List.mem_map.mp offered
    exact Option.some.inj separated
  case h_12 => cases offered
  all_goals
    rw [List.mem_singleton.mp offered]
    exact Option.some.inj separated

theorem clauses_congr {calls others : List Call} (same : ledger others = ledger calls) :
    misuses others = misuses calls ∧ ledgers others = ledgers calls := by
  unfold misuses ledgers
  rw [same]
  exact ⟨rfl, rfl⟩

theorem params_parts (calls : List Call) :
    (ofCalls calls).rendering.params =
      [Part.values, .query].flatMap fun part => (ledger calls part).params := by
  have values : (ofCalls calls).values.params = _ := params_part calls .values
  have query : (ofCalls calls).query.params = _ := params_part calls .query
  simp only [rendering, params, values, query, List.flatMap_cons, List.flatMap_nil, List.append_nil]

end InsertStatement

namespace UpdateStatement

theorem offers_joint (calls : List Call) (part : Part) (joint : Option String)
    (separated : part.separator? = some joint) :
    ∀ offer ∈ (ledger calls part).offers, offer.joint = joint := by
  intro offer member
  obtain ⟨made, _, offered⟩ := List.mem_flatMap.mp member
  unfold Call.offers at offered
  split at offered
  case h_5 call => cases separated
  case h_7 => cases offered
  all_goals
    rw [List.mem_singleton.mp offered]
    exact Option.some.inj separated

theorem clauses_congr {calls others : List Call} (same : ledger others = ledger calls) :
    misuses others = misuses calls ∧ ledgers others = ledgers calls := by
  unfold misuses ledgers given
  rw [same]
  exact ⟨rfl, rfl⟩

theorem params_parts (calls : List Call) :
    (ofCalls calls).rendering.params =
      [Part.assignments, .condition].flatMap fun part => (ledger calls part).params := by
  have assignments : (ofCalls calls).assignments.params = _ := params_part calls .assignments
  have condition : (ofCalls calls).condition.params = _ := params_part calls .condition
  simp only [rendering, params, assignments, condition, List.flatMap_cons, List.flatMap_nil,
    List.append_nil]

end UpdateStatement

namespace DeleteStatement

theorem offers_joint (calls : List Call) (part : Part) (joint : Option String)
    (separated : part.separator? = some joint) :
    ∀ offer ∈ (ledger calls part).offers, offer.joint = joint := by
  intro offer member
  obtain ⟨made, _, offered⟩ := List.mem_flatMap.mp member
  unfold Call.offers at offered
  split at offered
  case h_2 call => cases separated
  case h_4 => cases offered
  all_goals
    rw [List.mem_singleton.mp offered]
    exact Option.some.inj separated

theorem clauses_congr {calls others : List Call} (same : ledger others = ledger calls) :
    misuses others = misuses calls ∧ ledgers others = ledgers calls := by
  unfold misuses ledgers given
  rw [same]
  exact ⟨rfl, rfl⟩

end DeleteStatement

/-- The clauses of a statement that builds are laid out in their order, each with the texts and the
parameters that its own calls gave it. A condition stands without its keyword when nothing comes
before it; an optional value that is missing leaves no trace. -/
theorem changes_layout :
    (∀ (calls : List InsertStatement.Call) (sql : String),
      (InsertStatement.ofCalls calls).rendering.text = .ok sql →
      sql = Ledger.layout (InsertStatement.Part.all.map (InsertStatement.ledger calls)) ∧
      (∀ part, (InsertStatement.ledger calls part).Orderly part.separator?) ∧
      (InsertStatement.ofCalls calls).rendering.params =
        ([.values, .query].flatMap fun part => (InsertStatement.ledger calls part).params) ∧
      ∀ others, (∀ part, Offer.makers (InsertStatement.Call.offers part) others =
          Offer.makers (InsertStatement.Call.offers part) calls) →
        (InsertStatement.ofCalls others).rendering = (InsertStatement.ofCalls calls).rendering) ∧
    (∀ (calls : List UpdateStatement.Call) (sql : String),
      (UpdateStatement.ofCalls calls).rendering.text = .ok sql →
      sql = Ledger.layout
        [UpdateStatement.ledger calls .table,
          UpdateStatement.ledger calls .assignments,
          { UpdateStatement.ledger calls .condition with
            lead := if UpdateStatement.given calls .table || UpdateStatement.given calls .assignments
              then "WHERE " else "" },
          UpdateStatement.ledger calls .returning] ∧
      (∀ part, (UpdateStatement.ledger calls part).Orderly part.separator?) ∧
      (UpdateStatement.ofCalls calls).rendering.params =
        ([.assignments, .condition].flatMap fun part =>
          (UpdateStatement.ledger calls part).params) ∧
      ∀ others, (∀ part, Offer.makers (UpdateStatement.Call.offers part) others =
          Offer.makers (UpdateStatement.Call.offers part) calls) →
        (UpdateStatement.ofCalls others).rendering = (UpdateStatement.ofCalls calls).rendering) ∧
    (∀ (calls : List DeleteStatement.Call) (sql : String),
      (DeleteStatement.ofCalls calls).rendering.text = .ok sql →
      sql = Ledger.layout
        [DeleteStatement.ledger calls .table,
          { DeleteStatement.ledger calls .condition with
            lead := if DeleteStatement.given calls .table then "WHERE " else "" },
          DeleteStatement.ledger calls .returning] ∧
      (∀ part, (DeleteStatement.ledger calls part).Orderly part.separator?) ∧
      (DeleteStatement.ofCalls calls).rendering.params =
        (DeleteStatement.ledger calls .condition).params ∧
      ∀ others, (∀ part, Offer.makers (DeleteStatement.Call.offers part) others =
          Offer.makers (DeleteStatement.Call.offers part) calls) →
        (DeleteStatement.ofCalls others).rendering = (DeleteStatement.ofCalls calls).rendering) ∧
    (∀ before column after,
      InsertStatement.ofCalls (before ++ .setOptional column none :: after) =
        InsertStatement.ofCalls (before ++ after)) ∧
    ∀ before column after,
      UpdateStatement.ofCalls (before ++ .setOptional column none :: after) =
        UpdateStatement.ofCalls (before ++ after) := by
  refine ⟨?_, ?_, ?_, ?_, ?_⟩
  · intro calls sql built
    have rendered := (InsertStatement.render_ofCalls calls).symm.trans built
    obtain ⟨layout, orderly⟩ := orderly_of_outcome _ InsertStatement.Part.mem_all _ _ _ _
      (InsertStatement.offers_joint calls) rendered
    exact ⟨layout, orderly, InsertStatement.params_parts calls,
      History.rendering_of_makers .insert InsertStatement.Call.offers InsertStatement.ledger
        (fun _ => rfl) (fun same => congrArg (Ledger.mk _ _) same)
        InsertStatement.clauses_congr calls⟩
  · intro calls sql built
    have rendered := (UpdateStatement.render_ofCalls calls).symm.trans built
    obtain ⟨layout, orderly⟩ := orderly_of_outcome _ UpdateStatement.Part.mem_all _ _ _ _
      (UpdateStatement.offers_joint calls) rendered
    exact ⟨layout, orderly, UpdateStatement.params_parts calls,
      History.rendering_of_makers .update UpdateStatement.Call.offers UpdateStatement.ledger
        (fun _ => rfl) (fun same => congrArg (Ledger.mk _ _) same)
        UpdateStatement.clauses_congr calls⟩
  · intro calls sql built
    have rendered := (DeleteStatement.render_ofCalls calls).symm.trans built
    obtain ⟨layout, orderly⟩ := orderly_of_outcome _ DeleteStatement.Part.mem_all _ _ _ _
      (DeleteStatement.offers_joint calls) rendered
    exact ⟨layout, orderly, DeleteStatement.params_part calls .condition,
      History.rendering_of_makers .delete DeleteStatement.Call.offers DeleteStatement.ledger
        (fun _ => rfl) (fun same => congrArg (Ledger.mk _ _) same)
        DeleteStatement.clauses_congr calls⟩
  · intro before column after
    simp [InsertStatement.ofCalls, List.foldl_append, InsertStatement.call]
  · intro before column after
    simp [UpdateStatement.ofCalls, List.foldl_append, UpdateStatement.call]

/-- Calls that come in another order, and for a clause that is written first. -/
theorem changes_layout_reordered :
    ((InsertStatement.ofCalls [.returning "id", .set "a" (.bool true), .setOptional "b" none,
        .setExpression "c" "now()" [], .table "t"]).rendering.text =
      .ok "INSERT INTO t (a, c) VALUES (?, now()) RETURNING id" ∧
    (InsertStatement.ofCalls [.table "t", .set "a" (.bool true), .setExpression "c" "now()" [],
        .returning "id"]).rendering =
      (InsertStatement.ofCalls [.returning "id", .set "a" (.bool true), .setOptional "b" none,
        .setExpression "c" "now()" [], .table "t"]).rendering) ∧
    ((UpdateStatement.ofCalls [.condition (.expression .or "a = ?" [.bool true]),
        .assignment "" [.null], .returning "id"]).rendering.text =
      .ok "a = ? RETURNING id" ∧
    (UpdateStatement.ofCalls [.condition (.expression .or "a = ?" [.bool true]),
        .assignment "" [.null], .returning "id"]).rendering.params = [.null, .bool true]) ∧
    ((DeleteStatement.ofCalls [.condition (.expression .or "a" []), .returning "id",
        .condition (.expression .or "b" []), .table "t"]).rendering.text =
      .ok "DELETE FROM t WHERE a OR b RETURNING id" ∧
    (DeleteStatement.ofCalls [.table "t", .returning "id", .condition (.expression .or "a" []),
        .condition (.expression .or "b" [])]).rendering =
      (DeleteStatement.ofCalls [.condition (.expression .or "a" []), .returning "id",
        .condition (.expression .or "b" []), .table "t"]).rendering) := by
  obtain ⟨insert, update, delete, _⟩ := changes_layout
  have inserted : (InsertStatement.ofCalls [.returning "id", .set "a" (.bool true),
      .setOptional "b" none, .setExpression "c" "now()" [], .table "t"]).rendering.text =
      .ok "INSERT INTO t (a, c) VALUES (?, now()) RETURNING id" := rfl
  have updated : (UpdateStatement.ofCalls [.condition (.expression .or "a = ?" [.bool true]),
      .assignment "" [.null], .returning "id"]).rendering.text = .ok "a = ? RETURNING id" := rfl
  have deleted : (DeleteStatement.ofCalls [.condition (.expression .or "a" []), .returning "id",
      .condition (.expression .or "b" []), .table "t"]).rendering.text =
      .ok "DELETE FROM t WHERE a OR b RETURNING id" := rfl
  obtain ⟨_, _, _, reinserted⟩ := insert _ _ inserted
  obtain ⟨_, _, bound, _⟩ := update _ _ updated
  obtain ⟨_, _, _, redeleted⟩ := delete _ _ deleted
  refine ⟨⟨inserted, reinserted _ fun part => ?_⟩, ⟨updated, bound⟩, deleted,
    redeleted _ fun part => ?_⟩
  · cases part <;> rfl
  · cases part <;> rfl

end SqlCompose
