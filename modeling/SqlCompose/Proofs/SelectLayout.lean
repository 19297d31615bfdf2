import SqlCompose.Proofs.History
import SqlCompose.Proofs.Layout

/-! A SELECT statement that builds is laid out by what was offered to each of its clauses, so that
calls to different clauses can be made in any order. -/
namespace SqlCompose

namespace SelectStatement

theorem orderly_part (calls : List Call) (part : Part)
    (sound : (ledger calls part).misuse? = none) :
    (ledger calls part).Orderly part.separator? :=
  Ledger.orderly_of_sound _ _ sound fun joint separated => offered_joint part joint separated calls

theorem offered_single (calls : List Call) (part : Part)
    (sound : (ledger calls part).misuse? = none) (single : part.separator? = some none) :
    (offered part calls).length ≤ 1 := by
  have one : (Offer.links (offered part calls)).length ≤ 1 :=
    (orderly_part calls part sound).single single
  rwa [Offer.length_links _ (offered_filled part single calls)] at one

/-- The clauses of a statement that builds are laid out in their order, each with the texts and the
parameters that its own calls gave it, and no other call has a part in them. -/
theorem build_layout (calls : List Call) (sql : String)
    (built : (ofCalls calls).rendering.text = .ok sql) :
    sql = Ledger.layout (ledgers calls) ∧
    (∀ part, ∀ offer ∈ offered part calls, ∃ fragment, offer.content = .ok fragment) ∧
    (∀ part joint, part.separator? = some (some joint) →
      Link.joined (Offer.links (offered part calls)) =
        joint.intercalate ((Offer.links (offered part calls)).map Link.text)) ∧
    (∀ part, part.separator? = some none → (offered part calls).length ≤ 1) ∧
    (ofCalls calls).rendering.params =
      [Part.source, .joins, .condition, .groupCondition].flatMap
        (fun part => (offered part calls).flatMap Offer.params) ∧
    ∀ others : List Call,
      (∀ part, others.filter (fun made => made.part = part) =
        calls.filter (fun made => made.part = part)) →
      (ofCalls others).rendering = (ofCalls calls).rendering := by
  have rendered : (ofCalls calls).render = .ok sql := built
  rw [render_ofCalls, outcome_ok_iff] at rendered
  obtain ⟨unmisused, layout⟩ := rendered
  have sound (part : Part) : (ledger calls part).misuse? = none :=
    sound_of_misuses Part.all (fun part => (ledger calls part).misuse?) unmisused part part.mem_all
  have orderly (part : Part) := orderly_part calls part (sound part)
  refine ⟨layout.symm, fun part => (orderly part).content, fun part => (orderly part).joined,
    fun part => offered_single calls part (sound part), ?_, ?_⟩
  · have source : (ofCalls calls).source.params = _ := params_part calls .source
    have joins : (ofCalls calls).joins.params = _ := params_part calls .joins
    have condition : (ofCalls calls).condition.params = _ := params_part calls .condition
    have groupCondition : (ofCalls calls).groupCondition.params = _ :=
      params_part calls .groupCondition
    simp only [rendering, params, source, joins, condition, groupCondition, List.flatMap_cons,
      List.flatMap_nil, List.append_nil, List.append_assoc]
    rfl
  · intro others same
    have offers (part : Part) : offered part others = offered part calls := by
      unfold offered
      rw [same part]
    have ledger_eq (part : Part) : ledger others part = ledger calls part := by
      unfold ledger
      rw [offers part]
    have misuses_eq : misuses others = misuses calls := by
      unfold misuses
      simp only [ledger_eq]
    have ledgers_eq : ledgers others = ledgers calls := by
      unfold ledgers given quantifierWord
      simp only [ledger_eq, offers]
    unfold rendering
    rw [render_ofCalls, render_ofCalls, params_ofCalls, params_ofCalls, misuses_eq, ledgers_eq]

theorem build_layout_limit_changed :
    (ofCalls [.limit 5, .condition (.expression .and "a = ?" [.bool true]), .source "t",
      .withoutLimit, .distinct, .column "a", .limit 3]).rendering.text =
        .ok "SELECT DISTINCT a FROM t WHERE a = ? LIMIT 3" ∧
    (ofCalls [.column "a", .distinct, .source "t",
      .condition (.expression .and "a = ?" [.bool true]), .limit 5, .withoutLimit,
      .limit 3]).rendering =
    (ofCalls [.limit 5, .condition (.expression .and "a = ?" [.bool true]), .source "t",
      .withoutLimit, .distinct, .column "a", .limit 3]).rendering := by
  have built : (ofCalls [.limit 5, .condition (.expression .and "a = ?" [.bool true]), .source "t",
      .withoutLimit, .distinct, .column "a", .limit 3]).rendering.text =
        .ok "SELECT DISTINCT a FROM t WHERE a = ? LIMIT 3" := rfl
  obtain ⟨_, _, _, _, _, regardless⟩ := build_layout _ _ built
  refine ⟨built, regardless _ fun part => ?_⟩
  cases part <;> rfl

end SelectStatement

end SqlCompose
