import SqlCompose.History.Condition
import SqlCompose.History.Union
import SqlCompose.Proofs.Ledger

/-! Conditions and unions follow their calls: every text stands behind the operator of its own
call, and a branch without text leaves nothing. -/
namespace SqlCompose

namespace Condition

theorem turn_add (condition : Condition) (before : List Call) (made : Call) :
    BoundPhrase.Turn none condition.clause (before.map Call.offer) (condition.add made).clause
      ((before ++ [made]).map Call.offer) := by
  rw [List.map_append]
  exact .behind rfl made.operator.text made.fragment

theorem follows_ofCalls (calls : List Call) :
    (ofCalls calls).clause.Follows none "(" ")" (calls.map Call.offer) :=
  foldl_follows add (fun condition (_ : Unit) => condition.clause) (fun _ => "(") (fun _ => ")")
    (fun _ => none) (fun _ before => before.map Call.offer) standalone
    (fun _ => ⟨⟨Phrase.holds_wrapped "(" ")" none, rfl⟩, fun _ fixed => by cases fixed⟩)
    (fun condition before made _ => turn_add condition before made) calls ()

theorem render_ofCalls (calls : List Call) :
    (ofCalls calls).render = outcome [(ledger calls).misuse?] (Ledger.layout [ledger calls]) := by
  have rendered := (follows_ofCalls calls).holds.phrase.render_eq
  rw [Ledger.layout_singleton]
  exact rendered

theorem params_ofCalls (calls : List Call) :
    (ofCalls calls).params = [ledger calls].flatMap Ledger.params := by
  rw [List.flatMap_singleton]
  exact (follows_ofCalls calls).holds.params

end Condition

namespace UnionStatement

def held (statement : UnionStatement) : Part → BoundPhrase
  | .branches => statement.branches
  | .ordering => ⟨statement.ordering, []⟩
  | .offset => ⟨statement.offset, []⟩
  | .limit => ⟨statement.limit, []⟩

theorem turn_branch (branches : BoundPhrase) (offers : List Offer) (kind : UnionKind)
    (query : Rendering) :
    BoundPhrase.Turn none branches offers (addBranch branches kind query)
      (offers ++ branchOffers kind query) := by
  unfold addBranch branchOffers
  cases branch? query with
  | error error => exact .behind rfl kind.operator (.error error)
  | ok fragment? =>
    cases fragment? with
    | none => exact .kept _ (List.append_nil offers)
    | some fragment => exact .behind rfl kind.operator (.ok fragment)

theorem turn_call (statement : UnionStatement) (before : List Call) (made : Call) (part : Part) :
    BoundPhrase.Turn part.separator? (statement.held part)
      (before.flatMap (Call.offers part)) ((statement.call made).held part)
      ((before ++ [made]).flatMap (Call.offers part)) := by
  rw [List.flatMap_append, List.flatMap_singleton]
  cases made with
  | branch kind query =>
    cases part with
    | branches => exact turn_branch statement.branches _ kind query
    | _ => exact .kept _ (List.append_nil _)
  | orderBy text =>
    cases part with
    | ordering => exact .taken _ rfl (.ok ⟨text, []⟩)
    | _ => exact .kept _ (List.append_nil _)
  | offset count =>
    cases part with
    | offset => exact .taken _ rfl (.ok ⟨toString count.toNat, []⟩)
    | _ => exact .kept _ (List.append_nil _)
  | limit count =>
    cases part with
    | limit => exact .taken _ rfl (.ok ⟨toString count.toNat, []⟩)
    | _ => exact .kept _ (List.append_nil _)

theorem follows_new (part : Part) : (held {} part).Follows part.separator? part.lead "" [] := by
  refine ⟨?_, ?_⟩
  · cases part <;> exact ⟨Phrase.holds_clause _ _, rfl⟩
  · intro separator separated
    cases part <;> first | exact Option.some.inj separated | cases separated

theorem follows_ofCalls (calls : List Call) (part : Part) :
    ((ofCalls calls).held part).Follows part.separator? part.lead "" (ledger calls part).offers :=
  foldl_follows UnionStatement.call held Part.lead (fun _ => "") Part.separator?
    (fun part before => before.flatMap (Call.offers part)) {} follows_new turn_call calls part

theorem params_part (calls : List Call) (part : Part) :
    ((ofCalls calls).held part).params = (ledger calls part).params :=
  (follows_ofCalls calls part).holds.params

theorem render_part (calls : List Call) (part : Part) :
    ((ofCalls calls).held part).phrase.render =
      outcome [(ledger calls part).misuse?] ((ledger calls part).text?.getD "") :=
  (follows_ofCalls calls part).holds.phrase.render_eq

theorem render_ofCalls (calls : List Call) :
    (ofCalls calls).render = outcome (misuses calls) (Ledger.layout (ledgers calls)) := by
  unfold render
  rw [show (ofCalls calls).branches.render = _ from render_part calls .branches]
  refine outcome_bind [_] _ _ _ _ ?_
  rw [show (ofCalls calls).ordering.render = _ from render_part calls .ordering]
  refine outcome_bind [_] _ _ _ _ ?_
  rw [show (ofCalls calls).offset.render = _ from render_part calls .offset]
  refine outcome_bind [_] _ _ _ _ ?_
  rw [show (ofCalls calls).limit.render = _ from render_part calls .limit]
  refine outcome_bind [_] [] _ _ _ ?_
  rw [← Ledger.joinClauses_texts]
  rfl

end UnionStatement

end SqlCompose
