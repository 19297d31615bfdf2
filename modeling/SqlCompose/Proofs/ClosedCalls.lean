import SqlCompose.History.Closed
import SqlCompose.Proofs.CallAlignment

/-! What a call offers to the clauses of a builder is closed, if the texts that it supplies are. -/
namespace SqlCompose

def Rendering.Closed (rendering : Rendering) : Prop :=
  ∀ sql, rendering.text = .ok sql → Text.Closed sql.toList

theorem Rendering.Closed.nested (rendering : Rendering) (closed : rendering.Closed) (sql : String)
    (rendered : rendering.nested = .ok sql) : Text.Closed sql.toList := by
  unfold Rendering.nested at rendered
  split at rendered
  · exact closed sql rendered
  · cases inner : rendering.text with
    | error error =>
      rw [inner] at rendered
      cases rendered
    | ok text =>
      rw [inner] at rendered
      cases rendered
      have enclosed := (closed text inner).enclosed
      simpa using enclosed

structure Supply.Closed (supply : Supply) (template? : Option String) : Prop where
  texts : ∀ handed ∈ supply.texts, Text.Closed handed.text.toList
  nested : ∀ query ∈ supply.nested, query.Closed
  slot : ∀ template ∈ template?, Text.Quoting.plain.placeholders template.toList = 1

theorem substitute_closed (template : String) (query : Rendering)
    (closed : (Supply.template template query).Closed (some template)) (fragment : Fragment)
    (substituted : substitute template query = .ok fragment) :
    Text.Closed fragment.text.toList := by
  obtain ⟨front, back, sql, split, before, behind, nested, rfl⟩ :=
    substitute_split template query fragment substituted
  have whole : Text.Closed template.toList := closed.texts _ (List.mem_singleton_self _)
  have counted := closed.slot template rfl
  rw [split] at whole counted
  have plain := slot_outside front back before behind counted
  have inner := (closed.nested query (List.mem_singleton_self _)).nested query sql nested
  have filled := whole.fill front back sql.toList '?' plain (by decide) (by decide) inner
  simpa [String.toList_append] using filled

structure Offer.Closed (offer : Offer) : Prop where
  joint : Text.Closed (offer.joint.getD "").toList
  content : ∀ fragment, offer.content = .ok fragment → Text.Closed fragment.text.toList

theorem Offer.closed_plain (joint : Option String) (text : String)
    (joined : Text.Closed (joint.getD "").toList) (closed : Text.Closed text.toList) :
    (Offer.plain joint text).Closed := by
  refine ⟨joined, fun fragment content => ?_⟩
  cases content
  exact closed

theorem Offer.closed_count (count : UInt64) : (plain none (toString count.toNat)).Closed := by
  refine closed_plain none _ .nil (Text.Closed.of_ordinary _ ?_)
  intro char member
  have digit := isDigit_of_count count char member
  refine ⟨isQuote_of_isDigit char digit, ?_, ?_⟩
  · intro opening
    rw [opening] at digit
    exact absurd digit (by decide)
  · intro closing
    rw [closing] at digit
    exact absurd digit (by decide)

namespace Supply

theorem closed_of_calls {Call : Type} (supply : Call → Supply) (template? : Call → Option String)
    (calls : List Call)
    (texts : ∀ handed ∈ (calls.map supply).flatMap Supply.texts, Text.Closed handed.text.toList)
    (slots : ∀ template ∈ calls.filterMap template?,
      Text.Quoting.plain.placeholders template.toList = 1)
    (nested : ∀ query ∈ (calls.map supply).flatMap Supply.nested, query.Closed)
    (made : Call) (called : made ∈ calls) : (supply made).Closed (template? made) := by
  have supplied : supply made ∈ calls.map supply := List.mem_map.mpr ⟨made, called, rfl⟩
  refine ⟨?_, ?_, ?_⟩
  · intro handed member
    exact texts handed (List.mem_flatMap.mpr ⟨_, supplied, member⟩)
  · intro query member
    exact nested query (List.mem_flatMap.mpr ⟨_, supplied, member⟩)
  · intro template given
    exact slots template (List.mem_filterMap.mpr ⟨made, called, given⟩)

theorem Closed.offer_text (text : String) (closed : (plain text).Closed none)
    (joint : Option String) (joined : Text.Closed (joint.getD "").toList) :
    (Offer.plain joint text).Closed :=
  Offer.closed_plain joint text joined (closed.texts _ (List.mem_singleton_self _))

theorem Closed.offer_texts (texts : List String) (joint : String)
    (closed : ∀ text ∈ texts, Text.Closed text.toList) (joined : Text.Closed joint.toList) :
    ∀ offer ∈ texts.map (Offer.plain (some joint)), offer.Closed := by
  intro offer member
  obtain ⟨text, given, rfl⟩ := List.mem_map.mp member
  exact Offer.closed_plain (some joint) text joined (closed text given)

end Supply

theorem Offer.closed_rendering (joint : Option String) (rendering : Rendering)
    (joined : Text.Closed (joint.getD "").toList) (closed : rendering.Closed) :
    (Offer.mk joint rendering.fragment).Closed := by
  refine ⟨joined, fun fragment content => ?_⟩
  exact closed _ ((rendering.fragment_eq_ok_iff fragment).mp content).1

theorem Condition.Call.closed_offer (made : Call) (closed : made.supply.Closed made.template?) :
    made.offer.Closed := by
  have operator : Text.Closed made.operator.text.toList := by
    cases made.operator <;> decide
  cases made with
  | expression connective text params =>
    refine ⟨operator, fun fragment content => ?_⟩
    cases content
    exact closed.texts _ (List.mem_singleton_self _)
  | group connective nested =>
    exact Offer.closed_rendering _ _ operator (closed.nested _ (List.mem_singleton_self _))
  | query connective template query => exact ⟨operator, substitute_closed template query closed⟩

theorem SelectStatement.closed_offers (made : Call) (closed : made.supply.Closed made.template?) :
    ∀ offer ∈ made.offers, offer.Closed := by
  have comma : Text.Closed ", ".toList := by decide
  have space : Text.Closed " ".toList := by decide
  cases made with
  | column text => exact List.forall_mem_singleton.mpr (closed.offer_text text _ comma)
  | columns texts =>
    refine Supply.Closed.offer_texts texts ", " (fun text member => ?_) comma
    exact closed.texts _ (List.mem_map.mpr ⟨text, member, rfl⟩)
  | distinct => exact List.forall_mem_singleton.mpr (Offer.closed_plain none _ .nil (by decide))
  | all => exact List.forall_mem_singleton.mpr (Offer.closed_plain none _ .nil (by decide))
  | source table => exact List.forall_mem_singleton.mpr (closed.offer_text table _ comma)
  | sourceQuery template query =>
    exact List.forall_mem_singleton.mpr ⟨comma, substitute_closed template query closed⟩
  | join kind text params =>
    have own : Text.Closed text.toList := closed.texts _ (List.mem_singleton_self _)
    refine List.forall_mem_singleton.mpr ⟨space, fun fragment content => ?_⟩
    cases content
    have keyword : Text.Closed (kind.keyword ++ " ").toList := by
      cases kind <;> decide
    by_cases empty : text = ""
    · rw [empty, joinFragment_empty]
      exact .nil
    · rw [joinFragment_filled kind text params empty, String.toList_append]
      exact keyword.append _ _ own
  | joinQuery template query =>
    refine List.forall_mem_singleton.mpr ⟨space, fun fragment content => ?_⟩
    obtain ⟨inner, substituted, rfl⟩ := (joinQuery_eq_ok_iff template query fragment).mp content
    have own := substitute_closed template query closed inner substituted
    have keyword : Text.Closed (JoinKind.plain.keyword ++ " ").toList := by decide
    rw [String.toList_append]
    exact keyword.append _ _ own
  | condition call => exact List.forall_mem_singleton.mpr (call.closed_offer closed)
  | groupBy text => exact List.forall_mem_singleton.mpr (closed.offer_text text _ comma)
  | groupCondition call => exact List.forall_mem_singleton.mpr (call.closed_offer closed)
  | orderBy text => exact List.forall_mem_singleton.mpr (closed.offer_text text _ comma)
  | offset count => exact List.forall_mem_singleton.mpr (Offer.closed_count count)
  | limit count => exact List.forall_mem_singleton.mpr (Offer.closed_count count)
  | withoutOffset => simp [Call.offers]
  | withoutLimit => simp [Call.offers]

theorem UnionStatement.nested_of_branch (query : Rendering) (fragment : Fragment)
    (branched : branch? query = .ok (some fragment)) : query.nested = .ok fragment.text := by
  unfold branch? at branched
  cases rendered : query.text with
  | error error => simp [rendered, bind, Except.bind] at branched
  | ok text =>
    obtain ⟨sql, nested⟩ := query.nested_of_text text rendered
    by_cases empty : text = ""
    · simp [rendered, bind, Except.bind, pure, Except.pure, empty] at branched
    · simp [rendered, nested, bind, Except.bind, pure, Except.pure, empty] at branched
      rw [nested, ← branched]

theorem UnionStatement.closed_offers (made : Call) (closed : made.supply.Closed none)
    (part : Part) : ∀ offer ∈ Call.offers part made, offer.Closed := by
  cases made with
  | branch kind query =>
    cases part with
    | branches =>
      have operator : Text.Closed kind.operator.toList := by
        cases kind <;> decide
      have inner := closed.nested query (List.mem_singleton_self _)
      rw [Call.offers, branchOffers]
      split
      · rename_i fragment branched
        refine List.forall_mem_singleton.mpr ⟨operator, fun other content => ?_⟩
        cases content
        exact inner.nested query _ (nested_of_branch query fragment branched)
      · simp
      · exact List.forall_mem_singleton.mpr ⟨operator, by simp⟩
    | _ => simp [Call.offers]
  | orderBy text =>
    cases part with
    | ordering => exact List.forall_mem_singleton.mpr (closed.offer_text text _ (by decide))
    | _ => simp [Call.offers]
  | offset count =>
    cases part with
    | offset => exact List.forall_mem_singleton.mpr (Offer.closed_count count)
    | _ => simp [Call.offers]
  | limit count =>
    cases part with
    | limit => exact List.forall_mem_singleton.mpr (Offer.closed_count count)
    | _ => simp [Call.offers]

theorem InsertStatement.closed_offers (made : Call) (closed : made.supply.Closed none)
    (part : Part) : ∀ offer ∈ Call.offers part made, offer.Closed := by
  have comma : Text.Closed ", ".toList := by decide
  have slot (value : Value) : (Offer.mk (some ", ") (.ok ⟨"?", [value]⟩)).Closed := by
    have mark : Text.Closed "?".toList := by decide
    refine ⟨comma, fun fragment content => ?_⟩
    cases content
    exact mark
  have named (column : String) (handed : ⟨column, 0⟩ ∈ made.supply.texts) :
      (Offer.plain (some ", ") column).Closed :=
    Offer.closed_plain _ column comma (closed.texts _ handed)
  cases made with
  | table text =>
    cases part with
    | table => exact List.forall_mem_singleton.mpr (closed.offer_text text none .nil)
    | _ => simp [Call.offers]
  | set column value =>
    cases part with
    | columns => exact List.forall_mem_singleton.mpr (named column List.mem_cons_self)
    | values => exact List.forall_mem_singleton.mpr (slot value)
    | _ => simp [Call.offers]
  | setOptional column value? =>
    cases value? with
    | none => cases part <;> simp [Call.offers]
    | some value =>
      cases part with
      | columns => exact List.forall_mem_singleton.mpr (named column List.mem_cons_self)
      | values => exact List.forall_mem_singleton.mpr (slot value)
      | _ => simp [Call.offers]
  | setExpression column text params =>
    cases part with
    | columns => exact List.forall_mem_singleton.mpr (named column List.mem_cons_self)
    | values =>
      refine List.forall_mem_singleton.mpr ⟨comma, fun fragment content => ?_⟩
      cases content
      exact closed.texts ⟨text, params.length⟩ (by simp [Call.supply])
    | _ => simp [Call.offers]
  | columns texts =>
    cases part with
    | columns =>
      refine Supply.Closed.offer_texts texts ", " (fun text member => ?_) comma
      exact closed.texts _ (List.mem_map.mpr ⟨text, member, rfl⟩)
    | _ => simp [Call.offers]
  | defaultValues =>
    cases part with
    | defaults => exact List.forall_mem_singleton.mpr (Offer.closed_plain none _ .nil (by decide))
    | _ => simp [Call.offers]
  | query rendering =>
    cases part with
    | query =>
      have inner := closed.nested rendering (List.mem_singleton_self _)
      exact List.forall_mem_singleton.mpr (Offer.closed_rendering none rendering .nil inner)
    | _ => simp [Call.offers]
  | returning text =>
    cases part with
    | returning => exact List.forall_mem_singleton.mpr (closed.offer_text text _ comma)
    | _ => simp [Call.offers]

theorem UpdateStatement.closed_offers (made : Call) (closed : made.supply.Closed made.template?)
    (part : Part) : ∀ offer ∈ Call.offers part made, offer.Closed := by
  have comma : Text.Closed ", ".toList := by decide
  have assigned (column : String) (value : Value) (handed : ⟨column, 0⟩ ∈ made.supply.texts) :
      (Offer.mk (some ", ") (.ok ⟨column ++ " = ?", [value]⟩)).Closed := by
    refine ⟨comma, fun fragment content => ?_⟩
    cases content
    rw [String.toList_append]
    exact (closed.texts _ handed).append _ _ (by decide)
  cases made with
  | table text =>
    cases part with
    | table => exact List.forall_mem_singleton.mpr (closed.offer_text text none .nil)
    | _ => simp [Call.offers]
  | set column value =>
    cases part with
    | assignments => exact List.forall_mem_singleton.mpr (assigned column value List.mem_cons_self)
    | _ => simp [Call.offers]
  | setOptional column value? =>
    cases value? with
    | none => cases part <;> simp [Call.offers]
    | some value =>
      cases part with
      | assignments =>
        exact List.forall_mem_singleton.mpr (assigned column value List.mem_cons_self)
      | _ => simp [Call.offers]
  | assignment text params =>
    cases part with
    | assignments =>
      refine List.forall_mem_singleton.mpr ⟨comma, fun fragment content => ?_⟩
      cases content
      exact closed.texts _ List.mem_cons_self
    | _ => simp [Call.offers]
  | condition call =>
    cases part with
    | condition => exact List.forall_mem_singleton.mpr (call.closed_offer closed)
    | _ => simp [Call.offers]
  | returning text =>
    cases part with
    | returning => exact List.forall_mem_singleton.mpr (closed.offer_text text _ comma)
    | _ => simp [Call.offers]

theorem DeleteStatement.closed_offers (made : Call) (closed : made.supply.Closed made.template?)
    (part : Part) : ∀ offer ∈ Call.offers part made, offer.Closed := by
  cases made with
  | table text =>
    cases part with
    | table => exact List.forall_mem_singleton.mpr (closed.offer_text text none .nil)
    | _ => simp [Call.offers]
  | condition call =>
    cases part with
    | condition => exact List.forall_mem_singleton.mpr (call.closed_offer closed)
    | _ => simp [Call.offers]
  | returning text =>
    cases part with
    | returning => exact List.forall_mem_singleton.mpr (closed.offer_text text _ (by decide))
    | _ => simp [Call.offers]

end SqlCompose
