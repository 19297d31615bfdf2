import SqlCompose.History.Select
import SqlCompose.Proofs.Ledger

/-! Every clause of a SELECT statement follows the calls that write to it, whatever calls stand
between them; and the statement renders as its clauses are laid out. -/
namespace SqlCompose.SelectStatement

def held (statement : SelectStatement) : Part → BoundPhrase
  | .quantifier => ⟨statement.quantifier, []⟩
  | .columns => ⟨statement.columns, []⟩
  | .source => statement.source
  | .joins => statement.joins
  | .condition => statement.condition.clause
  | .grouping => ⟨statement.grouping, []⟩
  | .groupCondition => statement.groupCondition.clause
  | .ordering => ⟨statement.ordering, []⟩
  | .offset => ⟨statement.offset, []⟩
  | .limit => ⟨statement.limit, []⟩

theorem offered_snoc (part : Part) (calls : List Call) (call : Call) :
    offered part (calls ++ [call]) =
      if call.part = part then
        if call.clears then [] else offered part calls ++ call.offers
      else offered part calls := by
  unfold offered
  rw [List.filter_append, List.foldl_append]
  by_cases own : call.part = part
  · simp [own]
  · simp [own]

theorem offered_run (part : Part) (before : List Call) (made : Call) :
    offered part (before ++ [made]) =
      if (made.part = part && made.clears) = true then []
      else offered part before ++ if made.part = part then made.offers else [] := by
  rw [offered_snoc]
  by_cases own : made.part = part <;> simp [own]

/-- All that a clause was offered comes from calls that write to it and are not followed by one that
clears it. -/
theorem mem_offered (part : Part) (calls : List Call) (offer : Offer) :
    offer ∈ offered part calls ↔
      ∃ before made after, calls = before ++ made :: after ∧ made.part = part ∧
        made.clears = false ∧ offer ∈ made.offers ∧
        ∀ later ∈ after, later.part = part → later.clears = false := by
  rw [mem_run (offered part) _ _ rfl (offered_run part)]
  constructor
  · intro place
    obtain ⟨before, made, after, split, kept, offers, alone⟩ := place
    split at offers
    · rename_i own
      simp only [own, decide_true, Bool.true_and] at kept
      exact ⟨before, made, after, split, own, kept, offers, by simpa using alone⟩
    · simp at offers
  · intro place
    obtain ⟨before, made, after, split, own, kept, offers, alone⟩ := place
    exact ⟨before, made, after, split, by simp [kept], by simpa [own] using offers,
      by simpa using alone⟩

theorem offered_joint (part : Part) (joint : Option String)
    (separated : part.separator? = some joint) (calls : List Call) (offer : Offer)
    (member : offer ∈ offered part calls) :
    offer.joint = joint := by
  obtain ⟨_, made, _, _, rfl, _, offers, _⟩ := (mem_offered part calls offer).mp member
  cases made with
  | columns texts =>
    cases separated
    obtain ⟨text, _, rfl⟩ := List.mem_map.mp offers
    rfl
  | withoutOffset => simp [Call.offers] at offers
  | withoutLimit => simp [Call.offers] at offers
  | condition call => cases separated
  | groupCondition call => cases separated
  | _ =>
    cases separated
    exact congrArg Offer.joint (List.mem_singleton.mp offers)

theorem offered_filled (part : Part) (single : part.separator? = some none) (calls : List Call)
    (offer : Offer) (member : offer ∈ offered part calls) : offer.link? ≠ none := by
  obtain ⟨_, made, _, _, rfl, _, offers, _⟩ := (mem_offered part calls offer).mp member
  cases made with
  | withoutOffset => simp [Call.offers] at offers
  | withoutLimit => simp [Call.offers] at offers
  | distinct =>
    rw [List.mem_singleton.mp offers]
    decide
  | all =>
    rw [List.mem_singleton.mp offers]
    decide
  | offset count =>
    rw [List.mem_singleton.mp offers]
    simp [Offer.plain, Offer.link?]
  | limit count =>
    rw [List.mem_singleton.mp offers]
    simp [Offer.plain, Offer.link?]
  | _ => cases single

theorem call_elsewhere (statement : SelectStatement) (made : Call) (part : Part)
    (elsewhere : made.part ≠ part) : (statement.call made).held part = statement.held part := by
  cases made <;> cases part <;> first | rfl | exact absurd rfl elsewhere

theorem turn_own (statement : SelectStatement) (made : Call) (offers : List Offer) :
    BoundPhrase.Turn made.part.separator? (statement.held made.part) offers
      ((statement.call made).held made.part)
      (if made.clears then [] else offers ++ made.offers) := by
  cases made with
  | column text => exact .taken _ rfl (.ok ⟨text, []⟩)
  | columns texts => exact .texts _ rfl _ rfl texts
  | distinct => exact .taken _ rfl (.ok ⟨"DISTINCT", []⟩)
  | all => exact .taken _ rfl (.ok ⟨"ALL", []⟩)
  | source table => exact .taken _ rfl (.ok ⟨table, []⟩)
  | sourceQuery template query => exact .taken _ rfl (substitute template query)
  | join kind text params => exact .taken _ rfl (.ok (joinFragment kind text params))
  | joinQuery template query => exact .taken _ rfl (SelectStatement.joinQuery template query)
  | condition call => exact .behind rfl call.operator.text call.fragment
  | groupBy text => exact .taken _ rfl (.ok ⟨text, []⟩)
  | groupCondition call => exact .behind rfl call.operator.text call.fragment
  | orderBy text => exact .taken _ rfl (.ok ⟨text, []⟩)
  | offset count => exact .taken _ rfl (.ok ⟨toString count.toNat, []⟩)
  | limit count => exact .taken _ rfl (.ok ⟨toString count.toNat, []⟩)
  | withoutOffset => exact .cleared _ rfl
  | withoutLimit => exact .cleared _ rfl

theorem turn_call (statement : SelectStatement) (before : List Call) (made : Call) (part : Part) :
    BoundPhrase.Turn part.separator? (statement.held part) (offered part before)
      ((statement.call made).held part) (offered part (before ++ [made])) := by
  rw [offered_snoc]
  by_cases own : made.part = part
  · subst own
    rw [if_pos rfl]
    exact turn_own statement made _
  · rw [if_neg own, call_elsewhere statement made part own]
    exact .kept _ rfl

theorem follows_new (part : Part) :
    (held {} part).Follows part.separator? part.lead "" (offered part []) := by
  refine ⟨?_, ?_⟩
  · cases part <;> exact ⟨Phrase.holds_clause _ _, rfl⟩
  · intro separator separated
    cases part <;> first | exact Option.some.inj separated | cases separated

theorem follows_ofCalls (calls : List Call) (part : Part) :
    ((ofCalls calls).held part).Follows part.separator? part.lead "" (offered part calls) :=
  foldl_follows SelectStatement.call held Part.lead (fun _ => "") Part.separator? offered {}
    follows_new turn_call calls part

theorem holds_ofCalls (calls : List Call) (part : Part) :
    ((ofCalls calls).held part).phrase.Holds part.lead "" (offered part calls) :=
  (follows_ofCalls calls part).holds.phrase

theorem params_part (calls : List Call) (part : Part) :
    ((ofCalls calls).held part).params = (ledger calls part).params :=
  (follows_ofCalls calls part).holds.params

theorem quantified_call (statement : SelectStatement) (offers : List Offer) (made : Call)
    (holds : statement.quantifier.Holds "" "" offers)
    (quantified : statement.quantifier.fault.isSome → statement.quantifier.hasText) :
    (statement.call made).quantifier.fault.isSome → (statement.call made).quantifier.hasText := by
  cases made with
  | distinct => exact fun _ => holds.append_hasText quantified "DISTINCT" (by decide)
  | all => exact fun _ => holds.append_hasText quantified "ALL" (by decide)
  | _ => exact quantified

/-- A quantifier is misused by a second one only, so that there is a first one. -/
theorem quantified_ofCalls (calls : List Call) :
    (ofCalls calls).quantifier.fault.isSome → (ofCalls calls).quantifier.hasText := by
  refine (foldl_keeps SelectStatement.call (fun statement before => statement = ofCalls before ∧
    (statement.quantifier.fault.isSome → statement.quantifier.hasText)) ?_ {} [] calls ?_).2
  · intro statement before made follows
    obtain ⟨rfl, quantified⟩ := follows
    refine ⟨?_, quantified_call _ _ made (holds_ofCalls before .quantifier) quantified⟩
    simp [ofCalls, List.foldl_append]
  · exact ⟨rfl, fun struck => by cases struck⟩

theorem render_part (calls : List Call) (part : Part) :
    ((ofCalls calls).held part).phrase.render =
      outcome [(ledger calls part).misuse?] ((ledger calls part).text?.getD "") :=
  (holds_ofCalls calls part).render_eq

theorem quantifier_absent (calls : List Call) (empty : (ofCalls calls).quantifier.isEmpty = true) :
    (ledger calls .quantifier).misuse? = none ∧ quantifierWord calls = "" := by
  have holds := holds_ofCalls calls .quantifier
  have untouched : (ofCalls calls).quantifier.hasText = false := by
    simpa [Phrase.isEmpty] using empty
  have sound : (ofCalls calls).quantifier.fault = none := by
    have quantified := quantified_ofCalls calls
    rw [untouched] at quantified
    simpa using quantified
  obtain ⟨_, _, given⟩ := holds.content sound
  have links : Offer.links (offered .quantifier calls) = [] := by
    simpa [held, untouched] using given
  refine ⟨?_, ?_⟩
  · exact holds.fault.symm.trans sound
  · unfold quantifierWord
    rw [Ledger.text?_of_nil _ links]

theorem quantifier_present (calls : List Call) (text : String)
    (filled : (ofCalls calls).quantifier.isEmpty = false)
    (rendered : (ofCalls calls).quantifier.render = .ok text) :
    quantifierWord calls = text ++ " " := by
  have holds := holds_ofCalls calls .quantifier
  have touched : (ofCalls calls).quantifier.hasText = true := by
    simpa [Phrase.isEmpty] using filled
  rw [show (ofCalls calls).quantifier.render = _ from render_part calls .quantifier,
    outcome_ok_iff] at rendered
  obtain ⟨unmisused, rfl⟩ := rendered
  have unspoilt : (ledger calls .quantifier).misuse? = none := by simpa using unmisused
  have sound : (ofCalls calls).quantifier.fault = none := holds.fault.trans unspoilt
  obtain ⟨_, _, given⟩ := holds.content sound
  have links : Offer.links (offered .quantifier calls) ≠ [] := by
    simpa [held, touched] using given
  unfold quantifierWord
  rw [Ledger.text?_of_ne_nil _ links]
  rfl

theorem render_columns (calls : List Call) :
    (ofCalls calls).renderColumns =
      outcome [(ledger calls .quantifier).misuse?, (ledger calls .columns).misuse?]
        ((Ledger.text? ⟨"SELECT " ++ quantifierWord calls, "",
          offered .columns calls⟩).getD "") := by
  have columns := holds_ofCalls calls .columns
  have lead : (ofCalls calls).columns.lead = some "SELECT " := columns.leads
  unfold renderColumns
  cases empty : (ofCalls calls).quantifier.isEmpty with
  | true =>
    obtain ⟨unmisused, absent⟩ := quantifier_absent calls empty
    rw [unmisused, absent]
    exact columns.render_eq
  | false =>
    have present := quantifier_present calls
    have quantifier : (ofCalls calls).quantifier.render = _ := render_part calls .quantifier
    rw [quantifier] at present ⊢
    cases misused : (ledger calls .quantifier).misuse? with
    | some error => rfl
    | none =>
      rw [misused] at present
      rw [present _ empty rfl]
      simp only [Bool.false_eq_true, if_false, lead]
      refine outcome_bind [none] _ _ _ _ ?_
      rw [← String.append_assoc]
      exact columns.renderWith_eq _

theorem render_condition (calls : List Call) (headed : Bool) :
    (ofCalls calls).condition.renderHeaded headed =
      outcome [(ledger calls .condition).misuse?]
        ((Ledger.text? ⟨if headed then "WHERE " else "", "",
          offered .condition calls⟩).getD "") :=
  Condition.renderHeaded_eq (holds_ofCalls calls .condition) headed

theorem render_ofCalls (calls : List Call) :
    (ofCalls calls).render = outcome (misuses calls) (Ledger.layout (ledgers calls)) := by
  unfold render
  rw [render_columns]
  refine outcome_bind _ _ _ _ _ ?_
  rw [show (ofCalls calls).source.render = _ from render_part calls .source]
  refine outcome_bind [_] _ _ _ _ ?_
  rw [show (ofCalls calls).joins.render = _ from render_part calls .joins]
  refine outcome_bind [_] _ _ _ _ ?_
  simp only [Ledger.text?_getD_isEmpty]
  rw [render_condition]
  refine outcome_bind [_] _ _ _ _ ?_
  rw [show (ofCalls calls).grouping.render = _ from render_part calls .grouping]
  refine outcome_bind [_] _ _ _ _ ?_
  rw [show (ofCalls calls).groupCondition.render = _ from render_part calls .groupCondition]
  refine outcome_bind [_] _ _ _ _ ?_
  rw [show (ofCalls calls).ordering.render = _ from render_part calls .ordering]
  refine outcome_bind [_] _ _ _ _ ?_
  rw [show (ofCalls calls).offset.render = _ from render_part calls .offset]
  refine outcome_bind [_] _ _ _ _ ?_
  rw [show (ofCalls calls).limit.render = _ from render_part calls .limit]
  refine outcome_bind [_] [] _ _ _ ?_
  rw [← Ledger.joinClauses_texts]
  rfl

end SqlCompose.SelectStatement
