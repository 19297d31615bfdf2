import SqlCompose.History.Misuse
import SqlCompose.Proofs.History

/-! A builder fails to render exactly when a call misused it, and with the first misuse of the
first clause that was misused. -/
namespace SqlCompose

namespace Offer

theorem misuse?_joined (clause : String) (before : List Link) (joint : String)
    (content : Except Error Fragment) :
    ((⟨some joint, content⟩ : Offer).misuse? clause before).isSome ↔
      ∃ error, content = .error error := by
  cases content <;> simp [misuse?]

theorem misuse?_single (clause : String) (before : List Link) (content : Except Error Fragment) :
    ((⟨none, content⟩ : Offer).misuse? clause before).isSome ↔
      (∃ error, content = .error error) ∨
      before ≠ [] ∧ ∃ fragment, content = .ok fragment ∧ fragment.text ≠ "" := by
  cases content with
  | error error => simp [misuse?]
  | ok fragment =>
    cases before <;> simp [misuse?]

theorem misuse?_texts (clause : String) (before : List Link) (joint : String)
    (texts : List String) :
    firstMisuse? clause before (texts.map (plain (some joint))) = none := by
  refine firstMisuse?_of_joined clause before _ fun offer member => ?_
  obtain ⟨text, _, rfl⟩ := List.mem_map.mp member
  exact ⟨joint, ⟨text, []⟩, rfl⟩

@[simp]
theorem links_nil : links [] = [] := rfl

@[simp]
theorem links_single_eq_nil_iff (offer : Offer) :
    links [offer] = [] ↔ offer.link? = none := by
  cases found : offer.link? <;> simp [links, found]

@[simp]
theorem link?_plain_eq_none_iff (joint : Option String) (text : String) :
    (plain joint text).link? = none ↔ text = "" := by
  simp [plain, link?, String.isEmpty_iff]

theorem links_ne_nil_iff (offers : List Offer) :
    links offers ≠ [] ↔ ∃ offer ∈ offers, ∃ fragment, offer.content = .ok fragment ∧
      fragment.text ≠ "" := by
  induction offers with
  | nil => simp [links]
  | cons offer rest ih =>
    rw [links_cons]
    cases content : offer.content with
    | error error => simpa [link?, content] using ih
    | ok fragment =>
      by_cases empty : fragment.text = "" <;> simp [link?, content, empty]
      simpa using ih

end Offer

namespace Rendering

theorem fragment_fails_iff (rendering : Rendering) :
    (∃ error, rendering.fragment = .error error) ↔ rendering.Fails :=
  exists_congr rendering.fragment_eq_error_iff

theorem fragment_hasText_iff (rendering : Rendering) :
    (∃ fragment, rendering.fragment = .ok fragment ∧ fragment.text ≠ "") ↔ rendering.HasText := by
  constructor
  · rintro ⟨fragment, rendered, filled⟩
    exact ⟨fragment.text, ((rendering.fragment_eq_ok_iff fragment).mp rendered).1, filled⟩
  · rintro ⟨text, rendered, filled⟩
    exact ⟨⟨text, _⟩, (rendering.fragment_eq_ok_iff _).mpr ⟨rendered, rfl⟩, filled⟩

theorem nested_of_text (rendering : Rendering) (text : String)
    (rendered : rendering.text = .ok text) : ∃ sql, rendering.nested = .ok sql := by
  unfold nested
  split <;> simp [rendered, Except.map]

end Rendering

/-- A query that does not fit gives the error of its template, or else its own, or else the one of
an empty query. -/
theorem substitute_error_iff (template : String) (query : Rendering) (error : Error) :
    substitute template query = .error error ↔
      slotCount template = 0 ∧ error = .tooManyParameters template 0 1 ∨
      1 < slotCount template ∧ error = .tooFewParameters template (slotCount template) 1 ∨
      slotCount template = 1 ∧ query.text = .error error ∨
      slotCount template = 1 ∧ query.text = .ok "" ∧ error = .misuse (.emptyQuery template) := by
  by_cases one : slotCount template = 1
  · cases rendered : query.text with
    | error own =>
      simp [substitute, checkParameterCount, one, rendered, bind, Except.bind]
    | ok text =>
      by_cases empty : text = ""
      · simp [substitute, checkParameterCount, one, rendered, bind, Except.bind, empty, throw,
          throwThe, MonadExceptOf.throw, @eq_comm Error error]
      · obtain ⟨sql, nested⟩ := query.nested_of_text text rendered
        simp [substitute, checkParameterCount, one, rendered, bind, Except.bind, empty, nested,
          pure, Except.pure]
  · by_cases zero : slotCount template = 0
    · simp [substitute, checkParameterCount, zero, bind, Except.bind, @eq_comm Error error]
    · have many : 1 < slotCount template := by omega
      have few : ¬ slotCount template < 1 := by omega
      simp [substitute, checkParameterCount, one, zero, few, many, bind, Except.bind,
        @eq_comm Error error]

theorem substitute_fails_iff (template : String) (query : Rendering) :
    (∃ error, substitute template query = .error error) ↔ query.Misfits template := by
  constructor
  · intro misuse
    obtain ⟨error, failed⟩ := misuse
    rw [substitute_error_iff] at failed
    obtain ⟨zero, _⟩ | ⟨many, _⟩ | ⟨_, own⟩ | ⟨_, empty, _⟩ := failed
    · exact .inl (by omega)
    · exact .inl (by omega)
    · exact .inr (.inl ⟨error, own⟩)
    · exact .inr (.inr empty)
  · intro misfits
    simp only [substitute_error_iff]
    by_cases one : slotCount template = 1
    · obtain other | ⟨error, own⟩ | empty := misfits
      · exact absurd one other
      · exact ⟨error, .inr (.inr (.inl ⟨one, own⟩))⟩
      · exact ⟨_, .inr (.inr (.inr ⟨one, empty, rfl⟩))⟩
    · by_cases zero : slotCount template = 0
      · exact ⟨_, .inl ⟨zero, rfl⟩⟩
      · exact ⟨_, .inr (.inl ⟨by omega, rfl⟩)⟩

theorem Condition.Call.fragment_fails_iff (made : Condition.Call) :
    (∃ error, made.fragment = .error error) ↔ made.Misused := by
  cases made with
  | expression operator text params => simp [fragment, Misused]
  | group operator nested => exact nested.rendering.fragment_fails_iff
  | query operator template rendering => exact substitute_fails_iff template rendering

namespace SelectStatement

theorem repeats_iff (made : Call) (single : made.part.separator? = some none)
    (before : List Call) :
    Offer.links (offered made.part before) ≠ [] ↔ made.Repeats before := by
  have filled : Offer.links (offered made.part before) ≠ [] ↔
      ∃ offer, offer ∈ offered made.part before := by
    rw [ne_eq, Offer.links, List.filterMap_eq_nil_iff]
    simp only [not_forall]
    constructor
    · intro linked
      obtain ⟨offer, held, _⟩ := linked
      exact ⟨offer, held⟩
    · intro given
      obtain ⟨offer, held⟩ := given
      exact ⟨offer, held, offered_filled made.part single before offer held⟩
  simp only [filled, mem_offered]
  constructor
  · intro writes
    obtain ⟨_, first, given, rest, split, own, kept, _, alone⟩ := writes
    exact ⟨first, given, rest, split, own, kept, alone⟩
  · intro repeats
    obtain ⟨first, given, rest, split, own, kept, alone⟩ := repeats
    have offers : ∃ offer, offer ∈ given.offers := by
      rw [← own] at single
      cases given with
      | columns texts => simp [Call.part, Part.separator?] at single
      | withoutOffset => cases kept
      | withoutLimit => cases kept
      | _ => exact ⟨_, List.mem_singleton_self _⟩
    obtain ⟨offer, offers⟩ := offers
    exact ⟨offer, first, given, rest, split, own, kept, offers, alone⟩

theorem misuse_iff (before : List Call) (made : Call) :
    (Offer.firstMisuse? (Text.trimmed made.part.lead) (Offer.links (offered made.part before))
      made.offers).isSome ↔ made.Misused before := by
  have repeated (text : String) (filled : text ≠ "")
      (single : made.part.separator? = some none) :
      ((Offer.plain none text).misuse? (Text.trimmed made.part.lead)
        (Offer.links (offered made.part before))).isSome ↔ made.Repeats before := by
    rw [Offer.plain, Offer.misuse?_single, ← repeats_iff made single]
    simp [filled]
  have counted (count : UInt64) : toString count.toNat ≠ "" := Nat.repr_ne_empty
  cases made with
  | column text => simp [Call.offers, Call.Misused, Offer.plain, Offer.misuse?]
  | columns texts => simp [Call.offers, Call.Misused, Offer.misuse?_texts]
  | distinct => simpa [Call.offers, Call.Misused] using repeated "DISTINCT" (by decide) rfl
  | all => simpa [Call.offers, Call.Misused] using repeated "ALL" (by decide) rfl
  | source table => simp [Call.offers, Call.Misused, Offer.plain, Offer.misuse?]
  | sourceQuery template query =>
    rw [Call.offers, Offer.firstMisuse?_singleton, Offer.misuse?_joined]
    exact substitute_fails_iff template query
  | join kind text params => simp [Call.offers, Call.Misused, Offer.misuse?]
  | joinQuery template query =>
    rw [Call.offers, Offer.firstMisuse?_singleton, Offer.misuse?_joined]
    exact (exists_congr (SelectStatement.joinQuery_eq_error_iff template query)).trans
      (substitute_fails_iff template query)
  | condition call =>
    rw [Call.offers, Offer.firstMisuse?_singleton, Condition.Call.offer, Offer.misuse?_joined]
    exact call.fragment_fails_iff
  | groupBy text => simp [Call.offers, Call.Misused, Offer.plain, Offer.misuse?]
  | groupCondition call =>
    rw [Call.offers, Offer.firstMisuse?_singleton, Condition.Call.offer, Offer.misuse?_joined]
    exact call.fragment_fails_iff
  | orderBy text => simp [Call.offers, Call.Misused, Offer.plain, Offer.misuse?]
  | offset count => simpa [Call.offers, Call.Misused] using repeated _ (counted count) rfl
  | limit count => simpa [Call.offers, Call.Misused] using repeated _ (counted count) rfl
  | withoutOffset => simp [Call.offers, Call.Misused, Offer.firstMisuse?]
  | withoutLimit => simp [Call.offers, Call.Misused, Offer.firstMisuse?]

theorem misused_iff (calls : List Call) :
    (∃ part, (ledger calls part).misuse?.isSome) ↔ Misused calls := by
  unfold Ledger.misuse? ledger
  simp only [firstMisuse?_run (offered _) _ _ rfl (offered_run _)]
  constructor
  · intro misuse
    obtain ⟨part, before, made, after, split, kept, misused, alone⟩ := misuse
    split at misused
    · rename_i own
      subst own
      have unaffected : made.Unaffected after := by simpa [Call.Unaffected] using alone
      exact ⟨before, made, after, split, (misuse_iff before made).mp misused, unaffected⟩
    · simp [Offer.firstMisuse?] at misused
  · intro misuse
    obtain ⟨before, made, after, split, misused, alone⟩ := misuse
    have kept : made.clears = false := by
      cases made <;> first | rfl | exact misused.elim
    have struck := (misuse_iff before made).mpr misused
    refine ⟨made.part, before, made, after, split, by simp [kept], by simpa using struck, ?_⟩
    simpa [Call.Unaffected] using alone

end SelectStatement

section Run

variable {Call Part : Type} (offers : Part → Call → List Offer) (lead : Part → String)

def MisusesAt (before : List Call) (made : Call) (part : Part) : Prop :=
  (Offer.firstMisuse? (Text.trimmed (lead part))
    (Offer.links (before.flatMap (offers part))) (offers part made)).isSome

theorem misusesAt_alone (before : List Call) (made : Call) (part : Part)
    (elsewhere : ∀ other, other ≠ part → offers other made = []) :
    (∃ part, MisusesAt offers lead before made part) ↔ MisusesAt offers lead before made part := by
  constructor
  · intro misuse
    obtain ⟨other, misused⟩ := misuse
    by_cases same : other = part
    · rw [← same]
      exact misused
    · rw [MisusesAt, elsewhere other same] at misused
      cases misused
  · intro misused
    exact ⟨part, misused⟩

theorem misusesAt_run (calls : List Call) :
    (∃ part, (Offer.firstMisuse? (Text.trimmed (lead part)) []
      (calls.flatMap (offers part))).isSome) ↔
        ∃ before made after, calls = before ++ made :: after ∧
          ∃ part, MisusesAt offers lead before made part := by
  have run (part : Part) := firstMisuse?_run (fun before => before.flatMap (offers part))
    (offers part) (fun _ => false) rfl (by simp) (Text.trimmed (lead part)) calls
  simp only [run]
  constructor
  · intro misuse
    obtain ⟨part, before, made, after, split, _, misused, _⟩ := misuse
    exact ⟨before, made, after, split, part, misused⟩
  · intro misuse
    obtain ⟨before, made, after, split, part, misused⟩ := misuse
    exact ⟨part, before, made, after, split, trivial, misused, by simp⟩

theorem misusesAt_joined (before : List Call) (made : Call) (part : Part) (joint : String)
    (content : Except Error Fragment) (offered : offers part made = [⟨some joint, content⟩])
    (elsewhere : ∀ other, other ≠ part → offers other made = []) :
    (∃ part, MisusesAt offers lead before made part) ↔ ∃ error, content = .error error := by
  rw [misusesAt_alone offers lead before made part elsewhere, MisusesAt, offered,
    Offer.firstMisuse?_singleton, Offer.misuse?_joined]

theorem misusesAt_single (before : List Call) (made : Call) (part : Part)
    (content : Except Error Fragment) (offered : offers part made = [⟨none, content⟩])
    (elsewhere : ∀ other, other ≠ part → offers other made = []) :
    (∃ part, MisusesAt offers lead before made part) ↔
      (∃ error, content = .error error) ∨
      (∃ earlier ∈ before, Offer.links (offers part earlier) ≠ []) ∧
        ∃ fragment, content = .ok fragment ∧ fragment.text ≠ "" := by
  have given : Offer.links (before.flatMap (offers part)) ≠ [] ↔
      ∃ earlier ∈ before, Offer.links (offers part earlier) ≠ [] := by
    simp only [Offer.links_ne_nil_iff, List.mem_flatMap]
    constructor
    · intro filled
      obtain ⟨offer, ⟨earlier, present, offered⟩, filled⟩ := filled
      exact ⟨earlier, present, offer, offered, filled⟩
    · intro filled
      obtain ⟨earlier, present, offer, offered, filled⟩ := filled
      exact ⟨offer, ⟨earlier, present, offered⟩, filled⟩
  rw [misusesAt_alone offers lead before made part elsewhere, MisusesAt, offered,
    Offer.firstMisuse?_singleton, Offer.misuse?_single, given]

theorem misusesAt_plain (before : List Call) (made : Call) (part : Part) (text : String)
    (offered : offers part made = [.plain none text])
    (elsewhere : ∀ other, other ≠ part → offers other made = []) :
    (∃ part, MisusesAt offers lead before made part) ↔
      text ≠ "" ∧ ∃ earlier ∈ before, Offer.links (offers part earlier) ≠ [] := by
  rw [misusesAt_single offers lead before made part _ offered elsewhere, and_comm]
  simp

theorem earlier_iff {Input : Type} (make : Input → Call) (Filled : Input → Prop) (part : Part)
    (before : List Call)
    (own : ∀ input, Offer.links (offers part (make input)) ≠ [] ↔ Filled input)
    (only : ∀ made, Offer.links (offers part made) ≠ [] → ∃ input, made = make input) :
    (∃ earlier ∈ before, Offer.links (offers part earlier) ≠ []) ↔
      ∃ input, make input ∈ before ∧ Filled input := by
  constructor
  · intro given
    obtain ⟨earlier, present, filled⟩ := given
    obtain ⟨input, rfl⟩ := only earlier filled
    exact ⟨input, present, (own input).mp filled⟩
  · intro given
    obtain ⟨input, present, filled⟩ := given
    exact ⟨make input, present, (own input).mpr filled⟩

end Run

namespace UnionStatement

theorem branchOffers_misuse_iff (clause : String) (before : List Link) (kind : UnionKind)
    (query : Rendering) :
    (Offer.firstMisuse? clause before (branchOffers kind query)).isSome ↔ query.Fails := by
  unfold branchOffers branch? Rendering.Fails
  cases rendered : query.text with
  | error error => simp [bind, Except.bind, Offer.misuse?]
  | ok text =>
    obtain ⟨sql, nested⟩ := query.nested_of_text text rendered
    by_cases empty : text = ""
    · simp [bind, Except.bind, pure, Except.pure, empty, Offer.firstMisuse?]
    · simp [bind, Except.bind, pure, Except.pure, empty, nested, Offer.misuse?]

theorem misuse_iff (before : List Call) (made : Call) :
    (∃ part, MisusesAt Call.offers Part.lead before made part) ↔ made.Misused before := by
  have counted (count : UInt64) : toString count.toNat ≠ "" := Nat.repr_ne_empty
  cases made with
  | branch kind query =>
    rw [misusesAt_alone Call.offers Part.lead before _ .branches
      (by intro other; cases other <;> simp [Call.offers])]
    exact branchOffers_misuse_iff _ _ kind query
  | orderBy text =>
    rw [misusesAt_joined Call.offers Part.lead before _ .ordering ", " _ rfl
      (by intro other; cases other <;> simp [Call.offers])]
    simp [Call.Misused]
  | offset count =>
    rw [misusesAt_plain Call.offers Part.lead before _ .offset _ rfl
      (by intro other; cases other <;> simp [Call.offers]), and_iff_right (counted count),
      earlier_iff Call.offers Call.offset (fun _ => True)]
    · simp [Call.Misused]
    · intro other
      simp [Call.offers]
    · intro earlier
      cases earlier <;> simp [Call.offers]
  | limit count =>
    rw [misusesAt_plain Call.offers Part.lead before _ .limit _ rfl
      (by intro other; cases other <;> simp [Call.offers]), and_iff_right (counted count),
      earlier_iff Call.offers Call.limit (fun _ => True)]
    · simp [Call.Misused]
    · intro other
      simp [Call.offers]
    · intro earlier
      cases earlier <;> simp [Call.offers]

theorem misused_iff (calls : List Call) :
    (∃ part, (ledger calls part).misuse?.isSome) ↔ Misused calls := by
  unfold Ledger.misuse? ledger Misused
  simp only [misusesAt_run Call.offers Part.lead, misuse_iff]

end UnionStatement

namespace InsertStatement

theorem misuse_iff (before : List Call) (made : Call) :
    (∃ part, MisusesAt Call.offers Part.lead before made part) ↔ made.Misused before := by
  have nowhere (other : Call)
      (set : other.Misused before ↔ False)
      (joined : ∀ part, ¬ MisusesAt Call.offers Part.lead before other part) :
      (∃ part, MisusesAt Call.offers Part.lead before other part) ↔ other.Misused before := by
    rw [set]
    simp [joined]
  cases made with
  | table text =>
    rw [misusesAt_plain Call.offers Part.lead before _ .table text rfl
      (by intro other; cases other <;> simp [Call.offers])]
    refine and_congr_right fun _ => ?_
    apply earlier_iff Call.offers Call.table (fun other => other ≠ "")
    · intro other
      simp [Call.offers]
    · intro earlier
      cases earlier <;> simp [Call.offers]
  | set column value =>
    refine nowhere _ Iff.rfl fun part => ?_
    cases part <;> simp [MisusesAt, Call.offers, Offer.misuse?, Offer.plain, Offer.firstMisuse?]
  | setOptional column value? =>
    refine nowhere _ Iff.rfl fun part => ?_
    cases value? <;> cases part <;>
      simp [MisusesAt, Call.offers, Offer.misuse?, Offer.plain, Offer.firstMisuse?]
  | setExpression column text params =>
    refine nowhere _ Iff.rfl fun part => ?_
    cases part <;> simp [MisusesAt, Call.offers, Offer.misuse?, Offer.plain, Offer.firstMisuse?]
  | columns texts =>
    refine nowhere _ Iff.rfl fun part => ?_
    cases part <;> simp [MisusesAt, Call.offers, Offer.misuse?_texts, Offer.firstMisuse?]
  | defaultValues =>
    rw [misusesAt_plain Call.offers Part.lead before _ .defaults _ rfl
      (by intro other; cases other <;> simp [Call.offers]), and_iff_right (by simp),
      earlier_iff Call.offers (fun _ : Unit => Call.defaultValues) (fun _ => True)]
    · simp [Call.Misused]
    · intro other
      simp [Call.offers]
    · intro earlier
      cases earlier <;> simp [Call.offers]
  | query rendering =>
    rw [misusesAt_single Call.offers Part.lead before _ .query _ rfl
      (by intro other; cases other <;> simp [Call.offers]), Call.Misused,
      rendering.fragment_fails_iff, rendering.fragment_hasText_iff]
    refine or_congr_right (Iff.trans and_comm (and_congr_right fun _ => ?_))
    apply earlier_iff Call.offers Call.query Rendering.HasText
    · intro other
      rw [Offer.links_ne_nil_iff, ← other.fragment_hasText_iff]
      simp [Call.offers]
    · intro earlier
      cases earlier <;> simp [Call.offers]
  | returning text =>
    rw [misusesAt_joined Call.offers Part.lead before _ .returning ", " _ rfl
      (by intro other; cases other <;> simp [Call.offers])]
    simp [Call.Misused]

theorem misused_iff (calls : List Call) :
    (∃ part, (ledger calls part).misuse?.isSome) ↔ Misused calls := by
  unfold Ledger.misuse? ledger Misused
  simp only [misusesAt_run Call.offers Part.lead, misuse_iff]

end InsertStatement

namespace UpdateStatement

theorem misuse_iff (before : List Call) (made : Call) :
    (∃ part, MisusesAt Call.offers Part.lead before made part) ↔ made.Misused before := by
  cases made with
  | table text =>
    rw [misusesAt_plain Call.offers Part.lead before _ .table text rfl
      (by intro other; cases other <;> simp [Call.offers])]
    refine and_congr_right fun _ => ?_
    apply earlier_iff Call.offers Call.table (fun other => other ≠ "")
    · intro other
      simp [Call.offers]
    · intro earlier
      cases earlier <;> simp [Call.offers]
  | set column value =>
    rw [misusesAt_joined Call.offers Part.lead before _ .assignments ", " _ rfl
      (by intro other; cases other <;> simp [Call.offers])]
    simp [Call.Misused]
  | setOptional column value? =>
    cases value? with
    | none => simp [MisusesAt, Call.offers, Offer.firstMisuse?, Call.Misused]
    | some value =>
      rw [misusesAt_joined Call.offers Part.lead before _ .assignments ", " _ rfl
        (by intro other; cases other <;> simp [Call.offers])]
      simp [Call.Misused]
  | assignment text params =>
    rw [misusesAt_joined Call.offers Part.lead before _ .assignments ", " _ rfl
      (by intro other; cases other <;> simp [Call.offers])]
    simp [Call.Misused]
  | condition call =>
    rw [misusesAt_joined Call.offers Part.lead before _ .condition call.operator.text
      call.fragment rfl (by intro other; cases other <;> simp [Call.offers])]
    exact call.fragment_fails_iff
  | returning text =>
    rw [misusesAt_joined Call.offers Part.lead before _ .returning ", " _ rfl
      (by intro other; cases other <;> simp [Call.offers])]
    simp [Call.Misused]

theorem misused_iff (calls : List Call) :
    (∃ part, (ledger calls part).misuse?.isSome) ↔ Misused calls := by
  unfold Ledger.misuse? ledger Misused
  simp only [misusesAt_run Call.offers Part.lead, misuse_iff]

end UpdateStatement

namespace DeleteStatement

theorem misuse_iff (before : List Call) (made : Call) :
    (∃ part, MisusesAt Call.offers Part.lead before made part) ↔ made.Misused before := by
  cases made with
  | table text =>
    rw [misusesAt_plain Call.offers Part.lead before _ .table text rfl
      (by intro other; cases other <;> simp [Call.offers])]
    refine and_congr_right fun _ => ?_
    apply earlier_iff Call.offers Call.table (fun other => other ≠ "")
    · intro other
      simp [Call.offers]
    · intro earlier
      cases earlier <;> simp [Call.offers]
  | condition call =>
    rw [misusesAt_joined Call.offers Part.lead before _ .condition call.operator.text
      call.fragment rfl (by intro other; cases other <;> simp [Call.offers])]
    exact call.fragment_fails_iff
  | returning text =>
    rw [misusesAt_joined Call.offers Part.lead before _ .returning ", " _ rfl
      (by intro other; cases other <;> simp [Call.offers])]
    simp [Call.Misused]

theorem misused_iff (calls : List Call) :
    (∃ part, (ledger calls part).misuse?.isSome) ↔ Misused calls := by
  unfold Ledger.misuse? ledger Misused
  simp only [misusesAt_run Call.offers Part.lead, misuse_iff]

end DeleteStatement

/-- Every text of a condition has a joint, so that only a nested query can be at fault. -/
theorem Condition.misused_iff (calls : List Call) :
    (ledger calls).misuse?.isSome ↔ ∃ made ∈ calls, made.Misused := by
  have run := firstMisuse?_run (List.map Call.offer) (fun made => [made.offer]) (fun _ => false)
    rfl (by simp) (Text.trimmed "(") calls
  unfold Ledger.misuse? ledger
  simp only [run, Offer.firstMisuse?_singleton, Call.offer, Offer.misuse?_joined,
    Call.fragment_fails_iff]
  constructor
  · intro misuse
    obtain ⟨before, made, after, rfl, _, misused, _⟩ := misuse
    exact ⟨made, by simp, misused⟩
  · intro misuse
    obtain ⟨made, present, misused⟩ := misuse
    obtain ⟨before, after, split⟩ := List.append_of_mem present
    exact ⟨before, made, after, split, trivial, misused, by simp⟩

end SqlCompose
