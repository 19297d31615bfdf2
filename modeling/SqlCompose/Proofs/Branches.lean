import SqlCompose.History.Branches
import SqlCompose.Proofs.Layout
import SqlCompose.Proofs.Misuse

/-! A union keeps its branches, their operators and their parameters together: what stands before a
branch comes from the call that gave it, whatever calls without text stand between. -/
namespace SqlCompose

theorem flatMap_of_toList {Call Item : Type} (calls : List Call) (item? : Call → Option Item)
    (offers : Call → List Offer) (offer : Item → Offer)
    (each : ∀ made ∈ calls, offers made = ((item? made).map offer).toList) :
    calls.flatMap offers = (calls.filterMap item?).map offer := by
  induction calls with
  | nil => rfl
  | cons made rest ih =>
    obtain ⟨own, others⟩ := List.forall_mem_cons.mp each
    rw [List.flatMap_cons, own, ih others]
    cases found : item? made <;> simp [found]

namespace Ledger

theorem text?_listed (lead joint : String) (texts : List String) :
    text? ⟨lead, "", texts.map (Offer.plain (some joint))⟩ =
      if (texts.filter (· ≠ "")).isEmpty then none
      else some (lead ++ joint.intercalate (texts.filter (· ≠ ""))) := by
  have links : Offer.links (texts.map (Offer.plain (some joint))) =
      (texts.filter (· ≠ "")).map fun text => ⟨joint, text⟩ := by
    induction texts with
    | nil => rfl
    | cons text rest ih =>
      by_cases empty : text = "" <;> simp [Offer.links_cons, Offer.link?, Offer.plain, empty, ih]
  have joined := Link.joined_of_joint joint (Offer.links (texts.map (Offer.plain (some joint)))) ?_
  · rw [text?, joined, links]
    simp [Function.comp_def]
  · intro link member
    rw [links] at member
    obtain ⟨text, _, rfl⟩ := List.mem_map.mp member
    rfl

theorem text?_single (lead : String) (texts : List String) (filled : ∀ text ∈ texts, text ≠ "")
    (single : (Offer.links (texts.map (Offer.plain none))).length ≤ 1) :
    text? ⟨lead, "", texts.map (Offer.plain none)⟩ = texts.head?.map (lead ++ ·) := by
  have all : (Offer.links (texts.map (Offer.plain none))).length = texts.length := by
    rw [Offer.length_links, List.length_map]
    intro offer member
    obtain ⟨text, given, rfl⟩ := List.mem_map.mp member
    simpa using filled text given
  cases texts with
  | nil => rfl
  | cons text rest =>
    cases rest with
    | cons second rest =>
      rw [all, List.length_cons, List.length_cons] at single
      omega
    | nil =>
      have given : text ≠ "" := filled text List.mem_cons_self
      simp [text?, Offer.links, Offer.link?, Offer.plain, Link.joined, given]

end Ledger

namespace UnionStatement

theorem offers_joint (calls : List Call) (part : Part) (joint : Option String)
    (separated : part.separator? = some joint) :
    ∀ offer ∈ (ledger calls part).offers, offer.joint = joint := by
  intro offer member
  obtain ⟨made, _, offered⟩ := List.mem_flatMap.mp member
  unfold Call.offers at offered
  split at offered
  case h_1 => cases separated
  case h_5 => cases offered
  all_goals
    rw [List.mem_singleton.mp offered]
    exact Option.some.inj separated

theorem Branch.filled (made : Call) (branch : Branch) (given : made.branch? = some branch) :
    branch.text ≠ "" := by
  unfold Call.branch? at given
  split at given
  · split at given
    · split at given
      · cases given
      · rename_i filled
        cases given
        simp only
        split
        · exact filled
        · simp [String.append_eq_empty_iff]
    · cases given
  · cases given

theorem Branch.links (shown : List Branch) (filled : ∀ branch ∈ shown, branch.text ≠ "") :
    Offer.links (shown.map offer) =
      shown.map fun branch => ⟨branch.kind.operator, branch.text⟩ := by
  induction shown with
  | nil => rfl
  | cons branch rest ih =>
    obtain ⟨own, others⟩ := List.forall_mem_cons.mp filled
    rw [List.map_cons, Offer.links_cons, ih others]
    simp [offer, Offer.link?, own]

theorem branchOffers_eq (kind : UnionKind) (query : Rendering) (text : String)
    (rendered : query.text = .ok text) :
    branchOffers kind query = ((Call.branch kind query).branch?.map Branch.offer).toList := by
  by_cases empty : text = ""
  · simp [branchOffers, branch?, Call.branch?, rendered, empty, bind, Except.bind, pure,
      Except.pure]
  · cases own : query.enclosed <;>
      simp [branchOffers, branch?, Call.branch?, Branch.offer, Rendering.nested, Except.map,
        rendered, empty, own, bind, Except.bind, pure, Except.pure]

variable (calls : List Call) (sound : ¬ Misused calls)

include sound

theorem unmisused_part (part : Part) : (ledger calls part).misuse? = none := by
  rw [← Option.not_isSome_iff_eq_none]
  exact fun misuse => sound ((misused_iff calls).mp ⟨part, misuse⟩)

theorem offers_branches : (ledger calls .branches).offers = (united calls).map Branch.offer := by
  refine flatMap_of_toList calls Call.branch? _ Branch.offer fun made member => ?_
  cases made with
  | branch kind query =>
    cases rendered : query.text with
    | ok text => exact branchOffers_eq kind query text rendered
    | error error =>
      obtain ⟨before, after, rfl⟩ := List.append_of_mem member
      exact absurd ⟨before, _, after, rfl, ⟨error, rendered⟩⟩ sound
  | _ => rfl

theorem text?_branches :
    (ledger calls .branches).text? =
      if (united calls).isEmpty then none else some (Branch.joined (united calls)) := by
  have links : Offer.links (ledger calls .branches).offers =
      (united calls).map fun branch => ⟨branch.kind.operator, branch.text⟩ := by
    rw [offers_branches calls sound]
    refine Branch.links _ fun branch member => ?_
    obtain ⟨made, _, given⟩ := List.mem_filterMap.mp member
    exact Branch.filled made branch given
  rw [Ledger.text?, links]
  cases united calls with
  | nil => rfl
  | cons first rest =>
    simp [Link.joined, Branch.joined, ledger, Part.lead, Function.comp_def]

omit sound in
theorem text?_ordering :
    (ledger calls .ordering).text? =
      if (orderings calls).isEmpty then none
      else some ("ORDER BY " ++ ", ".intercalate (orderings calls)) := by
  have offers : (ledger calls .ordering).offers =
      (calls.filterMap Call.expression?).map (Offer.plain (some ", ")) :=
    flatMap_of_toList calls Call.expression? _ _ fun made _ => by cases made <;> rfl
  have listed := Ledger.text?_listed "ORDER BY " ", " (calls.filterMap Call.expression?)
  rw [← offers] at listed
  exact listed

theorem text?_number (part : Part) (number? : Call → Option UInt64)
    (jointless : part.separator? = some none)
    (offers : (ledger calls part).offers =
      (calls.filterMap number?).map fun count => .plain none (toString count.toNat)) :
    (ledger calls part).text? =
      (calls.findSome? number?).map fun count => part.lead ++ toString count.toNat := by
  have single := (Ledger.orderly_of_sound _ _ (unmisused_part calls sound part)
    (offers_joint calls part)).single jointless
  have texts : (ledger calls part).offers =
      ((calls.filterMap number?).map fun count => toString count.toNat).map (Offer.plain none) := by
    rw [offers, List.map_map]
    rfl
  have shown := Ledger.text?_single part.lead
    ((calls.filterMap number?).map fun count => toString count.toNat) ?_ (by rwa [← texts])
  · rw [← texts, List.head?_map, List.head?_filterMap, Option.map_map] at shown
    exact shown
  · intro text member
    obtain ⟨count, _, rfl⟩ := List.mem_map.mp member
    exact Nat.repr_ne_empty

theorem parts_eq : parts calls = Part.all.map fun part => (ledger calls part).text? := by
  have offset := text?_number calls sound .offset Call.offset? rfl <|
    flatMap_of_toList calls Call.offset? _ _ fun made _ => by cases made <;> rfl
  have limit := text?_number calls sound .limit Call.limit? rfl <|
    flatMap_of_toList calls Call.limit? _ _ fun made _ => by cases made <;> rfl
  simp only [Part.all, List.map_cons, List.map_nil, text?_branches calls sound, text?_ordering,
    offset, limit]
  rfl

omit sound in
theorem call_of_empty (statement : UnionStatement) (kind : UnionKind) (query : Rendering)
    (empty : query.text = .ok "") : statement.call (.branch kind query) = statement := by
  simp [call, addBranch, branch?, empty, bind, Except.bind, pure, Except.pure]

omit sound in
/-- A builder stands in a union in one pair of parentheses; a condition has its own. -/
theorem branch?_history (kind : UnionKind) (history : History) (text : String)
    (rendered : history.rendering.text = .ok text) (filled : text ≠ "") :
    ∃ inner, (Call.branch kind history.rendering).branch? =
        some ⟨kind, "(" ++ inner ++ ")", history.rendering.params⟩ ∧
      ((∃ nested, history = .condition nested) ∧ text = "(" ++ inner ++ ")" ∨
        (∀ nested, history ≠ .condition nested) ∧ text = inner) := by
  have shown : (Call.branch kind history.rendering).branch? =
      some ⟨kind, if history.rendering.enclosed then text else "(" ++ text ++ ")",
        history.rendering.params⟩ := by
    simp [Call.branch?, rendered, filled]
  cases history with
  | condition nested =>
    have laid := (Condition.render_ofCalls nested).symm.trans rendered
    rw [outcome_ok_iff, Ledger.layout_singleton] at laid
    obtain ⟨_, rfl⟩ := laid
    have given : Offer.links (Condition.ledger nested).offers ≠ [] := by
      intro empty
      rw [Ledger.text?_of_nil _ empty] at filled
      exact filled rfl
    rw [Ledger.text?_of_ne_nil _ given] at shown ⊢
    exact ⟨Link.joined (Offer.links (Condition.ledger nested).offers), shown, .inl ⟨⟨_, rfl⟩, rfl⟩⟩
  | _ => exact ⟨text, shown, .inr ⟨by simp, rfl⟩⟩

/-- Calls without misuse make a union of the queries with text that they give, each in one pair of
parentheses and all but the first behind the operators of their own calls; behind them stand the order,
the offset and the limit that were asked for. The parameters are those of the same queries, and a query
without text leaves the union as it was. -/
theorem branches_kept :
    (ofCalls calls).rendering.text = .ok (" ".intercalate ((parts calls).filterMap id)) ∧
    (ofCalls calls).rendering.params = (united calls).flatMap Branch.params ∧
    (∀ before kind query after, calls = before ++ .branch kind query :: after →
      query.text = .ok "" → ofCalls calls = ofCalls (before ++ after)) ∧
    ∀ kind (history : History) text, history.rendering.text = .ok text → text ≠ "" →
      ∃ inner, (Call.branch kind history.rendering).branch? =
          some ⟨kind, "(" ++ inner ++ ")", history.rendering.params⟩ ∧
        ((∃ nested, history = .condition nested) ∧ text = "(" ++ inner ++ ")" ∨
          (∀ nested, history ≠ .condition nested) ∧ text = inner) := by
  refine ⟨?_, ?_, ?_, branch?_history⟩
  · refine (render_ofCalls calls).trans ((outcome_ok_iff _ _ _).mpr ⟨?_, ?_⟩)
    · refine List.findSome?_eq_none_iff.mpr fun misuse member => ?_
      obtain ⟨part, _, rfl⟩ := List.mem_map.mp member
      exact unmisused_part calls sound part
    · rw [parts_eq calls sound, List.filterMap_map]
      rfl
  · have bound : (ofCalls calls).branches.params = _ := params_part calls .branches
    rw [rendering, params, bound, Ledger.params, offers_branches calls sound, List.flatMap_map]
    rfl
  · rintro before kind query after rfl empty
    simp [ofCalls, List.foldl_append, call_of_empty _ kind query empty]

omit sound in
/-- Empty branches before and between the others take their operators with them; a condition and a
union are branches as well. -/
theorem branches_kept_empty_between :
    (ofCalls [.branch .all (History.select []).rendering, .orderBy "1",
        .branch .all (History.condition [.expression .or "a = ?" [.bool true]]).rendering,
        .branch .all (History.update []).rendering, .limit 3, .orderBy "",
        .branch .distinct (History.union [.branch .all (History.select [.column "b", .source "t",
          .condition (.expression .and "c = ?" [.null])]).rendering]).rendering]).rendering =
      { text := .ok "(a = ?) UNION ((SELECT b FROM t WHERE c = ?)) ORDER BY 1 LIMIT 3",
        params := [.bool true, .null] } := by
  have kept (calls : List Call) (sound : ¬ Misused calls) :
      (ofCalls calls).rendering =
        { text := .ok (" ".intercalate ((parts calls).filterMap id)),
          params := (united calls).flatMap Branch.params } := by
    obtain ⟨text, params, _⟩ := branches_kept calls sound
    rw [← text, ← params]
    rfl
  refine kept _ fun misused => ?_
  obtain ⟨part, misuse⟩ := (misused_iff _).mpr misused
  cases part <;> cases misuse

end UnionStatement

end SqlCompose
