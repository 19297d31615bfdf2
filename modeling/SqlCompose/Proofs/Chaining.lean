import Mathlib.Data.List.Basic
import SqlCompose.History.Condition
import SqlCompose.Proofs.Alignment

/-! A condition is the chain of the texts that its calls bring, from left to right, each behind the
operator of its own call. -/
namespace SqlCompose

theorem Rendering.nested_eq_ok_iff (rendering : Rendering) (sql : String) :
    rendering.nested = .ok sql ↔ ∃ text, rendering.text = .ok text ∧
      sql = if rendering.enclosed then text else "(" ++ text ++ ")" := by
  unfold nested
  cases rendering.text <;> cases rendering.enclosed <;> simp [Except.map, eq_comm]

namespace Condition

namespace Call

theorem brings_of_substitute (operator : Connective) (template : String) (query : Rendering)
    (fragment : Fragment) (substituted : substitute template query = .ok fragment) :
    Brings (.query operator template query) fragment := by
  obtain ⟨front, back, sql, split, before, behind, nested, rfl⟩ :=
    substitute_split template query fragment substituted
  obtain ⟨text, rendered, rfl⟩ := (query.nested_eq_ok_iff sql).mp nested
  have written : template = String.ofList front ++ "?" ++ String.ofList back := by
    apply String.toList_injective
    simp [split]
  rw [written]
  exact .query operator _ _ query text (by simpa using before) (by simpa using behind) rendered

theorem substitute_of_brings (operator : Connective) (template : String) (query : Rendering)
    (fragment : Fragment) (fits : ¬ query.Misfits template)
    (brings : Brings (.query operator template query) fragment) :
    substitute template query = .ok fragment := by
  cases substituted : substitute template query with
  | error error => exact absurd ((substitute_fails_iff template query).mp ⟨error, substituted⟩) fits
  | ok own =>
    -- Both take the template apart at its only question mark.
    cases brings with
    | query _ front back _ text before behind rendered =>
      obtain ⟨first, last, sql, split, _, _, nested, rfl⟩ :=
        substitute_split _ query own substituted
      obtain ⟨same, again, rfl⟩ := (query.nested_eq_ok_iff sql).mp nested
      rw [rendered] at again
      cases again
      simp only [String.toList_append, List.append_assoc] at split
      have slot : front.toList ++ '?' :: back.toList = first ++ '?' :: last := split
      obtain ⟨rfl, _, rfl⟩ := (List.append_cons_inj_of_notMem before behind).mp slot
      simp

theorem brings_iff (made : Call) (sound : ¬ made.Misused) (fragment : Fragment) :
    made.Brings fragment ↔ made.fragment = .ok fragment := by
  cases made with
  | expression operator text params =>
    constructor
    · intro brings
      cases brings
      rfl
    · intro brought
      cases brought
      exact .expression operator text params
  | group operator nested =>
    constructor
    · intro brings
      cases brings with
      | group _ _ text rendered =>
        exact (nested.rendering.fragment_eq_ok_iff _).mpr ⟨rendered, rfl⟩
    · intro brought
      obtain ⟨rendered, params⟩ := (nested.rendering.fragment_eq_ok_iff fragment).mp brought
      obtain ⟨text, bound⟩ := fragment
      cases params
      exact .group operator nested text rendered
  | query operator template query =>
    exact ⟨substitute_of_brings operator template query fragment sound,
      brings_of_substitute operator template query fragment⟩

theorem exists_brings (made : Call) (sound : ¬ made.Misused) : ∃ fragment, made.Brings fragment := by
  cases brought : made.fragment with
  | error error => exact absurd (made.fragment_fails_iff.mp ⟨error, brought⟩) sound
  | ok fragment => exact ⟨fragment, (made.brings_iff sound fragment).mpr brought⟩

end Call

theorem exists_brought (calls : List Call) (sound : ∀ made ∈ calls, ¬ made.Misused) :
    ∃ brought, List.Forall₂ Call.Brings calls brought := by
  induction calls with
  | nil => exact ⟨[], .nil⟩
  | cons made rest ih =>
    obtain ⟨own, others⟩ := List.forall_mem_cons.mp sound
    obtain ⟨fragment, brings⟩ := made.exists_brings own
    obtain ⟨brought, rests⟩ := ih others
    exact ⟨fragment :: brought, .cons brings rests⟩

theorem links_offers (calls : List Call) (brought : List Fragment)
    (sound : ∀ made ∈ calls, ¬ made.Misused) (brings : List.Forall₂ Call.Brings calls brought) :
    Offer.links (calls.map Call.offer) =
      (links calls brought).map fun link => ⟨link.1.text, link.2⟩ := by
  induction brings with
  | nil => rfl
  | @cons made fragment calls brought own rest ih =>
    obtain ⟨fits, others⟩ := List.forall_mem_cons.mp sound
    have content := (made.brings_iff fits fragment).mp own
    rw [List.map_cons, Offer.links_cons, ih others]
    by_cases empty : fragment.text = ""
    · simp [Offer.link?, Call.offer, content, empty, links]
    · simp [Offer.link?, Call.offer, content, empty, links]

theorem params_offers (calls : List Call) (brought : List Fragment)
    (sound : ∀ made ∈ calls, ¬ made.Misused) (brings : List.Forall₂ Call.Brings calls brought) :
    (calls.map Call.offer).flatMap Offer.params = brought.flatMap Fragment.params := by
  induction brings with
  | nil => rfl
  | @cons made fragment calls brought own rest ih =>
    obtain ⟨fits, others⟩ := List.forall_mem_cons.mp sound
    have content := (made.brings_iff fits fragment).mp own
    rw [List.map_cons, List.flatMap_cons, List.flatMap_cons, ih others]
    simp only [Offer.params, Call.offer, content]

theorem text?_chain (links : List (Connective × String)) (offers : List Offer)
    (linked : Offer.links offers = links.map fun link => ⟨link.1.text, link.2⟩) :
    (Ledger.text? ⟨"(", ")", offers⟩).getD "" = chain links := by
  cases links with
  | nil => rw [Ledger.text?_of_nil _ linked]; rfl
  | cons first rest =>
    rw [Ledger.text?_of_ne_nil _ (by simp [linked])]
    simp [linked, Link.joined, chain, Function.comp_def, String.append_assoc]

/-- Calls without misuse make a condition of the texts that they bring, in the order of the calls
and each behind the operator of its own call. A call that brings no text leaves nothing but its
parameters. -/
theorem calls_chained (calls : List Call) (sound : ∀ made ∈ calls, ¬ made.Misused) :
    (∃ brought, List.Forall₂ Call.Brings calls brought) ∧
    ∀ brought, List.Forall₂ Call.Brings calls brought →
      (ofCalls calls).rendering.text = .ok (chain (links calls brought)) ∧
      (ofCalls calls).rendering.params = brought.flatMap Fragment.params := by
  refine ⟨exists_brought calls sound, fun brought brings => ⟨?_, ?_⟩⟩
  · have unmisused : (ledger calls).misuse? = none := by
      apply Option.not_isSome_iff_eq_none.mp
      intro misuse
      obtain ⟨made, member, misused⟩ := (misused_iff calls).mp misuse
      exact sound made member misused
    have chained := text?_chain _ _ (links_offers calls brought sound brings)
    have rendered := render_ofCalls calls
    rw [unmisused, Ledger.layout_singleton] at rendered
    exact rendered.trans (congrArg Except.ok chained)
  · have bound := params_ofCalls calls
    rw [List.flatMap_singleton] at bound
    exact bound.trans (params_offers calls brought sound brings)

/-- An empty expression and an empty group take their operators with them; the parameter of the empty
expression stays. -/
theorem calls_chained_empty_between :
    (ofCalls [.expression .and "a = ?" [.null], .expression .or "" [.bool true],
      .group .or (ofCalls []),
      .group .and (ofCalls [.expression .and "b" [], .expression .or "c = ?" [.text "x"]]),
      .query .or "id IN ?" (History.select [.column "id", .source "t"]).rendering]).rendering =
        { text := .ok "(a = ? AND (b OR c = ?) OR id IN (SELECT id FROM t))",
          enclosed := true,
          params := [.null, .bool true, .text "x"] } := by
  have chained (calls : List Call) (brought : List Fragment)
      (sound : ∀ made ∈ calls, ¬ made.Misused) (brings : List.Forall₂ Call.Brings calls brought) :
      (ofCalls calls).rendering =
        ⟨.ok (chain (links calls brought)), true, brought.flatMap Fragment.params⟩ := by
    obtain ⟨text, params⟩ := (calls_chained calls sound).2 brought brings
    rw [← text, ← params]
    rfl
  have built (rendering : Rendering) (sql : String) (rendered : rendering.text = .ok sql) :
      ¬ rendering.Fails := by
    intro fails
    obtain ⟨error, failed⟩ := fails
    rw [rendered] at failed
    cases failed
  refine chained _ [⟨"a = ?", [.null]⟩, ⟨"", [.bool true]⟩, ⟨"", []⟩,
    ⟨"(b OR c = ?)", [.text "x"]⟩, ⟨"id IN (SELECT id FROM t)", []⟩] ?_ ?_
  · intro made member misused
    simp only [List.mem_cons, List.not_mem_nil, or_false] at member
    obtain rfl | rfl | rfl | rfl | rfl := member
    · exact misused
    · exact misused
    · exact built (ofCalls []).rendering "" rfl misused
    · exact built (ofCalls _).rendering "(b OR c = ?)" rfl misused
    · obtain several | failed | empty := misused
      · exact several (by decide)
      · exact built (History.select _).rendering "SELECT id FROM t" rfl failed
      · exact absurd (Except.ok.inj empty) (by decide)
  · exact .cons (.expression _ _ _) (.cons (.expression _ _ _) (.cons (.group _ _ "" rfl)
      (.cons (.group _ _ "(b OR c = ?)" rfl)
        (.cons (Call.brings_of_substitute .or "id IN ?" _ _ rfl) .nil))))

end Condition

end SqlCompose
