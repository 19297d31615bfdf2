import SqlCompose.Proofs.Ledger

/-! A clause without misuse is orderly: its texts stand in the order of the calls that gave them,
behind the joints that they were offered with. -/
namespace SqlCompose

theorem Link.joined_of_joint (joint : String) (links : List Link)
    (same : ∀ link ∈ links, link.joint = joint) :
    Link.joined links = joint.intercalate (links.map Link.text) := by
  cases links with
  | nil => rfl
  | cons first rest =>
    have others : ∀ link ∈ rest, link.joint = joint := fun link member =>
      same link (List.mem_cons_of_mem _ member)
    simp only [joined, List.map_cons]
    clear same
    induction rest generalizing first with
    | nil => simp
    | cons second rest ih =>
      have joined := ih second fun link member => others link (List.mem_cons_of_mem _ member)
      have second_joint := others second List.mem_cons_self
      simp only [List.map_cons, String.join_cons, String.intercalate_cons_cons, second_joint,
        String.append_assoc] at joined ⊢
      rw [joined]

namespace Offer

theorem joint_of_link (offer : Offer) (link : Link) (found : offer.link? = some link) :
    link.joint = offer.joint.getD "" := by
  obtain ⟨fragment, _, _, rfl⟩ := (link?_eq_some_iff offer link).mp found
  rfl

/-- Of texts without joints a clause takes one, and none if it has one already. -/
theorem length_links_le_one (clause : String) (before : List Link) (offers : List Offer)
    (sound : firstMisuse? clause before offers = none)
    (jointless : ∀ offer ∈ offers, offer.joint = none) :
    (links offers).length ≤ 1 ∧ (before ≠ [] → links offers = []) := by
  induction offers generalizing before with
  | nil => simp [links]
  | cons offer rest ih =>
    obtain ⟨unjoined, others⟩ := List.forall_mem_cons.mp jointless
    rw [firstMisuse?] at sound
    split at sound
    · cases sound
    · rename_i allowed
      obtain ⟨short, none_later⟩ := ih _ sound others
      rw [links_cons]
      cases found : offer.link? with
      | none =>
        rw [found, Option.toList_none, List.append_nil] at none_later
        exact ⟨short, none_later⟩
      | some link =>
        rw [found, Option.toList_some] at none_later
        have last : links rest = [] := none_later (by simp)
        obtain ⟨fragment, content, texted, _⟩ := (link?_eq_some_iff offer link).mp found
        refine ⟨by simp [last], fun filled => ?_⟩
        simp [misuse?, content, unjoined, texted, filled] at allowed

theorem length_links (offers : List Offer) (filled : ∀ offer ∈ offers, offer.link? ≠ none) :
    (links offers).length = offers.length := by
  rw [links, List.length_filterMap_eq_countP, List.countP_eq_length]
  intro offer member
  exact Option.isSome_iff_ne_none.mpr (filled offer member)

theorem flatMap_makers {Call : Type} (offers : Call → List Offer) (calls : List Call) :
    (makers offers calls).flatMap offers = calls.flatMap offers := by
  unfold makers
  induction calls with
  | nil => rfl
  | cons made rest ih =>
    cases given : (offers made).isEmpty with
    | true =>
      have empty : offers made = [] := List.isEmpty_iff.mp given
      rw [List.filter_cons_of_neg (by simp [given]), ih, List.flatMap_cons, empty, List.nil_append]
    | false => rw [List.filter_cons_of_pos (by simp [given]), List.flatMap_cons, List.flatMap_cons, ih]

theorem flatMap_congr_makers {Call : Type} {offers : Call → List Offer} {calls others : List Call}
    (same : makers offers others = makers offers calls) :
    others.flatMap offers = calls.flatMap offers := by
  rw [← flatMap_makers, same, flatMap_makers]

end Offer

theorem Ledger.orderly_of_sound (ledger : Ledger) (separator? : Option (Option String))
    (sound : ledger.misuse? = none)
    (jointed : ∀ joint, separator? = some joint → ∀ offer ∈ ledger.offers, offer.joint = joint) :
    ledger.Orderly separator? := by
  refine ⟨Offer.content_of_sound _ _ _ sound, fun joint separated => ?_, fun single => ?_⟩
  · refine Link.joined_of_joint joint _ fun link member => ?_
    obtain ⟨offer, held, found⟩ := List.mem_filterMap.mp member
    rw [Offer.joint_of_link offer link found, jointed _ separated offer held]
    rfl
  · exact (Offer.length_links_le_one _ _ _ sound (jointed _ single)).1

theorem orderly_of_outcome {Part : Type} (all : List Part) (mem_all : ∀ part, part ∈ all)
    (clause : Part → Ledger) (separator? : Part → Option (Option String)) (text sql : String)
    (jointed : ∀ part joint, separator? part = some joint →
      ∀ offer ∈ (clause part).offers, offer.joint = joint)
    (built : outcome (all.map fun part => (clause part).misuse?) text = .ok sql) :
    sql = text ∧ ∀ part, (clause part).Orderly (separator? part) := by
  obtain ⟨unmisused, same⟩ := (outcome_ok_iff _ _ _).mp built
  refine ⟨same.symm, fun part => Ledger.orderly_of_sound _ _ ?_ (jointed part)⟩
  exact sound_of_misuses all (fun part => (clause part).misuse?) unmisused part (mem_all part)

end SqlCompose
