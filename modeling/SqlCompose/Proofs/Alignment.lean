import SqlCompose.Proofs.Placeholders
import SqlCompose.Proofs.Misuse

/-! Alignment goes up from the fragments of a clause to the clause, from the clauses to the
statement, and from a statement into the template that it is set into. -/
namespace SqlCompose

namespace Aligned

variable {text other : String} {params more : List Value} {bound rest : List Fragment}

theorem skip (empty : Aligned "" params bound) (aligned : Aligned other more rest) :
    Aligned other (params ++ more) (bound ++ rest) := by
  have whole := empty.append aligned
  simpa using whole

end Aligned

def Rendering.AlignedWith (rendering : Rendering) (bound : List Fragment) : Prop :=
  ∀ text, rendering.text = .ok text → Aligned text rendering.params bound

theorem proper_opening : Handed.Proper ⟨"(", 0⟩ := ⟨rfl, rfl⟩

theorem proper_closing : Handed.Proper ⟨")", 0⟩ := ⟨rfl, rfl⟩

theorem Rendering.AlignedWith.nested {rendering : Rendering} {bound : List Fragment}
    (aligned : rendering.AlignedWith bound) (sql : String) (rendered : rendering.nested = .ok sql) :
    Aligned sql rendering.params bound := by
  unfold Rendering.nested at rendered
  split at rendered
  · exact aligned sql rendered
  · cases inner : rendering.text with
    | error error =>
      rw [inner] at rendered
      cases rendered
    | ok text =>
      rw [inner] at rendered
      cases rendered
      have opened := (aligned text inner).behind "(" proper_opening
      exact opened.ahead ")" proper_closing

theorem Rendering.AlignedWith.fragment {rendering : Rendering} {bound : List Fragment}
    (aligned : rendering.AlignedWith bound) (fragment : Fragment)
    (rendered : rendering.fragment = .ok fragment) :
    Aligned fragment.text fragment.params bound := by
  obtain ⟨text, params⟩ := (rendering.fragment_eq_ok_iff fragment).mp rendered
  rw [params]
  exact aligned _ text

theorem fillSlot_split (filling front back : List Char) (free : '?' ∉ front) :
    fillSlot filling (front ++ '?' :: back) = front ++ filling ++ back := by
  induction front with
  | nil => simp [fillSlot]
  | cons char rest ih =>
    rw [List.mem_cons, not_or] at free
    have other : char ≠ '?' := Ne.symm free.1
    simp [fillSlot, other, ih free.2]

theorem slot_split (text : List Char) (single : text.count '?' = 1) :
    ∃ front back, text = front ++ '?' :: back ∧ '?' ∉ front ∧ '?' ∉ back := by
  have present : '?' ∈ text := List.count_pos_iff.mp (by omega)
  obtain ⟨front, back, split, free⟩ := List.eq_append_cons_of_mem present
  refine ⟨front, back, split, free, ?_⟩
  rw [split, List.count_append, List.count_cons_self, List.count_eq_zero_of_not_mem free] at single
  exact List.count_eq_zero.mp (by omega)

theorem placeholders_of_slotless (state : Text.Quoting) (text : List Char) (free : '?' ∉ text) :
    state.placeholders text = 0 := by
  induction text generalizing state with
  | nil => cases state <;> rfl
  | cons char rest ih =>
    rw [List.mem_cons, not_or] at free
    rw [Text.Quoting.placeholders_cons, ih _ free.2, if_neg]
    intro both
    exact free.1 both.2.symm

theorem slot_outside (front back : List Char) (before : '?' ∉ front) (behind : '?' ∉ back)
    (counted : Text.Quoting.plain.placeholders (front ++ '?' :: back) = 1) :
    front.foldl Text.Quoting.step .plain = .plain := by
  simp only [Text.Quoting.placeholders_append, placeholders_of_slotless _ front before,
    Text.Quoting.placeholders_cons, placeholders_of_slotless _ back behind] at counted
  by_contra quoted
  simp [quoted] at counted

theorem substitute_split (template : String) (query : Rendering) (fragment : Fragment)
    (substituted : substitute template query = .ok fragment) :
    ∃ front back sql, template.toList = front ++ '?' :: back ∧ '?' ∉ front ∧ '?' ∉ back ∧
      query.nested = .ok sql ∧
      fragment = ⟨String.ofList front ++ sql ++ String.ofList back, query.params⟩ := by
  have single : slotCount template = 1 := by
    by_contra other
    obtain ⟨error, failed⟩ := (substitute_fails_iff template query).mpr (.inl other)
    rw [failed] at substituted
    cases substituted
  obtain ⟨front, back, split, before, behind⟩ := slot_split template.toList single
  unfold substitute at substituted
  simp only [single, checkParameterCount, if_true, bind, Except.bind] at substituted
  split at substituted
  · cases substituted
  · split at substituted
    · cases substituted
    · split at substituted
      · cases substituted
      · rename_i sql nested
        cases substituted
        refine ⟨front, back, sql, split, before, behind, nested, ?_⟩
        have filled : String.ofList (fillSlot sql.toList template.toList) =
            String.ofList front ++ sql ++ String.ofList back := by
          apply String.toList_injective
          rw [split, fillSlot_split _ _ _ before]
          simp
        rw [filled]

/-- A query takes the place of the only placeholder of its template, which no literal holds. -/
theorem substitute_aligned (template : String) (query : Rendering) (bound : List Fragment)
    (proper : Handed.Proper ⟨template, 1⟩) (aligned : query.AlignedWith bound)
    (fragment : Fragment) (substituted : substitute template query = .ok fragment) :
    Aligned fragment.text fragment.params bound := by
  obtain ⟨front, back, sql, split, before, behind, nested, rfl⟩ :=
    substitute_split template query fragment substituted
  have counted := proper.counted
  have closed := proper.closed
  simp only [split] at counted closed
  have opened := slot_outside front back before behind counted
  have slot : Text.Quoting.plain.step '?' = .plain := by decide
  rw [List.foldl_append, opened, List.foldl_cons, slot] at closed
  have leading : Handed.Proper ⟨String.ofList front, 0⟩ := by
    refine ⟨?_, ?_⟩
    · simpa using opened
    · simpa using placeholders_of_slotless _ front before
  have trailing : Handed.Proper ⟨String.ofList back, 0⟩ := by
    refine ⟨?_, ?_⟩
    · simpa using closed
    · simpa using placeholders_of_slotless _ back behind
  exact ((aligned.nested sql nested).behind _ leading).ahead _ trailing

inductive Offered : List Offer → List Fragment → Prop
  | empty (bound : List Fragment) (unbound : bound.filter Fragment.binds = []) : Offered [] bound
  | cons (offer : Offer) (offers : List Offer) (bound others : List Fragment)
      (joint : Handed.Proper ⟨offer.joint.getD "", 0⟩)
      (aligned : ∀ fragment, offer.content = .ok fragment →
        Aligned fragment.text fragment.params bound)
      (rest : Offered offers others) : Offered (offer :: offers) (bound ++ others)

namespace Offered

variable {offers more : List Offer} {bound rest : List Fragment}

theorem nil : Offered [] [] := .empty [] rfl

theorem append (first : Offered offers bound) (second : Offered more rest) :
    Offered (offers ++ more) (bound ++ rest) := by
  induction first with
  | empty bound unbound =>
    cases second with
    | empty rest also => exact .empty _ (by rw [List.filter_append, unbound, also, List.append_nil])
    | cons offer offers own others joint aligned later =>
      rw [← List.append_assoc]
      refine cons offer _ _ _ joint (fun fragment given => ?_) later
      have skipped := (Aligned.of_unbound bound unbound).append (aligned fragment given)
      simpa using skipped
  | cons offer offers bound others joint aligned _ ih =>
    rw [List.append_assoc]
    exact .cons offer _ bound _ joint aligned ih

theorem single (offer : Offer) (bound : List Fragment)
    (joint : Handed.Proper ⟨offer.joint.getD "", 0⟩)
    (aligned : ∀ fragment, offer.content = .ok fragment →
      Aligned fragment.text fragment.params bound) : Offered [offer] bound := by
  have one := cons offer [] bound [] joint aligned nil
  rwa [List.append_nil] at one

theorem plain (joint : Option String) (text : String)
    (separator : Handed.Proper ⟨joint.getD "", 0⟩) (proper : Handed.Proper ⟨text, 0⟩) :
    Offered [.plain joint text] [] := by
  refine single _ [] separator fun fragment given => ?_
  cases given
  exact .of_plain text proper

theorem unbound (offers : List Offer) (each : ∀ offer ∈ offers, Offered [offer] []) :
    Offered offers [] := by
  induction offers with
  | nil => exact nil
  | cons offer offers ih =>
    have tail := ih fun later member => each later (List.mem_cons_of_mem _ member)
    exact (each offer List.mem_cons_self).append tail

theorem chained (offered : Offered offers bound)
    (sound : ∀ offer ∈ offers, ∃ fragment, offer.content = .ok fragment) :
    Aligned (String.join ((Offer.links offers).map fun link => link.joint ++ link.text))
      (offers.flatMap Offer.params) bound := by
  induction offered with
  | empty bound unbound => exact .of_unbound bound unbound
  | cons offer offers bound others joint aligned rest ih =>
    have tail := ih fun later member => sound later (List.mem_cons_of_mem _ member)
    obtain ⟨fragment, content⟩ := sound offer List.mem_cons_self
    have own := aligned fragment content
    have params : offer.params = fragment.params := by simp [Offer.params, content]
    rw [List.flatMap_cons, Offer.links_cons, params]
    by_cases empty : fragment.text = ""
    · rw [empty] at own
      have unlinked : offer.link? = none := by simp [Offer.link?, content, empty]
      rw [unlinked]
      exact own.skip tail
    · have linked : offer.link? = some ⟨offer.joint.getD "", fragment.text⟩ := by
        simp [Offer.link?, content, String.isEmpty_iff, empty]
      rw [linked, Option.toList_some, List.singleton_append, List.map_cons, String.join_cons]
      exact (own.behind _ joint).append tail

theorem joined (offered : Offered offers bound)
    (sound : ∀ offer ∈ offers, ∃ fragment, offer.content = .ok fragment) :
    Aligned (Link.joined (Offer.links offers)) (offers.flatMap Offer.params) bound := by
  induction offered with
  | empty bound unbound => exact .of_unbound bound unbound
  | cons offer offers bound others joint aligned rest ih =>
    have later : ∀ offer ∈ offers, ∃ fragment, offer.content = .ok fragment :=
      fun offer member => sound offer (List.mem_cons_of_mem _ member)
    obtain ⟨fragment, content⟩ := sound offer List.mem_cons_self
    have own := aligned fragment content
    have params : offer.params = fragment.params := by simp [Offer.params, content]
    rw [List.flatMap_cons, Offer.links_cons, params]
    by_cases empty : fragment.text = ""
    · rw [empty] at own
      have unlinked : offer.link? = none := by simp [Offer.link?, content, empty]
      rw [unlinked]
      exact own.skip (ih later)
    · have linked : offer.link? = some ⟨offer.joint.getD "", fragment.text⟩ := by
        simp [Offer.link?, content, String.isEmpty_iff, empty]
      rw [linked, Option.toList_some, List.singleton_append]
      exact own.append (rest.chained later)

end Offered

namespace Ledger

structure Bearing (ledger : Ledger) (bound : List Fragment) : Prop where
  lead : Handed.Proper ⟨ledger.lead, 0⟩
  trail : Handed.Proper ⟨ledger.trail, 0⟩
  offered : Offered ledger.offers bound
  sound : ∀ offer ∈ ledger.offers, ∃ fragment, offer.content = .ok fragment

theorem Bearing.aligned {ledger : Ledger} {bound : List Fragment}
    (bearing : ledger.Bearing bound) :
    Aligned (ledger.text?.getD "") ledger.params bound := by
  have joined := bearing.offered.joined bearing.sound
  by_cases empty : Offer.links ledger.offers = []
  · rw [empty] at joined
    rw [text?_of_nil ledger empty]
    exact joined
  · rw [text?_of_ne_nil ledger empty]
    exact (joined.behind _ bearing.lead).ahead _ bearing.trail

theorem layout_aligned (ledgers : List Ledger) (bounds : List (List Fragment))
    (bearing : List.Forall₂ (fun ledger bound => ledger.Bearing bound) ledgers bounds) :
    Aligned (layout ledgers) (ledgers.flatMap Ledger.params) bounds.flatten := by
  induction bearing with
  | nil => exact .nil
  | @cons ledger bound ledgers bounds first _ ih =>
    have own := first.aligned
    unfold layout at ih ⊢
    rw [List.flatMap_cons, List.flatten_cons]
    cases found : ledger.text? with
    | none =>
      rw [found] at own
      rw [List.filterMap_cons_none found]
      exact Aligned.skip own ih
    | some text =>
      rw [found] at own
      rw [List.filterMap_cons_some found]
      cases others : ledgers.filterMap text? with
      | nil =>
        rw [others] at ih
        rw [String.intercalate_singleton]
        have whole := Aligned.append own ih
        simpa using whole
      | cons next rest =>
        rw [others] at ih
        rw [String.intercalate_cons_cons, String.append_assoc]
        exact Aligned.append own (ih.behind " " ⟨rfl, rfl⟩)

end Ledger

end SqlCompose
