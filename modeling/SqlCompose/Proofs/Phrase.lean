import SqlCompose.History.Ledger

/-! A phrase follows what it was offered: its text are the links of the offers in their order, and
its fault is the first misuse among them. -/
namespace SqlCompose

theorem Link.joined_snoc (links : List Link) (link : Link) (nonempty : links ≠ []) :
    Link.joined (links ++ [link]) = Link.joined links ++ link.joint ++ link.text := by
  cases links with
  | nil => exact absurd rfl nonempty
  | cons first rest =>
    simp only [List.cons_append, Link.joined, List.map_append, List.map_cons, List.map_nil,
      String.join_append, String.join_cons, String.join_nil, String.append_empty,
      String.append_assoc]

namespace Offer

theorem links_snoc (offers : List Offer) (offer : Offer) :
    links (offers ++ [offer]) = links offers ++ offer.link?.toList := by
  cases found : offer.link? <;> simp [links, List.filterMap_append, found]

theorem link?_eq_some_iff (offer : Offer) (link : Link) :
    offer.link? = some link ↔ ∃ fragment, offer.content = .ok fragment ∧ fragment.text ≠ "" ∧
      link = ⟨offer.joint.getD "", fragment.text⟩ := by
  unfold link?
  cases offer.content with
  | error error => simp
  | ok fragment =>
    by_cases empty : fragment.text = ""
    · simp [empty]
    · simp [empty, eq_comm (a := link)]

theorem joined_links_ne (offers : List Offer) (filled : links offers ≠ []) :
    Link.joined (links offers) ≠ "" := by
  cases linked : links offers with
  | nil => exact absurd linked filled
  | cons link rest =>
    have member : link ∈ links offers := by simp [linked]
    obtain ⟨offer, _, found⟩ := List.mem_filterMap.mp member
    obtain ⟨fragment, _, texted, rfl⟩ := (link?_eq_some_iff offer link).mp found
    simp [Link.joined, String.append_eq_empty_iff, texted]

theorem links_cons (offer : Offer) (offers : List Offer) :
    links (offer :: offers) = offer.link?.toList ++ links offers := by
  cases found : offer.link? <;> simp [links, found]

theorem firstMisuse?_append (clause : String) (before : List Link) (first second : List Offer) :
    firstMisuse? clause before (first ++ second) =
      match firstMisuse? clause before first with
      | some error => some error
      | none => firstMisuse? clause (before ++ links first) second := by
  induction first generalizing before with
  | nil => simp [firstMisuse?, links]
  | cons offer rest ih =>
    simp only [List.cons_append, firstMisuse?]
    cases offer.misuse? clause before with
    | some error => rfl
    | none => simp only [ih, links_cons, List.append_assoc]

@[simp]
theorem firstMisuse?_singleton (clause : String) (before : List Link) (offer : Offer) :
    firstMisuse? clause before [offer] = offer.misuse? clause before := by
  simp only [firstMisuse?]
  cases offer.misuse? clause before <;> rfl

theorem firstMisuse?_snoc (clause : String) (before : List Link) (offers : List Offer)
    (offer : Offer) :
    firstMisuse? clause before (offers ++ [offer]) =
      match firstMisuse? clause before offers with
      | some error => some error
      | none => offer.misuse? clause (before ++ links offers) := by
  rw [firstMisuse?_append, firstMisuse?_singleton]

theorem firstMisuse?_of_joined (clause : String) (before : List Link) (offers : List Offer)
    (joined : ∀ offer ∈ offers, ∃ joint fragment, offer = ⟨some joint, .ok fragment⟩) :
    firstMisuse? clause before offers = none := by
  induction offers generalizing before with
  | nil => rfl
  | cons offer rest ih =>
    obtain ⟨⟨joint, fragment, rfl⟩, others⟩ := List.forall_mem_cons.mp joined
    exact ih _ others

theorem content_of_sound (clause : String) (before : List Link) (offers : List Offer)
    (sound : firstMisuse? clause before offers = none) :
    ∀ offer ∈ offers, ∃ fragment, offer.content = .ok fragment := by
  induction offers generalizing before with
  | nil => simp
  | cons first rest ih =>
    rw [firstMisuse?] at sound
    split at sound
    · cases sound
    · rename_i unmisused
      intro offer member
      rcases List.mem_cons.mp member with rfl | later
      · cases content : offer.content with
        | ok fragment => exact ⟨fragment, rfl⟩
        | error error => simp [misuse?, content] at unmisused
      · exact ih _ sound offer later

end Offer

namespace Phrase

/-- What a phrase has become of when it was offered some fragments. Its settings are those of a
clause; its separator may change from one offer to the next. -/
structure Holds (phrase : Phrase) (lead trail : String) (offers : List Offer) : Prop where
  leads : phrase.lead = some lead
  trails : phrase.trail = some trail
  fallback : phrase.fallback = none
  localLead : phrase.localLead = none
  fault : phrase.fault = Offer.firstMisuse? (Text.trimmed lead) [] offers
  content : phrase.fault = none →
    phrase.text = Link.joined (Offer.links offers) ∧
    phrase.count = (Offer.links offers).length ∧
    phrase.hasText = !(Offer.links offers).isEmpty

variable {phrase : Phrase} {lead trail : String} {offers : List Offer}

theorem holds_wrapped (lead trail : String) (separator : Option String) :
    (wrapped lead separator trail).Holds lead trail [] :=
  ⟨rfl, rfl, rfl, rfl, rfl, fun _ => ⟨rfl, rfl, rfl⟩⟩

theorem holds_clause (lead : String) (separator : Option String) :
    (clause lead separator).Holds lead "" [] :=
  holds_wrapped lead "" separator

theorem Holds.separatedBy (holds : phrase.Holds lead trail offers) (separator : String) :
    (phrase.separatedBy separator).Holds lead trail offers :=
  ⟨holds.leads, holds.trails, holds.fallback, holds.localLead, holds.fault, holds.content⟩

theorem Holds.reset (holds : phrase.Holds lead trail offers) :
    phrase.reset.Holds lead trail [] :=
  ⟨holds.leads, holds.trails, holds.fallback, holds.localLead, rfl, fun _ => ⟨rfl, rfl, rfl⟩⟩

theorem Holds.struck (holds : phrase.Holds lead trail offers) (error : Error)
    (struck : phrase.fault = some error) (offer : Offer) :
    phrase.Holds lead trail (offers ++ [offer]) := by
  have known := holds.fault
  rw [struck] at known
  refine ⟨holds.leads, holds.trails, holds.fallback, holds.localLead, ?_, ?_⟩
  · rw [Offer.firstMisuse?_snoc, ← known, struck]
  · intro sound
    rw [struck] at sound
    cases sound

theorem Holds.fail (holds : phrase.Holds lead trail offers) (error : Error)
    (joint : Option String) :
    (phrase.fail error).Holds lead trail (offers ++ [⟨joint, .error error⟩]) := by
  cases struck : phrase.fault with
  | some first =>
    have kept : (phrase.fault <|> some error) = phrase.fault := by
      rw [struck]
      rfl
    have same : phrase.fail error = phrase := by
      unfold Phrase.fail
      rw [kept]
    rw [same]
    exact holds.struck first struck _
  | none =>
    have known := holds.fault
    rw [struck] at known
    refine ⟨holds.leads, holds.trails, holds.fallback, holds.localLead, ?_, ?_⟩
    · rw [Offer.firstMisuse?_snoc, ← known]
      simp [Phrase.fail, struck, Offer.misuse?]
    · simp [Phrase.fail, struck]

@[simp]
theorem append_separator (phrase : Phrase) (text : String) :
    (phrase.append text).separator = phrase.separator := by
  unfold append emit
  repeat' split
  all_goals rfl

theorem Holds.attach (holds : phrase.Holds lead trail offers) (sound : phrase.fault = none)
    (offer : Offer) (link : Link) (linked : offer.link? = some link)
    (allowed : offer.misuse? (Text.trimmed lead) (Offer.links offers) = none)
    (joint : String)
    (joined : phrase.text ++ joint ++ link.text = Link.joined (Offer.links offers ++ [link])) :
    (phrase.attach joint link.text true).Holds lead trail (offers ++ [offer]) := by
  obtain ⟨_, counted, _⟩ := holds.content sound
  have known := holds.fault
  rw [sound] at known
  refine ⟨holds.leads, holds.trails, holds.fallback, holds.localLead, ?_, fun _ => ⟨?_, ?_, ?_⟩⟩
  · rw [Offer.firstMisuse?_snoc, ← known]
    simpa [Phrase.attach, sound] using allowed.symm
  · simpa [Offer.links_snoc, linked, Phrase.attach] using joined
  · simp [Offer.links_snoc, linked, Phrase.attach, counted]
  · simp [Offer.links_snoc, linked, Phrase.attach]

/-- A fragment that is offered with the separator of the phrase as its joint is taken as the offer
says, be it empty, the first, a later one, or one too many. -/
theorem Holds.append (holds : phrase.Holds lead trail offers) (text : String)
    (params : List Value) :
    (phrase.append text).Holds lead trail
      (offers ++ [⟨phrase.separator, .ok ⟨text, params⟩⟩]) := by
  cases struck : phrase.fault with
  | some first =>
    have same : phrase.append text = phrase := by simp [Phrase.append, struck]
    rw [same]
    exact holds.struck first struck _
  | none =>
    have known := holds.fault
    rw [struck] at known
    obtain ⟨joined, counted, given⟩ := holds.content struck
    by_cases empty : text = ""
    · have same : phrase.append text = phrase := by
        simp [Phrase.append, struck, empty, holds.fallback]
      rw [same]
      refine ⟨holds.leads, holds.trails, holds.fallback, holds.localLead, ?_, fun _ => ?_⟩
      · rw [Offer.firstMisuse?_snoc, ← known, struck]
        simp [Offer.misuse?, empty]
      · simpa [Offer.links_snoc, Offer.link?, empty] using holds.content struck
    · have emitted : phrase.append text = phrase.emit text true := by
        simp [Phrase.append, struck, String.isEmpty_iff, empty]
      have linked (joint : Option String) :
          (⟨joint, .ok ⟨text, params⟩⟩ : Offer).link? = some ⟨joint.getD "", text⟩ := by
        simp [Offer.link?, String.isEmpty_iff, empty]
      rw [emitted]
      cases first : Offer.links offers with
      | nil =>
        have none_yet : phrase.count = 0 := by simp [counted, first]
        simp only [emit, holds.localLead, none_yet, if_true]
        refine holds.attach struck _ _ (linked _) ?_ "" ?_
        · simp [Offer.misuse?, first]
        · simp [joined, first, Link.joined]
      | cons link rest =>
        have some_yet : phrase.count ≠ 0 := by simp [counted, first]
        have nonempty : Offer.links offers ≠ [] := by simp [first]
        simp only [emit, holds.localLead, some_yet, if_false]
        cases separated : phrase.separator with
        | some separator =>
          refine holds.attach struck _ _ (linked _) ?_ separator ?_
          · simp [Offer.misuse?]
          · simp [joined, Link.joined_snoc _ _ nonempty]
        | none =>
          simp only [holds.leads, Option.getD_some, joined]
          have misused : (⟨none, .ok ⟨text, params⟩⟩ : Offer).misuse? (Text.trimmed lead)
              (Offer.links offers) =
              some (.misuse (.noSeparator (Text.trimmed lead) text
                (Link.joined (Offer.links offers)))) := by
            simp [Offer.misuse?, nonempty, empty]
          refine ⟨holds.leads, holds.trails, holds.fallback, holds.localLead, ?_, ?_⟩
          · rw [Offer.firstMisuse?_snoc, ← known]
            simpa [Phrase.fail, struck] using misused.symm
          · simp [Phrase.fail, struck]

theorem Holds.append_hasText (holds : phrase.Holds lead trail offers)
    (struck : phrase.fault.isSome → phrase.hasText) (text : String) (filled : text ≠ "") :
    (phrase.append text).hasText := by
  cases sound : phrase.fault with
  | some error =>
    have given : phrase.hasText := struck (by simp [sound])
    simpa [Phrase.append, sound] using given
  | none =>
    obtain ⟨_, counted, given⟩ := holds.content sound
    simp only [Phrase.append, sound, Option.isSome_none, Bool.false_eq_true, if_false,
      String.isEmpty_iff, filled, emit, holds.localLead]
    split
    · simp [Phrase.attach]
    · rename_i later
      have some_yet : Offer.links offers ≠ [] := by
        intro empty
        exact later (by simp [counted, empty])
      split
      · simp [Phrase.attach]
      · simp [Phrase.fail, given, some_yet]

@[simp]
theorem appendAll_separator (phrase : Phrase) (texts : List String) :
    (phrase.appendAll texts).separator = phrase.separator := by
  induction texts generalizing phrase with
  | nil => rfl
  | cons text rest ih =>
    have tail := ih (phrase.append text)
    rw [append_separator] at tail
    exact tail

theorem Holds.appendAll (holds : phrase.Holds lead trail offers) (texts : List String) :
    (phrase.appendAll texts).Holds lead trail
      (offers ++ texts.map (Offer.plain phrase.separator)) := by
  induction texts generalizing phrase offers with
  | nil => simpa [Phrase.appendAll] using holds
  | cons text rest ih =>
    have tail := ih (holds.append text [])
    simpa [Phrase.appendAll, Offer.plain] using tail

theorem Holds.renderWith (holds : phrase.Holds lead trail offers) (heading : String) :
    phrase.renderWith (some heading) =
      match Offer.firstMisuse? (Text.trimmed lead) [] offers with
      | some error => .error error
      | none => .ok ((Ledger.text? ⟨heading, trail, offers⟩).getD "") := by
  rw [← holds.fault]
  cases struck : phrase.fault with
  | some error => simp [Phrase.renderWith, struck]
  | none =>
    obtain ⟨joined, _, given⟩ := holds.content struck
    cases links : Offer.links offers with
    | nil => simp [Phrase.renderWith, struck, isEmpty, given, links, Ledger.text?]
    | cons link rest =>
      simp [Phrase.renderWith, struck, isEmpty, given, links, Ledger.text?, holds.trails, joined]

end Phrase

end SqlCompose
