import SqlCompose.History.Emission

/-! Whatever calls are made on a phrase, it holds what they emit. -/
namespace SqlCompose.Phrase

namespace Account

def phrase (account : Account) (history : List Call) : Phrase where
  lead := leadOf history
  trail := trailOf history
  separator := separatorOf history
  fallback := fallbackOf history
  localLead := account.pending
  text := account.text
  count := account.emissions.length
  hasText := !account.isEmpty
  fault := account.fault

theorem joined_snoc (emissions : List Emission) (emission : Emission) :
    Emission.joined (emissions ++ [emission]) =
      Emission.joined emissions ++ emission.joint ++ emission.text := by
  simp [Emission.joined, String.append_assoc]

/-- The phrase attaches what is emitted next, behind the same joint. -/
theorem attach_phrase (account : Account) (history : List Call) (joint text : String)
    (given : Bool) (sound : account.fault = none) :
    { account.phrase history with localLead := none }.attach joint text given =
      (Account.phrase { emissions := account.emissions ++ [⟨joint, text, given⟩] } history) := by
  simp [phrase, attach, Account.text, isEmpty, joined_snoc, sound]

theorem emit_phrase (account : Account) (history : List Call) (text : String) (given : Bool)
    (sound : account.fault = none) :
    (account.phrase history).emit text given = (account.emit history text given).phrase history := by
  have attached (joint : String) := account.attach_phrase history joint text given sound
  cases pending : account.pending with
  | some lead =>
    have led : (account.phrase history).localLead = some lead := pending
    simp only [Phrase.emit, led, attached, emit, joint?, pending]
  | none =>
    have unled : (account.phrase history).localLead = none := pending
    have same : { account.phrase history with localLead := none } = account.phrase history := by
      rw [← unled]
    rw [same] at attached
    cases emissions : account.emissions with
    | nil =>
      have first : (account.phrase history).count = 0 := by simp [phrase, emissions]
      simp only [Phrase.emit, unled, first, if_true, attached, emit, joint?, pending, emissions]
    | cons emission rest =>
      have later : (account.phrase history).count ≠ 0 := by simp [phrase, emissions]
      simp only [Phrase.emit, unled, later, if_false, emit, joint?, pending, emissions]
      cases separated : separatorOf history with
      | some separator =>
        have joined : (account.phrase history).separator = some separator := separated
        simp only [joined, attached, emissions]
      | none =>
        have unjoined : (account.phrase history).separator = none := separated
        simp only [unjoined]
        simp [phrase, Phrase.fail, sound, Account.text, isEmpty, pending, emissions]

theorem append_phrase (account : Account) (history : List Call) (fragment : String) :
    (account.phrase history).append fragment =
      (account.append history fragment).phrase history := by
  cases struck : account.fault with
  | some error =>
    simp [Phrase.append, Account.append, phrase, struck]
  | none =>
    have emitted (text : String) (given : Bool) := account.emit_phrase history text given struck
    have sound : (account.phrase history).fault = none := struck
    cases empty : fragment.isEmpty with
    | false => simp [Phrase.append, Account.append, sound, struck, empty, emitted]
    | true =>
      have fallback : (account.phrase history).fallback = fallbackOf history := rfl
      simp only [Phrase.append, Account.append, sound, struck, empty, fallback]
      cases fallbackOf history with
      | some fallback => simp [emitted]
      | none => rfl

theorem appendAll_phrase (account : Account) (history : List Call) (fragments : List String) :
    (account.phrase history).appendAll fragments =
      (fragments.foldl (fun account fragment => account.append history fragment) account).phrase
        history := by
  induction fragments generalizing account with
  | nil => rfl
  | cons fragment rest ih =>
    have tail := ih (account.append history fragment)
    rw [← append_phrase] at tail
    exact tail

theorem call_phrase (history : List Call) (made : Call) :
    ((ofHistory history).phrase history).call made =
      (ofHistory (made :: history)).phrase (made :: history) := by
  cases made with
  | append fragment => exact (ofHistory history).append_phrase history fragment
  | appendAll fragments => exact (ofHistory history).appendAll_phrase history fragments
  | _ => rfl

theorem foldl_call (calls history : List Call) :
    calls.foldl call ((ofHistory history).phrase history) =
      (ofHistory (calls.reverse ++ history)).phrase (calls.reverse ++ history) := by
  induction calls generalizing history with
  | nil => rfl
  | cons made rest ih =>
    rw [List.foldl_cons, call_phrase, ih, List.reverse_cons, List.append_assoc,
      List.singleton_append]

theorem render_phrase (account : Account) (history : List Call) :
    (account.phrase history).render = account.render (leadOf history) (trailOf history) := by
  unfold Phrase.render renderWith Account.render
  simp only [phrase, Phrase.isEmpty, Bool.not_not]
  cases account.fault with
  | some error => rfl
  | none =>
    cases account.isEmpty with
    | true => rfl
    | false =>
      cases leadOf history with
      | none => rfl
      | some lead => cases trailOf history <;> rfl

end Account

/-- After any calls a phrase shows what they have emitted: its text is all that was emitted since the
last reset, it is empty as long as none of that came from the caller, its fault is the one that keeps
it from emitting more, and it renders as they say. -/
theorem foldl_account (calls : List Call) :
    (calls.foldl call {}).text = (Account.ofHistory calls.reverse).text ∧
    (calls.foldl call {}).isEmpty = (Account.ofHistory calls.reverse).isEmpty ∧
    (calls.foldl call {}).fault = (Account.ofHistory calls.reverse).fault ∧
    (calls.foldl call {}).render =
      (Account.ofHistory calls.reverse).render (leadOf calls.reverse) (trailOf calls.reverse) := by
  have kept := Account.foldl_call calls []
  rw [List.append_nil] at kept
  have whole : calls.foldl call {} = (Account.ofHistory calls.reverse).phrase calls.reverse := kept
  rw [whole]
  refine ⟨rfl, ?_, rfl, Account.render_phrase _ _⟩
  simp [Account.phrase, Phrase.isEmpty]

end SqlCompose.Phrase
