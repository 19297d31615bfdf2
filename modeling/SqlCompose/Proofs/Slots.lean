import SqlCompose.History.Misuse
import SqlCompose.Proofs.Alignment

/-! The slots of a template and its placeholders. A question mark in a literal is a slot and no
placeholder, and a template with such a slot is not taken for what its placeholders make it. -/
namespace SqlCompose

theorem placeholders_le_count (state : Text.Quoting) (text : List Char) :
    state.placeholders text ≤ text.count '?' := by
  induction text generalizing state with
  | nil => cases state <;> exact Nat.le_refl 0
  | cons char rest ih =>
    have behind := ih (state.step char)
    rw [Text.Quoting.placeholders_cons, List.count_cons]
    by_cases placeholder : state = .plain ∧ char = '?'
    · rw [if_pos placeholder, if_pos (beq_iff_eq.mpr placeholder.2)]
      omega
    · rw [if_neg placeholder]
      omega

variable (template : String) (query : Rendering) (text : String)
  (rendered : query.text = .ok text) (filled : text ≠ "")

include rendered filled

theorem substitute_taken_iff :
    (∃ fragment, substitute template query = .ok fragment) ↔ slotCount template = 1 := by
  have outcome := substitute_fails_iff template query
  have sound : ¬ query.Fails := by
    rintro ⟨error, failed⟩
    rw [rendered] at failed
    cases failed
  have nonempty : query.text ≠ .ok "" := by
    intro empty
    rw [rendered] at empty
    exact filled (Except.ok.inj empty)
  cases substituted : substitute template query with
  | ok fragment =>
    rw [substituted] at outcome
    have fits : ¬ query.Misfits template := by
      rw [← outcome]
      simp
    refine iff_of_true ⟨fragment, rfl⟩ ?_
    by_contra other
    exact fits (.inl other)
  | error error =>
    rw [substituted] at outcome
    refine iff_of_false (by simp) fun single => ?_
    obtain other | failed | empty := outcome.mp ⟨error, rfl⟩
    · exact other single
    · exact sound failed
    · exact nonempty empty

/-- A query with text is placed by the placeholders of its template exactly when every slot is a
placeholder, or when there are several placeholders anyway. -/
theorem substitute_placed_iff :
    PlacedByPlaceholder template query (substitute template query) ↔
      slotCount template = Text.Quoting.plain.placeholders template.toList ∨
        1 < Text.Quoting.plain.placeholders template.toList := by
  have most : Text.Quoting.plain.placeholders template.toList ≤ slotCount template :=
    placeholders_le_count .plain template.toList
  have taken := substitute_taken_iff template query text rendered filled
  constructor
  · intro placed
    have same := taken.symm.trans placed.taken
    by_cases several : 1 < Text.Quoting.plain.placeholders template.toList
    · exact .inr several
    · left
      by_cases none : Text.Quoting.plain.placeholders template.toList = 0
      · obtain ⟨slots, failed⟩ := placed.none none
        rw [substitute_error_iff] at failed
        obtain ⟨zero, _⟩ | ⟨_, other⟩ | ⟨_, own⟩ | ⟨_, _, other⟩ := failed
        · rw [zero, none]
        · cases other
        · rw [rendered] at own
          cases own
        · cases other
      · have single : Text.Quoting.plain.placeholders template.toList = 1 := by omega
        rw [same.mpr single, single]
  · intro agree
    refine ⟨?_, fun fragment substituted => ?_, fun none => ?_, fun several => ?_⟩
    · rw [taken]
      omega
    · obtain ⟨front, back, sql, split, before, behind, nested, filling⟩ :=
        substitute_split template query fragment substituted
      have single := taken.mp ⟨fragment, substituted⟩
      have counted : Text.Quoting.plain.placeholders (front ++ '?' :: back) = 1 := by
        rw [← split]
        omega
      exact ⟨front, back, sql, split, slot_outside front back before behind counted, nested,
        filling⟩
    · refine ⟨0, (substitute_error_iff template query _).mpr (.inl ⟨?_, rfl⟩)⟩
      omega
    · refine ⟨_, (substitute_error_iff template query _).mpr (.inr (.inl ⟨?_, rfl⟩))⟩
      omega

omit rendered filled

/-- A question mark in a literal beside the placeholder is one slot too many. -/
theorem substitute_placed_iff_literal_slot :
    (History.select [.column "id", .source "t"]).rendering.text = .ok "SELECT id FROM t" ∧
      ¬ PlacedByPlaceholder "kind = '?' AND id IN ?"
        (History.select [.column "id", .source "t"]).rendering
        (substitute "kind = '?' AND id IN ?"
          (History.select [.column "id", .source "t"]).rendering) := by
  have built : (History.select [.column "id", .source "t"]).rendering.text =
      .ok "SELECT id FROM t" := rfl
  refine ⟨built, fun placed => ?_⟩
  have agree := (substitute_placed_iff "kind = '?' AND id IN ?" _ _ built (by decide)).mp placed
  exact absurd agree (by decide)

/-- The query is set into the literal, where no placeholder stands. -/
theorem query_placed_in_literal :
    ¬ PlacedByPlaceholder "note = '?'" (History.select [.column "id", .source "t"]).rendering
      (substitute "note = '?'" (History.select [.column "id", .source "t"]).rendering) := by
  intro placed
  have set : substitute "note = '?'" (History.select [.column "id", .source "t"]).rendering =
      .ok ⟨"note = '(SELECT id FROM t)'", []⟩ := rfl
  exact absurd (placed.taken.mp ⟨_, set⟩) (by decide)

end SqlCompose
