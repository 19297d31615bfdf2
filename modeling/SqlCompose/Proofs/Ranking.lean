import Mathlib.Data.List.Induction
import SqlCompose.Normalizer

/-! A chain keeps its handlers in the order in which they are asked, whatever the order in which they
were registered, and answers with the foremost of those that have an answer. -/
namespace SqlCompose.NormalizerChain

theorem Precedes.trans {first second third : Normalizer × Nat} (early : Precedes first second)
    (late : Precedes second third) : Precedes first third := by
  unfold Precedes at early late ⊢
  omega

/-- A handler that was registered last goes behind all handlers of its own priority or a higher one,
and before all others. -/
theorem exists_inserted (handler : Normalizer) (place : Nat) (ranked : List (Normalizer × Nat))
    (sorted : ranked.Pairwise Precedes) (earlier : ∀ entry ∈ ranked, entry.2 < place) :
    ∃ front back, ranked = front ++ back ∧
      insert handler (ranked.map Prod.fst) = (front ++ (handler, place) :: back).map Prod.fst ∧
      (front ++ (handler, place) :: back).Pairwise Precedes := by
  induction ranked with
  | nil => exact ⟨[], [], rfl, rfl, List.pairwise_singleton _ _⟩
  | cons entry rest ih =>
    obtain ⟨first, others⟩ := List.pairwise_cons.mp sorted
    obtain ⟨before, behind⟩ := List.forall_mem_cons.mp earlier
    by_cases lower : entry.1.priority < handler.priority
    · have ahead : Precedes (handler, place) entry := .inl lower
      refine ⟨[], entry :: rest, rfl, by simp [insert, lower], ?_⟩
      refine List.pairwise_cons.mpr ⟨List.forall_mem_cons.mpr ⟨ahead, ?_⟩, sorted⟩
      exact fun other member => ahead.trans (first other member)
    · obtain ⟨front, back, rfl, inserted, kept⟩ := ih others behind
      refine ⟨entry :: front, back, rfl, by simpa [insert, lower] using inserted, ?_⟩
      refine List.pairwise_cons.mpr ⟨fun other member => ?_, kept⟩
      obtain early | late := List.mem_append.mp member
      · exact first other (List.mem_append_left _ early)
      obtain rfl | late := List.mem_cons.mp late
      · simp only [Precedes]
        omega
      · exact first other (List.mem_append_right _ late)

theorem exists_ranked (handlers : List Normalizer) :
    ∃ ranked : List (Normalizer × Nat), ranked.Perm handlers.zipIdx ∧
      ranked.Pairwise Precedes ∧ (ofList handlers).handlers = ranked.map Prod.fst := by
  induction handlers using List.reverseRecOn with
  | nil => exact ⟨[], .refl _, .nil, rfl⟩
  | append_singleton registered handler ih =>
    obtain ⟨ranked, same, sorted, held⟩ := ih
    have earlier : ∀ entry ∈ ranked, entry.2 < registered.length := by
      intro entry member
      have place := List.mem_zipIdx (same.mem_iff.mp member)
      omega
    obtain ⟨front, back, rfl, inserted, kept⟩ :=
      exists_inserted handler registered.length ranked sorted earlier
    refine ⟨_, ?_, kept, ?_⟩
    · rw [List.zipIdx_append, List.zipIdx_singleton, Nat.zero_add]
      refine List.perm_middle.trans ?_
      exact (same.cons _).trans (List.perm_append_singleton _ _).symm
    · rw [← inserted, ← held, ofList, List.foldl_append]
      rfl

theorem eq_of_place (handlers : List Normalizer) (first second : Normalizer × Nat)
    (enrolled : first ∈ handlers.zipIdx) (also : second ∈ handlers.zipIdx)
    (place : first.2 = second.2) : first = second := by
  rw [List.mem_zipIdx_iff_getElem?] at enrolled also
  rw [place, also] at enrolled
  exact Prod.ext (Option.some.inj enrolled).symm place

/-- There is one order by precedence, and a stable sort finds it. -/
theorem mergeSort_ranked (handlers : List Normalizer) (ranked : List (Normalizer × Nat))
    (same : ranked.Perm handlers.zipIdx) (sorted : ranked.Pairwise Precedes) :
    handlers.mergeSort (fun first second => second.priority ≤ first.priority) =
      ranked.map Prod.fst := by
  have stable := @List.pairwise_mergeSort _ (List.zipIdxLE fun first second : Normalizer =>
    decide (second.priority ≤ first.priority))
    (List.zipIdxLE_trans (by simp; omega)) (List.zipIdxLE_total (by simp; omega)) handlers.zipIdx
  have placed : ranked.Pairwise fun first second => List.zipIdxLE (fun first second : Normalizer =>
      decide (second.priority ≤ first.priority)) first second = true := by
    refine sorted.imp fun {first second} early => ?_
    simp only [Precedes] at early
    simp only [List.zipIdxLE]
    grind
  rw [← List.mergeSort_zipIdx]
  congr 1
  refine List.Perm.eq_of_pairwise (fun first second own other late early => ?_) stable placed
    ((List.mergeSort_perm _ _).trans same.symm)
  refine eq_of_place handlers first second (List.mem_mergeSort.mp own) (same.mem_iff.mp other) ?_
  simp only [List.zipIdxLE] at late early
  grind

theorem findSome?_ranked (handlers : List Normalizer) (value : Value) (target : Kind) :
    ((ofList handlers).handlers.findSome? fun handler => handler.apply value target) = none ∧
        (∀ handler ∈ handlers, handler.apply value target = none) ∨
      ∃ chosen, Foremost handlers.zipIdx value target chosen ∧
        ((ofList handlers).handlers.findSome? fun handler => handler.apply value target) =
          chosen.1.apply value target := by
  obtain ⟨ranked, same, sorted, held⟩ := exists_ranked handlers
  rw [held, List.findSome?_map]
  cases found : ranked.findSome? ((fun handler => handler.apply value target) ∘ Prod.fst) with
  | none =>
    refine .inl ⟨rfl, fun handler member => ?_⟩
    obtain ⟨place, within, rfl⟩ := List.mem_iff_getElem.mp member
    have enrolled : (handlers[place], place) ∈ ranked :=
      same.mem_iff.mpr (List.mem_zipIdx_iff_getElem?.mpr (List.getElem?_eq_getElem within))
    exact List.findSome?_eq_none_iff.mp found _ enrolled
  | some answer =>
    obtain ⟨front, chosen, back, rfl, answers, silent⟩ := List.findSome?_eq_some_iff.mp found
    have given : chosen.1.apply value target = some answer := answers
    refine .inr ⟨chosen, ⟨same.mem_iff.mp (by simp), by simp [given], ?_⟩, given.symm⟩
    intro other enrolled speaks apart
    have behind := (List.pairwise_cons.mp (List.pairwise_append.mp sorted).2.1).1
    rcases List.mem_append.mp (same.mem_iff.mpr enrolled) with early | late
    · rw [show other.1.apply value target = none from silent other early] at speaks
      cases speaks
    · rcases List.mem_cons.mp late with rfl | late
      · exact absurd rfl apart
      · exact behind other late

theorem exempt_iff (value : Value) (target : Kind) :
    (target = .any || value.isNull || value.kind = target) = true ↔
      target = .any ∨ value = .null ∨ value.kind = target := by
  have null : value.isNull = true ↔ value = .null := by
    cases value <;> simp [Value.isNull, Value.kind]
  simp only [Bool.or_eq_true, decide_eq_true_eq, null, or_assoc]

/-- The handlers of a chain are those registered with it, by falling priority and in the order of
registration among equals. A value that is null, of the target kind already, or wanted as it is,
passes unchanged; any other is answered by the foremost handler that has an answer, and passes
unchanged if none has. -/
theorem normalize_foremost (handlers : List Normalizer) :
    (∃ ranked : List (Normalizer × Nat), ranked.Perm handlers.zipIdx ∧ ranked.Pairwise Precedes ∧
      (ofList handlers).handlers = ranked.map Prod.fst) ∧
    (ofList handlers).handlers =
      handlers.mergeSort (fun first second => second.priority ≤ first.priority) ∧
    ∀ value target,
      ((target = .any ∨ value = .null ∨ value.kind = target) →
        (ofList handlers).normalize value target = value) ∧
      (¬ (target = .any ∨ value = .null ∨ value.kind = target) →
        (∀ handler ∈ handlers, handler.apply value target = none) ∧
            (ofList handlers).normalize value target = value ∨
          ∃ chosen, Foremost handlers.zipIdx value target chosen ∧
            chosen.1.apply value target = some ((ofList handlers).normalize value target)) := by
  refine ⟨exists_ranked handlers, ?_, fun value target => ⟨fun exempt => ?_, fun wanted => ?_⟩⟩
  · obtain ⟨ranked, same, sorted, held⟩ := exists_ranked handlers
    rw [held, mergeSort_ranked handlers ranked same sorted]
  · exact if_pos ((exempt_iff value target).mpr exempt)
  · rw [normalize, if_neg (mt (exempt_iff value target).mp wanted)]
    rcases findSome?_ranked handlers value target with ⟨none, silent⟩ | ⟨chosen, foremost, found⟩
    · rw [none]
      exact .inl ⟨silent, rfl⟩
    · obtain ⟨answer, given⟩ := Option.isSome_iff_exists.mp foremost.answers
      rw [found, given]
      exact .inr ⟨chosen, foremost, given⟩

/-- The first of two equals answers, and a handler of the highest priority that has no answer is
passed over. -/
theorem normalize_foremost_tied :
    (ofList [⟨1, fun _ _ => some (.text "low")⟩, ⟨10, fun _ _ => some (.text "first")⟩,
      ⟨2147483647, fun _ _ => none⟩,
      ⟨10, fun _ _ => some (.text "second")⟩]).normalize (.int 7) .text = .text "first" := by
  obtain ⟨_, _, answered⟩ := normalize_foremost [⟨1, fun _ _ => some (.text "low")⟩,
    ⟨10, fun _ _ => some (.text "first")⟩, ⟨2147483647, fun _ _ => none⟩,
    ⟨10, fun _ _ => some (.text "second")⟩]
  rcases (answered (.int 7) .text).2 (by simp [Value.kind]) with
    ⟨silent, _⟩ | ⟨chosen, foremost, given⟩
  · have low := silent ⟨1, fun _ _ => some (.text "low")⟩ (by simp)
    cases low
  · have first := foremost.ahead (⟨10, fun _ _ => some (.text "first")⟩, 1) (by simp) rfl
    have member := foremost.member
    simp only [List.zipIdx_cons, List.zipIdx_nil, List.mem_cons, List.not_mem_nil,
      or_false] at member
    rcases member with rfl | rfl | rfl | rfl
    · exact absurd (first (by decide)) (by simp [Precedes])
    · exact (Option.some.inj given).symm
    · cases given
    · exact absurd (first (by decide)) (by simp [Precedes])

end SqlCompose.NormalizerChain
