import SqlCompose.Proofs.Ranking

/-! A chain of all built-in handlers, in any order and however often each, answers as the standard one
does, since no two of them answer for the same value and target. What it gives is settled: another pass
changes nothing. -/
namespace SqlCompose

namespace Normalizer

theorem kinds_of_answer (source goal : Kind) (handler : Normalizer)
    (entry : (source, goal, handler) ∈ conversions) (value answer : Value) (target : Kind)
    (answered : handler.apply value target = some answer) :
    value.kind = source ∧ target = goal ∧ answer.kind = goal := by
  simp only [conversions, List.mem_cons, Prod.mk.injEq, List.not_mem_nil, or_false] at entry
  rcases entry with ⟨rfl, rfl, rfl⟩ | ⟨rfl, rfl, rfl⟩ | ⟨rfl, rfl, rfl⟩ | ⟨rfl, rfl, rfl⟩ |
    ⟨rfl, rfl, rfl⟩
  all_goals
    simp only [intToFloat, intToBool, bytesToText, textToUuid, textToTimestamp] at answered
    split at answered
    · grind [Value.kind, Option.map_eq_some_iff]
    · cases answered

theorem conversion_unique (source goal : Kind) (first second : Normalizer)
    (entry : (source, goal, first) ∈ conversions) (other : (source, goal, second) ∈ conversions) :
    first = second := by
  simp only [conversions, List.mem_cons, Prod.mk.injEq, List.not_mem_nil, or_false] at entry other
  grind

/-- No two built-in handlers answer for the same value and target. -/
theorem builtin_unique (first second : Normalizer) (member : first ∈ builtin)
    (other : second ∈ builtin) (value answer reply : Value) (target : Kind)
    (answered : first.apply value target = some answer)
    (replied : second.apply value target = some reply) : first = second := by
  obtain ⟨⟨source, goal, _⟩, entry, rfl⟩ := List.mem_map.mp member
  obtain ⟨⟨origin, aim, _⟩, held, rfl⟩ := List.mem_map.mp other
  obtain ⟨rfl, rfl, _⟩ := kinds_of_answer source goal _ entry value answer target answered
  obtain ⟨rfl, rfl, _⟩ := kinds_of_answer origin aim _ held value reply target replied
  exact conversion_unique _ _ _ _ entry held

theorem kind_of_answer (handler : Normalizer) (member : handler ∈ builtin) (value answer : Value)
    (target : Kind) (answered : handler.apply value target = some answer) : answer.kind = target := by
  obtain ⟨⟨source, goal, _⟩, entry, rfl⟩ := List.mem_map.mp member
  obtain ⟨_, rfl, own⟩ := kinds_of_answer source goal _ entry value answer target answered
  exact own

end Normalizer

namespace NormalizerChain

theorem handlers_perm (handlers : List Normalizer) : (ofList handlers).handlers.Perm handlers := by
  obtain ⟨ranked, same, _, held⟩ := exists_ranked handlers
  have registered := same.map Prod.fst
  rw [List.zipIdx_map_fst] at registered
  rwa [held]

theorem isBuiltin_ofList (handlers : List Normalizer)
    (complete : ∀ handler, handler ∈ handlers ↔ handler ∈ Normalizer.builtin) :
    (ofList handlers).IsBuiltin := by
  intro handler
  rw [(handlers_perm handlers).mem_iff, complete]

/-- An answer of any handler is the answer of the chain, since no other handler has one. -/
theorem findSome?_builtin_iff (chain : NormalizerChain) (complete : chain.IsBuiltin)
    (value answer : Value) (target : Kind) :
    (chain.handlers.findSome? fun handler => handler.apply value target) = some answer ↔
      ∃ handler ∈ Normalizer.builtin, handler.apply value target = some answer := by
  constructor
  · intro found
    obtain ⟨handler, member, answered⟩ := List.exists_of_findSome?_eq_some found
    exact ⟨handler, (complete handler).mp member, answered⟩
  · rintro ⟨handler, member, answered⟩
    cases found : chain.handlers.findSome? fun handler => handler.apply value target with
    | none =>
      have silent := List.findSome?_eq_none_iff.mp found handler ((complete handler).mpr member)
      rw [answered] at silent
      cases silent
    | some reply =>
      obtain ⟨other, held, replied⟩ := List.exists_of_findSome?_eq_some found
      obtain rfl := Normalizer.builtin_unique handler other member ((complete other).mp held) value
        answer reply target answered replied
      rw [← answered, replied]

theorem normalize_congr (first second : NormalizerChain) (complete : first.IsBuiltin)
    (also : second.IsBuiltin) (value : Value) (target : Kind) :
    first.normalize value target = second.normalize value target := by
  have same : (first.handlers.findSome? fun handler => handler.apply value target) =
      second.handlers.findSome? fun handler => handler.apply value target := by
    apply Option.ext
    intro answer
    rw [findSome?_builtin_iff first complete, findSome?_builtin_iff second also]
  rw [normalize, normalize, same]

theorem normalize_of_kind (chain : NormalizerChain) (value : Value) (target : Kind)
    (reached : value.kind = target) : chain.normalize value target = value :=
  if_pos ((exempt_iff value target).mpr (.inr (.inr reached)))

theorem kind_normalize (chain : NormalizerChain) (complete : chain.IsBuiltin) (value : Value)
    (target : Kind) :
    (chain.normalize value target).kind = target ∨ chain.normalize value target = value := by
  rw [normalize]
  split
  · exact .inr rfl
  · cases found : chain.handlers.findSome? fun handler => handler.apply value target with
    | none => exact .inr rfl
    | some answer =>
      obtain ⟨handler, member, answered⟩ :=
        (findSome?_builtin_iff chain complete value answer target).mp found
      exact .inl (handler.kind_of_answer member value answer target answered)

/-- A chain of the built-in handlers, registered in any order and each at least once, gives what the
standard one gives: a value of the target kind, or the value as it was; and it leaves that as it is. -/
theorem normalize_settles (handlers : List Normalizer)
    (complete : ∀ handler, handler ∈ handlers ↔ handler ∈ Normalizer.builtin) (value : Value)
    (target : Kind) :
    let chain := ofList handlers
    let result := chain.normalize value target
    result = standard.normalize value target ∧ (result.kind = target ∨ result = value) ∧
      chain.normalize result target = result := by
  intro chain result
  have own : chain.IsBuiltin := isBuiltin_ofList handlers complete
  have usual : standard.IsBuiltin := isBuiltin_ofList Normalizer.builtin fun _ => .rfl
  have settled := kind_normalize chain own value target
  refine ⟨normalize_congr chain standard own usual value target, settled, ?_⟩
  rcases settled with reached | same
  · exact chain.normalize_of_kind result target reached
  · have kept : result = value := same
    rw [kept]
    exact same

/-- Handlers in reverse, with two registered twice: the bytes of a text become the text, and the
integer two is no truth value. -/
theorem normalize_settles_reversed :
    let handlers := Normalizer.builtin.reverse ++ [.intToBool, .textToUuid]
    (ofList handlers).normalize (.bytes [104, 195, 169]) .text =
        standard.normalize (.bytes [104, 195, 169]) .text ∧
      (ofList handlers).normalize ((ofList handlers).normalize (.int 2) .bool) .bool = .int 2 := by
  intro handlers
  have complete : ∀ handler, handler ∈ handlers ↔ handler ∈ Normalizer.builtin := by
    intro handler
    simp only [handlers, Normalizer.builtin, Normalizer.conversions, List.mem_append,
      List.mem_reverse, List.map_cons, List.map_nil, List.mem_cons, List.not_mem_nil, or_false]
    tauto
  refine ⟨(normalize_settles handlers complete _ _).1, ?_⟩
  have settled := (normalize_settles handlers complete (.int 2) .bool).2.2
  rw [settled]
  rfl

end NormalizerChain

end SqlCompose
