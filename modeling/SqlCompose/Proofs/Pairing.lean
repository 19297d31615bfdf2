import SqlCompose.History.Change
import SqlCompose.Proofs.ChangeLayout

/-! Columns and value expressions are set together, but an empty one of them leaves no entry. So the
two lists of an INSERT statement line up exactly when every call leaves an entry in both or in
neither. -/
namespace SqlCompose

section Places

variable {Member : Type}

def repeatedPlaces (count : Member → Nat) (members : List Member) (start : Nat) : List Nat :=
  (members.zipIdx start).flatMap fun (member, place) => List.replicate (count member) place

theorem le_of_mem_repeatedPlaces (count : Member → Nat) (members : List Member)
    (start place : Nat) (held : place ∈ repeatedPlaces count members start) : start ≤ place := by
  obtain ⟨⟨member, own⟩, listed, repeated⟩ := List.mem_flatMap.mp held
  rw [List.eq_of_mem_replicate repeated]
  exact List.le_snd_of_mem_zipIdx listed

theorem repeatedPlaces_eq_iff (first second : Member → Nat) (members : List Member)
    (start : Nat) :
    repeatedPlaces first members start = repeatedPlaces second members start ↔
      ∀ member ∈ members, first member = second member := by
  induction members generalizing start with
  | nil => simp [repeatedPlaces]
  | cons member rest ih =>
    have split (count : Member → Nat) : repeatedPlaces count (member :: rest) start =
        List.replicate (count member) start ++ repeatedPlaces count rest (start + 1) := by
      rw [repeatedPlaces, List.zipIdx_cons, List.flatMap_cons]
      rfl
    have absent (count : Member → Nat) :
        (repeatedPlaces count rest (start + 1)).count start = 0 := by
      refine List.count_eq_zero_of_not_mem fun held => ?_
      have behind := le_of_mem_repeatedPlaces count rest (start + 1) start held
      omega
    rw [split, split, List.forall_mem_cons, ← ih (start + 1)]
    constructor
    · intro same
      have counts := congrArg (List.count start) same
      simp only [List.count_append, List.count_replicate_self, absent, Nat.add_zero] at counts
      rw [counts] at same
      exact ⟨counts, List.append_cancel_left same⟩
    · rintro ⟨counts, others⟩
      rw [counts, others]

end Places

namespace InsertStatement

theorem texts_entries (calls : List Call) (part : Part) :
    (entries calls part).map Prod.snd =
      (Offer.links (ledger calls part).offers).map Link.text := by
  have unplaced : (calls.zipIdx.map Prod.fst).flatMap
      (fun made => (Offer.links (made.offers part)).map Link.text) =
        (entries calls part).map Prod.snd := by
    simp only [entries, List.map_flatMap, List.flatMap_map, List.map_map, Function.comp_def]
  rw [← unplaced, List.zipIdx_map_fst, ledger, Offer.links, List.filterMap_flatMap, List.map_flatMap]
  rfl

theorem places_entries (calls : List Call) (part : Part) :
    (entries calls part).map Prod.fst =
      repeatedPlaces (fun made => (Offer.links (made.offers part)).length) calls 0 := by
  simp only [entries, repeatedPlaces, List.map_flatMap, List.map_map, Function.comp_def,
    List.map_const']

theorem render_listed (calls : List Call) (part : Part) (listed : part.separator? = some (some ", "))
    (content : ∀ offer ∈ (ledger calls part).offers, ∃ fragment, offer.content = .ok fragment) :
    ((ofCalls calls).held part).phrase.render =
      .ok (part.listed ((entries calls part).map Prod.snd)) := by
  have joint := offers_joint calls part (some ", ") listed
  have sound : (ledger calls part).misuse? = none := by
    refine Offer.firstMisuse?_of_joined _ _ _ fun offer member => ?_
    obtain ⟨fragment, came⟩ := content offer member
    obtain ⟨own, own_content⟩ := offer
    exact ⟨", ", fragment, by rw [← joint _ member, ← came]⟩
  have orderly := Ledger.orderly_of_sound _ (some (some ", ")) sound fun _ same =>
    Option.some.inj same ▸ joint
  have written : (ledger calls part).text?.getD "" =
      part.listed ((entries calls part).map Prod.snd) := by
    rw [texts_entries, Part.listed, List.isEmpty_map]
    by_cases empty : Offer.links (ledger calls part).offers = []
    · rw [Ledger.text?_of_nil _ empty, empty]
      rfl
    · rw [Ledger.text?_of_ne_nil _ empty, orderly.joined ", " rfl,
        if_neg (by simpa using empty)]
      rfl
  rw [render_part, written, sound]
  rfl

theorem content_ok (part : Part) (written : part ≠ .query) (made : Call) :
    ∀ offer ∈ made.offers part, ∃ fragment, offer.content = .ok fragment := by
  intro offer offered
  unfold Call.offers at offered
  split at offered
  case h_5 texts =>
    obtain ⟨text, _, rfl⟩ := List.mem_map.mp offered
    exact ⟨_, rfl⟩
  case h_10 => exact absurd rfl written
  case h_12 => cases offered
  all_goals
    rw [List.mem_singleton.mp offered]
    exact ⟨_, rfl⟩

/-- A call leaves as many entries in the one list as in the other when its column and its expression
are both empty or both not. -/
theorem entries_agree_iff (made : Call) (undeclared : ∀ texts, made ≠ .columns texts) :
    (Offer.links (made.offers .columns)).length = (Offer.links (made.offers .values)).length ↔
      ∀ column expression, made.assignment? = some (column, expression) →
        (column = "" ↔ expression = "") := by
  have entry (joint : Option String) (fragment : Fragment) :
      (Offer.links [⟨joint, .ok fragment⟩]).length = if fragment.text = "" then 0 else 1 := by
    by_cases empty : fragment.text = "" <;> simp [Offer.links, Offer.link?, empty]
  have agree (column expression : String) :
      (if column = "" then 0 else 1) = (if expression = "" then 0 else 1) ↔
        (column = "" ↔ expression = "") := by
    by_cases first : column = "" <;> by_cases second : expression = "" <;> simp [first, second]
  cases made with
  | set column value => simp [Call.offers, Offer.plain, entry, Call.assignment?]
  | setOptional column value? =>
    cases value? with
    | none => simp [Call.offers, Call.assignment?]
    | some value => simp [Call.offers, Offer.plain, entry, Call.assignment?]
  | setExpression column expression params =>
    simp [Call.offers, Offer.plain, entry, agree, Call.assignment?]
  | columns texts => exact absurd rfl (undeclared texts)
  | _ => simp [Call.offers, Call.assignment?]

theorem linedUp_iff (calls : List Call) :
    LinedUp calls ↔
      (entries calls .columns).map Prod.fst = (entries calls .values).map Prod.fst := by
  constructor
  · intro lined
    refine List.ext_getElem (by simpa using lined.counted) fun index first second => ?_
    rw [List.length_map] at first second
    rw [List.getElem_map, List.getElem_map]
    exact lined.paired index _ _ (List.getElem?_eq_getElem first) (List.getElem?_eq_getElem second)
  · intro same
    refine ⟨by simpa using congrArg List.length same, fun index column value first second => ?_⟩
    have placed := congrArg (fun places => places[index]?) same
    simpa [first, second] using placed

/-- The columns and the value expressions that are not empty are written in the order of their
calls. The lists line up exactly when no call sets an empty one of the two together with one that is
not empty. -/
theorem lists_line_up_iff (calls : List Call) (undeclared : ∀ texts, .columns texts ∉ calls) :
    (ofCalls calls).columns.render =
        .ok (Part.columns.listed ((entries calls .columns).map Prod.snd)) ∧
      (ofCalls calls).values.render =
        .ok (Part.values.listed ((entries calls .values).map Prod.snd)) ∧
      (LinedUp calls ↔ ∀ made ∈ calls, ∀ column expression,
        made.assignment? = some (column, expression) → (column = "" ↔ expression = "")) := by
  refine ⟨?_, ?_, ?_⟩
  · refine render_listed calls .columns rfl fun offer member => ?_
    obtain ⟨made, _, offered⟩ := List.mem_flatMap.mp member
    exact content_ok .columns (by decide) made offer offered
  · refine render_listed calls .values rfl fun offer member => ?_
    obtain ⟨made, _, offered⟩ := List.mem_flatMap.mp member
    exact content_ok .values (by decide) made offer offered
  · rw [linedUp_iff, places_entries, places_entries, repeatedPlaces_eq_iff]
    refine forall₂_congr fun made member => entries_agree_iff made fun texts same => ?_
    exact undeclared texts (same ▸ member)

/-- A value that is missing and a call without column and expression leave the lists in line. -/
theorem lists_line_up_iff_skipped :
    (∀ texts, .columns texts ∉ [Call.table "t", .set "a" .null, .setOptional "b" none,
      .setExpression "" "" [], .setExpression "c" "now()" []]) ∧
    (ofCalls [.table "t", .set "a" .null, .setOptional "b" none, .setExpression "" "" [],
      .setExpression "c" "now()" []]).columns.render = .ok "(a, c)" ∧
    (ofCalls [.table "t", .set "a" .null, .setOptional "b" none, .setExpression "" "" [],
      .setExpression "c" "now()" []]).values.render = .ok "VALUES (?, now())" ∧
    LinedUp [.table "t", .set "a" .null, .setOptional "b" none, .setExpression "" "" [],
      .setExpression "c" "now()" []] := by
  have undeclared : ∀ texts, .columns texts ∉ [Call.table "t", .set "a" .null,
      .setOptional "b" none, .setExpression "" "" [], .setExpression "c" "now()" []] := by
    simp
  obtain ⟨columns, values, lined⟩ := lists_line_up_iff _ undeclared
  refine ⟨undeclared, columns, values, lined.mpr ?_⟩
  simp [Call.assignment?]

/-- A column without a name keeps its value, and an empty expression keeps its column: the lists have
different lengths, or columns stand over values of other calls. -/
theorem lists_out_of_line :
    ((ofCalls [.table "t", .set "a" .null, .set "" (.bool true)]).rendering.text =
        .ok "INSERT INTO t (a) VALUES (?, ?)" ∧
      ¬LinedUp [.table "t", .set "a" .null, .set "" (.bool true)]) ∧
    (ofCalls [.table "t", .setExpression "a" "" [], .setExpression "" "now()" []]).rendering.text =
        .ok "INSERT INTO t (a) VALUES (now())" ∧
      ¬LinedUp [.table "t", .setExpression "a" "" [], .setExpression "" "now()" []] := by
  refine ⟨⟨rfl, fun lined => ?_⟩, rfl, fun lined => ?_⟩
  · exact absurd lined.counted (by decide)
  · exact absurd (lined.paired 0 (1, "a") (2, "now()") (by decide) (by decide)) (by decide)

end InsertStatement

end SqlCompose
