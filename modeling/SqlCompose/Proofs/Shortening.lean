import SqlCompose.Proofs.Places
import SqlCompose.Rendering

/-! What the log shows of a statement: its text, or the longest beginning of it that fits the budget.
The search that cuts it goes back from the budget to a boundary between two characters, and it finds
one. -/
namespace SqlCompose

namespace Text

theorem byteSize_le_of_begins {front text : List Char} (begins : front <+: text) :
    byteSize front ≤ byteSize text := by
  obtain ⟨back, rfl⟩ := begins
  rw [byteSize_append]
  omega

theorem LongestWithin.unique {budget : Nat} {text first second : List Char}
    (one : LongestWithin budget text first) (other : LongestWithin budget text second) :
    first = second :=
  (other.longest first one.begins one.fits).eq_of_length_le
    (one.longest second other.begins other.fits).length_le

theorem fitting_longest (budget : Nat) (text : List Char) :
    LongestWithin budget text (fitting budget text) := by
  induction text generalizing budget with
  | nil => exact ⟨List.prefix_rfl, Nat.zero_le _, fun other begins _ => begins⟩
  | cons char rest ih =>
    by_cases fits : char.utf8Size ≤ budget
    · obtain ⟨begins, within, longest⟩ := ih (budget - char.utf8Size)
      rw [fitting, if_pos fits]
      refine ⟨(List.prefix_cons_inj char).mpr begins, by rw [byteSize]; omega, ?_⟩
      intro other starts small
      rcases List.prefix_cons_iff.mp starts with rfl | ⟨others, rfl, behind⟩
      · exact List.nil_prefix
      · rw [byteSize] at small
        exact (List.prefix_cons_inj char).mpr (longest others behind (by omega))
    · rw [fitting, if_neg fits]
      refine ⟨List.nil_prefix, Nat.zero_le _, ?_⟩
      intro other starts small
      rcases List.prefix_cons_iff.mp starts with rfl | ⟨others, rfl, behind⟩
      · exact List.nil_prefix
      · rw [byteSize] at small
        omega

theorem fitting_of_fits (budget : Nat) (text : List Char) (fits : byteSize text ≤ budget) :
    fitting budget text = text :=
  (fitting_longest budget text).unique ⟨List.prefix_rfl, fits, fun _ begins _ => begins⟩

theorem exists_encoded (char : Char) : ∃ first others, String.utf8EncodeChar char = first :: others ∧
    (first.toNat < 128 ∨ 192 ≤ first.toNat) ∧
      ∀ byte ∈ others, 128 ≤ byte.toNat ∧ byte.toNat < 192 := by
  have same : char.toNat = char.val.toNat := rfl
  unfold String.utf8EncodeChar
  dsimp only
  split
  · exact ⟨_, _, rfl, by simp; omega, by simp⟩
  · split
    · exact ⟨_, _, rfl, by simp; omega, by simp; omega⟩
    · split
      · exact ⟨_, _, rfl, by simp; omega, by simp; omega⟩
      · exact ⟨_, _, rfl, by simp; omega, by simp; omega⟩

theorem exists_bytes_char (char : Char) : ∃ first others, bytes [char] = first :: others ∧
    isContinuation first = false ∧ ∀ byte ∈ others, isContinuation byte = true := by
  obtain ⟨first, others, encoded, leads, follow⟩ := exists_encoded char
  refine ⟨Char.ofNat first.toNat, others.map fun byte => Char.ofNat byte.toNat, ?_, ?_, ?_⟩
  · rw [bytes, List.flatMap_singleton, encoded, List.map_cons]
  · simp only [isContinuation, toNat_ofNat_byte, Bool.and_eq_false_iff, decide_eq_false_iff_not]
    omega
  · intro byte member
    obtain ⟨own, held, rfl⟩ := List.mem_map.mp member
    simpa [isContinuation, toNat_ofNat_byte] using follow own held

theorem isBoundary_append (front back : List Char) :
    isBoundary (front ++ back) (byteSize front) = true := by
  cases back with
  | nil => simp [isBoundary]
  | cons char rest =>
    obtain ⟨first, others, single, leads, _⟩ := exists_bytes_char char
    have ahead : (bytes (front ++ char :: rest))[byteSize front]? = some first := by
      rw [← List.head?_drop, drop_bytes, bytes_cons, single]
      rfl
    simp [isBoundary, ahead, leads]

/-- A text can be cut exactly where one of its beginnings ends. -/
theorem isBoundary_iff (text : List Char) (place : Nat) :
    isBoundary text place = true ↔ ∃ front, front <+: text ∧ byteSize front = place := by
  constructor
  · intro boundary
    simp only [isBoundary, Bool.or_eq_true, decide_eq_true_eq, Option.any_eq_true] at boundary
    rcases boundary with (rfl | rfl) | ⟨byte, held, leads⟩
    · exact ⟨[], List.nil_prefix, rfl⟩
    · exact ⟨text, List.prefix_rfl, rfl⟩
    · induction text generalizing place with
      | nil => simp [bytes] at held
      | cons char rest ih =>
        obtain ⟨first, others, single, _, follow⟩ := exists_bytes_char char
        have size : (first :: others).length = byteSize [char] := by
          rw [← single, length_bytes]
        rw [bytes_cons, single] at held
        by_cases within : place < byteSize [char]
        · -- Within the character only its first byte is no continuation.
          rw [List.getElem?_append_left (by omega)] at held
          cases place with
          | zero => exact ⟨[], List.nil_prefix, rfl⟩
          | succ place =>
            have continues := follow byte (List.mem_of_getElem? held)
            simp [continues] at leads
        · rw [List.getElem?_append_right (by omega), size] at held
          obtain ⟨front, begins, reached⟩ := ih (place - byteSize [char]) held
          refine ⟨char :: front, (List.prefix_cons_inj char).mpr begins, ?_⟩
          simp only [byteSize] at within reached ⊢
          omega
  · rintro ⟨front, ⟨back, rfl⟩, rfl⟩
    exact isBoundary_append front back

/-- The search ends behind the longest beginning that fits. -/
theorem backToBoundary_eq (text : List Char) (place : Nat) :
    backToBoundary text place = .ok (byteSize (fitting place text)) := by
  induction place with
  | zero =>
    have fits := (fitting_longest 0 text).fits
    rw [backToBoundary, if_pos ((isBoundary_iff text 0).mpr ⟨[], List.nil_prefix, rfl⟩),
      Nat.le_zero.mp fits]
  | succ place ih =>
    obtain ⟨begins, fits, longest⟩ := fitting_longest (place + 1) text
    rw [backToBoundary]
    by_cases boundary : isBoundary text (place + 1) = true
    · obtain ⟨front, starts, reached⟩ := (isBoundary_iff text (place + 1)).mp boundary
      have least := byteSize_le_of_begins (longest front starts (by omega))
      rw [if_pos boundary, show byteSize (fitting (place + 1) text) = place + 1 by omega]
    · have apart : byteSize (fitting (place + 1) text) ≠ place + 1 := fun reached =>
        boundary ((isBoundary_iff text (place + 1)).mpr ⟨_, begins, reached⟩)
      have same : fitting (place + 1) text = fitting place text :=
        LongestWithin.unique ⟨begins, by omega, fun other starts small =>
          longest other starts (by omega)⟩ (fitting_longest place text)
      rw [if_neg boundary, ih, same]

theorem shorten_eq (text : List Char) (budget : Nat) :
    shorten text budget = .ok (fitting budget text) := by
  unfold shorten
  split
  · rename_i fits
    rw [fitting_of_fits budget text fits]
    rfl
  · obtain ⟨back, split⟩ := (fitting_longest budget text).begins
    rw [backToBoundary_eq]
    have cut := textTo_append (fitting budget text) back
    rw [split] at cut
    exact cut

theorem utf8ByteSize_ofList (text : List Char) : (String.ofList text).utf8ByteSize = byteSize text := by
  rw [← String.size_toByteArray, String.toByteArray_ofList]
  induction text with
  | nil => rfl
  | cons char rest ih =>
    rw [List.utf8Encode_cons, ByteArray.size_append, ih, List.utf8Encode_singleton,
      List.size_toByteArray, String.length_utf8EncodeChar, byteSize]

theorem utf8ByteSize_eq (sql : String) : sql.utf8ByteSize = byteSize sql.toList := by
  rw [← utf8ByteSize_ofList, String.ofList_toList]

end Text

namespace RenderConfig

theorem abridge_of_fits (config : RenderConfig) (budget : Nat) (limited : config.budget = some budget)
    (sql : String) (fits : sql.utf8ByteSize ≤ budget) : config.abridge sql = sql := by
  rw [abridge, limited]
  exact if_pos fits

theorem abridge_of_exceeds (config : RenderConfig) (budget : Nat)
    (limited : config.budget = some budget) (sql : String) (exceeds : budget < sql.utf8ByteSize) :
    config.abridge sql = String.ofList (Text.fitting budget sql.toList) ++ "..." := by
  rw [abridge, limited]
  exact if_neg (by omega)

theorem size_abridge_le (config : RenderConfig) (budget : Nat)
    (limited : config.budget = some budget) (sql : String) :
    (config.abridge sql).utf8ByteSize ≤ budget + 3 := by
  by_cases fits : sql.utf8ByteSize ≤ budget
  · rw [config.abridge_of_fits budget limited sql fits]
    omega
  · have within := (Text.fitting_longest budget sql.toList).fits
    rw [config.abridge_of_exceeds budget limited sql (by omega), String.utf8ByteSize_append,
      Text.utf8ByteSize_ofList]
    exact Nat.add_le_add_right within 3

/-- A text is shortened, without a slip, to its longest beginning that fits, which is the text itself
if that fits. A statement is logged with its rendered text, if that fits or if there is no budget, and
otherwise with the longest beginning that does and three dots. The statement that a builder gives has
the whole text. -/
theorem build_logged :
    (∀ (sql : String) (budget : Nat), ∃ front, Text.shorten sql.toList budget = .ok front ∧
      Text.LongestWithin budget sql.toList front ∧
      (sql.utf8ByteSize ≤ budget → String.ofList front = sql)) ∧
    (∀ (config : RenderConfig) (statement : Statement),
      let sql := config.render statement
      let logged := (config.event statement).sql
      (config.budget = none → logged = sql) ∧
      ∀ budget, config.budget = some budget →
        (sql.utf8ByteSize ≤ budget → logged = sql) ∧
        (budget < sql.utf8ByteSize → ∃ front, Text.shorten sql.toList budget = .ok front ∧
          Text.LongestWithin budget sql.toList front ∧ logged = String.ofList front ++ "...") ∧
        logged.utf8ByteSize ≤ budget + 3) ∧
    ∀ (rendering : Rendering) (config : RenderConfig) (statement : Statement) (event : LogEvent),
      rendering.build config = .ok (statement, event) ↔
        rendering.text = .ok statement.sql ∧ statement.params = rendering.params ∧
          event = config.event statement := by
  refine ⟨fun sql budget => ⟨_, Text.shorten_eq _ _, Text.fitting_longest _ _, fun fits => ?_⟩,
    fun config statement => ⟨fun unlimited => ?_, fun budget limited => ⟨?_, fun exceeds => ?_, ?_⟩⟩,
    fun rendering config statement event => ?_⟩
  · rw [Text.utf8ByteSize_eq] at fits
    rw [Text.fitting_of_fits _ _ fits, String.ofList_toList]
  · show config.abridge _ = _
    rw [abridge, unlimited]
  · exact config.abridge_of_fits budget limited _
  · exact ⟨_, Text.shorten_eq _ _, Text.fitting_longest _ _,
      config.abridge_of_exceeds budget limited _ exceeds⟩
  · exact config.size_abridge_le budget limited _
  · rw [Rendering.build, Rendering.statement]
    constructor
    · intro built
      cases text : rendering.text with
      | error error => simp [text, Except.map] at built
      | ok sql =>
        simp only [text, Except.map, Except.ok.injEq, Prod.mk.injEq] at built
        obtain ⟨rfl, rfl⟩ := built
        exact ⟨rfl, rfl, rfl⟩
    · rintro ⟨text, params, rfl⟩
      rw [text, ← params]
      rfl

/-- A budget within the second character leaves the first, and one within the first leaves nothing. -/
theorem build_logged_wide :
    let config : RenderConfig := ⟨.dollar, .info, some 5⟩
    let statement : Statement := ⟨"\u20ac\u20ac?", [.int 1]⟩
    (config.event statement).sql = "\u20ac..." ∧
      Text.shorten "\u20ac\u20ac?".toList 2 = .ok [] := by
  intro config statement
  obtain ⟨texts, events, _⟩ := build_logged
  have rendered : config.render statement = "\u20ac\u20ac$1" := by decide
  constructor
  · have cut := ((events config statement).2 5 rfl).2.1
    rw [rendered] at cut
    obtain ⟨front, _, longest, logged⟩ := cut (by decide)
    have kept : front = ['\u20ac'] := longest.unique (Text.fitting_longest 5 _)
    rw [logged, kept]
    rfl
  · obtain ⟨front, shortened, longest, _⟩ := texts "\u20ac\u20ac?" 2
    have kept : front = [] := longest.unique (Text.fitting_longest 2 _)
    rw [shortened, kept]

end RenderConfig

end SqlCompose
