import SqlCompose.Proofs.JsonValues
import SqlCompose.Proofs.Timestamps
import SqlCompose.Proofs.Uuids
import SqlCompose.Statement.Tagged
import SqlCompose.Value.Storable

/-! Values and statements are read back from their JSON. -/
namespace SqlCompose

namespace Value

def tagged (value : Value) : Json :=
  .object (("type", .string value.tag) ::
    (value.content?.map fun content => ("value", content)).toList)

theorem writeTaggedChars_eq (value : Value) : value.writeTaggedChars = value.tagged.writeChars := by
  rw [writeTaggedChars, tagged]
  cases value.content? <;> simp [Json.writeChars, Json.writeMembers]

theorem ofContent?_written (value : Value) (storable : value.Storable) (room : Nat)
    (deep : storableDepth ≤ room) :
    ofContent? room value.tag (value.content?.map Json.written) = some value := by
  cases value with
  | null => rfl
  | bool value => rfl
  | int value =>
    have range : (decide (Int64.minValue.toInt ≤ value.toInt) &&
        decide (value.toInt ≤ Int64.maxValue.toInt)) = true := by
      simp only [Bool.and_eq_true, decide_eq_true_eq]
      exact ⟨Int64.minValue_le_toInt value, Int64.toInt_le value⟩
    simp only [ofContent?, content?, tag, Option.map_some,
      Json.int?_written _ (Json.isWord_toInt value), Option.bind_eq_bind, Option.bind_some,
      (Option.guard_eq_some' ()).mpr range, Int64.ofInt_toInt]
  | float value => exact storable.elim
  | text value => simp only [ofContent?, content?, tag, Option.map_some, Json.text?_written]
  | bytes value =>
    obtain ⟨room, rfl⟩ : ∃ inner, room = inner + 1 := ⟨room - 1, by
      have positive : 0 < storableDepth := by decide
      omega⟩
    have items : (Json.writtenItems (value.map fun byte => .number (.int byte.toNat))).mapM
        Json.byte? = some value := by
      rw [Json.writtenItems_eq_map, List.map_map]
      exact mapM_map_of_back _ _ _ fun byte _ => Json.byte?_written byte
    simp only [ofContent?, content?, tag, Option.map_some, Json.written, items]
  | json value =>
    have read := Json.resolve?_written value room storable.1 (Nat.le_trans storable.2 deep)
    simp only [ofContent?, content?, tag, Option.map_some, read]
  | uuid value =>
    simp only [ofContent?, content?, tag, Option.map_some, Json.text?_written, Option.bind_some,
      Uuid.read?_write]
  | timestamp value =>
    have read := Time.readLenient?_write value storable.1 storable.2
    simp only [ofContent?, content?, tag, Option.map_some, Json.text?_written, Option.bind_some,
      read]

theorem ofWritten?_tagged (value : Value) (storable : value.Storable) (room : Nat)
    (deep : storableDepth < room) : ofWritten? room value.tagged.written = some value := by
  obtain ⟨room, rfl⟩ : ∃ inner, room = inner + 1 := ⟨room - 1, by omega⟩
  have read := ofContent?_written value storable room (by omega)
  have own : tag? room (Json.written (.string value.tag)) = some value.tag :=
    Json.string?_units value.tag
  rw [tagged, Json.written, ofWritten?, Json.keyed?_written]
  simp only [Option.bind_eq_bind, Option.bind_some]
  cases content : value.content? with
  | none =>
    rw [content] at read
    simp [Json.field?, own, ← read]
  | some content =>
    rw [content] at read
    simp [Json.field?, own, ← read]

theorem exact_content (value : Value) (storable : value.Storable) :
    ∀ content ∈ value.content?, content.Exact := by
  intro content held
  cases value with
  | null => cases held
  | float value => exact storable.elim
  | int value =>
    cases held
    exact Json.isWord_toInt value
  | bytes value =>
    cases held
    rw [Json.Exact, Json.exactItems_iff]
    intro item member
    obtain ⟨byte, _, rfl⟩ := List.mem_map.mp member
    exact Json.isWord_byte byte
  | json value =>
    cases held
    exact storable.1
  | bool | text | uuid | timestamp =>
    cases held
    trivial

theorem exact_tagged (value : Value) (storable : value.Storable) : value.tagged.Exact := by
  have own := exact_content value storable
  rw [tagged]
  cases held : value.content? with
  | none => exact ⟨List.pairwise_singleton _ _, trivial, trivial⟩
  | some content =>
    have sorted : "type" < "value" := by decide
    exact ⟨List.pairwise_pair.mpr sorted, trivial, own content held, trivial⟩

theorem readTagged?_writeTagged (value : Value) (storable : value.Storable) :
    readTagged? value.writeTagged = some value := by
  rw [readTagged?, writeTagged, writeTaggedChars_eq,
    Json.ofText?_writeChars _ (exact_tagged value storable)]
  exact ofWritten?_tagged value storable Json.greatestDepth (by decide)

end Value

namespace Statement

def tagged (statement : Statement) : Json :=
  .object [("sql", .string statement.sql), ("params", .array (statement.params.map Value.tagged))]

theorem writeParams_cons (value : Value) (values : List Value) :
    writeParams (value :: values) ++ [']'] =
      value.tagged.writeChars ++ Json.writeItems (values.map Value.tagged) := by
  induction values generalizing value with
  | nil => rw [writeParams, Value.writeTaggedChars_eq, List.map_nil, Json.writeItems]
  | cons next values ih =>
    rw [writeParams, List.append_assoc, List.cons_append, ih, Value.writeTaggedChars_eq,
      List.map_cons, Json.writeItems, List.cons_append]
    exact List.cons_ne_nil next values

theorem writeParams_eq (values : List Value) :
    '[' :: writeParams values ++ [']'] = Json.writeChars (.array (values.map Value.tagged)) := by
  cases values with
  | nil => rfl
  | cons value values =>
    rw [List.cons_append, writeParams_cons, List.map_cons, Json.writeChars, List.cons_append]

theorem writeTagged_eq (statement : Statement) :
    statement.writeTagged = statement.tagged.write := by
  have params := writeParams_eq statement.params
  rw [writeTagged, Json.write, tagged]
  simp [Json.writeChars, Json.writeMembers, ← params]

theorem params?_written (values : List Value) (storable : ∀ value ∈ values, value.Storable)
    (room : Nat) (deep : Value.storableDepth + 1 < room) :
    params? room (Json.written (.array (values.map Value.tagged))) = some values := by
  obtain ⟨room, rfl⟩ : ∃ inner, room = inner + 1 := ⟨room - 1, by omega⟩
  rw [Json.written, params?, Json.writtenItems_eq_map, List.map_map]
  exact mapM_map_of_back _ _ _ fun value member =>
    Value.ofWritten?_tagged value (storable value member) room (by omega)

theorem readTagged?_writeTagged (statement : Statement)
    (storable : ∀ value ∈ statement.params, value.Storable) :
    readTagged? statement.writeTagged = some statement := by
  have sql := Json.text?_written statement.sql
  have params := params?_written statement.params storable 126 (by decide)
  have exact : Json.ExactMembers [("sql", .string statement.sql),
      ("params", .array (statement.params.map Value.tagged))] := by
    refine ⟨trivial, ?_, trivial⟩
    rw [Json.Exact, Json.exactItems_iff]
    intro item member
    obtain ⟨value, among, rfl⟩ := List.mem_map.mp member
    exact Value.exact_tagged value (storable value among)
  rw [readTagged?, writeTagged_eq, tagged, Json.write, Json.ofText?_writeObject _ exact]
  simp [ofWritten?, Json.greatestDepth, Json.keyed?_written, Json.field?, sql, params]

/-- A statement is read back from its JSON, and so is each value from its own. -/
theorem tagged_round_trip (statement : Statement)
    (storable : ∀ value ∈ statement.params, value.Storable) :
    readTagged? statement.writeTagged = some statement ∧
      ∀ value : Value, value.Storable → Value.readTagged? value.writeTagged = some value :=
  ⟨readTagged?_writeTagged statement storable, Value.readTagged?_writeTagged⟩

/-- Parameters at the ends of their forms: the least integer, a control character, the least and the
greatest integer inside JSON, and half a second into the leap second at the end of 2016. -/
def edgeParams : List Value :=
  [.null, .int Int64.minValue, .text "\x22\x01", .bytes [0, 255],
    .json (.object [("a", .array [.number (.int (-2 ^ 63)), .number (.int (2 ^ 64 - 1))]),
      ("b", .object [])]),
    .uuid ⟨255⟩, .timestamp ⟨1483228799, 1500000000⟩]

theorem tagged_round_trip_edges :
    (∀ value ∈ edgeParams, value.Storable) ∧
      readTagged? (writeTagged ⟨"a = '\n' OR b = ?", edgeParams⟩) =
        some ⟨"a = '\n' OR b = ?", edgeParams⟩ := by
  have sorted : [("a" : String), "b"].Pairwise (· < ·) := by decide
  have words : Json.isWord (-2 ^ 63) = true ∧ Json.isWord (2 ^ 64 - 1) = true := by decide
  have second : (⟨1483228799, 1500000000⟩ : Time.Timestamp).Proper := .inr (by decide)
  have year : (⟨1483228799, 1500000000⟩ : Time.Timestamp).year = 2016 := by decide
  have storable : ∀ value ∈ edgeParams, value.Storable := by
    simp only [edgeParams, List.forall_mem_cons, Value.Storable]
    have exact : Json.Exact (.object [("a", .array [.number (.int (-2 ^ 63)),
        .number (.int (2 ^ 64 - 1))]), ("b", .object [])]) :=
      ⟨sorted, ⟨words.1, words.2, trivial⟩, ⟨List.Pairwise.nil, trivial⟩, trivial⟩
    exact ⟨trivial, trivial, trivial, trivial, ⟨exact, by decide⟩, trivial,
      ⟨second, by omega, by omega⟩, List.forall_mem_nil _⟩
  exact ⟨storable, (tagged_round_trip _ storable).1⟩

end Statement

end SqlCompose
