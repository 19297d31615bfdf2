import SqlCompose.Json.Fields
import SqlCompose.Proofs.JsonText

/-! The written form of a value stands for that value, as long as it has room to nest in. -/
namespace SqlCompose.Json

theorem characters?_unit (code : Nat) (units : List StringUnit) (low : code < 0xd800) :
    characters? (.unit code :: units) = (characters? units).map (Char.ofNat code :: ·) := by
  have high : ¬ 0xd800 ≤ code := by omega
  have partner : ¬ 0xdc00 ≤ code := by omega
  cases units with
  | nil => simp [characters?, high]
  | cons next units =>
    cases next with
    | char next => simp [characters?, high]
    | unit next =>
      rw [characters?]
      simp [high, partner]

theorem characters?_units (text : List Char) : characters? (text.map unitOf) = some text := by
  induction text with
  | nil => rfl
  | cons char text ih =>
    rw [List.map_cons, unitOf]
    split
    · rename_i coded
      rw [characters?_unit _ _ (by omega), ih, Char.ofNat_toNat]
      rfl
    · rw [characters?, ih]
      rfl

theorem string?_units (text : String) : string? (text.toList.map unitOf) = some text := by
  rw [string?, characters?_units, Option.map_some, String.ofList_toList]

def appended (value : Nat) (digits : List Nat) : Nat :=
  digits.foldl (fun number digit => number * 10 + digit) value

theorem le_appended (value : Nat) (digits : List Nat) : value ≤ appended value digits := by
  induction digits generalizing value with
  | nil => exact Nat.le_refl value
  | cons digit digits ih =>
    have grown := ih (value * 10 + digit)
    rw [appended, List.foldl_cons]
    exact Nat.le_trans (by omega) grown

theorem appendDigits_fits (value : Nat) (digits : List Nat)
    (fits : appended value digits < wordLimit) :
    appendDigits value digits = (appended value digits, []) := by
  induction digits generalizing value with
  | nil => rfl
  | cons digit digits ih =>
    have grown := le_appended (value * 10 + digit) digits
    have whole : appended value (digit :: digits) = appended (value * 10 + digit) digits := rfl
    rw [whole] at fits ⊢
    rw [appendDigits, if_pos (by omega), ih _ fits]

theorem appended_toDigits (number : Nat) :
    appended 0 ((Nat.toDigits 10 number).map digitValue) = number := by
  have value := Nat.ofDigitChars_toDigits (b := 10) (n := number) (by decide) (by decide)
  rw [Nat.ofDigitChars_eq_foldl] at value
  rw [appended, List.foldl_map]
  simpa only [digitValue, Nat.mul_comm] using value

theorem number?_intText (value : Int) (word : isWord value = true) :
    number? (intText value) = some (.int value) := by
  have bounds : -(wordLimit / 2 : Nat) ≤ value ∧ value < wordLimit := by
    simpa [isWord] using word
  have size : wordLimit = 18446744073709551616 := rfl
  have fits : appended 0 ((Nat.toDigits 10 value.natAbs).map digitValue) < wordLimit := by
    rw [appended_toDigits]
    omega
  have read := appendDigits_fits 0 _ fits
  rw [appended_toDigits] at read
  by_cases negative : value < 0
  · have filled : value.natAbs ≠ 0 := by omega
    have small : ¬ wordLimit < 2 * value.natAbs := by omega
    have same : -(value.natAbs : Int) = value := by omega
    have least : (decide (value.natAbs = 0) || decide (wordLimit < 2 * value.natAbs)) = false := by
      simp only [filled, small, decide_false, Bool.or_false]
    simp only [number?, intText, read, negative, least, same]
    rfl
  · have same : (value.natAbs : Int) = value := by omega
    simp only [number?, intText, read, negative, same]
    rfl

theorem insert_last {Item : Type} (key : String) (item : Item) (members : List (String × Item))
    (last : ∀ member ∈ members, member.1 < key) :
    insert key item members = members ++ [(key, item)] := by
  induction members with
  | nil => rfl
  | cons member members ih =>
    obtain ⟨before, later⟩ := List.forall_mem_cons.mp last
    obtain ⟨other, held⟩ := member
    rw [insert, if_neg, if_neg, ih later]
    · rfl
    · exact String.lt_asymm before
    · rintro rfl
      exact String.lt_irrefl _ before

theorem foldl_insert (held members : List (String × Json))
    (sorted : ((held ++ members).map Prod.fst).Pairwise (· < ·)) :
    members.foldl (fun object member => insert member.1 member.2 object) held =
      held ++ members := by
  induction members generalizing held with
  | nil => rw [List.append_nil, List.foldl_nil]
  | cons member members ih =>
    have last : ∀ other ∈ held, other.1 < member.1 := by
      rw [List.map_append, List.pairwise_append] at sorted
      exact fun other among => sorted.2.2 _ (List.mem_map_of_mem among) _ (by simp)
    rw [List.foldl_cons, insert_last _ _ _ last, ih, List.append_assoc]
    · rfl
    · simpa using sorted

theorem ofMembers_sorted (members : List (String × Json))
    (sorted : (members.map Prod.fst).Pairwise (· < ·)) : ofMembers members = .object members := by
  rw [ofMembers, foldl_insert [] members sorted, List.nil_append]

mutual
theorem resolve?_written : ∀ (json : Json) (room : Nat), json.Exact → json.depth ≤ room →
    resolve? room json.written = some json
  | .null, _, _, _ => rfl
  | .bool _, _, _, _ => rfl
  | .number (.int value), _, word, _ => by
    rw [written, resolve?, number?_intText value word]
    rfl
  | .string text, _, _, _ => by
    rw [written, resolve?, string?_units]
    rfl
  | .array items, room + 1, exact, deep => by
    rw [written, resolve?, resolveItems?_written items room exact (by
      rw [depth] at deep
      omega)]
    rfl
  | .object members, room + 1, exact, deep => by
    rw [written, resolve?, resolveMembers?_written members room exact.2 (by
      rw [depth] at deep
      omega), Option.map_some, ofMembers_sorted members exact.1]

theorem resolveItems?_written : ∀ (items : List Json) (room : Nat), ExactItems items →
    itemsDepth items ≤ room → resolveItems? room (writtenItems items) = some items
  | [], _, _, _ => rfl
  | item :: items, room, exact, deep => by
    rw [itemsDepth] at deep
    have head := resolve?_written item room exact.1 (by omega)
    have tail := resolveItems?_written items room exact.2 (by omega)
    rw [writtenItems, resolveItems?, head, Option.bind_eq_bind, Option.bind_some, tail]
    rfl

theorem resolveMembers?_written : ∀ (members : List (String × Json)) (room : Nat),
    ExactMembers members → membersDepth members ≤ room →
      resolveMembers? room (writtenMembers members) = some members
  | [], _, _, _ => rfl
  | (key, item) :: members, room, exact, deep => by
    rw [membersDepth] at deep
    have head := resolve?_written item room exact.1 (by omega)
    have tail := resolveMembers?_written members room exact.2 (by omega)
    simp only [writtenMembers, resolveMembers?, string?_units, head, tail, Option.bind_eq_bind,
      Option.bind_some]
end

/-- A value that nests no deeper than a reader allows is read back from its text. -/
theorem read?_write (json : Json) (exact : json.Exact) (deep : json.depth ≤ greatestDepth) :
    read? json.write = some json := by
  rw [read?, write, ofText?_writeChars json exact]
  exact resolve?_written json greatestDepth exact deep

theorem keyed?_written (members : List (String × Json)) :
    keyed? (writtenMembers members) =
      some (members.map fun member => (member.1, member.2.written)) := by
  induction members with
  | nil => rfl
  | cons member members ih =>
    simp only [writtenMembers, keyed?, string?_units, ih, Option.bind_eq_bind, Option.bind_some]
    rfl

theorem writtenItems_eq_map (items : List Json) : writtenItems items = items.map written := by
  induction items with
  | nil => rfl
  | cons item items ih => rw [writtenItems, ih, List.map_cons]

theorem exactItems_iff (items : List Json) : ExactItems items ↔ ∀ item ∈ items, item.Exact := by
  induction items with
  | nil => simp [ExactItems]
  | cons item items ih => rw [ExactItems, ih, List.forall_mem_cons]

theorem isWord_byte (byte : UInt8) : isWord byte.toNat = true := by
  have bound := byte.toNat_lt
  have size : wordLimit = 18446744073709551616 := rfl
  simp only [isWord, Bool.and_eq_true, decide_eq_true_eq]
  omega

theorem isWord_toInt (value : Int64) : isWord value.toInt = true := by
  have least := Int64.minValue_le_toInt value
  have most := Int64.toInt_le value
  have bounds : Int64.minValue.toInt = -2 ^ 63 ∧ Int64.maxValue.toInt = 2 ^ 63 - 1 := by decide
  have size : wordLimit = 18446744073709551616 := rfl
  simp only [isWord, Bool.and_eq_true, decide_eq_true_eq]
  omega

theorem byte?_written (byte : UInt8) :
    byte? (written (.number (.int byte.toNat))) = some byte := by
  have bound := byte.toNat_lt
  have range : (decide (0 ≤ (byte.toNat : Int)) && decide ((byte.toNat : Int) < 256)) = true := by
    simp only [Bool.and_eq_true, decide_eq_true_eq]
    omega
  simp only [written, byte?, int?, number?_intText _ (isWord_byte byte), Option.bind_eq_bind,
    Option.bind_some, (Option.guard_eq_some' ()).mpr range]
  simp

theorem int?_written (value : Int) (word : isWord value = true) :
    int? (written (.number (.int value))) = some value := by
  rw [written, int?, number?_intText value word]

theorem text?_written (text : String) : text? (written (.string text)) = some text := by
  rw [written, text?, string?_units]

end SqlCompose.Json
