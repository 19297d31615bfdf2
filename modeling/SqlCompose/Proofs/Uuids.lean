import Mathlib.Data.Nat.Digits.Defs
import SqlCompose.Proofs.JsonText
import SqlCompose.Uuid

/-! The hyphenated text of an identifier is read back as that identifier. -/
namespace SqlCompose

theorem mapM_map_of_back {Item Form : Type} (read : Form → Option Item) (write : Item → Form)
    (items : List Item) (back : ∀ item ∈ items, read (write item) = some item) :
    (items.map write).mapM read = some items := by
  induction items with
  | nil => rfl
  | cons item items ih =>
    obtain ⟨own, others⟩ := List.forall_mem_cons.mp back
    rw [List.map_cons, List.mapM_cons, own, ih others]
    rfl

/-- The digits of a number in a base, one after the other from the most significant on, make its last
part. -/
theorem foldl_digits (base value count : Nat) :
    ((List.range count).map fun index => value / Nat.pow base (count - 1 - index) % base).foldl
      (fun number digit => number * base + digit) 0 = value % base ^ count := by
  induction count generalizing value with
  | zero => simp [Nat.mod_one]
  | succ count ih =>
    have shifted : ((List.range count).map fun index =>
        value / Nat.pow base (count + 1 - 1 - index) % base) =
          (List.range count).map fun index =>
            value / base / Nat.pow base (count - 1 - index) % base := by
      apply List.map_congr_left
      intro index member
      have bounded := List.mem_range.mp member
      have powers :
          Nat.pow base (count + 1 - 1 - index) = base * Nat.pow base (count - 1 - index) := by
        rw [Nat.pow_eq, Nat.pow_eq, ← Nat.pow_succ']
        congr 1
        omega
      rw [powers, Nat.div_div_eq_div_mul]
    rw [List.range_succ, List.map_append, List.foldl_append, shifted, ih, List.map_singleton,
      List.foldl_cons, List.foldl_nil]
    have last : Nat.pow base (count + 1 - 1 - count) = 1 := by simp
    rw [last, Nat.div_one, Nat.pow_succ', Nat.mod_mul, Nat.mul_comm, Nat.add_comm]

namespace Uuid

theorem unhyphenate?_hyphenate (lengths : List Nat) (grouped : lengths ≠ []) (digits : List Char)
    (whole : digits.length = lengths.sum) :
    unhyphenate? lengths (hyphenate lengths digits) = some digits := by
  induction lengths generalizing digits with
  | nil => exact absurd rfl grouped
  | cons length lengths ih =>
    cases lengths with
    | nil =>
      have all : digits.length = length := by simpa using whole
      rw [hyphenate, List.take_of_length_le (by omega), unhyphenate?, if_pos all]
    | cons next lengths =>
      rw [List.sum_cons] at whole
      have front : (digits.take length).length = length := by
        rw [List.length_take]
        omega
      have rest := ih (by simp) (digits.drop length) (by rw [List.length_drop]; omega)
      rw [hyphenate, unhyphenate?]
      · rw [List.drop_left' front, List.take_left' front]
        simp only [rest, Option.map_some, List.take_append_drop]
      · simp
      · simp

theorem length_hyphenate (lengths : List Nat) (digits : List Char)
    (whole : digits.length = lengths.sum) :
    (hyphenate lengths digits).length = digits.length + (lengths.length - 1) := by
  induction lengths generalizing digits with
  | nil => simp [hyphenate, List.length_eq_zero_iff.mp whole]
  | cons length lengths ih =>
    cases lengths with
    | nil =>
      have all : digits.length = length := by simpa using whole
      simp [hyphenate, all]
    | cons next lengths =>
      rw [List.sum_cons] at whole
      have rest := ih (digits.drop length) (by rw [List.length_drop]; omega)
      rw [hyphenate, List.length_append, List.length_cons, rest, List.length_take, List.length_drop]
      · simp only [List.length_cons]
        omega
      · simp

theorem ofDigits_digits (uuid : Uuid) : ofDigits uuid.digits = uuid := by
  have value := foldl_digits 16 uuid.bits.toNat 32
  have bound := uuid.bits.isLt
  have power : 16 ^ 32 = 2 ^ 128 := by decide
  rw [power, Nat.mod_eq_of_lt bound] at value
  rw [ofDigits, digits, value, BitVec.ofNat_toNat, BitVec.setWidth_eq]

theorem read?_write (uuid : Uuid) : read? uuid.write.toList = some uuid := by
  have count : (uuid.digits.map Nat.digitChar).length = 32 := by simp [digits]
  have small : ∀ digit ∈ uuid.digits, digit < 16 := by
    intro digit member
    obtain ⟨index, _, rfl⟩ := List.mem_map.mp member
    exact Nat.mod_lt _ (by decide)
  have whole : (uuid.digits.map Nat.digitChar).length = groupLengths.sum := count
  have parts := unhyphenate?_hyphenate groupLengths (by decide) _ whole
  have length := length_hyphenate groupLengths _ whole
  rw [count] at length
  have hex : ofHex? (uuid.digits.map Nat.digitChar) = some uuid := by
    have read := mapM_map_of_back Json.hexValue? Nat.digitChar uuid.digits fun digit member =>
      Json.hexValue?_hexDigit digit (small digit member)
    rw [ofHex?, if_pos count, read, Option.map_some, ofDigits_digits]
  have long : (hyphenate groupLengths (uuid.digits.map Nat.digitChar)).length = 36 := length
  rw [write, String.toList_ofList, read?, long]
  simp only [ofHyphenated?, parts, Option.bind_some, hex]

end Uuid

end SqlCompose
