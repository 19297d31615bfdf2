import Mathlib.Data.Option.Basic
import SqlCompose.Value.Storable
import SqlCompose.Json.Writer

/-! Written JSON is read back as what was written: each digit, each character of a string, each item
and each member. -/
namespace SqlCompose.Json

/-- What follows a value inside other values, if anything does. -/
def Ends (rest : List Char) : Prop :=
  ∀ next ∈ rest.head?, next = ',' ∨ next = ']' ∨ next = '\x7d'

theorem readDigits_append (digits rest : List Char)
    (decimal : ∀ digit ∈ digits, digit.isDigit = true)
    (ends : ∀ next ∈ rest.head?, next.isDigit = false) :
    readDigits (digits ++ rest) = (digits.map digitValue, rest) := by
  rw [readDigits, List.takeWhile_append_of_pos decimal, List.dropWhile_append_of_pos decimal]
  cases rest with
  | nil => simp
  | cons next rest => simp [ends next rfl]

theorem toDigits_head (number : Nat) (rest : List Char)
    (leading : Nat.toDigits 10 number = '0' :: rest) : rest = [] := by
  induction number using Nat.strongRecOn generalizing rest with
  | ind number ih =>
    rw [Nat.toDigits_eq_if (by decide)] at leading
    split at leading
    · exact (List.cons.inj leading).2.symm
    · rename_i large
      cases shorter : Nat.toDigits 10 (number / 10) with
      | nil => exact absurd shorter Nat.toDigits_ne_nil
      | cons first more =>
        rw [shorter, List.cons_append] at leading
        obtain ⟨rfl, _⟩ := List.cons.inj leading
        have none := ih (number / 10) (by omega) more shorter
        have zero : number / 10 = 0 := by
          have value := Nat.ofDigitChars_toDigits (n := number / 10) (by decide : 1 < 10)
            (by decide)
          rw [shorter, none] at value
          exact value.symm
        omega

def intText (value : Int) : NumberText :=
  ⟨value < 0, (Nat.toDigits 10 value.natAbs).map digitValue, [], none⟩

theorem digit_eq_zero (digit : Char) (decimal : digit.isDigit = true)
    (zero : digitValue digit = 0) : digit = '0' := by
  have least : 48 ≤ digit.toNat := (Char.isDigit_iff_toNat.mp decimal).1
  have code : digit.toNat = '0'.toNat := by
    have start : ('0' : Char).toNat = 48 := rfl
    rw [digitValue] at zero
    omega
  exact Char.toNat_inj.mp code

theorem isDigit_of_mem (number : Nat) : ∀ digit ∈ Nat.toDigits 10 number, digit.isDigit = true :=
  fun _ member => Nat.isDigit_of_mem_toDigits (by decide) (by decide) member

theorem Ends.head (rest : List Char) (ends : Ends rest) :
    ∀ next ∈ rest.head?, next.isDigit = false ∧ next ≠ '.' ∧ next ≠ 'e' ∧ next ≠ 'E' := by
  intro next member
  rcases ends next member with rfl | rfl | rfl <;> decide

theorem readWhole_digits (number : Nat) (rest : List Char) (ends : Ends rest) :
    readWhole (Nat.toDigits 10 number ++ rest) =
      some ((Nat.toDigits 10 number).map digitValue, rest) := by
  rw [readWhole, readDigits_append _ rest (isDigit_of_mem number) fun next member =>
    (ends.head rest next member).1]
  cases digits : Nat.toDigits 10 number with
  | nil => exact absurd digits Nat.toDigits_ne_nil
  | cons first more =>
    split
    · rename_i empty
      simp at empty
    · rename_i second others behind split
      simp only [List.map_cons, Prod.mk.injEq, List.cons.injEq] at split
      obtain ⟨⟨zero, longer⟩, _⟩ := split
      have decimal := isDigit_of_mem number first (by simp [digits])
      rw [digit_eq_zero first decimal zero] at digits
      rw [toDigits_head number more digits] at longer
      cases longer
    · rfl

theorem readUnsigned_digits (negative : Bool) (number : Nat) (rest : List Char) (ends : Ends rest) :
    readUnsigned negative (Nat.toDigits 10 number ++ rest) =
      some (⟨negative, (Nat.toDigits 10 number).map digitValue, [], none⟩, rest) := by
  have fraction : readFraction rest = some ([], rest) := by
    cases rest with
    | nil => rfl
    | cons next rest =>
      have point := (ends.head _ next rfl).2.1
      rw [readFraction]
      rintro left same
      exact point (List.cons.inj same).1
  have exponent : readExponent rest = some (none, rest) := by
    cases rest with
    | nil => rfl
    | cons next rest =>
      obtain ⟨_, _, small, capital⟩ := ends.head _ next rfl
      simp [readExponent, small, capital]
  simp only [readUnsigned, readWhole_digits number rest ends, Option.bind_eq_bind,
    Option.bind_some, fraction, exponent]

theorem readNumber_writeInt (value : Int) (rest : List Char) (ends : Ends rest) :
    readNumber (writeInt value ++ rest) = some (intText value, rest) := by
  rw [writeInt, intText]
  split
  · rename_i negative
    rw [List.cons_append, readNumber, readUnsigned_digits true _ rest ends, decide_eq_true negative]
  · rename_i positive
    have digits := readUnsigned_digits false value.natAbs rest ends
    rw [decide_eq_false positive, ← digits]
    cases leading : Nat.toDigits 10 value.natAbs with
    | nil => exact absurd leading Nat.toDigits_ne_nil
    | cons first more =>
      have decimal := isDigit_of_mem value.natAbs first (by simp [leading])
      rw [List.cons_append, readNumber]
      rintro left same
      rw [(List.cons.inj same).1] at decimal
      exact absurd decimal (by decide)

def unitOf (char : Char) : StringUnit :=
  if char.toNat < 0x20 ∧ char ∉ ['\x08', '\x0c', '\n', '\r', '\t'] then .unit char.toNat
  else .char char

theorem hexValue?_hexDigit (value : Nat) (small : value < 16) :
    hexValue? (hexDigit value) = some value := by
  revert value
  decide

theorem readString_escape (mark char : Char) (rest : List Char)
    (simple : simpleEscape? mark = some char) :
    readString ('\x5c' :: mark :: rest) =
      (readString rest).map fun (units, left) => (.char char :: units, left) := by
  have other : mark ≠ 'u' := by
    rintro rfl
    cases simple
  rw [readString]
  · simp only [simple, Option.bind_eq_bind, Option.bind_some]
    cases readString rest <;> rfl
  · exact fun _ _ _ _ _ same _ => other same

theorem readString_code (char : Char) (rest : List Char) (small : char.toNat < 0x20) :
    readString ('\x5c' :: 'u' :: '0' :: '0' :: hexDigit (char.toNat / 16) ::
        hexDigit (char.toNat % 16) :: rest) =
      (readString rest).map fun (units, left) => (.unit char.toNat :: units, left) := by
  have zero : hexValue? '0' = some 0 := by decide
  have high := hexValue?_hexDigit (char.toNat / 16) (by omega)
  have low := hexValue?_hexDigit (char.toNat % 16) (by omega)
  have code : ((0 * 16 + 0) * 16 + char.toNat / 16) * 16 + char.toNat % 16 = char.toNat := by omega
  rw [readString]
  simp only [zero, high, low, code, Option.bind_eq_bind, Option.bind_some]
  cases readString rest <;> rfl

theorem readString_plain (char : Char) (rest : List Char) (unquoted : char ≠ '\x22')
    (unescaped : char ≠ '\x5c') (large : ¬ char.toNat < 0x20) :
    readString (char :: rest) =
      (readString rest).map fun (units, left) => (.char char :: units, left) := by
  have allowed : (decide (0x20 ≤ char.toNat) && decide (char ≠ '\x5c')) = true := by
    simp only [Bool.and_eq_true, decide_eq_true_eq]
    exact ⟨by omega, unescaped⟩
  rw [readString]
  · rw [(Option.guard_eq_some' ()).mpr allowed]
    cases readString rest <;> rfl
  · exact unquoted
  · exact fun _ _ _ _ _ same _ => unescaped same
  · exact fun _ _ same _ => unescaped same

theorem readString_escapeChar (char : Char) (rest : List Char) :
    readString (escapeChar char ++ rest) =
      (readString rest).map fun (units, left) => (unitOf char :: units, left) := by
  by_cases marked : char ∈ ['\x22', '\x5c', '\x08', '\x0c', '\n', '\r', '\t']
  · -- Each of these is written as a backslash and a mark of its own.
    simp only [List.mem_cons, List.not_mem_nil, or_false] at marked
    rcases marked with rfl | rfl | rfl | rfl | rfl | rfl | rfl <;>
      exact readString_escape _ _ rest rfl
  · simp only [List.mem_cons, List.not_mem_nil, or_false, not_or] at marked
    obtain ⟨quote, backslash, backspace, feed, newline, back, tab⟩ := marked
    by_cases small : char.toNat < 0x20
    · have whole : unitOf char = .unit char.toNat := by
        simp [unitOf, small, backspace, feed, newline, back, tab]
      rw [whole, ← readString_code char rest small]
      simp [escapeChar, quote, backslash, backspace, feed, newline, back, tab, small]
    · have whole : unitOf char = .char char := by simp [unitOf, small]
      rw [whole, ← readString_plain char rest quote backslash small]
      simp [escapeChar, quote, backslash, backspace, feed, newline, back, tab, small]

theorem readString_escaped (text rest : List Char) :
    readString (text.flatMap escapeChar ++ '\x22' :: rest) = some (text.map unitOf, rest) := by
  induction text with
  | nil => rfl
  | cons char text ih =>
    rw [List.flatMap_cons, List.append_assoc, readString_escapeChar, ih]
    rfl

mutual
def written : Json → Written
  | .null => .null
  | .bool value => .bool value
  | .number (.int value) => .number (intText value)
  | .number (.float _) => .null
  | .string text => .string (text.toList.map unitOf)
  | .array items => .array (writtenItems items)
  | .object members => .object (writtenMembers members)

def writtenItems : List Json → List Written
  | [] => []
  | item :: items => item.written :: writtenItems items

def writtenMembers : List (String × Json) → List (List StringUnit × Written)
  | [] => []
  | (key, item) :: members => (key.toList.map unitOf, item.written) :: writtenMembers members
end

theorem skipSpace_cons (first : Char) (rest : List Char) (filled : isSpace first = false) :
    skipSpace (first :: rest) = first :: rest := by
  rw [skipSpace, List.dropWhile_cons_of_neg (by simp [filled])]

theorem writeString_append (text : String) (rest : List Char) :
    writeString text ++ rest = '\x22' :: (text.toList.flatMap escapeChar ++ '\x22' :: rest) := by
  simp [writeString]

theorem readValue_string (fuel : Nat) (text : String) (rest : List Char) :
    readValue (fuel + 1) (writeString text ++ rest) =
      some (.string (text.toList.map unitOf), rest) := by
  have read := readString_escaped text.toList rest
  rw [writeString_append, readValue, skipSpace_cons _ _ (by decide)]
  simp only [read, Option.map_some]

def BeginsNumber (first : Char) : Prop := first = '-' ∨ first.isDigit = true

theorem writeInt_head (value : Int) :
    ∃ first more, writeInt value = first :: more ∧ BeginsNumber first := by
  cases leading : Nat.toDigits 10 value.natAbs with
  | nil => exact absurd leading Nat.toDigits_ne_nil
  | cons first more =>
    have decimal := isDigit_of_mem value.natAbs first (by simp [leading])
    rw [writeInt, leading]
    split
    · exact ⟨'-', _, rfl, .inl rfl⟩
    · exact ⟨first, _, rfl, .inr decimal⟩

theorem apart_of_number (first : Char) (begins : BeginsNumber first) (mark : Char)
    (apart : mark ≠ '-' ∧ mark.isDigit = false) : first ≠ mark := by
  rintro rfl
  rcases begins with dash | decimal
  · exact apart.1 dash
  · rw [apart.2] at decimal
    cases decimal

theorem unspaced_of_number (first : Char) (begins : BeginsNumber first) :
    isSpace first = false := by
  simp [isSpace, apart_of_number first begins ' ' (by decide),
    apart_of_number first begins '\n' (by decide), apart_of_number first begins '\t' (by decide),
    apart_of_number first begins '\r' (by decide)]

theorem readValue_number (fuel : Nat) (value : Int) (rest : List Char) (ends : Ends rest) :
    readValue (fuel + 1) (writeInt value ++ rest) = some (.number (intText value), rest) := by
  have read := readNumber_writeInt value rest ends
  obtain ⟨first, more, split, begins⟩ := writeInt_head value
  have other := apart_of_number first begins
  rw [split, List.cons_append] at read ⊢
  rw [readValue, skipSpace_cons first _ (unspaced_of_number first begins)]
  split <;> rename_i whole
  · exact absurd (List.cons.inj whole).1 (other 'n' (by decide))
  · exact absurd (List.cons.inj whole).1 (other 't' (by decide))
  · exact absurd (List.cons.inj whole).1 (other 'f' (by decide))
  · exact absurd (List.cons.inj whole).1 (other '\x22' (by decide))
  · exact absurd (List.cons.inj whole).1 (other '[' (by decide))
  · exact absurd (List.cons.inj whole).1 (other '\x7b' (by decide))
  · rw [read]
    rfl

section Parts

variable (fuel : Nat) (text left rest : List Char)

theorem readValue_array (first : Char) (filled : isSpace first = false) (opened : first ≠ ']')
    (item : Written) (items : List Written)
    (head : readValue fuel (first :: text) = some (item, left))
    (tail : readItems fuel left = some (items, rest)) :
    readValue (fuel + 1) ('[' :: first :: text) = some (.array (item :: items), rest) := by
  rw [readValue, skipSpace_cons _ _ (by decide)]
  simp only [skipSpace_cons first text filled]
  split
  · rename_i closed
    exact absurd (List.cons.inj closed).1 opened
  · simp only [head, tail, Option.bind_eq_bind, Option.bind_some]

theorem readItems_comma (item : Written) (items : List Written)
    (head : readValue fuel text = some (item, left))
    (tail : readItems fuel left = some (items, rest)) :
    readItems (fuel + 1) (',' :: text) = some (item :: items, rest) := by
  rw [readItems, skipSpace_cons _ _ (by decide)]
  simp only [head, tail, Option.bind_eq_bind, Option.bind_some]

theorem readMember_key (key : String) (item : Written)
    (held : readValue fuel text = some (item, rest)) :
    readMember (fuel + 1) (writeString key ++ ':' :: text) =
      some ((key.toList.map unitOf, item), rest) := by
  have read := readString_escaped key.toList (':' :: text)
  rw [writeString_append, readMember, skipSpace_cons _ _ (by decide)]
  simp only [read, held, Option.bind_eq_bind, Option.bind_some, skipSpace_cons ':' text (by decide)]

theorem readValue_object (key : String) (member : List StringUnit × Written)
    (members : List (List StringUnit × Written))
    (head : readMember fuel (writeString key ++ text) = some (member, left))
    (tail : readMembers fuel left = some (members, rest)) :
    readValue (fuel + 1) ('\x7b' :: (writeString key ++ text)) =
      some (.object (member :: members), rest) := by
  rw [writeString_append] at head ⊢
  rw [readValue, skipSpace_cons _ _ (by decide)]
  simp only [skipSpace_cons '\x22' _ (by decide)]
  split
  · rename_i closed
    exact absurd (List.cons.inj closed).1 (by decide)
  · simp only [head, tail, Option.bind_eq_bind, Option.bind_some]

theorem readMembers_comma (member : List StringUnit × Written)
    (members : List (List StringUnit × Written))
    (head : readMember fuel text = some (member, left))
    (tail : readMembers fuel left = some (members, rest)) :
    readMembers (fuel + 1) (',' :: text) = some (member :: members, rest) := by
  rw [readMembers, skipSpace_cons _ _ (by decide)]
  simp only [head, tail, Option.bind_eq_bind, Option.bind_some]

end Parts

theorem ends_writeItems (items : List Json) (rest : List Char) :
    Ends (writeItems items ++ rest) := by
  cases items <;> simp [Ends, writeItems]

theorem ends_writeMembers (members : List (String × Json)) (rest : List Char) :
    Ends (writeMembers members ++ rest) := by
  cases members <;> simp [Ends, writeMembers]

theorem writeChars_head (json : Json) (exact : json.Exact) :
    ∃ first more, writeChars json = first :: more ∧ isSpace first = false ∧ first ≠ ']' := by
  match json, exact with
  | .null, _ => exact ⟨'n', _, by rw [writeChars], by decide⟩
  | .bool true, _ => exact ⟨'t', _, by rw [writeChars], by decide⟩
  | .bool false, _ => exact ⟨'f', _, by rw [writeChars], by decide⟩
  | .number (.int value), _ =>
    obtain ⟨first, more, split, begins⟩ := writeInt_head value
    refine ⟨first, more, by rw [writeChars, writeNumber, split], ?_, ?_⟩
    · exact unspaced_of_number first begins
    · exact apart_of_number first begins ']' (by decide)
  | .string text, _ =>
    exact ⟨'\x22', _, by rw [writeChars, writeString, List.cons_append], by decide⟩
  | .array [], _ => exact ⟨'[', _, by rw [writeChars], by decide⟩
  | .array (item :: items), _ => exact ⟨'[', _, by rw [writeChars, List.cons_append], by decide⟩
  | .object [], _ => exact ⟨'\x7b', _, by rw [writeChars], by decide⟩
  | .object ((key, item) :: members), _ =>
    exact ⟨'\x7b', _, by rw [writeChars, List.cons_append, List.cons_append], by decide⟩

mutual
/-- The fuel counts for the text of the value alone, whatever follows it. -/
theorem readValue_writeChars : ∀ (json : Json) (fuel : Nat) (rest : List Char), json.Exact →
    (writeChars json).length < fuel → Ends rest →
      readValue fuel (writeChars json ++ rest) = some (json.written, rest)
  | .null, fuel + 1, rest, _, _, _ => rfl
  | .bool true, fuel + 1, rest, _, _, _ => rfl
  | .bool false, fuel + 1, rest, _, _, _ => rfl
  | .number (.int value), fuel + 1, rest, _, _, ends => readValue_number fuel value rest ends
  | .string text, fuel + 1, rest, _, _, _ => readValue_string fuel text rest
  | .array [], fuel + 1, rest, _, _, _ => rfl
  | .array (item :: items), fuel + 1, rest, exact, enough, _ => by
    obtain ⟨own, others⟩ := exact
    rw [writeChars, List.cons_append, List.length_cons, List.length_append] at enough
    have head := readValue_writeChars item fuel (writeItems items ++ rest) own (by omega)
      (ends_writeItems items rest)
    have tail := readItems_writeItems items fuel rest others (by omega)
    obtain ⟨first, more, split, filled, opened⟩ := writeChars_head item own
    rw [split, List.cons_append] at head
    rw [writeChars, split, List.cons_append, List.cons_append, List.append_assoc, List.cons_append]
    exact readValue_array fuel _ _ rest first filled opened _ _ head tail
  | .object members, fuel, rest, exact, enough, _ =>
    readValue_writeObject members fuel rest exact.2 enough

/-- The order of the members plays no part in their text. -/
theorem readValue_writeObject : ∀ (members : List (String × Json)) (fuel : Nat) (rest : List Char),
    ExactMembers members → (writeChars (.object members)).length < fuel →
      readValue fuel (writeChars (.object members) ++ rest) =
        some (.object (writtenMembers members), rest)
  | [], fuel + 1, rest, _, _ => rfl
  | (key, item) :: members, fuel + 1, rest, exact, enough => by
    obtain ⟨own, others⟩ := exact
    rw [writeChars] at enough ⊢
    simp only [List.cons_append, List.length_cons, List.length_append] at enough
    have head := readMember_writeString key item fuel (writeMembers members ++ rest) own (by omega)
      (ends_writeMembers members rest)
    have tail := readMembers_writeMembers members fuel rest others (by omega)
    simp only [List.cons_append, List.append_assoc]
    exact readValue_object fuel _ _ rest key _ _ head tail

theorem readItems_writeItems : ∀ (items : List Json) (fuel : Nat) (rest : List Char),
    ExactItems items → (writeItems items).length < fuel →
      readItems fuel (writeItems items ++ rest) = some (writtenItems items, rest)
  | [], fuel + 1, rest, _, _ => rfl
  | item :: items, fuel + 1, rest, exact, enough => by
    obtain ⟨own, others⟩ := exact
    rw [writeItems, List.cons_append, List.length_cons, List.length_append] at enough
    have head := readValue_writeChars item fuel (writeItems items ++ rest) own (by omega)
      (ends_writeItems items rest)
    have tail := readItems_writeItems items fuel rest others (by omega)
    rw [writeItems, List.cons_append, List.cons_append, List.append_assoc]
    exact readItems_comma fuel _ _ rest _ _ head tail

theorem readMember_writeString : ∀ (key : String) (item : Json) (fuel : Nat) (rest : List Char),
    item.Exact → (writeString key).length + (writeChars item).length < fuel → Ends rest →
      readMember fuel (writeString key ++ ':' :: (writeChars item ++ rest)) =
        some ((key.toList.map unitOf, item.written), rest)
  | key, item, fuel + 1, rest, exact, enough, ends => by
    have quoted : 0 < (writeString key).length := by simp [writeString]
    have held := readValue_writeChars item fuel rest exact (by omega) ends
    exact readMember_key fuel _ rest key _ held

theorem readMembers_writeMembers : ∀ (members : List (String × Json)) (fuel : Nat)
    (rest : List Char), ExactMembers members → (writeMembers members).length < fuel →
      readMembers fuel (writeMembers members ++ rest) = some (writtenMembers members, rest)
  | [], fuel + 1, rest, _, _ => rfl
  | (key, item) :: members, fuel + 1, rest, exact, enough => by
    obtain ⟨own, others⟩ := exact
    rw [writeMembers] at enough ⊢
    simp only [List.cons_append, List.length_cons, List.length_append] at enough
    have head := readMember_writeString key item fuel (writeMembers members ++ rest) own (by omega)
      (ends_writeMembers members rest)
    have tail := readMembers_writeMembers members fuel rest others (by omega)
    simp only [List.cons_append, List.append_assoc]
    exact readMembers_comma fuel _ _ rest _ _ head tail
end

theorem ofText?_of_readValue (text : List Char) (form : Written)
    (read : readValue (text.length + 1) text = some (form, [])) :
    Written.ofText? (String.ofList text) = some form := by
  have ended : (skipSpace []).isEmpty = true := rfl
  simp only [Written.ofText?, String.toList_ofList, read, Option.bind_eq_bind, Option.bind_some,
    (Option.guard_eq_some' ()).mpr ended]

theorem ofText?_writeChars (json : Json) (exact : json.Exact) :
    Written.ofText? (String.ofList (writeChars json)) = some json.written := by
  have read := readValue_writeChars json _ [] exact (Nat.lt_succ_self _) (by simp [Ends])
  rw [List.append_nil] at read
  exact ofText?_of_readValue _ _ read

theorem ofText?_writeObject (members : List (String × Json)) (exact : ExactMembers members) :
    Written.ofText? (String.ofList (writeChars (.object members))) =
      some (.object (writtenMembers members)) := by
  have read := readValue_writeObject members _ [] exact (Nat.lt_succ_self _)
  rw [List.append_nil] at read
  exact ofText?_of_readValue _ _ read

end SqlCompose.Json
