import Mathlib.Data.List.TakeWhile
import Mathlib.Data.Nat.Digits.Defs
import SqlCompose.Proofs.Calendar
import SqlCompose.Time.Timestamp
import SqlCompose.Time.Reader
import SqlCompose.Time.Writer

/-! The text of a timestamp is read back as that timestamp: every part of it alone, then the text,
then the point in time that the parts name. -/
namespace SqlCompose.Time

open Text

theorem isDigit_of_mem_padded (width value : Nat) :
    ∀ digit ∈ padded width value, digit.isDigit = true := by
  intro digit member
  rcases List.mem_append.mp member with zero | member
  · rw [List.eq_of_mem_replicate zero]
    decide
  · exact Nat.isDigit_of_mem_toDigits (by decide) (by decide) member

theorem length_padded (width value : Nat) (filled : 0 < width) (fits : value < 10 ^ width) :
    (padded width value).length = width := by
  have short := Nat.toDigits_length 10 value width filled fits
  rw [padded, List.length_append, List.length_replicate]
  omega

theorem number_padded (width value : Nat) : number (padded width value) = value := by
  have digits := Nat.ofDigitChars_toDigits (b := 10) (n := value) (by decide) (by decide)
  have zeros (count : Nat) : number (List.replicate count '0') = 0 := by
    induction count with
    | zero => rfl
    | succ count ih => exact ih
  rw [padded, number, List.foldl_append]
  change (Nat.toDigits 10 value).foldl _ (number (List.replicate _ '0')) = value
  rw [zeros]
  simpa only [Nat.ofDigitChars_eq_foldl, Nat.mul_comm] using digits

theorem filled_of_isDigit (digit : Char) (decimal : digit.isDigit = true) :
    isBlank digit = false := by
  obtain ⟨least, most⟩ := Char.isDigit_iff_toNat.mp decimal
  have zero : ('0' : Char).toNat = 48 := rfl
  have nine : ('9' : Char).toNat = 57 := rfl
  rw [isBlank, inRanges, List.any_eq_false]
  intro range member
  simp only [blankRanges, List.mem_cons, List.not_mem_nil, or_false] at member
  rw [Bool.and_eq_true, decide_eq_true_eq, decide_eq_true_eq]
  rcases member with rfl | rfl | rfl | rfl | rfl | rfl | rfl | rfl | rfl | rfl <;>
    simp only <;> omega

theorem padded_head (width value : Nat) :
    ∃ first more, padded width value = first :: more ∧ first.isDigit = true := by
  cases digits : padded width value with
  | nil =>
    have none := (List.append_eq_nil_iff.mp digits).2
    exact absurd none Nat.toDigits_ne_nil
  | cons first more =>
    exact ⟨first, more, rfl, isDigit_of_mem_padded width value first (by simp [digits])⟩

theorem trimStart_padded (width value : Nat) (rest : List Char) :
    trimStart (padded width value ++ rest) = padded width value ++ rest := by
  obtain ⟨first, more, split, decimal⟩ := padded_head width value
  rw [split, List.cons_append, trimStart_cons first _ (filled_of_isDigit first decimal)]

section Padded

variable (width value : Nat) (rest : List Char) (filled : 0 < width) (fits : value < 10 ^ width)
include filled fits

theorem readNumber?_padded (least : Nat) (enough : least ≤ width) :
    readNumber? least width (padded width value ++ rest) = some (value, rest) := by
  have length := length_padded width value filled fits
  have digits : ((padded width value ++ rest).take width).takeWhile Char.isDigit =
      padded width value := by
    rw [List.take_left' length, List.takeWhile_eq_self_iff]
    exact isDigit_of_mem_padded width value
  simp only [readNumber?, digits, length, if_pos enough, number_padded, List.drop_left' length]

theorem readNanos?_padded (most : width ≤ 9) (ends : ∀ next ∈ rest.head?, next.isDigit = false) :
    readNanos? ('.' :: (padded width value ++ rest)) =
      some (value * Nat.pow 10 (9 - width), rest) := by
  have length := length_padded width value filled fits
  have digits : (padded width value ++ rest).takeWhile Char.isDigit = padded width value := by
    rw [List.takeWhile_append_of_pos (isDigit_of_mem_padded width value)]
    cases rest with
    | nil => simp
    | cons next rest => simp [ends next rfl]
  have kept : (padded width value).take 9 = padded width value :=
    List.take_of_length_le (by omega)
  have some : (padded width value).isEmpty = false := by
    rw [List.isEmpty_eq_false_iff, ← List.length_pos_iff]
    omega
  simp only [readNanos?, digits, kept, some, length, number_padded, List.drop_left' length]
  rfl

end Padded

theorem readShort?_padded (value : Nat) (rest : List Char) (fits : value < 100) :
    readShort? (padded 2 value ++ rest) = some (value, rest) := by
  rw [readShort?, trimStart_padded]
  exact readNumber?_padded 2 value rest (by decide) fits 1 (by decide)

theorem readLenientYear?_writeYear (year : Int) (rest : List Char)
    (fits : 0 ≤ year ∧ year ≤ 9999) :
    readLenientYear? (writeYear year ++ rest) = some (year, rest) := by
  have bounded : (decide (0 ≤ year) && decide (year ≤ 9999)) = true := by simp [fits]
  have read := readNumber?_padded 4 year.natAbs rest (by decide) (by omega) 1 (by decide)
  have same : (year.natAbs : Int) = year := by omega
  rw [writeYear, if_pos bounded, readLenientYear?, trimStart_padded]
  obtain ⟨first, more, split, decimal⟩ := padded_head 4 year.natAbs
  rw [split, List.cons_append] at read ⊢
  split <;> rename_i whole
  · rw [(List.cons.inj whole).1] at decimal
    cases decimal
  · rw [(List.cons.inj whole).1] at decimal
    cases decimal
  · simp only [read, Option.map_some, same]

theorem readNanos?_writeFraction (nanos : Nat) (rest : List Char) (fits : nanos < billion)
    (ends : ∀ next ∈ rest.head?, next.isDigit = false ∧ next ≠ '.') :
    readNanos? (writeFraction nanos ++ rest) = some (nanos, rest) := by
  have apart : ∀ next ∈ rest.head?, next.isDigit = false := fun next member => (ends next member).1
  have size : billion = 1000000000 := rfl
  unfold writeFraction
  split_ifs with none thousandth millionth
  · subst none
    cases rest with
    | nil => rfl
    | cons next rest =>
      rw [List.nil_append, readNanos?]
      rintro left same
      exact (ends next rfl).2 (List.cons.inj same).1
  · have whole : nanos / 1000000 * Nat.pow 10 (9 - 3) = nanos := by
      have power : Nat.pow 10 (9 - 3) = 1000000 := rfl
      rw [power]
      omega
    rw [List.cons_append, readNanos?_padded 3 _ rest (by decide) (by omega) (by decide) apart,
      whole]
  · have whole : nanos / 1000 * Nat.pow 10 (9 - 6) = nanos := by
      have power : Nat.pow 10 (9 - 6) = 1000 := rfl
      rw [power]
      omega
    rw [List.cons_append, readNanos?_padded 6 _ rest (by decide) (by omega) (by decide) apart,
      whole]
  · have whole : nanos * Nat.pow 10 (9 - 9) = nanos := Nat.mul_one nanos
    rw [List.cons_append, readNanos?_padded 9 _ rest (by decide) (by omega) (by decide) apart,
      whole]

theorem readChar?_trimStart (char : Char) (rest : List Char) (filled : isBlank char = false) :
    readChar? char (trimStart (char :: rest)) = some rest := by
  rw [trimStart_cons char rest filled, readChar?, if_pos rfl]

theorem bind_of_read {Part Whole : Type} {read : Option Part} {part : Part}
    (next : Part → Option Whole) (found : read = some part) : (read >>= next) = next part := by
  rw [found]
  rfl

theorem readLenient?_writeFields (fields : Fields)
    (year : 0 ≤ fields.date.year ∧ fields.date.year ≤ 9999) (month : fields.date.month < 100)
    (day : fields.date.day < 100) (hour : fields.hour < 100) (minute : fields.minute < 100)
    (second : fields.second < 100) (nanos : fields.nanos < billion) :
    Timestamp.readLenient? (writeDate fields.date ++ 'T' :: writeClock fields ++ ['Z']) =
      Timestamp.ofFields? { fields with offset := 0 } := by
  have zone : ∀ next ∈ ['Z'].head?, next.isDigit = false ∧ next ≠ '.' := by
    rintro next ⟨⟩
    decide
  simp only [writeDate, writeClock, List.append_assoc, List.cons_append]
  refine (bind_of_read _ (readLenientYear?_writeYear _ _ year)).trans ?_
  refine (bind_of_read _ (readChar?_trimStart '-' _ (by decide))).trans ?_
  refine (bind_of_read _ (readShort?_padded _ _ month)).trans ?_
  refine (bind_of_read _ (readChar?_trimStart '-' _ (by decide))).trans ?_
  refine (bind_of_read _ (readShort?_padded _ _ day)).trans ?_
  refine (bind_of_read _ (show readMark? ('T' :: _) = some _ from rfl)).trans ?_
  refine (bind_of_read _ (readShort?_padded _ _ hour)).trans ?_
  refine (bind_of_read _ (readChar?_trimStart ':' _ (by decide))).trans ?_
  refine (bind_of_read _ (readShort?_padded _ _ minute)).trans ?_
  refine (bind_of_read _ (readChar?_trimStart ':' _ (by decide))).trans ?_
  refine (bind_of_read _ (readShort?_padded _ _ second)).trans ?_
  exact bind_of_read _ (readNanos?_writeFraction _ ['Z'] nanos zone)

theorem ofFields?_clock (date : Date) (calendar : date.exists = true)
    (year : 0 ≤ date.year ∧ date.year ≤ 9999) (clock nanos : Nat) (ends : clock < 86400)
    (leap : Prop) [Decidable leap] (last : leap → clock % 60 = 59) :
    Timestamp.ofFields? ⟨date, clock / 3600, clock / 60 % 60,
        if leap then clock % 60 + 1 else clock % 60, nanos, 0⟩ =
      some ⟨date.days * secondsInDay + clock, if leap then nanos + billion else nanos⟩ := by
  have range : date.inRange = true := by
    simp only [Date.inRange, Bool.and_eq_true, decide_eq_true_eq]
    omega
  obtain ⟨least, most⟩ := days_fourDigits date calendar year
  have size : secondsInDay = 86400 := rfl
  have hour : clock / 3600 ≤ 23 := by omega
  have minute : clock / 60 % 60 ≤ 59 := by omega
  have above : firstSecond ≤ date.days * secondsInDay + clock := by omega
  have below : date.days * secondsInDay + clock ≤ lastSecond := by omega
  by_cases given : leap
  · have second : clock % 60 + 1 = 60 := by rw [last given]
    have sum : date.days * secondsInDay + ((clock / 3600 : Nat) * 3600 +
      (clock / 60 % 60 : Nat) * 60 + (59 : Nat)) - 0 = date.days * secondsInDay + clock := by omega
    simp only [Timestamp.ofFields?, given, if_true, second, sum, above, below, calendar, range,
      hour, minute]
    rfl
  · have second : ¬ clock % 60 = 60 := by omega
    have short : clock % 60 ≤ 60 := by omega
    have sum : date.days * secondsInDay + ((clock / 3600 : Nat) * 3600 +
      (clock / 60 % 60 : Nat) * 60 + (clock % 60 : Nat)) - 0 =
        date.days * secondsInDay + clock := by omega
    simp only [Timestamp.ofFields?, given, if_false, second, short, sum, above, below, calendar,
      range, hour, minute]
    rfl

theorem emod_secondsInDay (seconds : Int) : 0 ≤ seconds % secondsInDay ∧
    (seconds % secondsInDay).toNat < 86400 := by
  have positive : (0 : Int) < secondsInDay := by decide
  have nonneg := Int.emod_nonneg seconds (Int.ne_of_gt positive)
  exact ⟨nonneg, (Int.toNat_lt nonneg).mpr (Int.emod_lt_of_pos seconds positive)⟩

theorem ofFields?_fields (timestamp : Timestamp) (proper : timestamp.Proper)
    (year : 0 ≤ timestamp.year ∧ timestamp.year ≤ 9999) :
    Timestamp.ofFields? timestamp.fields = some timestamp := by
  obtain ⟨seconds, nanos⟩ := timestamp
  obtain ⟨nonneg, ends⟩ := emod_secondsInDay seconds
  have minutes : (seconds % secondsInDay) % 60 = seconds % 60 :=
    Int.emod_emod_of_dvd seconds (by decide)
  have last (leap : billion ≤ nanos) : (seconds % secondsInDay).toNat % 60 = 59 := by
    rcases proper with plain | ⟨_, final⟩
    · exact absurd leap (Nat.not_le.mpr plain)
    · have final : seconds % 60 = 59 := final
      omega
  have whole : (Date.ofDays (seconds / secondsInDay)).days * secondsInDay +
      (seconds % secondsInDay).toNat = seconds := by
    rw [days_ofDays, Int.toNat_of_nonneg nonneg]
    exact Int.ediv_mul_add_emod seconds secondsInDay
  refine (ofFields?_clock _ (exists_ofDays _) year _ _ ends (billion ≤ nanos) last).trans ?_
  rw [whole]
  split_ifs with leap
  · rw [Nat.sub_add_cancel leap]
  · rfl

/-- A timestamp in a year of four digits is read back from its text, leap seconds included. -/
theorem readLenient?_write (timestamp : Timestamp) (proper : timestamp.Proper)
    (year : 0 ≤ timestamp.year ∧ timestamp.year ≤ 9999) :
    Timestamp.readLenient? timestamp.write.toList = some timestamp := by
  have calendar : timestamp.fields.date.exists = true := exists_ofDays _
  simp only [Date.exists, Bool.and_eq_true, decide_eq_true_eq] at calendar
  obtain ⟨⟨⟨_, month⟩, _⟩, day⟩ := calendar
  have days := daysInMonth_le timestamp.fields.date.year timestamp.fields.date.month
  have ends := (emod_secondsInDay timestamp.seconds).2
  have nanos : timestamp.fields.nanos < billion := by
    rcases proper with plain | ⟨short, _⟩
    · simp only [Timestamp.fields, Nat.not_le.mpr plain, if_false, plain]
    · simp only [Timestamp.fields]
      split_ifs <;> omega
  have second : timestamp.fields.second < 100 := by
    simp only [Timestamp.fields]
    split_ifs <;> omega
  rw [Timestamp.write, String.toList_ofList, readLenient?_writeFields timestamp.fields year
    (by omega) (by omega) _ _ second nanos]
  · exact ofFields?_fields timestamp proper year
  · simp only [Timestamp.fields]
    omega
  · simp only [Timestamp.fields]
    omega

end SqlCompose.Time
