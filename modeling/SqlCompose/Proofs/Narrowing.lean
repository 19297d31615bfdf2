import SqlCompose.FieldType
import SqlCompose.Proofs.Uuids
import SqlCompose.Wire

/-! Integers reach a column of fewer bytes, or a narrower type, as they are or not at all. -/
namespace SqlCompose

namespace Wire

theorem length_twosComplement (width : Nat) (value : Int) :
    (twosComplement width value).length = width := by
  simp [twosComplement, bigEndian]

theorem word_bigEndian (width value : Nat) : word (bigEndian width value) = value % 256 ^ width := by
  rw [← foldl_digits 256 value width, word, bigEndian, List.foldl_map, List.foldl_map]
  rfl

theorem signedRange_iff (width : Nat) (positive : 0 < width) (value : Int) :
    SignedRange width value ↔
      -(256 ^ width : Nat) ≤ 2 * value ∧ 2 * value < (256 ^ width : Nat) := by
  have power : 256 ^ width = 2 * Nat.pow 2 (8 * width - 1) := by
    rw [Nat.pow_eq, ← Nat.pow_succ', show 256 = 2 ^ 8 from rfl, ← Nat.pow_mul]
    congr 1
    omega
  rw [power, SignedRange]
  omega

/-- Bytes in two's complement make the integer that was written, if they have room for it. -/
theorem integer_twosComplement (width : Nat) (positive : 0 < width) (value : Int)
    (within : SignedRange width value) : integer (twosComplement width value) = value := by
  obtain ⟨least, greatest⟩ := (signedRange_iff width positive value).mp within
  have residue : value % (256 ^ width : Nat) =
      if value < 0 then value + (256 ^ width : Nat) else value := by
    split
    · rw [Int.emod_eq_add_self_emod]
      exact Int.emod_eq_of_lt (by omega) (by omega)
    · exact Int.emod_eq_of_lt (by omega) (by omega)
  have written : word (twosComplement width value) = (value % (256 ^ width : Nat)).toNat := by
    rw [twosComplement, word_bigEndian]
    refine Nat.mod_eq_of_lt ?_
    show (value % (256 ^ width : Nat)).toNat < 256 ^ width
    split at residue <;> omega
  rw [integer, written, length_twosComplement, Nat.pow_eq, residue]
  split <;> split <;> omega

section Encoders

variable {Column Data : Type} {encoder : Encoder Column Data} {toInt : Data → Int} {width : Nat}
  {own : Column}

theorem Encoder.AppendsIntegers.perform_own (appending : encoder.AppendsIntegers toInt width own)
    (data : Data) (out : List UInt8) :
    (encoder.sendChecked data own).perform out =
      (.ok .bytes, out ++ twosComplement width (toInt data)) := by
  rw [sendChecked, if_pos ((appending.accepts own).mpr rfl), appending.appends]

theorem Encoder.AppendsIntegers.perform_other (appending : encoder.AppendsIntegers toInt width own)
    (data : Data) (column : Column) (other : column ≠ own) (out : List UInt8) :
    (encoder.sendChecked data column).perform out = (.error .wrongType, out) := by
  rw [sendChecked, if_neg (mt (appending.accepts column).mp other)]
  rfl

end Encoders

theorem signedRange_two (value : Int) :
    SignedRange 2 value ↔ Int16.minValue.toInt ≤ value ∧ value ≤ Int16.maxValue.toInt := by
  show -32768 ≤ value ∧ value < 32768 ↔ -32768 ≤ value ∧ value ≤ 32767
  omega

theorem signedRange_four (value : Int) :
    SignedRange 4 value ↔ Int32.minValue.toInt ≤ value ∧ value ≤ Int32.maxValue.toInt := by
  show -2147483648 ≤ value ∧ value < 2147483648 ↔ -2147483648 ≤ value ∧ value ≤ 2147483647
  omega

theorem signedRange_eight (value : Int64) : SignedRange 8 value.toInt :=
  ⟨value.le_toInt, value.toInt_lt⟩

theorem toInt_toInt16 (value : Int64) (within : SignedRange 2 value.toInt) :
    value.toInt16.toInt = value.toInt := by
  obtain ⟨least, greatest⟩ : -32768 ≤ value.toInt ∧ value.toInt < 32768 := within
  rw [Int64.toInt_toInt16, Int.bmod_eq_of_le (by omega) (by omega)]

theorem toInt_toInt32 (value : Int64) (within : SignedRange 4 value.toInt) :
    value.toInt32.toInt = value.toInt := by
  obtain ⟨least, greatest⟩ : -2147483648 ≤ value.toInt ∧ value.toInt < 2147483648 := within
  rw [Int64.toInt_toInt32, Int.bmod_eq_of_le (by omega) (by omega)]

section Drivers

variable {Column Data : Type}

theorem Encoder.AppendsIntegers.unaltered {encoder : Encoder Column Data} {toInt : Data → Int}
    {width : Nat} {own : Column} (appending : encoder.AppendsIntegers toInt width own)
    (positive : 0 < width) (least greatest : Int) (convert : Int64 → Data) (value : Int64)
    (range : SignedRange width value.toInt ↔ least ≤ value.toInt ∧ value.toInt ≤ greatest)
    (kept : SignedRange width value.toInt → toInt (convert value) = value.toInt)
    (out : List UInt8) :
    Unaltered width value.toInt out (Sending.perform (do
      let narrow ← narrowed least greatest convert value
      encoder.sendChecked narrow own) out) := by
  constructor
  · intro within
    rw [narrowed, if_pos (by simpa using range.mp within), pure_bind, appending.perform_own,
      kept within]
    exact ⟨_, rfl, length_twosComplement _ _, integer_twosComplement _ positive _ within⟩
  · intro beyond
    rw [narrowed, if_neg (by simpa using mt range.mpr beyond)]
    rfl

variable [DecidableEq Column] {driver : Driver Column} {int8 : Column}

theorem Driver.send_of_wide (driver : Driver Column) (value : Int64) (column : Column)
    (small : column ≠ driver.int2) (medium : column ≠ driver.int4) :
    driver.send (.int value) column = driver.int64.sendChecked value column := by
  rw [send, if_neg small, if_neg medium]

namespace Driver.AppendsIntegers

theorem unaltered_int2 (documented : driver.AppendsIntegers int8) (value : Int64)
    (out : List UInt8) :
    Unaltered 2 value.toInt out ((driver.send (.int value) driver.int2).perform out) := by
  rw [send, if_pos rfl]
  exact documented.int16.unaltered (by decide) _ _ _ value (signedRange_two _)
    (toInt_toInt16 value) out

theorem unaltered_int4 (documented : driver.AppendsIntegers int8) (value : Int64)
    (out : List UInt8) :
    Unaltered 4 value.toInt out ((driver.send (.int value) driver.int4).perform out) := by
  have apart : driver.int4 ≠ driver.int2 := by
    have distinct := documented.apart
    simp only [List.nodup_cons, List.mem_cons] at distinct
    tauto
  rw [send, if_neg apart, if_pos rfl]
  exact documented.int32.unaltered (by decide) _ _ _ value (signedRange_four _)
    (toInt_toInt32 value) out

theorem unaltered_int8 (documented : driver.AppendsIntegers int8) (value : Int64)
    (out : List UInt8) :
    Unaltered 8 value.toInt out ((driver.send (.int value) int8).perform out) := by
  have distinct := documented.apart
  simp only [List.nodup_cons, List.mem_cons] at distinct
  rw [send_of_wide driver value int8 (by tauto) (by tauto), documented.int64.perform_own]
  constructor
  · intro within
    exact ⟨_, rfl, length_twosComplement _ _, integer_twosComplement _ (by decide) _ within⟩
  · exact fun beyond => absurd (signedRange_eight value) beyond

end Driver.AppendsIntegers

end Drivers

theorem read_int32 (value : Int64) :
    (SignedRange 4 value.toInt → FieldType.int32.read (.int value) = .ok value.toInt32) ∧
    (¬ SignedRange 4 value.toInt →
      FieldType.int32.read (.int value) = .error (.outOfRange value)) := by
  have read : FieldType.int32.read (.int value) =
      if Int32.minValue.toInt ≤ value.toInt && value.toInt ≤ Int32.maxValue.toInt then
        .ok value.toInt32
      else .error (.outOfRange value) := rfl
  rw [read, signedRange_four]
  constructor
  · intro within
    rw [if_pos (by simpa using within)]
  · intro beyond
    rw [if_neg (by simpa using beyond)]

/-- An integer is sent to a column of integers exactly if it lies in the range of the column's bytes,
which then make that integer again. Any other column refuses it, and nothing is appended where it is
refused. It is read as a 32-bit integer exactly if it lies in the range of those, and is then the same
number. -/
theorem Driver.send_unaltered {Column : Type} [DecidableEq Column] (driver : Driver Column)
    (int8 : Column) (documented : driver.AppendsIntegers int8) (value : Int64) :
    (∀ out, ∀ (column : Column) (width : Nat),
      (column, width) ∈ [(driver.int2, 2), (driver.int4, 4), (int8, 8)] →
        Unaltered width value.toInt out ((driver.send (.int value) column).perform out)) ∧
    (∀ out, ∀ column ∉ [driver.int2, driver.int4, int8],
      (driver.send (.int value) column).perform out = (.error .wrongType, out)) ∧
    (SignedRange 4 value.toInt → ∃ narrow : Int32,
      FieldType.int32.read (.int value) = .ok narrow ∧ narrow.toInt = value.toInt) ∧
    (¬ SignedRange 4 value.toInt →
      FieldType.int32.read (.int value) = .error (.outOfRange value)) := by
  obtain ⟨narrows, refuses⟩ := read_int32 value
  refine ⟨fun out column width listed => ?_, fun out column other => ?_, fun within => ?_, refuses⟩
  · simp only [List.mem_cons, Prod.mk.injEq, List.not_mem_nil, or_false] at listed
    rcases listed with ⟨rfl, rfl⟩ | ⟨rfl, rfl⟩ | ⟨rfl, rfl⟩
    · exact documented.unaltered_int2 value out
    · exact documented.unaltered_int4 value out
    · exact documented.unaltered_int8 value out
  · simp only [List.mem_cons, List.not_mem_nil, or_false, not_or] at other
    obtain ⟨small, medium, wide⟩ := other
    rw [send_of_wide driver value column small medium,
      documented.int64.perform_other value column wide]
  · exact ⟨value.toInt32, narrows within, toInt_toInt32 value within⟩

theorem uniform_appendsIntegers {Data : Type} (own : ColumnType) (width : Nat)
    (toInt : Data → Int) :
    (Encoder.uniform [own] fun data => twosComplement width (toInt data)).AppendsIntegers toInt
      width own :=
  ⟨fun column => by simp [Encoder.uniform], fun _ _ => rfl⟩

theorem postgres_appendsIntegers : postgres.AppendsIntegers .int8 where
  apart := by decide
  int16 := uniform_appendsIntegers .int2 2 Int16.toInt
  int32 := uniform_appendsIntegers .int4 4 Int32.toInt
  int64 := uniform_appendsIntegers .int8 8 Int64.toInt

/-- The least integer of two bytes is sent behind what is there already, and the one below it is not.
A column of floats takes no integer. -/
theorem send_unaltered_edges :
    (∃ bytes, (postgres.send (.int (-32768)) .int2).perform [7] = (.ok .bytes, 7 :: bytes) ∧
      bytes.length = 2 ∧ integer bytes = -32768) ∧
    (postgres.send (.int (-32769)) .int2).perform [7] = (.error .outOfRange, [7]) ∧
    (postgres.send (.int (-32768)) .float8).perform [7] = (.error .wrongType, [7]) ∧
    ∃ narrow : Int32, FieldType.int32.read (.int (-32768)) = .ok narrow ∧
      narrow.toInt = -32768 := by
  obtain ⟨sent, refused, read, _⟩ :=
    postgres.send_unaltered .int8 postgres_appendsIntegers (-32768)
  obtain ⟨below, _⟩ := postgres.send_unaltered .int8 postgres_appendsIntegers (-32769)
  refine ⟨(sent [7] .int2 2 (by simp [postgres])).within ?_,
    (below [7] .int2 2 (by simp [postgres])).beyond ?_, refused [7] .float8 (by decide), read ?_⟩
  · exact ⟨by decide, by decide⟩
  · exact fun within => absurd within.1 (by decide)
  · exact ⟨by decide, by decide⟩

end Wire

end SqlCompose
