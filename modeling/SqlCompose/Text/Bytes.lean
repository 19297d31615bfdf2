import SqlCompose.Text.Blank
import SqlCompose.Text.Quoting

/-! Sizes in UTF-8 bytes, and the bytes themselves, each as the character of its value. -/
namespace SqlCompose.Text

def byteSize : List Char → Nat
  | [] => 0
  | char :: rest => char.utf8Size + byteSize rest

def fitting : Nat → List Char → List Char
  | _, [] => []
  | budget, char :: rest =>
    if char.utf8Size ≤ budget then char :: fitting (budget - char.utf8Size) rest else []

def bytes (text : List Char) : List Char :=
  text.flatMap fun char => (String.utf8EncodeChar char).map fun byte => Char.ofNat byte.toNat

theorem bytes_append (first second : List Char) :
    bytes (first ++ second) = bytes first ++ bytes second :=
  List.flatMap_append

theorem bytes_cons (char : Char) (rest : List Char) :
    bytes (char :: rest) = bytes [char] ++ bytes rest :=
  bytes_append [char] rest

theorem length_bytes (text : List Char) : (bytes text).length = byteSize text := by
  induction text with
  | nil => rfl
  | cons char rest ih =>
    rw [bytes_cons, List.length_append, ih, byteSize]
    simp [bytes, String.length_utf8EncodeChar]

theorem byteSize_append (first second : List Char) :
    byteSize (first ++ second) = byteSize first + byteSize second := by
  rw [← length_bytes, bytes_append, List.length_append, length_bytes, length_bytes]

/-- Whether a character is outside ASCII. The bytes of such a character are. -/
def isWide (char : Char) : Bool := 127 < char.toNat

theorem bytes_narrow (char : Char) (narrow : isWide char = false) : bytes [char] = [char] := by
  have small : char.toNat ≤ 127 := by simpa [isWide] using narrow
  have code : char.val.toNat < 256 := by
    have same : char.toNat = char.val.toNat := rfl
    omega
  have single : String.utf8EncodeChar char = [char.val.toUInt8] := by
    apply String.utf8EncodeChar_eq_singleton
    rw [Char.utf8Size_eq_one_iff, UInt32.le_iff_toNat_le]
    exact small
  have same : Char.ofNat (char.val.toUInt8).toNat = char := by
    rw [UInt32.toNat_toUInt8, Nat.mod_eq_of_lt code]
    exact Char.ofNat_toNat char
  rw [bytes, List.flatMap_singleton, single, List.map_singleton, same]

theorem toNat_ofNat_byte (byte : UInt8) : (Char.ofNat byte.toNat).toNat = byte.toNat := by
  have valid : byte.toNat.isValidChar := .inl (by have := byte.toNat_lt; omega)
  rw [Char.ofNat, dif_pos valid]
  rfl

theorem bytes_wide (char : Char) (wide : isWide char = true) :
    bytes [char] ≠ [] ∧ ∀ byte ∈ bytes [char], isWide byte = true := by
  have large : ¬ char.val.toNat ≤ 127 := by
    have own : 127 < char.toNat := by simpa [isWide] using wide
    exact Nat.not_le.mpr own
  have high (byte : UInt8) (least : 127 < byte.toNat) : isWide (Char.ofNat byte.toNat) = true := by
    rw [isWide, toNat_ofNat_byte]
    exact decide_eq_true least
  have every : ∀ byte ∈ String.utf8EncodeChar char, 127 < byte.toNat := by
    unfold String.utf8EncodeChar
    simp only [large, if_false]
    split
    · simp; omega
    · split
      · simp; omega
      · simp; omega
  refine ⟨by simp [bytes], fun byte member => ?_⟩
  simp only [bytes, List.flatMap_singleton, List.mem_map] at member
  obtain ⟨code, held, rfl⟩ := member
  exact high code (every code held)

end SqlCompose.Text
