import SqlCompose.Octets
import SqlCompose.Proofs.Reading

/-! Bytes as the characters of their values. The literals and groups of a byte string are those of its
characters. -/
namespace SqlCompose

open Text

namespace Octets

def charOf (octet : UInt8) : Char := Char.ofNat octet.toNat

theorem map_charOf_ofText (text : List Char) : (ofText text).map charOf = bytes text :=
  List.map_flatMap

theorem charOf_injective : Function.Injective charOf := by
  intro octet other same
  have values := congrArg Char.toNat same
  rw [charOf, charOf, toNat_ofNat_byte, toNat_ofNat_byte] at values
  exact UInt8.toNat_inj.mp values

theorem charOf_eq_iff (octet : UInt8) (char : Char) (own : charOf char.toUInt8 = char) :
    charOf octet = char ↔ octet = char.toUInt8 := by
  constructor
  · intro same
    exact charOf_injective (same.trans own.symm)
  · rintro rfl
    exact own

theorem charOf_backslash (octet : UInt8) : charOf octet = '\x5c' ↔ octet = '\x5c'.toUInt8 :=
  charOf_eq_iff octet '\x5c' rfl

theorem charOf_opening (octet : UInt8) : charOf octet = '(' ↔ octet = '('.toUInt8 :=
  charOf_eq_iff octet '(' rfl

theorem charOf_closing (octet : UInt8) : charOf octet = ')' ↔ octet = ')'.toUInt8 :=
  charOf_eq_iff octet ')' rfl

theorem isQuote_charOf (octet : UInt8) : Text.isQuote (charOf octet) = isQuote octet := by
  have each (quote : Char) (own : charOf quote.toUInt8 = quote) :
      decide (charOf octet = quote) = decide (octet = quote.toUInt8) :=
    decide_eq_decide.mpr (charOf_eq_iff octet quote own)
  rw [Text.isQuote, isQuote, each '\x27' rfl, each '\x22' rfl, each '\x60' rfl]

theorem literalEnd_of_quoted (quote : UInt8) (part : List UInt8) (quoted : Quoted quote part) :
    LiteralEnd (charOf quote) ((part ++ [quote]).map charOf) := by
  induction quoted with
  | nil => exact .close
  | escape octet rest _ ih => exact .escape (charOf octet) _ ih
  | plain octet rest unescaped inside _ ih =>
    have unslashed := mt (charOf_backslash octet).mp unescaped
    exact .plain (charOf octet) _ unslashed (mt (charOf_injective ·) inside) ih

theorem quoted_of_literalEnd (quote : UInt8) (octets : List UInt8)
    (ends : LiteralEnd (charOf quote) (octets.map charOf)) :
    ∃ part, octets = part ++ [quote] ∧ Quoted quote part := by
  generalize same : octets.map charOf = text at ends
  induction ends generalizing octets with
  | close =>
    obtain ⟨octet, rfl, closing⟩ := List.map_eq_singleton_iff.mp same
    exact ⟨[], by rw [charOf_injective closing, List.nil_append], .nil⟩
  | escape char rest _ ih =>
    obtain ⟨slash, behind, rfl, escape, later⟩ := List.map_eq_cons_iff.mp same
    obtain ⟨octet, more, rfl, _, last⟩ := List.map_eq_cons_iff.mp later
    obtain ⟨part, rfl, quoted⟩ := ih more last
    obtain rfl := (charOf_backslash slash).mp escape
    exact ⟨_ :: octet :: part, rfl, .escape octet part quoted⟩
  | plain char rest unescaped inside _ ih =>
    obtain ⟨octet, more, rfl, rfl, later⟩ := List.map_eq_cons_iff.mp same
    obtain ⟨part, rfl, quoted⟩ := ih more later
    refine ⟨octet :: part, rfl, .plain octet part ?_ ?_ quoted⟩
    · exact mt (charOf_backslash octet).mpr unescaped
    · exact mt (congrArg charOf) inside

theorem literal_iff (quote : UInt8) (octets : List UInt8) (opens : isQuote quote = true) :
    Literal (quote :: octets) ↔ LiteralEnd (charOf quote) (octets.map charOf) := by
  constructor
  · intro literal
    cases literal with
    | intro _ part _ quoted => exact literalEnd_of_quoted quote part quoted
  · intro ends
    obtain ⟨part, rfl, quoted⟩ := quoted_of_literalEnd quote octets ends
    exact .intro quote part opens quoted

theorem groupEnd_of_grouped (part : List UInt8) (grouped : Grouped part) :
    GroupEnd ((part ++ [')'.toUInt8]).map charOf) := by
  induction grouped with
  | nil => exact .close
  | literal part rest literal _ ih =>
    cases literal with
    | intro quote inside opens quoted =>
      rw [List.append_assoc, List.cons_append, List.map_cons, List.map_append]
      exact .literal _ _ _ ((isQuote_charOf quote).trans opens)
        (literalEnd_of_quoted quote inside quoted) ih
  | group part rest _ _ inner after =>
    have opening := (charOf_opening '('.toUInt8).mpr rfl
    rw [List.append_assoc, List.cons_append, List.map_cons, opening, List.map_append]
    exact .group _ _ inner after
  | plain octet rest unquoted ungrouped _ ih =>
    refine .plain (charOf octet) _ ((isQuote_charOf octet).trans unquoted) ⟨?_, ?_⟩ ih
    · exact mt (charOf_opening octet).mp ungrouped.1
    · exact mt (charOf_closing octet).mp ungrouped.2

theorem grouped_of_groupEnd (octets : List UInt8) (ends : GroupEnd (octets.map charOf)) :
    ∃ part, octets = part ++ [')'.toUInt8] ∧ Grouped part := by
  generalize same : octets.map charOf = text at ends
  induction ends generalizing octets with
  | close =>
    obtain ⟨octet, rfl, closing⟩ := List.map_eq_singleton_iff.mp same
    exact ⟨[], by rw [(charOf_closing octet).mp closing, List.nil_append], .nil⟩
  | literal quote part rest quoted literal _ ih =>
    obtain ⟨octet, more, rfl, rfl, later⟩ := List.map_eq_cons_iff.mp same
    obtain ⟨front, back, rfl, rfl, last⟩ := List.map_eq_append_iff.mp later
    obtain ⟨inside, rfl, grouped⟩ := ih back last
    have whole := (literal_iff octet front ((isQuote_charOf octet).symm.trans quoted)).mpr literal
    exact ⟨octet :: front ++ inside, by simp, .literal _ inside whole grouped⟩
  | group part rest _ _ inner after =>
    obtain ⟨octet, more, rfl, opening, later⟩ := List.map_eq_cons_iff.mp same
    obtain ⟨front, back, rfl, own, last⟩ := List.map_eq_append_iff.mp later
    obtain ⟨first, rfl, grouped⟩ := inner front own
    obtain ⟨second, rfl, followed⟩ := after back last
    obtain rfl := (charOf_opening octet).mp opening
    exact ⟨_, by simp, .group first second grouped followed⟩
  | plain char rest unquoted ungrouped _ ih =>
    obtain ⟨octet, more, rfl, rfl, later⟩ := List.map_eq_cons_iff.mp same
    obtain ⟨inside, rfl, grouped⟩ := ih more later
    refine ⟨octet :: inside, rfl, .plain octet inside ?_ ⟨?_, ?_⟩ grouped⟩
    · exact (isQuote_charOf octet).symm.trans unquoted
    · exact mt (charOf_opening octet).mpr ungrouped.1
    · exact mt (charOf_closing octet).mpr ungrouped.2

theorem group_iff (octets : List UInt8) :
    Group ('('.toUInt8 :: octets) ↔ GroupEnd (octets.map charOf) := by
  constructor
  · intro group
    cases group with
    | intro part grouped => exact groupEnd_of_grouped part grouped
  · intro ends
    obtain ⟨part, rfl, grouped⟩ := grouped_of_groupEnd octets ends
    exact .intro part grouped

end Octets

end SqlCompose
