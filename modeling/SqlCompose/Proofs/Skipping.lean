import SqlCompose.Proofs.Octets
import SqlCompose.Proofs.Places

/-! Literals and groups are passed over in a byte string as they are defined: a reader stops behind
the only literal or group that begins where it starts, and comes to nothing if there is none. -/
namespace SqlCompose

namespace Text

theorem map_passed (place : Nat) (front : List Char) (read : Option (List Char × List Char)) :
    (read.map fun (part, left) => (front ++ part, left)).map (fun read => place + read.1.length) =
      read.map fun read => place + front.length + read.1.length := by
  rw [Option.map_map]
  refine congrArg (Option.map · _) (funext fun read => ?_)
  rw [Function.comp_apply, List.length_append, Nat.add_assoc]

theorem literal?_escape (quote : Char) (rest : List Char) :
    literal? quote ('\x5c' :: rest) =
      (literal? quote (rest.drop 1)).map fun (part, left) =>
        ('\x5c' :: (rest.take 1 ++ part), left) := by
  cases rest with
  | nil => rfl
  | cons char rest =>
    have escaped : Quoting.within (.inside quote) '\x5c' = some (.escaped quote) := by
      rw [within_inside, if_pos rfl]
    have inside : Quoting.within (.escaped quote) char = some (.inside quote) := rfl
    simp only [literal?, readUntil, escaped, inside, Option.map_map]
    rfl

theorem literal?_cons (quote char : Char) (rest : List Char) (unescaped : char ≠ '\x5c') :
    literal? quote (char :: rest) =
      if char = quote then some ([char], rest)
      else (literal? quote rest).map fun (part, left) => (char :: part, left) := by
  rw [literal?, readUntil, within_inside, if_neg unescaped]
  by_cases closing : char = quote <;> simp [closing, literal?]

end Text

open Text

namespace Octets

theorem octetAt_of_drop (octets : List UInt8) (place : Nat) (octet : UInt8) (rest : List UInt8)
    (ahead : octets.drop place = octet :: rest) :
    octetAt octets place = .ok octet ∧ octets.drop (place + 1) = rest := by
  constructor
  · have first : octets[place]? = some octet := by
      rw [← List.head?_drop, ahead]
      rfl
    rw [octetAt, first]
  · rw [← List.drop_drop, ahead]
    rfl

theorem exists_drop (octets : List UInt8) (place : Nat) (inside : place < octets.length) :
    ∃ octet rest, octets.drop place = octet :: rest :=
  ⟨_, _, List.drop_eq_getElem_cons inside⟩

theorem literalTurn_eq (octets : List UInt8) (quote octet : UInt8) (place : Nat) (state : Unit)
    (read : octetAt octets place = .ok octet) :
    literalTurn octets quote place state =
      if octet = '\x5c'.toUInt8 then .ok (.on (place + 2) ())
      else if octet = quote then .ok (.done (some (place + 1)))
      else .ok (.on (place + 1) ()) := by
  rw [literalTurn, read]
  rfl

def literalStop (octets : List UInt8) (quote : UInt8) (place : Nat) : Option Nat :=
  (literal? (charOf quote) ((octets.drop place).map charOf)).map fun read => place + read.1.length

theorem literalStop_beyond (octets : List UInt8) (quote : UInt8) (place : Nat)
    (beyond : octets.length ≤ place) : literalStop octets quote place = none := by
  rw [literalStop, List.drop_eq_nil_iff.mpr beyond]
  rfl

theorem literalStop_cons (octets : List UInt8) (quote octet : UInt8) (place : Nat)
    (more : List UInt8) (next : octets.drop place = octet :: more) :
    literalStop octets quote place =
      if octet = '\x5c'.toUInt8 then literalStop octets quote (place + 2)
      else if octet = quote then some (place + 1)
      else literalStop octets quote (place + 1) := by
  obtain ⟨_, later⟩ := octetAt_of_drop octets place octet more next
  by_cases escape : octet = '\x5c'.toUInt8
  · have beyond : (octets.drop (place + 2)).map charOf = (more.map charOf).drop 1 := by
      rw [← later, ← List.map_drop, List.drop_drop]
    rw [if_pos escape, literalStop, literalStop, next, beyond, List.map_cons,
      (charOf_backslash octet).mpr escape, literal?_escape]
    cases more with
    | nil => rfl
    | cons char more => exact map_passed place ['\x5c', charOf char] _
  have unslashed := mt (charOf_backslash octet).mp escape
  rw [if_neg escape, literalStop, next, List.map_cons, literal?_cons _ _ _ unslashed]
  by_cases closing : octet = quote
  · rw [if_pos closing, if_pos (congrArg charOf closing)]
    rfl
  · rw [if_neg closing, if_neg (mt (charOf_injective ·) closing), literalStop, later]
    exact map_passed place [charOf octet] _

theorem literal_turned (octets : List UInt8) (quote : UInt8) (stop : Option Nat) (place : Nat)
    (state : Unit) (inside : place < octets.length)
    (held : literalStop octets quote place = stop) :
    Leads (fun place _ => literalStop octets quote place = stop) (· = stop) place
      (literalTurn octets quote place state) := by
  obtain ⟨octet, more, next⟩ := exists_drop octets place inside
  obtain ⟨read, _⟩ := octetAt_of_drop octets place octet more next
  rw [literalStop_cons octets quote octet place more next] at held
  rw [literalTurn_eq octets quote octet place state read]
  by_cases escape : octet = '\x5c'.toUInt8
  · rw [if_pos escape] at held ⊢
    exact .on _ _ (by omega) held
  by_cases closing : octet = quote
  · rw [if_neg escape, if_pos closing] at held ⊢
    exact .done _ held
  · rw [if_neg escape, if_neg closing] at held ⊢
    exact .on _ _ (by omega) held

theorem skipLiteral_eq (octets : List UInt8) (start : Nat) (quote : UInt8) (rest : List UInt8)
    (ahead : octets.drop start = quote :: rest) :
    skipLiteral octets start = .ok (literalStop octets quote (start + 1)) := by
  obtain ⟨read, _⟩ := octetAt_of_drop octets start quote rest ahead
  obtain ⟨result, scanned, rfl⟩ := scan_ok octets.length (literalTurn octets quote)
    (fun _ _ => return none) (fun place _ => literalStop octets quote place =
      literalStop octets quote (start + 1)) (· = literalStop octets quote (start + 1))
    (fun place _ beyond held =>
      ⟨none, rfl, (literalStop_beyond octets quote place beyond) ▸ held⟩)
    (literal_turned octets quote _) (start + 1) () rfl
  rw [skipLiteral, read]
  exact scanned

theorem groupTurn_eq (octets : List UInt8) (octet : UInt8) (place depth : Nat)
    (read : octetAt octets place = .ok octet) :
    groupTurn octets place depth =
      if octet = '('.toUInt8 then .ok (.on (place + 1) (depth + 1))
      else if octet = ')'.toUInt8 then
        match depth with
        | 0 => .error (.unopened place)
        | 1 => .ok (.done (some (place + 1)))
        | depth + 2 => .ok (.on (place + 1) (depth + 1))
      else if isQuote octet then
        (skipLiteral octets place).map fun
          | none => .done none
          | some next => .on next depth
      else .ok (.on (place + 1) depth) := by
  rw [groupTurn.eq_def, read]
  refine if_congr Iff.rfl rfl (if_congr Iff.rfl ?_ (if_congr Iff.rfl ?_ rfl))
  · split <;> rfl
  · exact bind_eq_map _ _ _ fun passed => by cases passed <;> rfl

def groupStop (octets : List UInt8) (depth place : Nat) : Option Nat :=
  (readUntil Nesting.within ⟨depth, .plain⟩ ((octets.drop place).map charOf)).map fun read =>
    place + read.1.length

theorem groupStop_beyond (octets : List UInt8) (depth place : Nat)
    (beyond : octets.length ≤ place) : groupStop octets depth place = none := by
  rw [groupStop, List.drop_eq_nil_iff.mpr beyond]
  rfl

theorem groupStop_literal (octets : List UInt8) (depth place : Nat) (octet : UInt8)
    (more : List UInt8) (next : octets.drop place = octet :: more) :
    ((literal? (charOf octet) (more.map charOf)).bind fun (part, left) =>
      (readUntil Nesting.within ⟨depth, .plain⟩ left).map fun (inner, more) =>
        (charOf octet :: (part ++ inner), more)).map (fun read => place + read.1.length) =
      (literalStop octets octet (place + 1)).bind (groupStop octets depth) := by
  obtain ⟨_, later⟩ := octetAt_of_drop octets place octet more next
  rw [literalStop, later]
  cases literal : literal? (charOf octet) (more.map charOf) with
  | none => rfl
  | some passed =>
    obtain ⟨part, left⟩ := passed
    obtain ⟨split, _⟩ := readUntil_append _ _ _ _ _ literal
    have beyond : (octets.drop (place + 1 + part.length)).map charOf = left := by
      rw [← List.drop_drop, later, List.map_drop, split, List.drop_left]
    have same : place + 1 + part.length = place + (charOf octet :: part).length := by
      rw [List.length_cons]
      omega
    rw [Option.bind_some, Option.map_some, Option.bind_some, groupStop, beyond, same]
    exact map_passed place (charOf octet :: part) _

theorem groupStop_cons (octets : List UInt8) (depth : Nat) (octet : UInt8) (place : Nat)
    (more : List UInt8) (next : octets.drop place = octet :: more) :
    groupStop octets depth place =
      if octet = '('.toUInt8 then groupStop octets (depth + 1) (place + 1)
      else if octet = ')'.toUInt8 then
        match depth with
        | 0 => some (place + 1)
        | depth + 1 => groupStop octets depth (place + 1)
      else if isQuote octet then
        (literalStop octets octet (place + 1)).bind (groupStop octets depth)
      else groupStop octets depth (place + 1) := by
  obtain ⟨_, later⟩ := octetAt_of_drop octets place octet more next
  have single (inner : Nat) :
      ((readUntil Nesting.within ⟨inner, .plain⟩ (more.map charOf)).map fun (part, left) =>
        (charOf octet :: part, left)).map (fun read => place + read.1.length) =
        groupStop octets inner (place + 1) := by
    rw [groupStop, later]
    exact map_passed place [charOf octet] _
  rw [groupStop, next, List.map_cons, readUntil_group, isQuote_charOf]
  simp only [charOf_opening, charOf_closing]
  by_cases opening : octet = '('.toUInt8
  · rw [if_pos opening, if_pos opening]
    exact single (depth + 1)
  rw [if_neg opening, if_neg opening]
  by_cases closing : octet = ')'.toUInt8
  · rw [if_pos closing, if_pos closing]
    cases depth with
    | zero => rfl
    | succ depth => exact single depth
  rw [if_neg closing, if_neg closing]
  cases quoted : isQuote octet with
  | false =>
    rw [if_neg (by simp), if_neg (by simp)]
    exact single depth
  | true =>
    rw [if_pos rfl, if_pos rfl]
    exact groupStop_literal octets depth place octet more next

theorem group_turned (octets : List UInt8) (stop : Option Nat) (place depth : Nat)
    (inside : place < octets.length)
    (held : ∃ inner, depth = inner + 1 ∧ groupStop octets inner place = stop) :
    Leads (fun place depth => ∃ inner, depth = inner + 1 ∧ groupStop octets inner place = stop)
      (· = stop) place (groupTurn octets place depth) := by
  obtain ⟨inner, rfl, held⟩ := held
  obtain ⟨octet, more, next⟩ := exists_drop octets place inside
  obtain ⟨read, _⟩ := octetAt_of_drop octets place octet more next
  rw [groupStop_cons octets inner octet place more next] at held
  rw [groupTurn_eq octets octet place _ read]
  by_cases opening : octet = '('.toUInt8
  · rw [if_pos opening] at held ⊢
    exact .on _ _ (by omega) ⟨inner + 1, rfl, held⟩
  rw [if_neg opening] at held ⊢
  by_cases closing : octet = ')'.toUInt8
  · rw [if_pos closing] at held ⊢
    cases inner with
    | zero => exact .done _ held
    | succ inner => exact .on _ _ (by omega) ⟨inner, rfl, held⟩
  rw [if_neg closing] at held ⊢
  cases quoted : isQuote octet with
  | false =>
    rw [quoted, if_neg (by simp)] at held
    exact .on _ _ (by omega) ⟨inner, rfl, held⟩
  | true =>
    rw [quoted, if_pos rfl] at held
    rw [if_pos rfl, skipLiteral_eq octets place octet more next]
    cases stopped : literalStop octets octet (place + 1) with
    | none =>
      rw [stopped] at held
      exact .done _ held
    | some behind =>
      obtain ⟨_, _, rfl⟩ := Option.map_eq_some_iff.mp stopped
      rw [stopped] at held
      exact .on _ _ (by omega) ⟨inner, rfl, held⟩

theorem skipGroup_eq (octets : List UInt8) (start : Nat) (rest : List UInt8)
    (ahead : octets.drop start = '('.toUInt8 :: rest) :
    skipGroup octets start = .ok (groupStop octets 0 (start + 1)) := by
  obtain ⟨read, _⟩ := octetAt_of_drop octets start _ rest ahead
  have inside : start < octets.length := by
    by_contra beyond
    rw [List.drop_eq_nil_iff.mpr (by omega)] at ahead
    cases ahead
  have opened : groupTurn octets start 0 = .ok (.on (start + 1) 1) := by
    rw [groupTurn_eq octets _ start 0 read, if_pos rfl]
  obtain ⟨result, scanned, rfl⟩ := scan_ok octets.length (groupTurn octets)
    (fun _ _ => return none) _ (· = groupStop octets 0 (start + 1))
    (fun place _ beyond ⟨inner, _, held⟩ =>
      ⟨none, rfl, (groupStop_beyond octets inner place beyond) ▸ held⟩)
    (group_turned octets _) (start + 1) 1 ⟨0, rfl, rfl⟩
  rw [skipGroup, scan_on _ _ _ start _ 0 _ inside opened (by omega)]
  exact scanned

theorem length_ofText (text : List Char) : (ofText text).length = byteSize text := by
  rw [← length_bytes, ← map_charOf_ofText, List.length_map]

theorem byteAt_eq (text : List Char) (place : Nat) :
    byteAt text place = (octetAt (ofText text) place).map charOf := by
  rw [byteAt, octetAt, ← map_charOf_ofText, List.getElem?_map]
  cases (ofText text)[place]? <;> rfl

theorem literalTurn_ofText (text : List Char) (quote : UInt8) :
    Bytewise.literalTurn text (charOf quote) = literalTurn (ofText text) quote := by
  funext place state
  rw [Bytewise.literalTurn, literalTurn, byteAt_eq]
  cases octetAt (ofText text) place with
  | error slip => rfl
  | ok octet =>
    exact if_congr (charOf_backslash octet) rfl (if_congr charOf_injective.eq_iff rfl rfl)

/-- A literal of a text is passed over as its bytes are. -/
theorem skipLiteral_ofText (text : List Char) (start : Nat) :
    Bytewise.skipLiteral text start = skipLiteral (ofText text) start := by
  rw [Bytewise.skipLiteral, skipLiteral, byteAt_eq]
  cases octetAt (ofText text) start with
  | error slip => rfl
  | ok quote =>
    simp only [Except.map, bind, Except.bind]
    rw [literalTurn_ofText, length_ofText]

theorem groupTurn_ofText (text : List Char) :
    Bytewise.groupTurn text = groupTurn (ofText text) := by
  funext place depth
  rw [Bytewise.groupTurn.eq_def, groupTurn.eq_def, byteAt_eq, skipLiteral_ofText]
  cases octetAt (ofText text) place with
  | error slip => rfl
  | ok octet =>
    have quotes : Text.isQuote (charOf octet) = true ↔ isQuote octet = true := by
      rw [isQuote_charOf]
    exact if_congr (charOf_opening octet) rfl (if_congr (charOf_closing octet) rfl
      (if_congr quotes rfl rfl))

theorem skipGroup_ofText (text : List Char) (start : Nat) :
    Bytewise.skipGroup text start = skipGroup (ofText text) start := by
  rw [Bytewise.skipGroup, skipGroup, groupTurn_ofText, length_ofText]

theorem exists_drop_ofText (front rest : List Char) (char : Char) (narrow : isWide char = false) :
    ∃ octet more, (ofText (front ++ char :: rest)).drop (byteSize front) = octet :: more ∧
      charOf octet = char ∧ more.map charOf = bytes rest := by
  have ahead := drop_bytes front (char :: rest)
  rw [bytes_narrow_cons char rest narrow, ← map_charOf_ofText, ← List.map_drop] at ahead
  exact List.map_eq_cons_iff.mp ahead

end Octets

namespace Bytewise

theorem skipLiteral_eq (front rest : List Char) (quote : Char) (quoted : isQuote quote = true) :
    skipLiteral (front ++ quote :: rest) (byteSize front) =
      .ok ((literal? quote rest).map fun read => byteSize (front ++ quote :: read.1)) := by
  have narrow := isWide_of_isQuote quote quoted
  obtain ⟨octet, more, ahead, rfl, behind⟩ := Octets.exists_drop_ofText front rest quote narrow
  obtain ⟨_, later⟩ := Octets.octetAt_of_drop _ _ octet more ahead
  rw [Octets.skipLiteral_ofText, Octets.skipLiteral_eq _ _ octet more ahead, Octets.literalStop,
    later, behind, literal?_bytes _ quoted, Option.map_map]
  refine congrArg (fun passed => Except.ok (Option.map passed _)) (funext fun read => ?_)
  rw [Function.comp_apply, byteSize_behind front _ _ narrow, length_bytes]

theorem skipGroup_eq (front rest : List Char) :
    skipGroup (front ++ '(' :: rest) (byteSize front) =
      .ok ((group? rest).map fun read => byteSize (front ++ '(' :: read.1)) := by
  obtain ⟨octet, more, ahead, opening, behind⟩ :=
    Octets.exists_drop_ofText front rest '(' (by decide)
  obtain rfl := (Octets.charOf_opening octet).mp opening
  obtain ⟨_, later⟩ := Octets.octetAt_of_drop _ _ _ more ahead
  rw [Octets.skipGroup_ofText, Octets.skipGroup_eq _ _ more ahead, Octets.groupStop, later, behind,
    ← group?, group?_bytes, Option.map_map]
  refine congrArg (fun passed => Except.ok (Option.map passed _)) (funext fun read => ?_)
  rw [Function.comp_apply, byteSize_behind front '(' _ (by decide), length_bytes]

end Bytewise

namespace Octets

theorem spans_iff (Kind : List UInt8 → Prop) (octets : List UInt8) (start stop : Nat)
    (within : start ≤ octets.length) :
    Spans Kind octets start stop ↔
      ∃ part left, octets.drop start = part ++ left ∧ stop = start + part.length ∧ Kind part := by
  constructor
  · rintro ⟨ordered, inside, kind⟩
    refine ⟨_, _, (List.take_append_drop (stop - start) _).symm, ?_, kind⟩
    rw [List.length_take, List.length_drop]
    omega
  · rintro ⟨part, left, split, rfl, kind⟩
    have size := congrArg List.length split
    rw [List.length_drop, List.length_append] at size
    refine ⟨by omega, by omega, ?_⟩
    rwa [List.extract_eq_take_drop, Nat.add_sub_cancel_left, split, List.take_left]

variable (Kind : List UInt8 → Prop) (End : List Char → Prop) (octets : List UInt8) (start : Nat)

/-- What a reader of characters reads behind an opening is where a thing of the kind ends. -/
theorem stop_iff (opening : UInt8) (rest : List UInt8) (read : Option (List Char × List Char))
    (ahead : octets.drop start = opening :: rest) (filled : ¬Kind [])
    (kinds : ∀ part, Kind (opening :: part) ↔ End (part.map charOf))
    (reads : ∀ part left, read = some (part, left) ↔ End part ∧ rest.map charOf = part ++ left)
    (stop : Nat) :
    read.map (fun passed => start + 1 + passed.1.length) = some stop ↔
      Spans Kind octets start stop := by
  have within : start ≤ octets.length := by
    by_contra beyond
    rw [List.drop_eq_nil_iff.mpr (by omega)] at ahead
    cases ahead
  rw [spans_iff Kind octets start stop within, ahead, Option.map_eq_some_iff]
  constructor
  · rintro ⟨⟨part, left⟩, found, rfl⟩
    obtain ⟨ends, split⟩ := (reads part left).mp found
    obtain ⟨front, back, rfl, rfl, rfl⟩ := List.map_eq_append_iff.mp split
    refine ⟨opening :: front, back, rfl, ?_, (kinds front).mpr ends⟩
    simp only [List.length_map, List.length_cons]
    omega
  · rintro ⟨part, left, split, rfl, kind⟩
    cases part with
    | nil => exact absurd kind filled
    | cons octet part =>
      obtain ⟨rfl, rfl⟩ := List.cons.inj split
      refine ⟨(part.map charOf, left.map charOf), ?_, ?_⟩
      · exact (reads _ _).mpr ⟨(kinds part).mp kind, List.map_append⟩
      · simp only [List.length_map, List.length_cons]
        omega

theorem Finds.of_stop (stop : Option Nat)
    (stops : ∀ place, stop = some place ↔ Spans Kind octets start place) :
    Finds Kind octets start (.ok stop) where
  some_iff place := by rw [← stops, Except.ok.injEq]
  none_iff := by simp only [← stops, Except.ok.injEq, Option.eq_none_iff_forall_ne_some, not_exists]
  unique place other first second := by
    rw [← stops] at first second
    exact Option.some.inj (second.symm.trans first)

theorem finds_literal (quote : UInt8) (stands : octets[start]? = some quote)
    (opens : isQuote quote = true) : Finds Literal octets start (skipLiteral octets start) := by
  obtain ⟨inside, own⟩ := List.getElem?_eq_some_iff.mp stands
  have ahead := List.drop_eq_getElem_cons inside
  rw [own] at ahead
  rw [skipLiteral_eq octets start quote _ ahead]
  refine .of_stop _ _ _ _ (stop_iff Literal (LiteralEnd (charOf quote)) octets start quote _ _ ahead
    ?_ (literal_iff quote · opens) ?_)
  · intro literal
    cases literal
  · exact literal?_eq_some_iff (charOf quote) ((isQuote_charOf quote).trans opens) _

theorem finds_group (stands : octets[start]? = some '('.toUInt8) :
    Finds Group octets start (skipGroup octets start) := by
  obtain ⟨inside, own⟩ := List.getElem?_eq_some_iff.mp stands
  have ahead := List.drop_eq_getElem_cons inside
  rw [own] at ahead
  rw [skipGroup_eq octets start _ ahead]
  refine .of_stop _ _ _ _ (stop_iff Group GroupEnd octets start _ _ _ ahead ?_ group_iff ?_)
  · intro group
    cases group
  · exact group?_eq_some_iff _

/-- A reader that starts at a quote stops behind the only literal that begins there, and one that
starts at an opening parenthesis behind the only group. Where none begins, it comes to nothing. -/
theorem skips_exact (octets : List UInt8) (start : Nat) :
    (∀ quote, octets[start]? = some quote → isQuote quote = true →
      Finds Literal octets start (skipLiteral octets start)) ∧
    (octets[start]? = some '('.toUInt8 → Finds Group octets start (skipGroup octets start)) :=
  ⟨finds_literal octets start, finds_group octets start⟩

/-- The literal in the group hides a quote and a parenthesis, and the byte in the inner group is no
text. A literal that a backslash leaves open at the very end leaves its group open. -/
theorem skips_exact_hidden :
    skipGroup [0x28, 0x27, 0x5c, 0x27, 0x29, 0x27, 0x28, 0xff, 0x29, 0x29, 0x29] 0 = .ok (some 10) ∧
    Spans Group [0x28, 0x27, 0x5c, 0x27, 0x29, 0x27, 0x28, 0xff, 0x29, 0x29, 0x29] 0 10 ∧
    Spans Literal [0x28, 0x27, 0x5c, 0x27, 0x29, 0x27, 0x28, 0xff, 0x29, 0x29, 0x29] 1 6 ∧
    (¬∃ stop, Spans Literal [0x28, 0x22, 0x5c] 1 stop) ∧
    ¬∃ stop, Spans Group [0x28, 0x22, 0x5c] 0 stop := by
  obtain ⟨_, group⟩ :=
    skips_exact [0x28, 0x27, 0x5c, 0x27, 0x29, 0x27, 0x28, 0xff, 0x29, 0x29, 0x29] 0
  obtain ⟨literal, _⟩ :=
    skips_exact [0x28, 0x27, 0x5c, 0x27, 0x29, 0x27, 0x28, 0xff, 0x29, 0x29, 0x29] 1
  obtain ⟨open_literal, _⟩ := skips_exact [0x28, 0x22, 0x5c] 1
  obtain ⟨_, open_group⟩ := skips_exact [0x28, 0x22, 0x5c] 0
  have skipped := skipGroup_eq
    [0x28, 0x27, 0x5c, 0x27, 0x29, 0x27, 0x28, 0xff, 0x29, 0x29, 0x29] 0 _ rfl
  refine ⟨skipped, ((group rfl).some_iff 10).mp skipped, ((literal 0x27 rfl rfl).some_iff 6).mp ?_,
    (open_literal 0x22 rfl rfl).none_iff.mp ?_, (open_group rfl).none_iff.mp ?_⟩
  · exact skipLiteral_eq _ 1 0x27 _ rfl
  · exact skipLiteral_eq _ 1 0x22 _ rfl
  · exact skipGroup_eq _ 0 _ rfl

end Octets

end SqlCompose
