import SqlCompose.Bytewise
import SqlCompose.Proofs.Scripts

/-! Reading by the places of bytes without a slip. A reader that goes byte by byte can be within a
wide character; it is at a place between two characters wherever a narrow one comes next. -/
namespace SqlCompose

namespace Text

section Loops

variable {State Result : Type}

inductive Leads (Holds : Nat → State → Prop) (Good : Result → Prop) (place : Nat) :
    Checked (Turn State Result) → Prop
  | done (result : Result) (good : Good result) : Leads Holds Good place (.ok (.done result))
  | on (next : Nat) (later : State) (forward : place < next) (holds : Holds next later) :
    Leads Holds Good place (.ok (.on next later))

theorem scan_on (size : Nat) (turn : Nat → State → Checked (Turn State Result))
    (atEnd : Nat → State → Checked Result) (place next : Nat) (state later : State)
    (inside : place < size) (went : turn place state = .ok (.on next later))
    (forward : place < next) :
    scan size turn atEnd place state = scan size turn atEnd next later := by
  rw [scan, if_pos inside, went]
  exact if_pos forward

/-- What holds at every turn of a loop and leads on holds of its result. -/
theorem scan_ok (size : Nat) (turn : Nat → State → Checked (Turn State Result))
    (atEnd : Nat → State → Checked Result) (Holds : Nat → State → Prop) (Good : Result → Prop)
    (ended : ∀ place state, size ≤ place → Holds place state →
      ∃ result, atEnd place state = .ok result ∧ Good result)
    (turned : ∀ place state, place < size → Holds place state →
      Leads Holds Good place (turn place state))
    (place : Nat) (state : State) (holds : Holds place state) :
    ∃ result, scan size turn atEnd place state = .ok result ∧ Good result := by
  induction left : size - place using Nat.strongRecOn generalizing place state with
  | ind left ih =>
    subst left
    by_cases inside : place < size
    · have led := turned place state inside holds
      cases came : turn place state with
      | error slip =>
        rw [came] at led
        cases led
      | ok went =>
        rw [came] at led
        cases led with
        | done result good =>
          refine ⟨result, ?_, good⟩
          rw [scan, if_pos inside, came]
        | on next later forward held =>
          rw [scan_on size turn atEnd place next state later inside came forward]
          exact ih (size - next) (by omega) next later held rfl
    · rw [scan, if_neg inside]
      exact ended place state (by omega) holds

end Loops

theorem bind_eq_map {Read Result : Type} (checked : Checked Read) (next : Read → Checked Result)
    (made : Read → Result) (each : ∀ read, next read = .ok (made read)) :
    checked.bind next = checked.map made := by
  cases checked with
  | error slip => rfl
  | ok read => exact each read

theorem byteSize_narrow (char : Char) (narrow : isWide char = false) : byteSize [char] = 1 := by
  rw [← length_bytes, bytes_narrow char narrow]
  rfl

theorem byteSize_narrow_cons (char : Char) (rest : List Char) (narrow : isWide char = false) :
    byteSize (char :: rest) = byteSize rest + 1 := by
  rw [← List.singleton_append, byteSize_append, byteSize_narrow char narrow, Nat.add_comm]

theorem byteSize_behind (front : List Char) (char : Char) (rest : List Char)
    (narrow : isWide char = false) :
    byteSize (front ++ char :: rest) = byteSize front + 1 + byteSize rest := by
  rw [byteSize_append, byteSize_narrow_cons char rest narrow]
  omega

theorem byteSize_lt_behind (front : List Char) (char : Char) (rest : List Char) :
    byteSize front < byteSize (front ++ char :: rest) := by
  have positive := Char.utf8Size_pos char
  rw [byteSize_append, byteSize]
  omega

theorem cutAt?_append (front rest : List Char) :
    cutAt? (byteSize front) (front ++ rest) = some (front, rest) := by
  induction front with
  | nil => cases rest <;> rfl
  | cons char front ih =>
    obtain ⟨more, size⟩ := Nat.exists_eq_succ_of_ne_zero (Nat.pos_iff_ne_zero.mp
      (Nat.lt_of_lt_of_le (Char.utf8Size_pos char) (Nat.le_add_right _ (byteSize front))))
    have left : more + 1 - char.utf8Size = byteSize front := by omega
    rw [byteSize, size, List.cons_append, cutAt?, if_pos (by omega), left, ih]
    rfl

theorem cutAt_append (front rest : List Char) :
    cutAt (byteSize front) (front ++ rest) = .ok (front, rest) := by
  rw [cutAt, cutAt?_append]

example : cutAt 1 ['\u00e9', 'a'] = .error (.divided 1) := rfl

theorem textTo_append (front rest : List Char) :
    textTo (front ++ rest) (byteSize front) = .ok front := by
  rw [textTo, cutAt_append]
  rfl

theorem textFrom_append (front rest : List Char) :
    textFrom (front ++ rest) (byteSize front) = .ok rest := by
  rw [textFrom, cutAt_append]
  rfl

theorem slice_append (before middle rest : List Char) :
    slice (before ++ middle ++ rest) (byteSize before) (byteSize (before ++ middle)) =
      .ok middle := by
  rw [slice, textTo_append]
  exact textFrom_append before middle

theorem drop_bytes (front rest : List Char) :
    (bytes (front ++ rest)).drop (byteSize front) = bytes rest := by
  rw [bytes_append, ← length_bytes, List.drop_left]

theorem byteAt_of_drop (text : List Char) (place : Nat) (byte : Char) (rest : List Char)
    (ahead : (bytes text).drop place = byte :: rest) :
    byteAt text place = .ok byte ∧ (bytes text).drop (place + 1) = rest := by
  constructor
  · have first : (bytes text)[place]? = some byte := by
      rw [← List.head?_drop, ahead]
      rfl
    rw [byteAt, first]
  · rw [← List.drop_drop, ahead]
    rfl

theorem exists_drop (text : List Char) (place : Nat) (inside : place < byteSize text) :
    ∃ byte rest, (bytes text).drop place = byte :: rest := by
  rw [← length_bytes] at inside
  exact ⟨_, _, List.drop_eq_getElem_cons inside⟩

/-- A reader at a place has some characters behind it and the rest ahead. Of the last character
behind it there may be some bytes that it has not read; then that character is wide. -/
structure At (text : List Char) (place : Nat) (front rest more : List Char) : Prop where
  split : text = front ++ rest
  passed : place + more.length = byteSize front
  ahead : (bytes text).drop place = more ++ bytes rest
  wide : ∀ byte ∈ more, isWide byte = true

namespace At

theorem between (front rest : List Char) : At (front ++ rest) (byteSize front) front rest [] :=
  ⟨rfl, by simp, drop_bytes front rest, by simp⟩

theorem start (text : List Char) : At text 0 [] text [] := between [] text

variable {text front rest more : List Char} {place : Nat}

theorem size (at_ : At text place front rest more) :
    byteSize text = place + more.length + byteSize rest := by
  rw [at_.split, byteSize_append, at_.passed]

theorem ended (at_ : At text place front rest more) (beyond : byteSize text ≤ place) :
    more = [] ∧ rest = [] := by
  have size := at_.size
  refine ⟨List.length_eq_zero_iff.mp (by omega), ?_⟩
  cases rest with
  | nil => rfl
  | cons char rest =>
    have positive := Char.utf8Size_pos char
    rw [byteSize] at size
    omega

/-- The byte at a place is a whole character, or it belongs to a wide one. In that case the character
counts as read from its first byte on. -/
theorem step (at_ : At text place front rest more) (inside : place < byteSize text) :
    (∃ char left, more = [] ∧ rest = char :: left ∧ isWide char = false ∧ place = byteSize front ∧
      byteAt text place = .ok char ∧ At text (place + 1) (front ++ [char]) left []) ∨
    ∃ byte moved left later, byteAt text place = .ok byte ∧ isWide byte = true ∧
      rest = moved ++ left ∧ (∀ char ∈ moved, isWide char = true) ∧ (moved = [] → more ≠ []) ∧
      At text (place + 1) (front ++ moved) left later := by
  obtain ⟨split, passed, ahead, wide⟩ := at_
  cases more with
  | cons byte more =>
    obtain ⟨high, others⟩ := List.forall_mem_cons.mp wide
    obtain ⟨read, behind⟩ := byteAt_of_drop text place byte _ ahead
    refine .inr ⟨byte, [], rest, more, read, high, rfl, by simp, by simp, ?_⟩
    rw [List.length_cons] at passed
    exact ⟨by simpa using split, by rw [List.append_nil]; omega, behind, others⟩
  | nil =>
    rw [List.length_nil, Nat.add_zero] at passed
    cases rest with
    | nil =>
      obtain ⟨byte, rest, bytes⟩ := exists_drop text place inside
      rw [ahead] at bytes
      cases bytes
    | cons char left =>
      have moved : text = front ++ [char] ++ left := by
        rw [split, List.append_assoc, List.singleton_append]
      have grown : byteSize (front ++ [char]) = place + byteSize [char] := by
        rw [byteSize_append, ← passed]
      cases high : isWide char with
      | false =>
        rw [List.nil_append, bytes_narrow_cons char left high] at ahead
        obtain ⟨read, behind⟩ := byteAt_of_drop text place char _ ahead
        rw [byteSize_narrow char high] at grown
        exact .inl ⟨char, left, rfl, rfl, high, passed, read, moved, grown.symm, behind, by simp⟩
      | true =>
        obtain ⟨filled, each⟩ := bytes_wide char high
        obtain ⟨byte, later, cons⟩ := List.exists_cons_of_ne_nil filled
        rw [List.nil_append, bytes_cons, cons, List.cons_append] at ahead
        obtain ⟨read, behind⟩ := byteAt_of_drop text place byte _ ahead
        have count : byteSize [char] = later.length + 1 := by
          rw [← length_bytes, cons, List.length_cons]
        rw [cons] at each
        obtain ⟨first, others⟩ := List.forall_mem_cons.mp each
        refine .inr ⟨byte, [char], left, later, read, first, rfl, by simpa using high, by simp,
          moved, ?_, behind, others⟩
        omega

end At

end Text

end SqlCompose
