import Mathlib.Data.List.TakeWhile
import Mathlib.Data.String.Basic
import SqlCompose.Proofs.JsonValues
import SqlCompose.Value.Storable
import SqlCompose.Value.Tagged

/-! Values that have been read are as values come about: integers in JSON are 64-bit words, objects
are sorted by key, and a leap second stands behind the last second of a minute. -/
namespace SqlCompose

namespace Json

theorem appendDigits_lt (value : Nat) (digits : List Nat) (below : value < wordLimit) :
    (appendDigits value digits).1 < wordLimit := by
  induction digits generalizing value with
  | nil => exact below
  | cons digit digits ih =>
    rw [appendDigits]
    split
    · exact ih _ (by assumption)
    · exact below

theorem isWord_of_number? (text : NumberText) (value : Int)
    (read : number? text = some (.int value)) : isWord value = true := by
  have below := appendDigits_lt 0 text.whole (by decide)
  have size : wordLimit = 18446744073709551616 := rfl
  simp only [isWord, Bool.and_eq_true, decide_eq_true_eq]
  unfold number? at read
  dsimp only at read
  split_ifs at read with whole positive least
  · obtain rfl := JsonNumber.int.inj (Option.some.inj read)
    omega
  · cases read
  · simp only [Bool.or_eq_true, decide_eq_true_eq, not_or] at least
    obtain rfl := JsonNumber.int.inj (Option.some.inj read)
    omega
  · have floating (scaled : Option Number.Binary64) : scaled.map (fun number =>
        JsonNumber.float (signed text.negative number)) ≠ some (.int value) := by
      cases scaled <;> simp
    split at read
    · exact absurd read (floating _)
    · split_ifs at read
      · cases read
      · exact absurd read (floating _)
      · exact absurd read (floating _)

theorem mem_insert {Item : Type} (key : String) (item : Item) (members : List (String × Item))
    (member : String × Item) (held : member ∈ insert key item members) :
    member = (key, item) ∨ member ∈ members := by
  induction members with
  | nil => exact .inl (List.mem_singleton.mp held)
  | cons first members ih =>
    obtain ⟨other, kept⟩ := first
    rw [insert] at held
    split_ifs at held
    · rcases List.mem_cons.mp held with own | later
      · exact .inl own
      · exact .inr (List.mem_cons_of_mem _ later)
    · exact List.mem_cons.mp held
    · rcases List.mem_cons.mp held with own | later
      · exact .inr (by simp [own])
      · exact (ih later).imp_right (List.mem_cons_of_mem _)

theorem sorted_insert {Item : Type} (key : String) (item : Item) (members : List (String × Item))
    (sorted : (members.map Prod.fst).Pairwise (· < ·)) :
    ((insert key item members).map Prod.fst).Pairwise (· < ·) := by
  induction members with
  | nil => exact List.pairwise_singleton _ _
  | cons first members ih =>
    obtain ⟨other, kept⟩ := first
    obtain ⟨before, rest⟩ := List.pairwise_cons.mp sorted
    rw [insert]
    split_ifs with same earlier
    · rw [List.map_cons, same]
      exact List.pairwise_cons.mpr ⟨before, rest⟩
    · refine List.pairwise_cons.mpr ⟨fun later member => ?_, sorted⟩
      rcases List.mem_cons.mp member with rfl | member
      · exact earlier
      · exact String.lt_trans earlier (before later member)
    · refine List.pairwise_cons.mpr ⟨fun later member => ?_, ih rest⟩
      obtain ⟨held, among, rfl⟩ := List.mem_map.mp member
      rcases mem_insert key item members held among with rfl | among
      · exact lt_of_le_of_ne (String.not_lt.mp earlier) (Ne.symm same)
      · exact before _ (List.mem_map_of_mem among)

theorem foldl_insert_kept (members held : List (String × Json))
    (sorted : (held.map Prod.fst).Pairwise (· < ·)) :
    ((members.foldl (fun object member => insert member.1 member.2 object) held).map
      Prod.fst).Pairwise (· < ·) ∧
    ∀ member ∈ members.foldl (fun object member => insert member.1 member.2 object) held,
      member ∈ held ∨ member ∈ members := by
  induction members generalizing held with
  | nil => exact ⟨sorted, fun _ => .inl⟩
  | cons first members ih =>
    obtain ⟨order, among⟩ := ih _ (sorted_insert first.1 first.2 held sorted)
    refine ⟨order, fun member kept => ?_⟩
    rcases among member kept with kept | later
    · rcases mem_insert first.1 first.2 held member kept with rfl | earlier
      · exact .inr List.mem_cons_self
      · exact .inl earlier
    · exact .inr (List.mem_cons_of_mem _ later)

theorem exactMembers_iff (members : List (String × Json)) :
    ExactMembers members ↔ ∀ member ∈ members, member.2.Exact := by
  induction members with
  | nil => simp [ExactMembers]
  | cons member members ih => rw [ExactMembers, ih, List.forall_mem_cons]

theorem floatlessMembers_iff (members : List (String × Json)) :
    FloatlessMembers members ↔ ∀ member ∈ members, member.2.Floatless := by
  induction members with
  | nil => simp [FloatlessMembers]
  | cons member members ih => rw [FloatlessMembers, ih, List.forall_mem_cons]

mutual
theorem exact_of_resolve? : ∀ (form : Written) (room : Nat) (json : Json),
    resolve? room form = some json → json.Floatless → json.Exact
  | .null, _, json, read, _ => by
    rw [resolve?] at read
    cases read
    trivial
  | .bool value, _, json, read, _ => by
    rw [resolve?] at read
    cases read
    trivial
  | .number text, _, json, read, floatless => by
    rw [resolve?] at read
    obtain ⟨number, found, rfl⟩ := Option.map_eq_some_iff.mp read
    cases number with
    | int value => exact isWord_of_number? text value found
    | float value => exact floatless
  | .string units, _, json, read, _ => by
    rw [resolve?] at read
    obtain ⟨text, _, rfl⟩ := Option.map_eq_some_iff.mp read
    trivial
  | .array forms, room + 1, json, read, floatless => by
    rw [resolve?] at read
    obtain ⟨items, found, rfl⟩ := Option.map_eq_some_iff.mp read
    exact exactItems_of_resolve? forms room items found floatless
  | .object forms, room + 1, json, read, floatless => by
    rw [resolve?] at read
    obtain ⟨members, found, rfl⟩ := Option.map_eq_some_iff.mp read
    have each := exactMembers_of_resolve? forms room members found
    obtain ⟨sorted, among⟩ := foldl_insert_kept members [] List.Pairwise.nil
    refine ⟨sorted, (exactMembers_iff _).mpr fun member kept => ?_⟩
    have plain := (floatlessMembers_iff _).mp floatless member kept
    rcases among member kept with none | found
    · cases none
    · exact each member found plain

theorem exactItems_of_resolve? : ∀ (forms : List Written) (room : Nat) (items : List Json),
    resolveItems? room forms = some items → FloatlessItems items → ExactItems items
  | [], _, items, read, _ => by
    rw [resolveItems?] at read
    cases read
    trivial
  | form :: forms, room, items, read, floatless => by
    rw [resolveItems?] at read
    obtain ⟨item, own, read⟩ := Option.bind_eq_some_iff.mp read
    obtain ⟨others, rest, read⟩ := Option.bind_eq_some_iff.mp read
    cases read
    exact ⟨exact_of_resolve? form room item own floatless.1,
      exactItems_of_resolve? forms room others rest floatless.2⟩

theorem exactMembers_of_resolve? : ∀ (forms : List (List StringUnit × Written)) (room : Nat)
    (members : List (String × Json)), resolveMembers? room forms = some members →
      ∀ member ∈ members, member.2.Floatless → member.2.Exact
  | [], _, members, read => by
    rw [resolveMembers?] at read
    cases read
    exact fun _ member => nomatch member
  | (key, form) :: forms, room, members, read => by
    rw [resolveMembers?] at read
    obtain ⟨name, _, read⟩ := Option.bind_eq_some_iff.mp read
    obtain ⟨item, own, read⟩ := Option.bind_eq_some_iff.mp read
    obtain ⟨others, rest, read⟩ := Option.bind_eq_some_iff.mp read
    cases read
    exact List.forall_mem_cons.mpr ⟨exact_of_resolve? form room item own,
      exactMembers_of_resolve? forms room others rest⟩
end

end Json

namespace Time

theorem foldl_number_lt (digits : List Char) (decimal : ∀ digit ∈ digits, digit.isDigit = true)
    (start : Nat) :
    digits.foldl (fun value digit => value * 10 + (digit.toNat - '0'.toNat)) start <
      (start + 1) * 10 ^ digits.length := by
  induction digits generalizing start with
  | nil => simp
  | cons digit digits ih =>
    obtain ⟨own, others⟩ := List.forall_mem_cons.mp decimal
    have most := (Char.isDigit_iff_toNat.mp own).2
    have zero : ('0' : Char).toNat = 48 := rfl
    have nine : ('9' : Char).toNat = 57 := rfl
    have next := ih others (start * 10 + (digit.toNat - '0'.toNat))
    have grown : start * 10 + (digit.toNat - '0'.toNat) + 1 ≤ (start + 1) * 10 := by omega
    calc (digit :: digits).foldl (fun value digit => value * 10 + (digit.toNat - '0'.toNat)) start
        < (start * 10 + (digit.toNat - '0'.toNat) + 1) * 10 ^ digits.length := next
      _ ≤ (start + 1) * 10 * 10 ^ digits.length := Nat.mul_le_mul_right _ grown
      _ = (start + 1) * 10 ^ (digit :: digits).length := by
        rw [List.length_cons, Nat.pow_succ', Nat.mul_assoc]

theorem readNanos?_lt (text rest : List Char) (nanos : Nat)
    (read : readNanos? text = some (nanos, rest)) : nanos < billion := by
  unfold readNanos? at read
  split at read
  · rename_i text
    dsimp only at read
    split at read
    · cases read
    · obtain ⟨rfl, rfl⟩ := Prod.mk.inj (Option.some.inj read)
      have short : ((text.takeWhile Char.isDigit).take 9).length ≤ 9 := List.length_take_le _ _
      have decimal : ∀ digit ∈ (text.takeWhile Char.isDigit).take 9, digit.isDigit = true :=
        fun digit member => List.mem_takeWhile_imp (List.mem_of_mem_take member)
      generalize (text.takeWhile Char.isDigit).take 9 = kept at short decimal
      have below := foldl_number_lt kept decimal 0
      rw [Nat.zero_add, Nat.one_mul] at below
      calc number kept * 10 ^ (9 - kept.length)
          < 10 ^ kept.length * 10 ^ (9 - kept.length) :=
            Nat.mul_lt_mul_of_pos_right below (Nat.pow_pos (by decide))
        _ = billion := by
          rw [← Nat.pow_add, Nat.add_sub_cancel' short]
          rfl
  · obtain ⟨rfl, _⟩ := Prod.mk.inj (Option.some.inj read)
    decide

theorem readOffset?_minutes (separator : List Char → Option (List Char)) (text rest : List Char)
    (offset : Int) (read : readOffset? separator text = some (offset, rest)) :
    offset % 60 = 0 := by
  unfold readOffset? at read
  split at read
  · obtain ⟨rfl, _⟩ := Prod.mk.inj (Option.some.inj read)
    rfl
  · obtain ⟨rfl, _⟩ := Prod.mk.inj (Option.some.inj read)
    rfl
  · obtain ⟨⟨sign, signed⟩, _, read⟩ := Option.bind_eq_some_iff.mp read
    obtain ⟨⟨hours, timed⟩, _, read⟩ := Option.bind_eq_some_iff.mp read
    obtain ⟨parted, _, read⟩ := Option.bind_eq_some_iff.mp read
    obtain ⟨⟨minutes, ended⟩, _, read⟩ := Option.bind_eq_some_iff.mp read
    obtain ⟨_, _, read⟩ := Option.bind_eq_some_iff.mp read
    obtain ⟨rfl, _⟩ := Prod.mk.inj (Option.some.inj read)
    have whole : hours * 3600 + minutes * 60 = (hours * 60 + minutes) * 60 := by omega
    rw [whole, Int.natCast_mul, ← Int.mul_assoc]
    exact Int.mul_emod_left _ _

theorem readLenientOffset?_minutes (text rest : List Char) (offset : Int)
    (read : readLenientOffset? text = some (offset, rest)) : offset % 60 = 0 := by
  unfold readLenientOffset? at read
  dsimp only at read
  split at read
  · obtain ⟨rfl, _⟩ := Prod.mk.inj (Option.some.inj read)
    rfl
  · exact readOffset?_minutes _ _ _ _ read

theorem ofFields?_proper (fields : Fields) (timestamp : Timestamp)
    (nanos : fields.nanos < billion) (offset : fields.offset % 60 = 0)
    (read : Timestamp.ofFields? fields = some timestamp) : timestamp.Proper := by
  unfold Timestamp.ofFields? at read
  dsimp only at read
  split_ifs at read with leap given given
  · obtain rfl := Option.some.inj read
    refine .inr ⟨by dsimp only; omega, ?_⟩
    simp only [secondsInDay]
    omega
  · obtain rfl := Option.some.inj read
    exact .inl nanos

theorem readLenient?_proper (text : List Char) (timestamp : Timestamp)
    (read : Timestamp.readLenient? text = some timestamp) : timestamp.Proper := by
  obtain ⟨⟨year, text⟩, _, read⟩ := Option.bind_eq_some_iff.mp read
  obtain ⟨text, _, read⟩ := Option.bind_eq_some_iff.mp read
  obtain ⟨⟨month, text⟩, _, read⟩ := Option.bind_eq_some_iff.mp read
  obtain ⟨text, _, read⟩ := Option.bind_eq_some_iff.mp read
  obtain ⟨⟨day, text⟩, _, read⟩ := Option.bind_eq_some_iff.mp read
  obtain ⟨text, _, read⟩ := Option.bind_eq_some_iff.mp read
  obtain ⟨⟨hour, text⟩, _, read⟩ := Option.bind_eq_some_iff.mp read
  obtain ⟨text, _, read⟩ := Option.bind_eq_some_iff.mp read
  obtain ⟨⟨minute, text⟩, _, read⟩ := Option.bind_eq_some_iff.mp read
  obtain ⟨text, _, read⟩ := Option.bind_eq_some_iff.mp read
  obtain ⟨⟨second, text⟩, _, read⟩ := Option.bind_eq_some_iff.mp read
  obtain ⟨⟨nanos, text⟩, fraction, read⟩ := Option.bind_eq_some_iff.mp read
  obtain ⟨⟨offset, text⟩, zone, read⟩ := Option.bind_eq_some_iff.mp read
  obtain ⟨_, _, read⟩ := Option.bind_eq_some_iff.mp read
  exact ofFields?_proper _ timestamp (readNanos?_lt _ _ nanos fraction)
    (readLenientOffset?_minutes _ _ offset zone) read

end Time

namespace Value

theorem storable_of_ofContent? (room : Nat) (tag : String) (content : Option Json.Written)
    (value : Value) (read : ofContent? room tag content = some value) (plain : value.Plain) :
    value.Storable := by
  unfold ofContent? at read
  split at read
  · split at read <;> cases read
    trivial
  · split at read
    · split at read <;> cases read
      trivial
    · split at read <;> cases read
      trivial
    · obtain ⟨_, _, read⟩ := Option.bind_eq_some_iff.mp read
      obtain ⟨_, _, read⟩ := Option.bind_eq_some_iff.mp read
      cases read
      trivial
    · obtain ⟨_, _, rfl⟩ := Option.map_eq_some_iff.mp read
      exact plain
    · obtain ⟨_, _, rfl⟩ := Option.map_eq_some_iff.mp read
      trivial
    · split at read
      · obtain ⟨_, _, rfl⟩ := Option.map_eq_some_iff.mp read
        trivial
      · cases read
    · obtain ⟨json, found, rfl⟩ := Option.map_eq_some_iff.mp read
      exact ⟨Json.exact_of_resolve? _ room json found plain.1, plain.2⟩
    · obtain ⟨_, _, rfl⟩ := Option.map_eq_some_iff.mp read
      trivial
    · obtain ⟨timestamp, found, rfl⟩ := Option.map_eq_some_iff.mp read
      obtain ⟨text, _, found⟩ := Option.bind_eq_some_iff.mp found
      exact ⟨Time.readLenient?_proper text.toList timestamp found, plain⟩
    · cases read

theorem storable_of_readTagged? (text : String) (value : Value)
    (read : readTagged? text = some value) (plain : value.Plain) : value.Storable := by
  obtain ⟨form, _, read⟩ := Option.bind_eq_some_iff.mp read
  unfold ofWritten? at read
  split at read
  · obtain ⟨_, _, read⟩ := Option.bind_eq_some_iff.mp read
    obtain ⟨_, _, read⟩ := Option.bind_eq_some_iff.mp read
    obtain ⟨_, _, read⟩ := Option.bind_eq_some_iff.mp read
    obtain ⟨_, _, read⟩ := Option.bind_eq_some_iff.mp read
    exact storable_of_ofContent? _ _ _ value read plain
  · obtain ⟨_, _, read⟩ := Option.bind_eq_some_iff.mp read
    exact storable_of_ofContent? _ _ _ value read plain
  · cases read

end Value

end SqlCompose
