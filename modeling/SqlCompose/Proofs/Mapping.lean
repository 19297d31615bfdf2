import Mathlib.Data.List.Induction
import SqlCompose.Row.Declaration

/-! A mapping fills its target field by field, each from the first column of its name, up to the first
field that does not read. -/
namespace SqlCompose

namespace Row

theorem get?_eq_some_iff (row : Row) (column : String) (value : Value) :
    row.get? column = some value ↔ row.First column value := by
  simp only [get?, Option.map_eq_some_iff, List.find?_eq_some_iff_append, First]
  constructor
  · rintro ⟨⟨name, held⟩, ⟨named, front, back, split, others⟩, rfl⟩
    obtain rfl : name = column := by simpa using named
    exact ⟨front, back, split, fun cell member => by simpa using others cell member⟩
  · rintro ⟨front, back, split, others⟩
    exact ⟨(column, value), ⟨by simp, front, back, split,
      fun cell member => by simpa using others cell member⟩, rfl⟩

theorem get?_eq_none_iff (row : Row) (column : String) :
    row.get? column = none ↔ ∀ cell ∈ row.cells, cell.1 ≠ column := by
  simp only [get?, Option.map_eq_none_iff, List.find?_eq_none, decide_eq_true_eq, ne_eq]

theorem get_congr (row other : Row) (column : String)
    (agree : ∀ value, other.First column value ↔ row.First column value) :
    other.get column = row.get column := by
  have same : other.get? column = row.get? column := by
    apply Option.ext
    intro value
    rw [get?_eq_some_iff, get?_eq_some_iff, agree]
  rw [get, get, same]

end Row

namespace Declaration

variable {Target : Type} {declaration : Declaration Target} {chain : NormalizerChain} {row : Row}

theorem run_of_first {value : Value} (first : row.First declaration.column value)
    (target : Target) : declaration.binding.run chain row target =
      match declaration.type.read (chain.normalize value declaration.type.kind) with
      | .ok result => .ok (declaration.assign target result)
      | .error fault => .error (.decode declaration.column (.conversion fault)) := by
  have found : row.get declaration.column = .ok value := by
    rw [Row.get, (row.get?_eq_some_iff _ _).mpr first]
  simp only [Binding.run, binding, found, bind, Except.bind]
  cases declaration.type.read (chain.normalize value declaration.type.kind) <;> rfl

theorem run_of_assigns {change : Target → Target} (assigns : declaration.Assigns chain row change)
    (target : Target) : declaration.binding.run chain row target = .ok (change target) := by
  obtain ⟨value, result, first, reads⟩ := assigns
  rw [run_of_first first, reads]

theorem run_of_refuses {cause : DecodeFault} (refuses : declaration.Refuses chain row cause)
    (target : Target) :
    declaration.binding.run chain row target = .error (.decode declaration.column cause) := by
  cases refuses with
  | missing absent =>
    have none : row.get declaration.column = .error (.decode declaration.column .missing) := by
      rw [Row.get, (row.get?_eq_none_iff _).mpr absent]
    simp only [Binding.run, binding, none]
    rfl
  | conversion value fault first refused => rw [run_of_first first, refused]

theorem assigns_or_refuses (declaration : Declaration Target) (chain : NormalizerChain)
    (row : Row) :
    (∃ change, declaration.Assigns chain row change) ∨
      ∃ cause, declaration.Refuses chain row cause := by
  cases found : row.get? declaration.column with
  | none => exact .inr ⟨_, .missing ((row.get?_eq_none_iff _).mp found)⟩
  | some value =>
    have first := (row.get?_eq_some_iff _ _).mp found
    cases read : declaration.type.read (chain.normalize value declaration.type.kind) with
    | ok result => exact .inl ⟨_, .intro value result first read⟩
    | error fault => exact .inr ⟨_, .conversion value fault first read⟩

end Declaration

namespace RowMapping

variable {Target : Type} {chain : NormalizerChain} {row : Row}

theorem bindings_ofDeclarations (chain : NormalizerChain)
    (declarations : List (Declaration Target)) :
    (ofDeclarations chain declarations).bindings = declarations.map Declaration.binding := by
  induction declarations using List.reverseRecOn with
  | nil => rfl
  | append_singleton declared declaration ih =>
    simp only [ofDeclarations] at ih ⊢
    rw [List.foldl_append, List.map_append, ← ih]
    rfl

theorem applyAll_of_allAssign {declarations : List (Declaration Target)}
    {changes : List (Target → Target)} (all : AllAssign chain row declarations changes)
    (rest : List (Binding Target)) (target : Target) :
    applyAll chain row (declarations.map Declaration.binding ++ rest) target =
      applyAll chain row rest (perform changes target) := by
  unfold AllAssign at all
  induction all generalizing target with
  | nil => rfl
  | cons assigns _ ih =>
    simp only [List.map_cons, List.cons_append, applyAll, Declaration.run_of_assigns assigns, ih]
    rfl

theorem applyAll_of_stopsAt {declarations : List (Declaration Target)}
    {changes : List (Target → Target)} {failing : Declaration Target} {cause : DecodeFault}
    (stops : StopsAt chain row declarations changes failing cause) (target : Target) :
    applyAll chain row (declarations.map Declaration.binding) target =
      ⟨perform changes target, some (.decode failing.column cause)⟩ := by
  obtain ⟨⟨front, back, rfl, all⟩, refuses⟩ := stops
  rw [List.map_append, applyAll_of_allAssign all, List.map_cons, applyAll,
    Declaration.run_of_refuses refuses]

theorem allAssign_or_stopsAt (chain : NormalizerChain) (row : Row)
    (declarations : List (Declaration Target)) :
    (∃ changes, AllAssign chain row declarations changes) ∨
      ∃ changes failing cause, StopsAt chain row declarations changes failing cause := by
  induction declarations with
  | nil => exact .inl ⟨[], .nil⟩
  | cons declaration rest ih =>
    rcases declaration.assigns_or_refuses chain row with ⟨change, assigns⟩ | ⟨cause, refuses⟩
    · rcases ih with ⟨changes, all⟩ | ⟨changes, failing, cause, ⟨front, back, rfl, all⟩, refuses⟩
      · exact .inl ⟨change :: changes, .cons assigns all⟩
      · exact .inr ⟨change :: changes, failing, cause,
          ⟨declaration :: front, back, rfl, .cons assigns all⟩, refuses⟩
    · exact .inr ⟨[], declaration, cause, ⟨[], rest, rfl, .nil⟩, refuses⟩

theorem applyAll_congr (chain : NormalizerChain) (row other : Row)
    (bindings : List (Binding Target))
    (agree : ∀ binding ∈ bindings, other.get binding.column = row.get binding.column)
    (target : Target) : applyAll chain other bindings target = applyAll chain row bindings target := by
  induction bindings generalizing target with
  | nil => rfl
  | cons binding rest ih =>
    obtain ⟨own, later⟩ := List.forall_mem_cons.mp agree
    simp only [applyAll, Binding.run, own, ih later]

section Rows

variable [Inhabited Target] (mapping : RowMapping Target)

theorem mapAll_of_all (rows : List Row)
    (all : ∀ row ∈ rows, (mapping.apply default row).failure = none) :
    mapping.mapAll rows = .ok (rows.map fun row => (mapping.apply default row).target) := by
  unfold mapAll
  induction rows with
  | nil => rfl
  | cons row rest ih =>
    obtain ⟨own, later⟩ := List.forall_mem_cons.mp all
    simp only [List.mapM_cons, ih later, map, own]
    rfl

theorem mapAll_of_failing (front back : List Row) (failing : Row) (error : Error)
    (all : ∀ row ∈ front, (mapping.apply default row).failure = none)
    (fails : (mapping.apply default failing).failure = some error) :
    mapping.mapAll (front ++ failing :: back) = .error error := by
  have made := mapAll_of_all mapping front all
  unfold mapAll at made ⊢
  rw [List.mapM_append, made, List.mapM_cons, map]
  simp only [fails]
  rfl

end Rows

/-- A mapping goes through its fields in order. When all of them assign, the target ends with all
changes made in order. When one does not, the failure names the column of the first such field, and
the target has the changes of the fields before it and no others. Nothing else in the row matters than
the first value of each column named. Many rows give one target each, or the failure of the first row
that has one. -/
theorem apply_in_order [Inhabited Target] (chain : NormalizerChain)
    (declarations : List (Declaration Target)) :
    let mapping := ofDeclarations chain declarations
    (∀ row target,
      (∀ changes, AllAssign chain row declarations changes →
        mapping.apply target row = ⟨perform changes target, none⟩) ∧
      (∀ changes failing cause, StopsAt chain row declarations changes failing cause →
        mapping.apply target row =
          ⟨perform changes target, some (.decode failing.column cause)⟩) ∧
      ((∃ changes, AllAssign chain row declarations changes) ∨
        ∃ changes failing cause, StopsAt chain row declarations changes failing cause) ∧
      ∀ other : Row,
        (∀ declaration ∈ declarations, ∀ value,
          other.First declaration.column value ↔ row.First declaration.column value) →
        mapping.apply target other = mapping.apply target row) ∧
    ∀ rows,
      ((∀ row ∈ rows, (mapping.apply default row).failure = none) →
        mapping.mapAll rows = .ok (rows.map fun row => (mapping.apply default row).target)) ∧
      ∀ front failing back error, rows = front ++ failing :: back →
        (∀ row ∈ front, (mapping.apply default row).failure = none) →
        (mapping.apply default failing).failure = some error →
        mapping.mapAll rows = .error error := by
  intro mapping
  have bindings : mapping.bindings = declarations.map Declaration.binding :=
    bindings_ofDeclarations chain declarations
  have applied (row : Row) (target : Target) : mapping.apply target row =
      applyAll chain row (declarations.map Declaration.binding) target := by
    rw [apply, bindings]
    rfl
  refine ⟨fun row target => ⟨?_, ?_, allAssign_or_stopsAt chain row declarations, ?_⟩,
    fun rows => ⟨mapAll_of_all mapping rows, ?_⟩⟩
  · intro changes all
    have whole := applyAll_of_allAssign all [] target
    rw [List.append_nil] at whole
    rw [applied, whole, applyAll]
  · intro changes failing cause stops
    rw [applied, applyAll_of_stopsAt stops]
  · intro other agree
    rw [applied, applied]
    refine applyAll_congr chain row other _ (fun binding member => ?_) target
    obtain ⟨declaration, declared, rfl⟩ := List.mem_map.mp member
    exact Row.get_congr row other _ (agree declaration declared)
  · rintro front failing back error rfl all fails
    exact mapAll_of_failing mapping front back failing error all fails

/-- The second column of a name is not asked for, also where the first is out of range, and the field
behind the failing one is not reached. -/
theorem apply_in_order_out_of_range :
    let row : Row := ⟨[("on", .int 1), ("id", .int 7), ("id", .text "seven"),
      ("size", .int 2147483648), ("size", .int 1)]⟩
    let fields : List (Declaration (List Int)) :=
      [⟨Int64, "id", .int64, fun target id => target ++ [id.toInt]⟩,
        ⟨Option Bool, "on", .optional .bool,
          fun target on => target ++ [if on = true then 1 else 0]⟩,
        ⟨Int32, "size", .int32, fun target size => target ++ [size.toInt]⟩,
        ⟨Int64, "id", .int64, fun target id => target ++ [id.toInt]⟩]
    let mapping := ofDeclarations .standard fields
    mapping.apply [] row =
        ⟨[7, 1], some (.decode "size" (.conversion (.outOfRange 2147483648)))⟩ ∧
      mapping.mapAll [⟨("size", .int 5) :: row.cells⟩, row, ⟨[]⟩] =
        .error (.decode "size" (.conversion (.outOfRange 2147483648))) := by
  intro row fields mapping
  obtain ⟨single, many⟩ := apply_in_order .standard fields
  have id : row.First "id" (.int 7) := (row.get?_eq_some_iff _ _).mp rfl
  have on : row.First "on" (.int 1) := (row.get?_eq_some_iff _ _).mp rfl
  have size : row.First "size" (.int 2147483648) := (row.get?_eq_some_iff _ _).mp rfl
  have stops := (single row []).2.1 _ _ _ ⟨⟨_, _, rfl,
    .cons (.intro _ (7 : Int64) id rfl) (.cons (.intro _ (some true) on rfl) .nil)⟩,
    .conversion _ _ size rfl⟩
  exact ⟨stops, (many _).2 [_] row [_] _ rfl (by decide) (congrArg Outcome.failure stops)⟩

end RowMapping

end SqlCompose
