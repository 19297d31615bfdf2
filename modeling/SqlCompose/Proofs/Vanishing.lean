import Mathlib.Algebra.GroupWithZero.Nat
import Mathlib.Algebra.Order.BigOperators.Group.List
import Mathlib.Algebra.Order.Group.Nat
import SqlCompose.Proofs.Reparsing

/-! Clauses without a body vanish from a parsed statement, but for a JOIN: its keyword stays, with a
space behind it, and a condition keeps its keyword because of it. -/
namespace SqlCompose

/-- A text with single spaces between its parts is as long as the parts and a space for each of them
but one. -/
theorem length_spaced (first : String) (rest : List String) :
    (" ".intercalate (first :: rest)).length + 1 =
      ((first :: rest).map fun part => part.length + 1).sum := by
  induction rest generalizing first with
  | nil => simp
  | cons second rest ih =>
    have tail := ih second
    have space : " ".length = 1 := by decide
    rw [String.intercalate_cons_cons, String.length_append, String.length_append, List.map_cons,
      List.sum_cons, ← tail, space]
    omega

namespace Chunk

theorem kept_of_bodied (chunk : Chunk) (bodied : chunk.bodied = true) : chunk.kept = true := by
  rw [Chunk.bodied] at bodied
  simp [kept, bodied]

theorem kept_eq_bodied (chunk : Chunk) (joined : chunk.clause = some .join → chunk.body ≠ "") :
    chunk.kept = chunk.bodied := by
  by_cases join : chunk.clause = some .join
  · simp [kept, bodied, join, joined join]
  · simp [kept, bodied, join]

theorem headed_mono (first second : Chunk → Bool) (chunks : List Chunk)
    (more : ∀ chunk ∈ chunks, first chunk = true → second chunk = true)
    (heading : headed first chunks = true) : headed second chunks = true := by
  rw [headed, List.any_eq_true] at heading ⊢
  obtain ⟨chunk, member, leads⟩ := heading
  rw [Bool.and_eq_true] at leads
  exact ⟨chunk, member, by rw [leads.1, more chunk member leads.2]; rfl⟩

theorem layout_congr (first second : Chunk → Bool) (chunks : List Chunk)
    (same : ∀ chunk ∈ chunks, first chunk = second chunk) :
    layout first chunks = layout second chunks := by
  have heading : headed first chunks = headed second chunks := by
    apply Bool.eq_iff_iff.mpr
    constructor
    · exact headed_mono first second chunks fun chunk member left => by rw [← same chunk member, left]
    · exact headed_mono second first chunks fun chunk member left => by rw [same chunk member, left]
  rw [layout, layout, heading, List.filter_congr same]

theorem length_written (chunk : Chunk) :
    chunk.written.length = chunk.keyword.length + 1 + chunk.body.length := by
  have space : " ".length = 1 := by decide
  rw [written, String.length_append, String.length_append, space]

theorem length_line_mono (first second : Bool) (chunk : Chunk)
    (more : first = true → second = true) :
    (chunk.line first).length ≤ (chunk.line second).length := by
  have written := chunk.length_written
  cases first with
  | true => rw [more rfl]
  | false =>
    cases second with
    | false => exact Nat.le_refl _
    | true =>
      rw [line, line]
      by_cases condition : chunk.clause = some .condition <;> simp [condition, written]

def share (leaves : Chunk → Bool) (headed : Bool) (chunk : Chunk) : Nat :=
  if leaves chunk then (chunk.line headed).length + 1 else 0

theorem sum_share (leaves : Chunk → Bool) (headed : Bool) (chunks : List Chunk) :
    (((chunks.filter leaves).map (line headed)).map fun part => part.length + 1).sum =
      (chunks.map (share leaves headed)).sum := by
  induction chunks with
  | nil => rfl
  | cons chunk rest ih =>
    rw [List.filter_cons, List.map_cons, List.sum_cons, ← ih, share]
    cases leaves chunk <;> simp

theorem length_layout (leaves : Chunk → Bool) (chunks : List Chunk) :
    (chunks.filter leaves = [] ∧ layout leaves chunks = "") ∨
      (layout leaves chunks).length + 1 = (chunks.map (share leaves (headed leaves chunks))).sum := by
  cases lines : chunks.filter leaves with
  | nil => exact .inl ⟨rfl, by rw [layout, lines]; rfl⟩
  | cons first rest =>
    right
    have spaced := length_spaced (first.line (headed leaves chunks))
      (rest.map (line (headed leaves chunks)))
    rw [← List.map_cons, ← lines, sum_share] at spaced
    exact spaced

theorem layout_ne_of_bodiless_join (chunks : List Chunk) (chunk : Chunk) (member : chunk ∈ chunks)
    (join : chunk.clause = some .join) (bodiless : chunk.body = "") :
    layout kept chunks ≠ layout bodied chunks := by
  intro same
  have heading := headed_mono bodied kept chunks fun other _ => other.kept_of_bodied
  have shares (other : Chunk) :
      share bodied (headed bodied chunks) other ≤ share kept (headed kept chunks) other := by
    have lines := length_line_mono _ _ other heading
    unfold share
    cases left : other.bodied with
    | false => simp
    | true => simpa [other.kept_of_bodied left] using lines
  have own : share bodied (headed bodied chunks) chunk + 2 ≤
      share kept (headed kept chunks) chunk := by
    have written := chunk.length_written
    simp [share, bodied, kept, line, join, bodiless, written]
  obtain ⟨front, back, split⟩ := List.append_of_mem member
  have sums : (chunks.map (share bodied (headed bodied chunks))).sum + 2 ≤
      (chunks.map (share kept (headed kept chunks))).sum := by
    have before := List.sum_le_sum fun other (_ : other ∈ front) => shares other
    have behind := List.sum_le_sum fun other (_ : other ∈ back) => shares other
    generalize share bodied (headed bodied chunks) = less at *
    generalize share kept (headed kept chunks) = more at *
    simp only [split, List.map_append, List.map_cons, List.sum_append, List.sum_cons]
    omega
  have keeps : chunk ∈ chunks.filter kept := List.mem_filter.mpr ⟨member, by simp [kept, join]⟩
  obtain ⟨none, _⟩ | long := length_layout kept chunks
  · rw [none] at keeps
    cases keeps
  · obtain ⟨_, blank⟩ | short := length_layout bodied chunks
    · rw [same, blank, String.length_empty] at long
      omega
    · rw [same] at long
      omega

end Chunk

namespace SelectStatement

/-- A parsed statement renders to the chunks that leave text, with single spaces between them, and
these are the chunks with a body exactly when no JOIN is without one. -/
theorem parse_vanishing_iff (sql : String) (chunks : List Chunk)
    (tokenized : tokenize sql = .ok chunks) (statement : SelectStatement)
    (parsed : parse sql = .ok statement) :
    statement.rendering.text = .ok (Chunk.layout Chunk.kept chunks) ∧
    (statement.rendering.text = .ok (Chunk.layout Chunk.bodied chunks) ↔
      ∀ chunk ∈ chunks, chunk.clause = some .join → chunk.body ≠ "") := by
  have taken := (parse_eq_ok_iff sql chunks statement tokenized).mp parsed
  have rendered : statement.rendering.text = .ok (Chunk.layout Chunk.kept chunks) :=
    render_layout chunks statement taken
  refine ⟨rendered, ?_⟩
  rw [rendered, Except.ok.injEq]
  constructor
  · intro same chunk member join bodiless
    exact Chunk.layout_ne_of_bodiless_join chunks chunk member join bodiless same
  · intro joined
    exact Chunk.layout_congr _ _ chunks fun chunk member => chunk.kept_eq_bodied (joined chunk member)

/-- Nothing but a condition and a limit has a body, so the condition is not headed. -/
theorem parse_vanishing_iff_unheaded :
    ∃ statement, parse "SELECT \nwhere a = 1 order by\tLimit 3" = .ok statement ∧
      statement.rendering.text = .ok "a = 1 Limit 3" := by
  have tokenized : tokenize "SELECT \nwhere a = 1 order by\tLimit 3" = .ok
      [⟨some .select, "SELECT \n"⟩, ⟨some .condition, "where a = 1 "⟩,
       ⟨some .orderBy, "order by\t"⟩, ⟨some .limit, "Limit 3"⟩] :=
    tokenize_of_shown _ _ (by decide +kernel)
  have taken := (takeChunks_eq_iff Clause.all [⟨some .select, "SELECT \n"⟩,
    ⟨some .condition, "where a = 1 "⟩, ⟨some .orderBy, "order by\t"⟩, ⟨some .limit, "Limit 3"⟩]
    {} _).mpr ⟨by decide, rfl⟩
  have parsed := (parse_eq_ok_iff _ _ _ tokenized).mpr taken
  obtain ⟨_, vanishing⟩ := parse_vanishing_iff _ _ tokenized _ parsed
  refine ⟨_, parsed, (vanishing.mpr ?_).trans (congrArg Except.ok (by decide +kernel))⟩
  intro chunk member join
  simp only [List.mem_cons, List.not_mem_nil, or_false] at member
  obtain rfl | rfl | rfl | rfl := member <;> cases join

/-- The keyword of a JOIN without a body stays, with two spaces behind it, and with it stays the
keyword of the condition. -/
theorem bodiless_join_stays :
    ∃ statement, parse "JOIN WHERE a" = .ok statement ∧
      tokenize "JOIN WHERE a" = .ok [⟨some .join, "JOIN "⟩, ⟨some .condition, "WHERE a"⟩] ∧
      Chunk.layout Chunk.bodied [⟨some .join, "JOIN "⟩, ⟨some .condition, "WHERE a"⟩] = "a" ∧
      statement.rendering.text = .ok "JOIN  WHERE a" ∧ statement.rendering.text ≠ .ok "a" := by
  have tokenized : tokenize "JOIN WHERE a" = .ok
      [⟨some .join, "JOIN "⟩, ⟨some .condition, "WHERE a"⟩] :=
    tokenize_of_shown _ _ (by decide +kernel)
  have taken := (takeChunks_eq_iff Clause.all
    [⟨some .join, "JOIN "⟩, ⟨some .condition, "WHERE a"⟩] {} _).mpr ⟨by decide, rfl⟩
  have text : Chunk.layout Chunk.kept [⟨some .join, "JOIN "⟩, ⟨some .condition, "WHERE a"⟩] =
      "JOIN  WHERE a" := by
    decide +kernel
  have rendered := render_layout _ _ taken
  rw [text] at rendered
  refine ⟨_, (parse_eq_ok_iff _ _ _ tokenized).mpr taken, tokenized, by decide +kernel, rendered, ?_⟩
  intro vanished
  have same : "JOIN  WHERE a" = "a" := Except.ok.inj (rendered.symm.trans vanished)
  exact absurd same (by decide)

end SelectStatement

end SqlCompose
