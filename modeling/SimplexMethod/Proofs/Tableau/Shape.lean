import SimplexMethod.Tableau.Costs
import SimplexMethod.Tableau.Artificial
import SimplexMethod.Tableau.Equations

/-!
# The shape of a tableau

Every operation on a tableau keeps all lines at one length and says what that length is. Nothing
here depends on the arithmetic.
-/

namespace SimplexMethod

section Folds

/-- A list numbers its own entries. -/
theorem mem_zipIdx_iff {β : Type} {items : List β} {item : β} {i : Nat} :
    (item, i) ∈ items.zipIdx ↔ ∃ hi : i < items.length, items[i] = item := by
  rw [List.mk_mem_zipIdx_iff_getElem?, List.getElem?_eq_some_iff]

/-- A list of columns with their rows, as a list over the rows. -/
theorem zipIdx_eq_map_range (columns : List Nat) :
    columns.zipIdx = (List.range columns.length).map fun row => (columns.getD row 0, row) := by
  apply List.ext_getElem
  · simp
  · intro i hi _
    have hlt : i < columns.length := by simpa using hi
    simp [hlt]

/-- What every step over the first numbers keeps holds after all of them. -/
theorem foldl_range_induction {σ : Type} {step : σ → Nat → σ} {motive : Nat → σ → Prop} {start : σ}
    {n : Nat} (zero : motive 0 start)
    (succ : ∀ k < n, ∀ state, motive k state → motive (k + 1) (step state k)) :
    motive n ((List.range n).foldl step start) := by
  have hall : ∀ k ≤ n, motive k ((List.range k).foldl step start) := by
    intro k
    induction k with
    | zero => intro _; exact zero
    | succ k ih =>
      intro hk
      rw [List.range_succ, List.foldl_append]
      exact succ k hk _ (ih (Nat.le_of_succ_le hk))
  exact hall n (Nat.le_refl n)

end Folds

namespace Tableau

variable {α : Type}

theorem line_mem_lines (t : Tableau α) {i : Nat} (hi : i < t.height) : t.line i ∈ t.lines := by
  have hlt : i < t.lines.length := by simpa using hi
  rw [line, List.getD, List.getElem?_eq_getElem hlt]
  exact List.getElem_mem hlt

theorem line_of_height_le (t : Tableau α) {i : Nat} (hi : t.height ≤ i) : t.line i = [] := by
  have hle : t.lines.length ≤ i := by simpa using hi
  simp [line, List.getElem?_eq_none hle]

theorem objective_mem_lines (t : Tableau α) : t.objective ∈ t.lines := by
  simp [lines]

theorem mem_lines_of_mem_rows {t : Tableau α} {row : List α} (h : row ∈ t.rows) :
    row ∈ t.lines := by
  simp [lines, h]

theorem mem_rows_iff {t : Tableau α} {row : List α} :
    row ∈ t.rows ↔ ∃ i < t.rows.length, t.line i = row := by
  constructor
  · intro h
    obtain ⟨i, hi, rfl⟩ := List.mem_iff_getElem.mp h
    exact ⟨i, hi, t.line_of_lt hi⟩
  · rintro ⟨i, hi, rfl⟩
    rw [t.line_of_lt hi]
    exact List.getElem_mem hi

/-- The lines of the constraint rows depend on the constraint rows only. -/
theorem line_eq_of_rows_eq {t u : Tableau α} (h : t.rows = u.rows) {i : Nat}
    (hi : i < t.rows.length) : t.line i = u.line i := by
  rw [t.line_of_lt hi, u.line_of_lt (h ▸ hi)]
  exact List.getElem_of_eq h hi

@[simp] theorem length_rows_mapLines (f : Nat → List α → List α) (t : Tableau α) :
    (t.mapLines f).rows.length = t.rows.length := by
  simp [mapLines]

namespace HasWidth

variable {t : Tableau α} {width : Nat}

theorem width_eq (h : t.HasWidth width) : t.width = width :=
  h t.objective t.objective_mem_lines

theorem length_row (h : t.HasWidth width) {row : List α} (hr : row ∈ t.rows) :
    row.length = width :=
  h row (mem_lines_of_mem_rows hr)

theorem length_line (h : t.HasWidth width) {i : Nat} (hi : i < t.height) :
    (t.line i).length = width :=
  h _ (t.line_mem_lines hi)

theorem mapLines (h : t.HasWidth width) {f : Nat → List α → List α} {width' : Nat}
    (hf : ∀ i line, line.length = width → (f i line).length = width') :
    (t.mapLines f).HasWidth width' := by
  intro line hl
  rw [lines_mapLines] at hl
  obtain ⟨i, hi, rfl⟩ := List.mem_mapIdx.mp hl
  exact hf i _ (h _ (List.getElem_mem hi))

theorem withObjective (h : t.HasWidth width) {objective : List α}
    (hlen : objective.length = width) :
    ({ t with objective := objective } : Tableau α).HasWidth width := by
  intro line hl
  rcases List.mem_append.mp hl with hrow | hobj
  · exact h.length_row hrow
  · rw [List.mem_singleton.mp hobj]
    exact hlen

end HasWidth

variable [Scalar α]

@[simp] theorem length_rows_pivot (t : Tableau α) (row column : Nat) :
    (t.pivot row column).rows.length = t.rows.length := by
  simp [pivot]

theorem HasWidth.pivot {t : Tableau α} {width row : Nat} (h : t.HasWidth width)
    (hr : row < t.height) (column : Nat) : (t.pivot row column).HasWidth width := by
  apply h.mapLines
  intro i line hl
  have hs : (divideBy (t.entry row column) (t.line row)).length = width := by
    simp [divideBy, h.length_line hr]
  split
  · exact hs
  · rw [length_cancel (hs.trans hl.symm), hl]

theorem HasWidth.clearCost {t : Tableau α} {width row : Nat} (h : t.HasWidth width)
    (hr : row < t.rows.length) (column : Nat) : (t.clearCost column row).HasWidth width := by
  have hline : (t.line row).length = t.objective.length :=
    (h.length_line (Nat.lt_succ_of_lt hr)).trans h.width_eq.symm
  exact h.withObjective ((length_cancel hline).trans h.width_eq)

theorem length_cutTo {width : Nat} {row : List α} (h : width < row.length) :
    (cutTo width row).length = width + 1 := by
  simp [cutTo, Nat.min_eq_left (Nat.le_of_lt h)]

theorem HasWidth.restrict {t : Tableau α} {full width : Nat} {kept : List Nat}
    (h : t.HasWidth full) (hw : width < full) (hk : ∀ row ∈ kept, row < t.height) :
    (t.restrict kept width).HasWidth (width + 1) := by
  intro line hl
  rcases List.mem_append.mp hl with hrow | hobj
  · obtain ⟨row, hr, rfl⟩ := List.mem_map.mp hrow
    exact length_cutTo (h.length_line (hk row hr) ▸ hw)
  · rw [List.mem_singleton.mp hobj]
    have hlen : t.objective.length = full := h.width_eq
    exact length_cutTo (hlen ▸ hw)

/-- Subtract a line from the objective row, as the sum of artificial columns is made. -/
def subtractLine (t : Tableau α) (row : Nat) : Tableau α :=
  { t with objective := List.zipWith (· - ·) t.objective (t.line row) }

@[simp] theorem rows_subtractLine (t : Tableau α) (row : Nat) :
    (t.subtractLine row).rows = t.rows := rfl

theorem HasWidth.subtractLine {t : Tableau α} {width row : Nat} (h : t.HasWidth width)
    (hr : row < t.rows.length) : (t.subtractLine row).HasWidth width := by
  have hobjective : t.objective.length = width := h.width_eq
  apply h.withObjective
  simp [hobjective, h.length_line (Nat.lt_succ_of_lt hr)]

/-- The rows with their artificial columns, and the sum of these columns before any row is
subtracted from it. -/
def extended (t : Tableau α) (lacking : List Nat) : Tableau α where
  rows := t.rows.mapIdx fun i row =>
    insertBeforeRhs (lacking.map fun r => if r = i then 1 else 0) row
  objective := List.replicate (t.width - 1) 0 ++ lacking.map (fun _ => 1) ++ [0]

theorem withArtificial_eq (t : Tableau α) (lacking : List Nat) :
    t.withArtificial lacking = lacking.foldl subtractLine (t.extended lacking) := rfl

@[simp] theorem length_rows_extended (t : Tableau α) (lacking : List Nat) :
    (t.extended lacking).rows.length = t.rows.length := by
  simp [extended]

theorem length_insertBeforeRhs (entries row : List α) :
    (insertBeforeRhs entries row).length = row.length - 1 + entries.length + 1 := by
  simp [insertBeforeRhs, Nat.add_assoc]

theorem HasWidth.extended {t : Tableau α} {width : Nat} (h : t.HasWidth (width + 1))
    (lacking : List Nat) : (t.extended lacking).HasWidth (width + lacking.length + 1) := by
  intro line hl
  rcases List.mem_append.mp hl with hrow | hobj
  · obtain ⟨i, hi, rfl⟩ := List.mem_mapIdx.mp hrow
    rw [length_insertBeforeRhs, h.length_row (List.getElem_mem hi)]
    simp
  · rw [List.mem_singleton.mp hobj]
    simp [Tableau.extended, h.width_eq, Nat.add_assoc]

/-- Subtracting lines changes the objective row only. -/
theorem rows_foldl_subtractLine (lines : List Nat) (t : Tableau α) :
    (lines.foldl subtractLine t).rows = t.rows := by
  induction lines generalizing t with
  | nil => rfl
  | cons row lines ih => exact (ih _).trans (rows_subtractLine t row)

theorem HasWidth.foldl_subtractLine {width : Nat} {lines : List Nat} {t : Tableau α}
    (h : t.HasWidth width) (hl : ∀ row ∈ lines, row < t.rows.length) :
    (lines.foldl Tableau.subtractLine t).HasWidth width := by
  induction lines generalizing t with
  | nil => exact h
  | cons row lines ih =>
    apply ih (h.subtractLine (hl row List.mem_cons_self))
    intro r hr
    exact hl r (List.mem_cons_of_mem _ hr)

theorem HasWidth.withArtificial {t : Tableau α} {width : Nat} {lacking : List Nat}
    (h : t.HasWidth (width + 1)) (hl : ∀ row ∈ lacking, row < t.rows.length) :
    (t.withArtificial lacking).HasWidth (width + lacking.length + 1) := by
  rw [withArtificial_eq]
  exact (h.extended lacking).foldl_subtractLine (by simpa using hl)

@[simp] theorem rows_withArtificial (t : Tableau α) (lacking : List Nat) :
    (t.withArtificial lacking).rows = (t.extended lacking).rows := by
  rw [withArtificial_eq, rows_foldl_subtractLine]

end Tableau

namespace Position

section Lacking

variable {α : Type} [Scalar α] (p : Position α) (tolerance : α)

theorem hasWidth_signed {p : Position α} {width : Nat} (h : p.tableau.HasWidth width)
    (tolerance : α) : (p.signed tolerance).HasWidth width := by
  apply h.mapLines
  intro i line hl
  split
  · split
    · simpa using hl
    · exact hl
  · exact hl

@[simp] theorem length_rows_signed :
    (p.signed tolerance).rows.length = p.tableau.rows.length := by
  simp [signed]

theorem lackingRows_eq_filter :
    p.lackingRows tolerance = (List.range p.basis.length).filter fun row =>
      (p.startOf tolerance (p.basis.getD row 0) row).lacks := by
  rw [lackingRows, zipIdx_eq_map_range, List.filterMap_map, ← List.filterMap_eq_filter]
  rfl

theorem mem_lackingRows {p : Position α} {tolerance : α} {row : Nat} :
    row ∈ p.lackingRows tolerance ↔
      row < p.basis.length ∧ (p.startOf tolerance (p.basis.getD row 0) row).lacks = true := by
  rw [lackingRows_eq_filter, List.mem_filter, List.mem_range]

theorem nodup_lackingRows : (p.lackingRows tolerance).Nodup := by
  rw [lackingRows_eq_filter]
  exact List.nodup_range.filter _

end Lacking

section Basis

variable {α : Type} (p : Position α) {lacking : List Nat} {i : Nat}

@[simp] theorem length_artificialBasis (lacking : List Nat) (first : Nat) :
    (p.artificialBasis lacking first).length = p.basis.length := by
  simp [artificialBasis]

theorem getElem_artificialBasis_of_mem {first : Nat}
    (hi : i < (p.artificialBasis lacking first).length) (hmem : i ∈ lacking) :
    ∃ k, ∃ hk : k < lacking.length, lacking[k] = i ∧
      (p.artificialBasis lacking first)[i] = first + k := by
  cases hk : lacking.idxOf? i with
  | none => exact absurd hmem (List.idxOf?_eq_none_iff.mp hk)
  | some k =>
    obtain ⟨hlt, heq, -⟩ := List.idxOf?_eq_some_iff.mp hk
    exact ⟨k, hlt, heq, by simp [artificialBasis, hk]⟩

theorem getElem_artificialBasis_of_notMem {first : Nat} (hi : i < p.basis.length)
    (hi' : i < (p.artificialBasis lacking first).length) (hmem : i ∉ lacking) :
    (p.artificialBasis lacking first)[i] = p.basis[i] := by
  simp [artificialBasis, List.idxOf?_eq_none_iff.mpr hmem]

end Basis

end Position

end SimplexMethod
