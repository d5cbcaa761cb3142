import SimplexMethod.Proofs.Tableau.Frame

/-!
# Freeing the basis of artificial columns

The removal of the artificial columns frees one row after the other: the basic column of a row that
has been freed is an original one, or the row is dropped. Nothing here depends on the arithmetic.
-/

namespace SimplexMethod

variable {α : Type} {width count : Nat} {state : Reduced α}

theorem Reduced.mem_kept {row : Nat} :
    row ∈ state.kept ↔ row < state.position.basis.length ∧ row ∉ state.dropped := by
  simp [kept]

/-- The state of the removal after the rows before `done` have been freed of the columns from
`width` on. -/
structure Freed (width count rows done : Nat) (state : Reduced α) : Prop where
  framed : state.position.Framed (width + count)
  length_rows : state.position.tableau.rows.length = rows
  freed : ∀ i < done, i ∉ state.dropped → state.position.basis.getD i 0 < width
  dropped_lt : ∀ row ∈ state.dropped, row < done

namespace Freed

variable {rows done : Nat}

theorem start {p : Position α} (h : p.Framed (width + count)) :
    Freed width count p.tableau.rows.length 0 ⟨p, []⟩ where
  framed := h
  length_rows := rfl
  freed := fun i hi => absurd hi (Nat.not_lt_zero i)
  dropped_lt := fun _ hr => absurd hr List.not_mem_nil

theorem keep (h : Freed width count rows done state)
    (hbasic : state.position.basis.getD done 0 < width) :
    Freed width count rows (done + 1) state where
  framed := h.framed
  length_rows := h.length_rows
  freed := by
    intro i hi hmem
    rcases Nat.lt_succ_iff_lt_or_eq.mp hi with hlt | rfl
    · exact h.freed i hlt hmem
    · exact hbasic
  dropped_lt := fun row hr => Nat.lt_succ_of_lt (h.dropped_lt row hr)

theorem drop (h : Freed width count rows done state) :
    Freed width count rows (done + 1) { state with dropped := state.dropped ++ [done] } where
  framed := h.framed
  length_rows := h.length_rows
  freed := by
    intro i hi hmem
    have hmem' : i ∉ state.dropped ∧ i ≠ done := by simpa using hmem
    exact h.freed i (by omega) hmem'.1
  dropped_lt := by
    intro row hr
    rcases List.mem_append.mp hr with hold | hnew
    · exact Nat.lt_succ_of_lt (h.dropped_lt row hold)
    · rw [List.mem_singleton.mp hnew]
      exact Nat.lt_succ_self done

section Kept

variable (h : Freed width count rows rows state)

include h

theorem lt_of_mem_kept {row : Nat} (hr : row ∈ state.kept) : row < rows :=
  h.length_rows ▸ h.framed.length_basis ▸ (Reduced.mem_kept.mp hr).1

theorem getD_basis_lt {row : Nat} (hr : row ∈ state.kept) :
    state.position.basis.getD row 0 < width :=
  h.freed row (h.lt_of_mem_kept hr) (Reduced.mem_kept.mp hr).2

end Kept

end Freed

variable [Scalar α] {tolerance : α}

theorem Tableau.exchange?_lt {t : Tableau α} {row column : Nat}
    (h : t.exchange? row width tolerance = some column) : column < width :=
  List.mem_range.mp (List.find?_range_eq_some.mp h).2.1

namespace Reduced

variable {artificial : List Nat} {row : Nat}

theorem clearRow_of_notMem (h : state.position.basis.getD row 0 ∉ artificial) :
    clearRow artificial width tolerance state row = state :=
  if_neg h

theorem clearRow_of_none (h : state.position.basis.getD row 0 ∈ artificial)
    (hx : state.position.tableau.exchange? row width tolerance = none) :
    clearRow artificial width tolerance state row
      = { state with dropped := state.dropped ++ [row] } := by
  rw [clearRow, if_pos h, hx]

theorem clearRow_of_some {column : Nat} (h : state.position.basis.getD row 0 ∈ artificial)
    (hx : state.position.tableau.exchange? row width tolerance = some column) :
    clearRow artificial width tolerance state row
      = { state with
          position :=
            ⟨state.position.tableau.pivot row column, state.position.basis.set row column⟩ } := by
  rw [clearRow, if_pos h, hx]

/-- The position that is left with the rows that were not dropped. -/
def left (state : Reduced α) (width : Nat) : Position α :=
  ⟨state.position.tableau.restrict state.kept width, state.keptBasis⟩

end Reduced

/-- The state when every row has been cleared. -/
def Position.freeAll (p : Position α) (artificial : List Nat) (width : Nat) (tolerance : α) :
    Reduced α :=
  (List.range p.basis.length).foldl (Reduced.clearRow artificial width tolerance) ⟨p, []⟩

theorem Position.removeArtificial_eq (p : Position α) (artificial : List Nat) (width : Nat)
    (tolerance : α) :
    p.removeArtificial artificial width tolerance
      = ⟨(p.freeAll artificial width tolerance).left width,
          (p.freeAll artificial width tolerance).dropped⟩ := rfl

namespace Freed

variable {rows done : Nat}

theorem exchange (h : Freed width count rows done state) (hdone : done < rows) {column : Nat}
    (hc : column < width) :
    Freed width count rows (done + 1)
      { state with
        position :=
          ⟨state.position.tableau.pivot done column, state.position.basis.set done column⟩ } where
  framed := h.framed.exchange (h.length_rows ▸ hdone) (Nat.lt_add_right _ hc)
  length_rows := by simpa using h.length_rows
  freed := by
    intro i hi hmem
    change (state.position.basis.set done column).getD i 0 < width
    rcases Nat.lt_succ_iff_lt_or_eq.mp hi with hlt | rfl
    · rw [getD_set_of_ne (Nat.ne_of_gt hlt)]
      exact h.freed i hlt hmem
    · have hlen : i < state.position.basis.length :=
        h.framed.length_basis ▸ h.length_rows ▸ hdone
      rwa [getD_set_self hlen]
  dropped_lt := fun row hr => Nat.lt_succ_of_lt (h.dropped_lt row hr)

/-- Freeing one row. -/
theorem step (h : Freed width count rows done state) (hdone : done < rows) :
    Freed width count rows (done + 1)
      (Reduced.clearRow (List.range' width count) width tolerance state done) := by
  by_cases hmem : state.position.basis.getD done 0 ∈ List.range' width count
  · cases hx : state.position.tableau.exchange? done width tolerance with
    | none =>
      rw [Reduced.clearRow_of_none hmem hx]
      exact h.drop
    | some column =>
      rw [Reduced.clearRow_of_some hmem hx]
      exact h.exchange hdone (Tableau.exchange?_lt hx)
  · rw [Reduced.clearRow_of_notMem hmem]
    apply h.keep
    have hlt := h.framed.getD_basis_lt (h.length_rows ▸ hdone)
    exact Nat.lt_of_not_le fun hle => hmem (List.mem_range'_1.mpr ⟨hle, hlt⟩)

/-- Freeing all rows. -/
theorem all {p : Position α} (h : p.Framed (width + count)) :
    Freed width count p.tableau.rows.length p.tableau.rows.length
      (p.freeAll (List.range' width count) width tolerance) := by
  rw [Position.freeAll, h.length_basis]
  apply foldl_range_induction
    (motive := fun done state => Freed width count p.tableau.rows.length done state)
  · exact Freed.start h
  · intro done hdone state hstate
    exact hstate.step hdone

/-- What is left when all rows have been freed is framed. -/
theorem framed_left (h : Freed width count rows rows state) : (state.left width).Framed width where
  hasWidth := by
    apply h.framed.hasWidth.restrict (Nat.lt_succ_of_le (Nat.le_add_right _ _))
    intro row hr
    exact Nat.lt_succ_of_lt (h.length_rows ▸ h.lt_of_mem_kept hr)
  length_basis := by simp [Reduced.left, Tableau.restrict, Reduced.keptBasis]
  lt_width := by
    intro column hc
    obtain ⟨row, hr, rfl⟩ := List.mem_map.mp hc
    exact h.getD_basis_lt hr

end Freed

section Checked

variable {p : Position α}

/-- Clearing a row keeps a position framed and the number of its rows. -/
theorem Position.Framed.clearRow (h : state.position.Framed (width + count)) {row : Nat}
    (hr : row < state.position.tableau.rows.length) (tolerance : α) :
    (Reduced.clearRow (List.range' width count) width tolerance state row).position.Framed
        (width + count) ∧
      (Reduced.clearRow (List.range' width count) width tolerance
        state row).position.tableau.rows.length = state.position.tableau.rows.length := by
  by_cases hmem : state.position.basis.getD row 0 ∈ List.range' width count
  · cases hx : state.position.tableau.exchange? row width tolerance with
    | none =>
      rw [Reduced.clearRow_of_none hmem hx]
      exact ⟨h, rfl⟩
    | some column =>
      rw [Reduced.clearRow_of_some hmem hx]
      exact ⟨h.exchange hr (Nat.lt_add_right _ (Tableau.exchange?_lt hx)), by simp⟩
  · rw [Reduced.clearRow_of_notMem hmem]
    exact ⟨h, rfl⟩

theorem Position.Framed.clearRowAt_eq_ok (h : state.position.Framed (width + count)) {row : Nat}
    (hr : row < state.position.tableau.rows.length) (artificial : List Nat) :
    Reduced.clearRowAt artificial width tolerance state row
      = .ok (Reduced.clearRow artificial width tolerance state row) := by
  have hentries : (List.range width).forM (state.position.tableau.checkEntry row) = .ok () := by
    apply forM_eq_ok
    intro column hc
    apply Tableau.checkEntry_eq_ok (Nat.lt_succ_of_lt hr)
    rw [h.hasWidth.width_eq]
    have := List.mem_range.mp hc
    omega
  rw [Reduced.clearRowAt, hentries]
  split <;> rfl

theorem Freed.restrictAt_eq_ok {rows : Nat} (h : Freed width count rows rows state) :
    state.position.tableau.restrictAt state.kept width
      = .ok (state.position.tableau.restrict state.kept width) := by
  have hlines : state.kept.forM state.position.tableau.checkLine = .ok () :=
    forM_eq_ok fun row hr =>
      Tableau.checkLine_eq_ok (Nat.lt_succ_of_lt (h.length_rows ▸ h.lt_of_mem_kept hr))
  have hcolumns : (List.range width).forM state.position.tableau.checkColumn = .ok () := by
    apply forM_eq_ok
    intro column hc
    apply Tableau.checkColumn_eq_ok
    rw [h.framed.hasWidth.width_eq]
    have := List.mem_range.mp hc
    omega
  rw [Tableau.restrictAt, hlines, hcolumns]
  rfl

/-- At least one artificial column can be taken out of a framed position. -/
theorem Position.Framed.removeArtificialAt_eq_ok (h : p.Framed (width + count))
    (hcount : 0 < count) (tolerance : α) :
    p.removeArtificialAt (List.range' width count) tolerance
      = .ok (p.removeArtificial (List.range' width count) width tolerance) := by
  have hmin : (List.range' width count).min? = some width := by
    rw [List.min?_eq_some_iff]
    exact ⟨List.mem_range'_1.mpr ⟨Nat.le_refl _, Nat.lt_add_of_pos_right hcount⟩,
      fun b hb => (List.mem_range'_1.mp hb).1⟩
  have hfree : (List.range p.basis.length).foldlM
      (Reduced.clearRowAt (List.range' width count) width tolerance) ⟨p, []⟩
      = .ok (p.freeAll (List.range' width count) width tolerance) := by
    apply foldlM_eq_ok (fun state => state.position.Framed (width + count) ∧
      state.position.tableau.rows.length = p.basis.length) ⟨h, h.length_basis.symm⟩
    · rintro state row hr ⟨hframed, hlen⟩
      have hcleared := hframed.clearRow (hlen ▸ List.mem_range.mp hr) tolerance
      exact ⟨hcleared.1, hcleared.2.trans hlen⟩
    · rintro state row hr ⟨hframed, hlen⟩
      exact hframed.clearRowAt_eq_ok (hlen ▸ List.mem_range.mp hr) _
  rw [removeArtificialAt, hmin]
  simp only [hfree, bind, Except.bind, (Freed.all h).restrictAt_eq_ok]
  rfl

end Checked

end SimplexMethod
