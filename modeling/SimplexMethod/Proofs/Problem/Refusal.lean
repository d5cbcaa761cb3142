import Mathlib.Tactic.ByContra
import SimplexMethod.Proofs.Problem.Acceptance

/-!
# Refusal

A problem is ill-formed when a coefficient of its objective is not finite, or some row has a wrong
number of coefficients or a number that is not finite. What such a problem is refused with depends
on where it fails first: the objective comes before the rows, each row before the next, and the
length of a row before its numbers. Both are stated here without the search that `Problem.fault?`
makes, and then found to be what it says.
-/

namespace SimplexMethod

variable {α : Type}

namespace Constraint

/-- What a row is called: its name, or its number from one if it has none. -/
inductive Called (row : Constraint α) (index : Nat) : String → Prop where
  | name (hname : row.name ≠ "") : Called row index row.name
  | number (hname : row.name = "") : Called row index s!"#{index + 1}"

theorem called_iff {row : Constraint α} {index : Nat} {label : String} :
    row.Called index label ↔ label = row.label index := by
  rw [Constraint.label]
  constructor
  · rintro (hname | hname)
    · rw [if_neg (by simpa using hname)]
    · rw [if_pos (by simpa using hname)]
  · rintro rfl
    by_cases hname : row.name = ""
    · rw [if_pos (by simpa using hname)]
      exact .number hname
    · rw [if_neg (by simpa using hname)]
      exact .name hname

theorem called_label (row : Constraint α) (index : Nat) : row.Called index (row.label index) :=
  called_iff.mpr rfl

end Constraint

variable [Scalar α]

namespace Constraint

/-- Some number of the row is an infinity or a NaN. -/
def HasNonFinite (row : Constraint α) : Prop :=
  (∃ a ∈ row.coefficients, Scalar.isFinite a = false) ∨ Scalar.isFinite row.rhs = false

/-- Why a row that should have `n` coefficients is refused, in the words of the refusal. -/
inductive RefusedFor (row : Constraint α) (n index : Nat) : String → Prop where
  | length {label : String} (hlabel : row.Called index label)
      (hlength : row.coefficients.length ≠ n) :
      RefusedFor row n index
        s!"Constraint {label} has {row.coefficients.length} coefficients, expected {n}."
  | value {label : String} (hlabel : row.Called index label)
      (hlength : row.coefficients.length = n) (hvalue : row.HasNonFinite) :
      RefusedFor row n index s!"Constraint {label} contains a non-finite value."

variable {row : Constraint α} {n index : Nat}

/-- A row is accepted unless its length is wrong or some number of it is not finite. -/
theorem not_accepted_iff :
    ¬ row.Accepted n ↔ row.coefficients.length ≠ n ∨ row.HasNonFinite := by
  constructor
  · intro hnot
    by_contra hgood
    simp only [HasNonFinite, not_or, not_exists, not_and, Bool.not_eq_false, not_not] at hgood
    exact hnot ⟨hgood.1, hgood.2.1, hgood.2.2⟩
  · rintro (hlength | ⟨a, ha, hvalue⟩ | hvalue) haccepted
    · exact hlength haccepted.length_eq
    · exact absurd (haccepted.coefficients_finite a ha) (by simp [hvalue])
    · exact absurd haccepted.rhs_finite (by simp [hvalue])

theorem fault?_of_length (hlength : row.coefficients.length ≠ n) :
    row.fault? n index
      = some (.wrongLength (row.label index) row.coefficients.length n) := by
  rw [fault?, if_pos (by simpa using hlength)]

theorem fault?_of_value (hlength : row.coefficients.length = n) (hvalue : row.HasNonFinite) :
    row.fault? n index = some (.rowNotFinite (row.label index)) := by
  have hfinite : ¬ (row.coefficients.all Scalar.isFinite && Scalar.isFinite row.rhs) = true := by
    rw [Bool.and_eq_true, List.all_eq_true]
    exact fun hall => not_accepted_iff.mpr (.inr hvalue) ⟨hlength, hall.1, hall.2⟩
  rw [fault?, if_neg (by simpa using hlength), if_neg hfinite]

/-- The fault of a row is worded as the row is refused. -/
theorem exists_fault?_iff {message : String} :
    (∃ fault, row.fault? n index = some fault ∧ fault.message = message) ↔
      row.RefusedFor n index message := by
  constructor
  · rintro ⟨fault, hfault, rfl⟩
    have hbad : ¬ row.Accepted n := by
      intro haccepted
      rw [fault?_eq_none_iff.mpr haccepted] at hfault
      exact absurd hfault nofun
    by_cases hlength : row.coefficients.length = n
    · have hvalue := (not_accepted_iff.mp hbad).resolve_left (not_not_intro hlength)
      rw [fault?_of_value hlength hvalue] at hfault
      obtain rfl := Option.some.inj hfault
      exact .value (row.called_label index) hlength hvalue
    · rw [fault?_of_length hlength] at hfault
      obtain rfl := Option.some.inj hfault
      exact .length (row.called_label index) hlength
  · intro hrefused
    cases hrefused with
    | length hlabel hlength =>
      obtain rfl := called_iff.mp hlabel
      exact ⟨_, fault?_of_length hlength, rfl⟩
    | value hlabel hlength hvalue =>
      obtain rfl := called_iff.mp hlabel
      exact ⟨_, fault?_of_value hlength hvalue, rfl⟩

end Constraint

namespace Problem

/-- Some coefficient of the objective is not finite, or some row has a wrong number of coefficients
or a number that is not finite. -/
def IllFormed (problem : Problem α) : Prop :=
  (∃ a ∈ problem.objective.coefficients, Scalar.isFinite a = false) ∨
    ∃ row ∈ problem.constraints,
      row.coefficients.length ≠ problem.dimension ∨ row.HasNonFinite

/-- Why a problem is refused, in the words of the refusal: for its objective, or else for the first
row that is not accepted. -/
inductive RefusedFor (problem : Problem α) : String → Prop where
  | objective (hvalue : ∃ a ∈ problem.objective.coefficients, Scalar.isFinite a = false) :
      RefusedFor problem "Objective coefficients must be finite."
  | row {earlier later : List (Constraint α)} {row : Constraint α} {message : String}
      (hobjective : ∀ a ∈ problem.objective.coefficients, Scalar.isFinite a = true)
      (hrows : problem.constraints = earlier ++ row :: later)
      (hearlier : ∀ other ∈ earlier, other.Accepted problem.dimension)
      (hrow : row.RefusedFor problem.dimension earlier.length message) :
      RefusedFor problem message

variable {problem : Problem α}

/-- The search through the rows stops at the first that is not accepted. -/
theorem findSome?_rows_eq_some_iff {rows : List (Constraint α)} {n : Nat} {fault : ProblemFault} :
    (rows.zipIdx.findSome? fun place => place.1.fault? n place.2) = some fault ↔
      ∃ earlier row later, rows = earlier ++ row :: later ∧
        (∀ other ∈ earlier, other.Accepted n) ∧ row.fault? n earlier.length = some fault := by
  rw [List.findSome?_eq_some_iff]
  constructor
  · rintro ⟨before, ⟨row, index⟩, after, hsplit, hfault, hbefore⟩
    obtain ⟨earlier, rest, rfl, rfl, hrest⟩ := List.zipIdx_eq_append_iff.mp hsplit
    obtain ⟨head, later, rfl, hhead, rfl⟩ := List.zipIdx_eq_cons_iff.mp hrest.symm
    obtain ⟨rfl, rfl⟩ := Prod.mk.inj hhead
    refine ⟨earlier, row, later, rfl, ?_, by simpa using hfault⟩
    intro other hother
    obtain ⟨i, hi, rfl⟩ := List.mem_iff_getElem.mp hother
    exact Constraint.fault?_eq_none_iff.mp
      (hbefore (earlier[i], i) (mem_zipIdx_iff.mpr ⟨hi, rfl⟩))
  · rintro ⟨earlier, row, later, rfl, hearlier, hfault⟩
    refine ⟨earlier.zipIdx, (row, earlier.length), later.zipIdx (earlier.length + 1), ?_, hfault,
      ?_⟩
    · rw [List.zipIdx_append, List.zipIdx_cons, Nat.zero_add]
    · rintro ⟨other, i⟩ hplace
      exact Constraint.fault?_eq_none_iff.mpr (hearlier other (List.fst_mem_of_mem_zipIdx hplace))

section Nonempty

variable (hcoefficients : problem.objective.coefficients ≠ [])

include hcoefficients

theorem fault?_of_objective
    (hvalue : ∃ a ∈ problem.objective.coefficients, Scalar.isFinite a = false) :
    problem.fault? = some .objectiveNotFinite := by
  have hall : problem.objective.coefficients.all Scalar.isFinite = false :=
    List.all_eq_false.mpr (hvalue.imp fun a h => ⟨h.1, by simp [h.2]⟩)
  rw [fault?, if_neg (by simpa using hcoefficients), if_pos (by simp [hall])]

theorem fault?_of_finite_objective
    (hobjective : ∀ a ∈ problem.objective.coefficients, Scalar.isFinite a = true) :
    problem.fault? = problem.constraints.zipIdx.findSome?
      fun place => place.1.fault? problem.dimension place.2 := by
  have hall : problem.objective.coefficients.all Scalar.isFinite = true :=
    List.all_eq_true.mpr hobjective
  rw [fault?, if_neg (by simpa using hcoefficients), if_neg (by simp [hall])]

/-- The fault of a problem is worded as the problem is refused. -/
theorem exists_fault?_iff {message : String} :
    (∃ fault, problem.fault? = some fault ∧ fault.message = message) ↔
      problem.RefusedFor message := by
  by_cases hvalue : ∃ a ∈ problem.objective.coefficients, Scalar.isFinite a = false
  · rw [fault?_of_objective hcoefficients hvalue]
    constructor
    · rintro ⟨fault, hfault, rfl⟩
      obtain rfl := Option.some.inj hfault
      exact .objective hvalue
    · rintro (- | ⟨hobjective, -, -, -⟩)
      · exact ⟨_, rfl, rfl⟩
      · obtain ⟨a, ha, hnot⟩ := hvalue
        exact absurd (hobjective a ha) (by simp [hnot])
  · have hobjective : ∀ a ∈ problem.objective.coefficients, Scalar.isFinite a = true := by
      simpa using hvalue
    rw [fault?_of_finite_objective hcoefficients hobjective]
    constructor
    · rintro ⟨fault, hfault, rfl⟩
      obtain ⟨earlier, row, later, hrows, hearlier, hrow⟩ := findSome?_rows_eq_some_iff.mp hfault
      exact .row hobjective hrows hearlier (Constraint.exists_fault?_iff.mp ⟨fault, hrow, rfl⟩)
    · rintro (hnot | ⟨-, hrows, hearlier, hrow⟩)
      · exact absurd hnot hvalue
      · obtain ⟨fault, hrow, hmessage⟩ := Constraint.exists_fault?_iff.mpr hrow
        exact ⟨fault, findSome?_rows_eq_some_iff.mpr ⟨_, _, _, hrows, hearlier, hrow⟩, hmessage⟩

/-- A problem without fault is one that is not ill-formed. -/
theorem fault?_eq_none_iff_not_illFormed : problem.fault? = none ↔ ¬ problem.IllFormed := by
  have hpos : 0 < problem.dimension := List.length_pos_iff.mpr hcoefficients
  rw [fault?_eq_none_iff, IllFormed, not_or]
  simp only [hpos, true_and, not_exists, not_and, Bool.not_eq_false,
    ← Constraint.not_accepted_iff, not_not]

theorem illFormed_iff_exists_refusedFor :
    problem.IllFormed ↔ ∃ message, problem.RefusedFor message := by
  constructor
  · intro hbad
    obtain ⟨fault, hfault⟩ := Option.ne_none_iff_exists'.mp
      (mt (fault?_eq_none_iff_not_illFormed hcoefficients).mp (not_not_intro hbad))
    exact ⟨fault.message, (exists_fault?_iff hcoefficients).mp ⟨fault, hfault, rfl⟩⟩
  · rintro ⟨message, hrefused⟩
    obtain ⟨fault, hfault, -⟩ := (exists_fault?_iff hcoefficients).mpr hrefused
    by_contra hgood
    rw [(fault?_eq_none_iff_not_illFormed hcoefficients).mpr hgood] at hfault
    exact absurd hfault nofun

end Nonempty

end Problem

end SimplexMethod
