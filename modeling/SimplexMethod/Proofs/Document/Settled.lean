import SimplexMethod.Document.Results
import SimplexMethod.Proofs.Document.Fields
import SimplexMethod.Proofs.Solve.Routes

/-!
# Readers settle

However a record is stated, with numbers in texts, truth values for numbers or fields left out,
what a reader makes of it is read again as the same record from its written form. Every result of
a solve is read unchanged from its written form.
-/

namespace SimplexMethod.Document

/-- What the reader accepts it accepts again in its written form, as the same value. -/
def Settles {β : Type} (read : Value → Checked β) (write : β → Value) : Prop :=
  ∀ document value, read document = .accepted value → read (write value) = .accepted value

theorem readConstraint_ofConstraint (row : Constraint Float) :
    readConstraint (ofConstraint row) = .accepted row := by
  have hcoefficients : required (ofConstraint row) "coefficients" (readTuple readFloat)
      = .accepted row.coefficients := required_of_field rfl (readTuple_ofFloats _)
  have hrhs : required (ofConstraint row) "rhs" readFloat = .accepted row.rhs :=
    required_of_field rfl rfl
  have hrelation : required (ofConstraint row) "relation" (readChoice Relation.all Relation.name)
      = .accepted row.relation := required_of_field rfl (readChoice_relation _)
  have hname : optional (ofConstraint row) "name" "" readString = .accepted row.name :=
    optional_of_field rfl rfl
  change Constraint.mk <$> required (ofConstraint row) _ _ <*> required _ _ _ <*> required _ _ _
    <*> optional _ _ _ _ = _
  rw [hcoefficients, hrhs, hrelation, hname]
  rfl

theorem settles_constraint : Settles readConstraint ofConstraint :=
  fun _ row _ => readConstraint_ofConstraint row

section Objectives

variable {objective : Objective Float}

theorem readObjective_ofObjective (h : objective.coefficients ≠ []) :
    readObjective (ofObjective objective) = .accepted objective := by
  have hcoefficients : required (ofObjective objective) "coefficients"
      (readNonemptyTuple readFloat) = .accepted objective.coefficients :=
    required_of_field rfl (readNonemptyTuple_ofFloats h)
  have hsense : required (ofObjective objective) "sense" (readChoice Sense.all Sense.name)
      = .accepted objective.sense := required_of_field rfl (readChoice_sense _)
  change Objective.mk <$> required (ofObjective objective) _ _ <*> required _ _ _ = _
  rw [hcoefficients, hsense]
  rfl

theorem ne_nil_of_readObjective {document : Value}
    (h : readObjective document = .accepted objective) : objective.coefficients ≠ [] := by
  have hread := of_readRecord h
  simp only [Checked.seq_eq_accepted_iff, Checked.map_eq_accepted_iff] at hread
  obtain ⟨_, sense, ⟨coefficients, hcoefficients, rfl⟩, -, rfl⟩ := hread
  exact of_required (P := (· ≠ [])) (fun _ _ => ne_nil_of_readNonemptyTuple) hcoefficients

theorem settles_objective : Settles readObjective ofObjective :=
  fun _ _ h => readObjective_ofObjective (ne_nil_of_readObjective h)

end Objectives

section Options

variable {options : Options Float}

theorem readOptions_ofOptions (h : 1 ≤ options.maxIterations) :
    readOptions (ofOptions options) = .accepted options := by
  have hlimit : optional (ofOptions options) "max_iters" 10000 readLimit
      = .accepted options.maxIterations := optional_of_field rfl (readLimit_int h)
  have htolerance : optional (ofOptions options) "tol" 1e-9 readFloat
      = .accepted options.tolerance := optional_of_field rfl rfl
  have hrule : optional (ofOptions options) "pivot_rule" .dantzig
      (readChoice PivotRule.all PivotRule.name) = .accepted options.rule :=
    optional_of_field rfl (readChoice_rule _)
  have htwo : optional (ofOptions options) "two_phase" true readBool
      = .accepted options.twoPhase := optional_of_field rfl rfl
  have hguard : optional (ofOptions options) "cycle_guard" true readBool
      = .accepted options.cycleGuard := optional_of_field rfl rfl
  change Options.mk <$> optional (ofOptions options) _ _ _ <*> optional _ _ _ _
    <*> optional _ _ _ _ <*> optional _ _ _ _ <*> optional _ _ _ _ = _
  rw [hlimit, htolerance, hrule, htwo, hguard]
  rfl

theorem one_le_of_readOptions {document : Value}
    (h : readOptions document = .accepted options) : 1 ≤ options.maxIterations := by
  rw [readOptions] at h
  have hread := of_readRecord h
  simp only [Checked.seq_eq_accepted_iff, Checked.map_eq_accepted_iff] at hread
  obtain ⟨_, _, ⟨_, _, ⟨_, _, ⟨_, _, ⟨limit, hlimit, rfl⟩, -, rfl⟩, -, rfl⟩, -, rfl⟩, -, rfl⟩ := hread
  exact of_optional (P := (1 ≤ ·)) (by decide) (fun _ _ => one_le_of_readLimit) hlimit

theorem settles_options : Settles readOptions ofOptions :=
  fun _ _ h => readOptions_ofOptions (one_le_of_readOptions h)

end Options

section Snapshots

variable {snapshot : SnapshotRecord}

theorem readSnapshot_ofSnapshot (h : snapshot.phase ∈ [1, 2]) :
    readSnapshot (ofSnapshot snapshot) = .accepted snapshot := by
  have htable : required (ofSnapshot snapshot) "table" (readList (readList readFloat))
      = .accepted snapshot.table :=
    required_of_field rfl (readList_map fun values _ => readList_ofFloats values)
  have hbasis : required (ofSnapshot snapshot) "basis" (readList readInt)
      = .accepted snapshot.basis := required_of_field rfl (readList_map fun _ _ => rfl)
  have hphase : optional (ofSnapshot snapshot) "phase" 2 readPhase
      = .accepted snapshot.phase := optional_of_field rfl (readPhase_int h)
  have hentering : optional (ofSnapshot snapshot) "entering" none (readOptional readInt)
      = .accepted snapshot.entering :=
    optional_of_field rfl (readOptional_ofOptional readInt .int (fun _ => rfl) nofun _)
  have hleaving : optional (ofSnapshot snapshot) "leaving" none (readOptional readInt)
      = .accepted snapshot.leaving :=
    optional_of_field rfl (readOptional_ofOptional readInt .int (fun _ => rfl) nofun _)
  have hiteration : optional (ofSnapshot snapshot) "iteration" 0 readInt
      = .accepted snapshot.iteration := optional_of_field rfl rfl
  change SnapshotRecord.mk <$> required (ofSnapshot snapshot) _ _ <*> required _ _ _
    <*> optional _ _ _ _ <*> optional _ _ _ _ <*> optional _ _ _ _ <*> optional _ _ _ _ = _
  rw [htable, hbasis, hphase, hentering, hleaving, hiteration]
  rfl

theorem phase_mem_of_readSnapshot {document : Value}
    (h : readSnapshot document = .accepted snapshot) : snapshot.phase ∈ [1, 2] := by
  have hread := of_readRecord h
  simp only [Checked.seq_eq_accepted_iff, Checked.map_eq_accepted_iff] at hread
  obtain ⟨_, _, ⟨_, _, ⟨_, _, ⟨_, phase, ⟨_, _, ⟨_, -, rfl⟩, -, rfl⟩, hphase, rfl⟩, -, rfl⟩, -, rfl⟩, -,
    rfl⟩ := hread
  have hdefault : (2 : Int) ∈ [1, 2] := by decide
  exact of_optional (P := (· ∈ [1, 2])) hdefault (fun _ _ => mem_of_readNumberChoice) hphase

theorem settles_snapshot : Settles readSnapshot ofSnapshot :=
  fun _ _ h => readSnapshot_ofSnapshot (phase_mem_of_readSnapshot h)

end Snapshots

theorem readReport_ofReport (report : Report Float) :
    readReport (ofReport report) = .accepted report := by
  have hstatus : required (ofReport report) "status" (readChoice Status.all Status.name)
      = .accepted report.status := required_of_field rfl (readChoice_status _)
  have hvalue : optional (ofReport report) "objective_value" none (readOptional readFloat)
      = .accepted report.objectiveValue :=
    optional_of_field rfl (readOptional_ofOptional readFloat .float (fun _ => rfl) nofun _)
  have hsolution : optional (ofReport report) "solution" none
      (readOptional (readList readFloat)) = .accepted report.solution :=
    optional_of_field rfl (readOptional_ofOptional _ _ readList_ofFloats nofun _)
  have halternatives : optional (ofReport report) "alternative_optima" false readBool
      = .accepted report.alternativeOptima := optional_of_field rfl rfl
  have hiterations : optional (ofReport report) "iterations" 0 readInt
      = .accepted report.iterations := optional_of_field rfl rfl
  have hmessage : optional (ofReport report) "message" "" readString
      = .accepted report.message := optional_of_field rfl rfl
  change Report.mk <$> required (ofReport report) _ _ <*> optional _ _ _ _ <*> optional _ _ _ _
    <*> optional _ _ _ _ <*> optional _ _ _ _ <*> optional _ _ _ _ = _
  rw [hstatus, hvalue, hsolution, halternatives, hiterations, hmessage]
  rfl

theorem settles_report : Settles readReport ofReport :=
  fun _ report _ => readReport_ofReport report

section Results

variable {result : ResultRecord}

theorem readResult_ofResult (h : ∀ snapshot ∈ result.history, snapshot.phase ∈ [1, 2]) :
    readResult (ofResult result) = .accepted result := by
  have hhistory : optional (ofResult result) "history" [] (readList readSnapshot)
      = .accepted result.history :=
    optional_of_field rfl (readList_map fun snapshot hmem =>
      readSnapshot_ofSnapshot (h snapshot hmem))
  have hreport : required (ofResult result) "report" readReport = .accepted result.report :=
    required_of_field rfl (readReport_ofReport _)
  change ResultRecord.mk <$> optional (ofResult result) _ _ _ <*> required _ _ _ = _
  rw [hhistory, hreport]
  rfl

theorem phases_mem_of_readResult {document : Value}
    (h : readResult document = .accepted result) :
    ∀ snapshot ∈ result.history, snapshot.phase ∈ [1, 2] := by
  have hread := of_readRecord h
  simp only [Checked.seq_eq_accepted_iff, Checked.map_eq_accepted_iff] at hread
  obtain ⟨_, report, ⟨history, hhistory, rfl⟩, -, rfl⟩ := hread
  exact of_optional nofun
    (fun _ _ => forall_of_readList fun _ _ => phase_mem_of_readSnapshot) hhistory

theorem settles_result : Settles readResult ofResult :=
  fun _ _ h => readResult_ofResult (phases_mem_of_readResult h)

/-- The snapshots of a solve belong to the first phase or to the second. -/
theorem phase_mem_of_answer {answer : Answer Float} {result : Result Float}
    (hresult : answer.result? = some result) :
    ∀ snapshot ∈ result.toRecord.history, snapshot.phase ∈ [1, 2] := by
  intro record hrecord
  obtain ⟨snapshot, hmem, rfl⟩ := List.mem_map.mp hrecord
  change snapshot.phase ∈ [1, 2]
  cases answer with
  | nothingToSolve => exact absurd hresult nofun
  | rejected fault =>
    obtain rfl := Option.some.inj hresult
    exact absurd hmem List.not_mem_nil
  | solved outcome =>
    obtain rfl := Option.some.inj hresult
    rcases List.mem_append.mp hmem with hfirst | hsecond
    · rw [Outcome.phase_of_mem_firstSnapshots hfirst]
      decide
    · rw [Outcome.phase_of_mem_secondSnapshots hsecond]
      decide

end Results

/-- All readers of records settle, and every result of a solve is read unchanged. -/
theorem readers_settle :
    Settles readConstraint ofConstraint ∧ Settles readObjective ofObjective ∧
      Settles readOptions ofOptions ∧ Settles readSnapshot ofSnapshot ∧
      Settles readReport ofReport ∧ Settles readResult ofResult ∧
      ∀ (problem : Problem Float) (options : Options Float),
        ∃ answer, solve problem options = .ok answer ∧ ∀ result ∈ answer.result?,
          readResult (ofResult result.toRecord) = .accepted result.toRecord := by
  refine ⟨settles_constraint, settles_objective, settles_options, settles_snapshot,
    settles_report, settles_result, ?_⟩
  intro problem options
  obtain ⟨answer, hsolve⟩ := exists_answer problem options
  exact ⟨answer, hsolve, fun result hresult => readResult_ofResult (phase_mem_of_answer hresult)⟩

/-- A result with numbers in texts and truth values, with fields left out and with one that is not
known. -/
def lenientResult : Value :=
  .object [
    ("history", .list [.object [("table", .list [.list [.string " 1e3 ", .bool true]]),
      ("basis", .list [.string "03", .float 2]), ("phase", .float 1), ("note", .null)]]),
    ("report", .object [("status", .string "optimal"), ("objective_value", .string "NaN"),
      ("alternative_optima", .string "OFF")])]

theorem readers_settle_lenientResult :
    ∃ result, readResult lenientResult = .accepted result ∧
      result.history.map (·.basis) = [[3, 2]] ∧
      readResult (ofResult result) = .accepted result := by
  obtain ⟨-, -, -, -, -, hsettles, -⟩ := readers_settle
  have hbasis : (match readResult lenientResult with
      | .accepted result => result.history.map (·.basis)
      | .refused _ => []) = [[3, 2]] := by
    decide +kernel
  cases hread : readResult lenientResult with
  | accepted result =>
    rw [hread] at hbasis
    exact ⟨result, rfl, hbasis, hsettles lenientResult result hread⟩
  | refused complaints =>
    rw [hread] at hbasis
    exact absurd hbasis nofun

end SimplexMethod.Document
