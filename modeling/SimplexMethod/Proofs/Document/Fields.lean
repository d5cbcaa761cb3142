import SimplexMethod.Document.Reader
import SimplexMethod.Document.Writer

/-!
# Fields read back

What is written into a field is read back as the value it was written from: numbers, truth values
and texts as they are, a choice by its written form, lists item by item. Conversely, what a reader
accepts has the properties that it checks. So a record is read back from its written form if its
fields have the properties that their readers check.
-/

namespace SimplexMethod.Document

variable {β γ : Type}

namespace Checked

/-- A combination is accepted if and only if both parts are. -/
theorem seq_eq_accepted_iff {f : Checked (β → γ)} {x : Checked β} {value : γ} :
    (f <*> x) = accepted value ↔
      ∃ g argument, f = accepted g ∧ x = accepted argument ∧ g argument = value := by
  constructor
  · intro h
    cases f with
    | refused earlier => cases x <;> exact absurd h nofun
    | accepted g =>
      cases x with
      | refused later => exact absurd h nofun
      | accepted argument => exact ⟨g, argument, rfl, rfl, accepted.inj h⟩
  · rintro ⟨g, argument, rfl, rfl, rfl⟩
    rfl

theorem map_eq_accepted_iff {f : β → γ} {x : Checked β} {value : γ} :
    (f <$> x) = accepted value ↔ ∃ argument, x = accepted argument ∧ f argument = value := by
  constructor
  · intro h
    cases x with
    | refused complaints => exact absurd h nofun
    | accepted argument => exact ⟨argument, rfl, accepted.inj h⟩
  · rintro ⟨argument, rfl, rfl⟩
    rfl

/-- Where a place lies does not decide whether it is accepted. -/
theorem under_eq_accepted_iff {step : Step} {x : Checked β} {value : β} :
    x.under step = accepted value ↔ x = accepted value := by
  cases x with
  | accepted other => rfl
  | refused complaints => exact ⟨nofun, nofun⟩

end Checked

section Lists

variable {read : Value → Checked β} {write : β → Value} {documents : List Value} {items : List β}

theorem readItems_cons_eq_accepted_iff {document : Value} {index : Nat} :
    readItems read (document :: documents) index = .accepted items ↔
      ∃ item later, read document = .accepted item ∧
        readItems read documents (index + 1) = .accepted later ∧ item :: later = items := by
  rw [readItems, Checked.seq_eq_accepted_iff]
  simp only [Checked.map_eq_accepted_iff, Checked.under_eq_accepted_iff]
  constructor
  · rintro ⟨g, later, ⟨item, hitem, rfl⟩, hlater, rfl⟩
    exact ⟨item, later, hitem, hlater, rfl⟩
  · rintro ⟨item, later, hitem, hlater, rfl⟩
    exact ⟨_, later, ⟨item, hitem, rfl⟩, hlater, rfl⟩

/-- A list is read back if its items are. -/
theorem readItems_map (h : ∀ item ∈ items, read (write item) = .accepted item) (index : Nat) :
    readItems read (items.map write) index = .accepted items := by
  induction items generalizing index with
  | nil => rfl
  | cons item items ih =>
    obtain ⟨hitem, hitems⟩ := List.forall_mem_cons.mp h
    exact readItems_cons_eq_accepted_iff.mpr ⟨item, items, hitem, ih hitems (index + 1), rfl⟩

/-- What holds of every item that is accepted holds of the items of a list that is accepted. -/
theorem forall_of_readItems {P : β → Prop}
    (h : ∀ document item, read document = .accepted item → P item) {index : Nat}
    (hread : readItems read documents index = .accepted items) : ∀ item ∈ items, P item := by
  induction documents generalizing index items with
  | nil =>
    obtain rfl := Checked.accepted.inj hread
    exact nofun
  | cons document documents ih =>
    obtain ⟨item, later, hitem, hlater, rfl⟩ := readItems_cons_eq_accepted_iff.mp hread
    exact List.forall_mem_cons.mpr ⟨h document item hitem, ih hlater⟩

theorem length_of_readItems {index : Nat}
    (hread : readItems read documents index = .accepted items) :
    items.length = documents.length := by
  induction documents generalizing index items with
  | nil =>
    obtain rfl := Checked.accepted.inj hread
    rfl
  | cons document documents ih =>
    obtain ⟨item, later, -, hlater, rfl⟩ := readItems_cons_eq_accepted_iff.mp hread
    exact congrArg Nat.succ (ih hlater)

theorem readList_map (h : ∀ item ∈ items, read (write item) = .accepted item) :
    readList read (.list (items.map write)) = .accepted items :=
  readItems_map h 0

theorem forall_of_readList {P : β → Prop}
    (h : ∀ document item, read document = .accepted item → P item) {document : Value}
    (hread : readList read document = .accepted items) : ∀ item ∈ items, P item := by
  cases document with
  | list documents => exact forall_of_readItems h hread
  | _ => exact absurd hread nofun

theorem readList_ofFloats (values : List Float) :
    readList readFloat (ofFloats values) = .accepted values :=
  readList_map fun _ _ => rfl

theorem readTuple_ofFloats (values : List Float) :
    readTuple readFloat (ofFloats values) = .accepted values :=
  readList_ofFloats values

theorem readNonemptyTuple_ofFloats {values : List Float} (h : values ≠ []) :
    readNonemptyTuple readFloat (ofFloats values) = .accepted values := by
  obtain ⟨value, later, rfl⟩ := List.exists_cons_of_ne_nil h
  exact readList_ofFloats (value :: later)

/-- A tuple is refused if no item of it can be read, as when it has none. -/
theorem ne_nil_of_readNonemptyTuple {document : Value}
    (hread : readNonemptyTuple read document = .accepted items) : items ≠ [] := by
  cases document with
  | list documents =>
    rw [readNonemptyTuple] at hread
    split at hread
    · rename_i hany
      rintro rfl
      have hlength := length_of_readItems hread
      rw [List.length_eq_zero_iff.mp hlength.symm] at hany
      exact absurd hany nofun
    · obtain ⟨g, argument, -, hshort, -⟩ := Checked.seq_eq_accepted_iff.mp hread
      exact absurd hshort nofun
  | _ => exact absurd hread nofun

/-- What may be missing is read back if what is written is never null. -/
theorem readOptional_ofOptional (read : Value → Checked β) (write : β → Value)
    (hread : ∀ value, read (write value) = .accepted value)
    (hnull : ∀ value, write value ≠ .null) (value : Option β) :
    readOptional read (ofOptional write value) = .accepted value := by
  cases value with
  | none => rfl
  | some value =>
    have hsome : readOptional read (write value) = some <$> read (write value) := by
      have hne := hnull value
      cases hwritten : write value with
      | null => exact absurd hwritten hne
      | _ => rfl
    rw [ofOptional, hsome, hread]
    rfl

end Lists

section Choices

theorem readChoice_name {choices : List β} {name : β → String} {choice : β}
    (h : choices.find? (name · = name choice) = some choice) :
    readChoice choices name (.string (name choice)) = .accepted choice := by
  rw [readChoice, h]

theorem readChoice_relation (relation : Relation) :
    readChoice Relation.all Relation.name (.string relation.name) = .accepted relation :=
  readChoice_name (by cases relation <;> decide)

theorem readChoice_sense (sense : Sense) :
    readChoice Sense.all Sense.name (.string sense.name) = .accepted sense :=
  readChoice_name (by cases sense <;> decide)

theorem readChoice_rule (rule : PivotRule) :
    readChoice PivotRule.all PivotRule.name (.string rule.name) = .accepted rule :=
  readChoice_name (by cases rule <;> decide)

theorem readChoice_status (status : Status) :
    readChoice Status.all Status.name (.string status.name) = .accepted status :=
  readChoice_name (by cases status <;> decide)

theorem chooseNumber_eq_accepted_iff {choices : List Int} {n m : Int} :
    chooseNumber choices n = .accepted m ↔ n ∈ choices ∧ n = m := by
  rw [chooseNumber]
  split
  · rename_i hmem
    exact ⟨fun h => ⟨hmem, Checked.accepted.inj h⟩, fun h => congrArg _ h.2⟩
  · rename_i hmem
    exact ⟨nofun, fun h => absurd h.1 hmem⟩

/-- A number is accepted only if it is one of the choices. -/
theorem mem_of_readNumberChoice {choices : List Int} {document : Value} {n : Int}
    (h : readNumberChoice choices document = .accepted n) : n ∈ choices := by
  have hchosen : ∀ m, chooseNumber choices m = .accepted n → n ∈ choices := by
    intro m hm
    obtain ⟨hmem, rfl⟩ := chooseNumber_eq_accepted_iff.mp hm
    exact hmem
  cases document with
  | int m =>
    rw [readNumberChoice] at h
    split at h
    · exact hchosen m h
    · exact absurd h nofun
  | bool b => exact hchosen (ofBool b) h
  | float x =>
    rw [readNumberChoice] at h
    split at h
    · exact hchosen _ h
    · exact absurd h nofun
  | _ => exact absurd h nofun

theorem readPhase_int {phase : Int} (h : phase ∈ [1, 2]) :
    readPhase (.int phase) = .accepted phase := by
  have hcases : phase = 1 ∨ phase = 2 := by simpa using h
  have hfits : fitsWord phase = true := by rcases hcases with rfl | rfl <;> decide
  rw [readPhase, readNumberChoice, if_pos hfits]
  exact chooseNumber_eq_accepted_iff.mpr ⟨h, rfl⟩

end Choices

section Limits

theorem readLimit_int {limit : Nat} (h : 1 ≤ limit) :
    readLimit (.int limit) = .accepted limit := by
  have hnot : ¬ (limit : Int) < 1 := by omega
  rw [readLimit, readInt]
  simp only [hnot, if_false, Int.toNat_natCast]

theorem one_le_of_readLimit {document : Value} {limit : Nat}
    (h : readLimit document = .accepted limit) : 1 ≤ limit := by
  rw [readLimit] at h
  split at h
  · split at h
    · exact absurd h nofun
    · obtain rfl := Checked.accepted.inj h
      omega
  · exact absurd h nofun

end Limits

section Records

variable {value item : Value} {name : String} {read : Value → Checked β} {default content : β}

theorem required_of_field (hfield : value.field? name = some item)
    (hread : read item = .accepted content) : required value name read = .accepted content := by
  rw [required, hfield]
  exact Checked.under_eq_accepted_iff.mpr hread

theorem optional_of_field (hfield : value.field? name = some item)
    (hread : read item = .accepted content) :
    optional value name default read = .accepted content := by
  rw [optional, hfield]
  exact Checked.under_eq_accepted_iff.mpr hread

/-- What holds of everything the reader accepts holds of the content of a field. -/
theorem of_required {P : β → Prop}
    (h : ∀ document content, read document = .accepted content → P content)
    (hread : required value name read = .accepted content) : P content := by
  rw [required] at hread
  split at hread
  · exact h _ _ (Checked.under_eq_accepted_iff.mp hread)
  · exact absurd hread nofun

/-- What holds of the default and of everything the reader accepts holds of the content of a
field. -/
theorem of_optional {P : β → Prop} (hdefault : P default)
    (h : ∀ document content, read document = .accepted content → P content)
    (hread : optional value name default read = .accepted content) : P content := by
  rw [optional] at hread
  split at hread
  · exact h _ _ (Checked.under_eq_accepted_iff.mp hread)
  · obtain rfl := Checked.accepted.inj hread
    exact hdefault

/-- Only objects are accepted as records. -/
theorem of_readRecord {schema : String} (h : readRecord schema value read = .accepted content) :
    read value = .accepted content := by
  cases value with
  | object fields => exact h
  | _ => exact absurd h nofun

end Records

end SimplexMethod.Document
