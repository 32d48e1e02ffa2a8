import Questionnaire.Answer.Table
import Questionnaire.Proofs.Json.WellFormed
import Questionnaire.Proofs.Outcome

/-!
# The rows of tables

Where the columns of a table are texts, every row that is read is an object of well-formed values,
and a message that has rows has at least one.

## Main Definitions

* `Answer.IsRow` - named values that make a well-formed object

## Main Statements

* `Answer.isRow_of_readRows?` - the rows of a message
-/

namespace Questionnaire

namespace Fields

theorem toObject_ofObject (o : Object) : toObject (ofObject o) = o := by
  unfold toObject ofObject
  rw [List.map_map]
  exact List.map_id o

theorem put_ofObject (name : String) (v : Json) (o : Object) :
    Assoc.put (.str name) v (ofObject o) = ofObject (Assoc.put name v o) := by
  induction o with
  | nil => rfl
  | cons m o ih =>
    unfold ofObject at ih ⊢
    rw [List.map_cons, Assoc.put, Assoc.put, Json.str_beq, ih]
    split <;> rfl

theorem overlay_ofObject (base entries : Object) :
    Assoc.overlay (ofObject base) (ofObject entries) = ofObject (Assoc.overlay base entries) := by
  induction entries generalizing base with
  | nil => rfl
  | cons m entries ih =>
    have hput := put_ofObject m.1 m.2 base
    show Assoc.overlay (Assoc.put (.str m.1) m.2 (ofObject base)) (ofObject entries) = _
    rw [hput]
    exact ih _

end Fields

namespace Answer

/-- Named values that make an object of well-formed values. -/
def IsRow (row : Fields) : Prop := ∃ o : Object, row = Fields.ofObject o ∧ (Json.obj o).WellFormed

/-- A row is written as an object. -/
theorem IsRow.wellFormed {row : Fields} (isRow : IsRow row) :
    (Json.obj (Fields.toObject row)).WellFormed := by
  obtain ⟨o, rfl, wellFormed⟩ := isRow
  rwa [Fields.toObject_ofObject]

variable {columns : List Json} {names cells : List String}

/-- Texts are keys. -/
theorem mapM_asKey_names (names : List String) :
    (names.map Json.str).mapM Json.asKey = .ok (names.map Json.str) := by
  induction names with
  | nil => rfl
  | cons name names ih =>
    rw [List.map_cons, List.mapM_cons, ih]
    rfl

/-- The cells stand under texts, as the members of an object do. -/
theorem columnRow_eq (names cells : List String) : columnRow (names.map Json.str) cells =
    .ok (Fields.ofObject (Assoc.ofEntries (names.zip (cells.map Json.str)))) := by
  have hentries : (names.map Json.str).zip (cells.map Json.str) =
      Fields.ofObject (names.zip (cells.map Json.str)) := by
    rw [List.zip_map_left]
    rfl
  rw [columnRow, mapM_asKey_names, Outcome.ok_bind, hentries]
  exact congrArg Except.ok (Fields.overlay_ofObject [] _)

theorem isRow_columnRow {row : Fields} (h : columnRow (names.map Json.str) cells = .ok row) :
    IsRow row := by
  rw [columnRow_eq] at h
  cases h
  have hempty : (([] : Object).map (·.1)).Nodup := by simp
  have hnone : ∀ d ∈ ([] : Object), d.2.WellFormed := by simp
  refine ⟨_, rfl, .obj (Assoc.nodup_overlay hempty) (Assoc.mem_overlay_value hnone fun d hd => ?_)⟩
  obtain ⟨cell, -, hcell⟩ := List.mem_map.1 (List.of_mem_zip hd).2
  rw [← hcell]
  exact .str cell

theorem isRow_rowUnder {row : Fields} (h : rowUnder (names.map Json.str) cells = .ok row) :
    IsRow row := by
  obtain ⟨row', hrow, h⟩ := Outcome.bind_eq_ok_iff.1 h
  obtain ⟨o, rfl, wellFormed⟩ := isRow_columnRow hrow
  dsimp only at h
  split at h
  · cases h
    exact ⟨o, rfl, wellFormed⟩
  · cases h
    obtain ⟨hdistinct, hmembers⟩ := Json.wellFormed_obj_iff.1 wellFormed
    refine ⟨_, Fields.put_ofObject "notes" _ o, .obj (Assoc.nodup_put _ hdistinct) fun m hm => ?_⟩
    rcases Assoc.mem_put_or hm with hm | hvalue
    · exact hmembers m hm
    · rw [hvalue]
      exact .str _

theorem isRow_plainRow (first : String) (further : List String) :
    IsRow (plainRow first further) := by
  unfold plainRow
  split
  · exact ⟨[("value", .str first)], rfl, by simp⟩
  · exact ⟨[("value", .str first), ("details", .arr (further.map Json.str))], rfl, by simp⟩

theorem isRow_dataRow {v : Json} (h : v.WellFormed) : IsRow (dataRow v) := by
  unfold dataRow
  split
  · exact ⟨_, rfl, h⟩
  · exact ⟨[("value", v)], rfl, by simpa using h⟩

theorem isRow_of_rowsOfLines {lines : List String} {rows : List Fields}
    (h : rowsOfLines (names.map Json.str) lines = .ok (some rows)) : ∀ row ∈ rows, IsRow row := by
  induction lines generalizing rows with
  | nil =>
    cases h
    simp
  | cons line rest ih =>
    unfold rowsOfLines at h
    split at h
    · exact ih h
    · rename_i first further _
      split at h
      · obtain ⟨rows?, hrest, h⟩ := Outcome.bind_eq_ok_iff.1 h
        cases rows? with
        | none => cases h
        | some rows' =>
          cases h
          exact List.forall_mem_cons.2 ⟨isRow_plainRow first further, ih hrest⟩
      · split at h
        · cases h
        · obtain ⟨row, hrow, h⟩ := Outcome.bind_eq_ok_iff.1 h
          obtain ⟨rows?, hrest, h⟩ := Outcome.bind_eq_ok_iff.1 h
          cases rows? with
          | none => cases h
          | some rows' =>
            cases h
            exact List.forall_mem_cons.2 ⟨isRow_rowUnder hrow, ih hrest⟩

theorem nonempty_eq_some {rows rows' : List Fields} (h : nonempty rows = some rows') :
    rows' = rows ∧ rows ≠ [] := by
  cases rows with
  | nil => cases h
  | cons row rows =>
    cases h
    exact ⟨rfl, List.cons_ne_nil _ _⟩

/-- A message that has rows has at least one, and all of them are objects. -/
theorem isRow_of_readRows? {message : String} {rows : List Fields}
    (h : readRows? message (names.map Json.str) = .ok (some rows)) :
    rows ≠ [] ∧ ∀ row ∈ rows, IsRow row := by
  unfold readRows? at h
  dsimp only at h
  split at h
  · cases h
  · split at h
    · rename_i items hread
      obtain ⟨rfl, hne⟩ := nonempty_eq_some (Except.ok.inj h)
      refine ⟨hne, fun row hrow => ?_⟩
      obtain ⟨v, hv, rfl⟩ := List.mem_map.1 hrow
      exact isRow_dataRow (Json.wellFormed_arr_iff.1 (Json.wellFormed_of_read? hread) v hv)
    · rename_i ms hread
      cases h
      refine ⟨List.cons_ne_nil _ _, fun row hrow => ?_⟩
      rw [List.mem_singleton.1 hrow]
      exact ⟨ms, rfl, Json.wellFormed_of_read? hread⟩
    · obtain ⟨rows?, hlines, h⟩ := Outcome.bind_eq_ok_iff.1 h
      cases rows? with
      | none => cases h
      | some rows' =>
        obtain ⟨rfl, hne⟩ := nonempty_eq_some (Except.ok.inj h)
        exact ⟨hne, isRow_of_rowsOfLines hlines⟩

theorem eq_names_of_textsOf {values : List Json} {names : List String}
    (h : textsOf values = .ok names) : values = names.map Json.str := by
  induction values generalizing names with
  | nil =>
    cases h
    rfl
  | cons v values ih =>
    unfold textsOf at h
    rw [List.mapM_cons] at h
    obtain ⟨name, hname, h⟩ := Outcome.bind_eq_ok_iff.1 h
    obtain ⟨rest, hrest, h⟩ := Outcome.bind_eq_ok_iff.1 h
    cases h
    split at hname
    · cases hname
      rw [List.map_cons, ← ih hrest]
    · cases hname

/-- The columns whose names can be shown are texts. -/
theorem exists_names_of_exampleRow {text : String} (h : exampleRow columns = .ok text) :
    ∃ names : List String, columns = names.map Json.str := by
  unfold exampleRow at h
  split at h
  · rename_i hempty
    exact ⟨[], List.isEmpty_iff.1 hempty⟩
  · obtain ⟨names, hnames, -⟩ := Outcome.bind_eq_ok_iff.1 h
    exact ⟨names, eq_names_of_textsOf hnames⟩

end Answer

end Questionnaire
