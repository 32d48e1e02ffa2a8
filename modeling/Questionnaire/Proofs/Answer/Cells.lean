import Questionnaire.Proofs.Answer.Rows
import Questionnaire.Proofs.Text.Lines

/-!
# The cells of a table in writing

A line of a table has its cells under the columns and all further ones as notes, which is a name
that a column may have too.  Then the notes take the place of the cell, so a row keeps its cells
exactly if no column is named so, if there is no further cell, or if the two say the same.

## Main Definitions

* `Answer.isData` - whether an answer is written data
* `Answer.rowCells` - the cells of the lines of an answer
* `Answer.KeepsCells` - a row has all cells of its line
* `Answer.NotesFit` - the notes take no cell's place

## Main Statements

* `Answer.readRows?_eq` - the rows of an answer in writing
* `Answer.rows_keepCells_iff` - which answers keep all their cells
-/

namespace Questionnaire.Answer

variable {columns cells : List String} {answer : String}

/-- An answer is written data, a list or an object. -/
def isData (answer : String) : Bool :=
  match Json.read? (Text.trim answer) with
  | some (.arr _) => true
  | some (.obj _) => true
  | _ => false

/-! ## The cells of an answer -/

/-- The cells of each of the lines that have any. -/
def rowCells (answer : String) : List (List String) :=
  ((Text.lines answer).map cellsOf).filter (· ≠ [])

theorem rowCells_eq (answer : String) : rowCells answer =
    (Text.piecesOf separatesCells (Text.linesFrom false [] answer.toList)).map
      (·.map String.ofList) := by
  have hcells (line : List Char) :
      cellsOf (String.ofList line) =
        (Text.trimmedPieces separatesCells line).map String.ofList := by
    rw [cellsOf, Text.splitTrimmed_eq, String.toList_ofList]
  unfold rowCells Text.lines Text.piecesOf
  rw [List.map_map, List.filter_map, List.filter_map, List.map_map]
  congr 1
  · funext line
    exact hcells line
  · refine List.filter_congr fun line _ => ?_
    simp [hcells]

/-- The blanks around an answer make no difference to its cells. -/
theorem rowCells_trim (answer : String) : rowCells (Text.trim answer) = rowCells answer := by
  rw [rowCells_eq, rowCells_eq, Text.trim, String.toList_ofList, Text.piecesOf_trimChars]

/-! ## One row -/

/-- A row has each cell of its line under the column of its place, all further cells in their order
as notes, and nothing else. -/
structure KeepsCells (columns cells : List String) (row : Fields) : Prop where
  /-- Each cell stands under its column. -/
  column : ∀ (i : Nat) (name : String), columns[i]? = some name →
    Assoc.valueAt? (.str name) row = cells[i]?.map Json.str
  /-- The further cells are the notes. -/
  notes : cells.drop columns.length ≠ [] → Assoc.valueAt? (.str "notes") row =
    some (.str (String.intercalate " " (cells.drop columns.length)))
  /-- There is nothing else in the row. -/
  only : ∀ e ∈ row, (∃ name ∈ columns, e.1 = .str name) ∨
    (cells.drop columns.length ≠ [] ∧ e.1 = .str "notes")

/-- The notes take the place of no cell: there are none, or the cell under a column of that name is
what they are. -/
def NotesFit (columns cells : List String) : Prop :=
  cells.drop columns.length ≠ [] → ∀ i : Nat, columns[i]? = some "notes" →
    cells[i]? = some (String.intercalate " " (cells.drop columns.length))

/-- Values stand under the columns of their places. -/
theorem valueAt?_zip (distinct : columns.Nodup) (values : List Json) {i : Nat} {name : String}
    (h : columns[i]? = some name) :
    Assoc.valueAt? name (columns.zip values) = values[i]? := by
  induction columns generalizing values i with
  | nil => cases h
  | cons first columns ih =>
    obtain ⟨hfirst, hdistinct⟩ := List.nodup_cons.1 distinct
    cases values with
    | nil => rfl
    | cons v values =>
      rw [List.zip_cons_cons, Assoc.valueAt?_cons]
      cases i with
      | zero =>
        cases h
        simp
      | succ i =>
        rw [List.getElem?_cons_succ] at h ⊢
        have hne : first ≠ name := by
          rintro rfl
          exact hfirst (List.mem_of_getElem? h)
        rw [if_neg (by simpa using hne), ih hdistinct values h]

theorem nodup_zip (distinct : columns.Nodup) (values : List Json) :
    ((columns.zip values).map (·.1)).Nodup := by
  induction columns generalizing values with
  | nil => exact List.nodup_nil
  | cons name columns ih =>
    obtain ⟨hname, hdistinct⟩ := List.nodup_cons.1 distinct
    cases values with
    | nil => exact List.nodup_nil
    | cons v values =>
      rw [List.zip_cons_cons, List.map_cons]
      refine List.nodup_cons.2 ⟨fun hmem => ?_, ih hdistinct values⟩
      obtain ⟨e, he, rfl⟩ := List.mem_map.1 hmem
      exact hname (List.of_mem_zip he).1

/-- The row of a line: the cells under the columns, and the notes. -/
def lineRow (columns cells : List String) : Object :=
  if cells.drop columns.length = [] then columns.zip (cells.map Json.str)
  else Assoc.put "notes" (.str (String.intercalate " " (cells.drop columns.length)))
    (columns.zip (cells.map Json.str))

theorem rowUnder_eq (distinct : columns.Nodup) (cells : List String) :
    rowUnder (columns.map Json.str) cells = .ok (Fields.ofObject (lineRow columns cells)) := by
  have hnames := nodup_zip distinct (cells.map Json.str)
  have hrow : columnRow (columns.map Json.str) cells =
      .ok (Fields.ofObject (columns.zip (cells.map Json.str))) := by
    rw [columnRow_eq, Assoc.ofEntries_of_nodup hnames]
  rw [rowUnder, hrow, Outcome.ok_bind, List.length_map, lineRow]
  dsimp only
  split
  · next h => rw [if_pos (List.isEmpty_iff.1 h)]; rfl
  · next h =>
    rw [if_neg (by simpa using h), Fields.put_ofObject]
    rfl

/-- The keys of the row of a line are the columns and the notes. -/
theorem of_mem_lineRow {m : String × Json} (hm : m ∈ lineRow columns cells) :
    m.1 ∈ columns ∨ (cells.drop columns.length ≠ [] ∧ m.1 = "notes") := by
  have hzip {m : String × Json} (hm : m ∈ columns.zip (cells.map Json.str)) : m.1 ∈ columns :=
    (List.of_mem_zip hm).1
  unfold lineRow at hm
  split at hm
  · exact .inl (hzip hm)
  · next hfurther =>
    have hkey := List.mem_map_of_mem (f := Prod.fst) hm
    have hkeys := Assoc.keyList_put "notes"
      (Json.str (String.intercalate " " (cells.drop columns.length)))
      (columns.zip (cells.map Json.str))
    unfold Assoc.keyList at hkeys
    rw [hkeys] at hkey
    have hcolumn (h : m.1 ∈ (columns.zip (cells.map Json.str)).map (·.1)) : m.1 ∈ columns := by
      obtain ⟨e, he, hkey⟩ := List.mem_map.1 h
      exact hkey ▸ hzip he
    split at hkey
    · exact .inl (hcolumn hkey)
    · rcases List.mem_append.1 hkey with hkey | hkey
      · exact .inl (hcolumn hkey)
      · exact .inr ⟨hfurther, List.mem_singleton.1 hkey⟩

/-- What stands under a column: its cell, unless the notes are in its place. -/
theorem valueAt?_lineRow (distinct : columns.Nodup) {i : Nat} {name : String}
    (h : columns[i]? = some name) : Assoc.valueAt? name (lineRow columns cells) =
      if cells.drop columns.length ≠ [] ∧ name = "notes" then
        some (.str (String.intercalate " " (cells.drop columns.length)))
      else cells[i]?.map Json.str := by
  have hzip : Assoc.valueAt? name (columns.zip (cells.map Json.str)) = cells[i]?.map Json.str := by
    rw [valueAt?_zip distinct _ h, List.getElem?_map]
  unfold lineRow
  split
  · next hnone => rw [hzip, if_neg (fun hname => hname.1 hnone)]
  · next hfurther =>
    by_cases hname : name = "notes"
    · rw [if_pos ⟨hfurther, hname⟩, hname, Assoc.valueAt?_put_self]
    · rw [if_neg (fun h => hname h.2), Assoc.valueAt?_put_of_ne _ _ (Ne.symm hname), hzip]

/-- A row keeps the cells of its line exactly if the notes take the place of none. -/
theorem keepsCells_lineRow_iff (distinct : columns.Nodup) :
    KeepsCells columns cells (Fields.ofObject (lineRow columns cells)) ↔
      NotesFit columns cells := by
  constructor
  · intro keeps hfurther i hi
    have hcolumn := keeps.column i "notes" hi
    rw [keeps.notes hfurther] at hcolumn
    obtain ⟨cell, hcell, hnotes⟩ := Option.map_eq_some_iff.1 hcolumn.symm
    rw [hcell, Json.str.inj hnotes]
  · intro fit
    refine ⟨fun i name hi => ?_, fun hfurther => ?_, fun e he => ?_⟩
    · rw [Fields.valueAt?_ofObject, valueAt?_lineRow distinct hi]
      split
      · next h =>
        obtain ⟨hfurther, rfl⟩ := h
        rw [fit hfurther i hi]
        rfl
      · rfl
    · rw [Fields.valueAt?_ofObject, lineRow, if_neg hfurther, Assoc.valueAt?_put_self]
    · obtain ⟨m, hm, rfl⟩ := List.mem_map.1 he
      rcases of_mem_lineRow hm with hcolumn | ⟨hfurther, hnotes⟩
      · exact .inl ⟨m.1, hcolumn, rfl⟩
      · exact .inr ⟨hfurther, congrArg Json.str hnotes⟩

/-! ## All rows -/

/-- The rows of lines: one for each line that has cells, none at all if one of them has too few. -/
theorem rowsOfLines_eq (given : columns ≠ []) (distinct : columns.Nodup) (lines : List String) :
    rowsOfLines (columns.map Json.str) lines = .ok
      (if ∀ cells ∈ (lines.map cellsOf).filter (· ≠ []), columns.length ≤ cells.length then
        some (((lines.map cellsOf).filter (· ≠ [])).map
          fun cells => Fields.ofObject (lineRow columns cells))
      else none) := by
  have hempty : (columns.map Json.str).isEmpty = false := by simpa using given
  induction lines with
  | nil => simp [rowsOfLines]
  | cons line lines ih =>
    unfold rowsOfLines
    rw [List.map_cons]
    split
    · next hnone => rw [ih, hnone, List.filter_cons_of_neg (by simp)]
    · next first further hcells =>
      rw [hcells, List.filter_cons_of_pos (by simp), if_neg (by simp [hempty]), List.length_map]
      split
      · next hfew =>
        rw [if_neg]
        intro h
        exact absurd (h _ List.mem_cons_self) (Nat.not_le_of_lt hfew)
      · next henough =>
        rw [rowUnder_eq distinct, Outcome.ok_bind, ih, Outcome.ok_bind]
        have hfirst : columns.length ≤ (first :: further).length := Nat.le_of_not_lt henough
        simp only [List.forall_mem_cons, hfirst, true_and, List.map_cons]
        split <;> rfl

/-- The rows of an answer in writing: one for each line that has cells, and none at all if one of
them has too few. -/
theorem readRows?_eq (given : columns ≠ []) (distinct : columns.Nodup)
    (written : isData answer = false) : readRows? answer (columns.map Json.str) = .ok
      (if ∀ cells ∈ rowCells answer, columns.length ≤ cells.length then
        nonempty ((rowCells answer).map fun cells => Fields.ofObject (lineRow columns cells))
      else none) := by
  rw [← rowCells_trim, readRows?]
  split
  · next hblank =>
    rw [hblank]
    rfl
  · unfold isData at written
    split
    · next hread =>
      rw [hread] at written
      cases written
    · next hread =>
      rw [hread] at written
      cases written
    · rw [rowsOfLines_eq given distinct, Outcome.ok_bind, ← rowCells]
      generalize rowCells (Text.trim answer) = lines
      split <;> rfl

theorem nonempty_inj {rows rows' : List Fields} (h : nonempty rows = nonempty rows') :
    rows = rows' := by
  cases rows with
  | nil =>
    cases rows' with
    | nil => rfl
    | cons row rows' => cases h
  | cons row rows =>
    have hsome : nonempty rows' = some (row :: rows) := h.symm
    exact (nonempty_eq_some hsome).1

/-- Where every line has enough cells, the rows keep them exactly if the notes take the place of
none. -/
theorem exists_keepsCells_iff (given : columns ≠ []) (distinct : columns.Nodup)
    (written : isData answer = false)
    (enough : ∀ cells ∈ rowCells answer, columns.length ≤ cells.length) :
    (∃ rows, readRows? answer (columns.map Json.str) = .ok (nonempty rows) ∧
      List.Forall₂ (KeepsCells columns) (rowCells answer) rows) ↔
      ∀ cells ∈ rowCells answer, NotesFit columns cells := by
  rw [readRows?_eq given distinct written, if_pos enough]
  constructor
  · rintro ⟨rows, hrows, keeps⟩ cells hcells
    rw [← nonempty_inj (Except.ok.inj hrows), List.forall₂_map_right_iff, List.forall₂_same]
      at keeps
    exact (keepsCells_lineRow_iff distinct).1 (keeps cells hcells)
  · intro fit
    refine ⟨_, rfl, ?_⟩
    rw [List.forall₂_map_right_iff, List.forall₂_same]
    exact fun cells hcells => (keepsCells_lineRow_iff distinct).2 (fit cells hcells)

/-- An answer in writing has a row for each line that has cells, in their order, unless one of these
lines has too few: then it has no rows.  The rows keep all cells of their lines exactly if the notes
take the place of none. -/
theorem rows_keepCells_iff (given : columns ≠ []) (distinct : columns.Nodup)
    (written : isData answer = false) :
    ((∃ cells ∈ rowCells answer, cells.length < columns.length) →
      readRows? answer (columns.map Json.str) = .ok none) ∧
    ((∀ cells ∈ rowCells answer, columns.length ≤ cells.length) →
      ((∃ rows, readRows? answer (columns.map Json.str) = .ok (nonempty rows) ∧
          List.Forall₂ (KeepsCells columns) (rowCells answer) rows) ↔
        ∀ cells ∈ rowCells answer, NotesFit columns cells)) := by
  refine ⟨?_, exists_keepsCells_iff given distinct written⟩
  rintro ⟨cells, hcells, hfew⟩
  rw [readRows?_eq given distinct written,
    if_neg fun h => absurd (h cells hcells) (Nat.not_le_of_lt hfew)]

/-- Lines with different separators, a blank one between them, and a further cell in the last. -/
theorem rows_keepCells_ring : ["item", "value"] ≠ [] ∧ ["item", "value"].Nodup ∧
    isData "ring | 60\n\nwatch; 80, gold" = false ∧
    ∃ rows, readRows? "ring | 60\n\nwatch; 80, gold" [.str "item", .str "value"] =
        .ok (nonempty rows) ∧
      List.Forall₂ (KeepsCells ["item", "value"])
        [["ring", "60"], ["watch", "80", "gold"]] rows := by
  have given : ["item", "value"] ≠ [] := by simp
  have distinct : ["item", "value"].Nodup := by simp
  have written : isData "ring | 60\n\nwatch; 80, gold" = false := by decide +kernel
  have hcells : rowCells "ring | 60\n\nwatch; 80, gold" =
      [["ring", "60"], ["watch", "80", "gold"]] := by decide +kernel
  have keeps := (rows_keepCells_iff given distinct written).2
  rw [hcells] at keeps
  refine ⟨given, distinct, written, (keeps (by simp)).2 fun cells _ _ i hi => ?_⟩
  exact absurd (List.mem_of_getElem? hi) (by simp)

/-- The cell of a column of notes is lost to the further cells of its line. -/
theorem rows_loseCell_notes : ¬ ∀ (columns : List String) (answer : String), columns ≠ [] →
    columns.Nodup → isData answer = false →
    (∀ cells ∈ rowCells answer, columns.length ≤ cells.length) →
    ∃ rows, readRows? answer (columns.map Json.str) = .ok (nonempty rows) ∧
      List.Forall₂ (KeepsCells columns) (rowCells answer) rows := by
  intro h
  have given : ["item", "notes"] ≠ [] := by simp
  have distinct : ["item", "notes"].Nodup := by simp
  have written : isData "ring, gold, in the safe" = false := by decide +kernel
  have hcells : rowCells "ring, gold, in the safe" = [["ring", "gold", "in the safe"]] := by
    decide +kernel
  have enough : ∀ cells ∈ rowCells "ring, gold, in the safe",
      ["item", "notes"].length ≤ cells.length := by
    rw [hcells]
    simp
  have fit := (exists_keepsCells_iff given distinct written enough).1
    (h _ _ given distinct written enough)
  rw [hcells] at fit
  have hnotes := fit _ List.mem_cons_self (by simp) 1 rfl
  revert hnotes
  decide

end Questionnaire.Answer
