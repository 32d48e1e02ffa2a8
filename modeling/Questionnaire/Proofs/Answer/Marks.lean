import Questionnaire.Answer.Limits

/-!
# Marks of limits

In a text every limit begins with its mark: a name and an equals sign, or a sign.  The marks are
told apart by their first characters, except that one sign may begin with another; but no numeral
begins with an equals sign.  So a text that begins with a mark spells what the mark announces, or
nothing.

## Main Definitions

* `Limits.afterMark?` - what follows the mark of a limit
* `Limits.mark` - the mark of a limit

## Main Statements

* `Limits.afterMark?_mark`, `Limits.numeralText?_other_mark` - a mark, and no other, is found
* `Limits.part?_mark` - what a text with a mark spells
-/

namespace Questionnaire

open Unicode (isBlank isDigit)

/-! ## Words -/

theorem Text.dropWord?_append_self (word rest : List Char) :
    dropWord? word (word ++ rest) = some rest := by
  induction word with
  | nil => rfl
  | cons w word ih => rw [List.cons_append, dropWord?, if_pos (Unicode.sameLetter_refl w), ih]

/-- A text that differs from a word at some place does not begin with it. -/
theorem Text.dropWord?_of_differs {word cs rest : List Char}
    (h : (word.zip cs).any (fun p => !Unicode.sameLetter p.1 p.2) = true) :
    dropWord? word (cs ++ rest) = none := by
  induction word generalizing cs with
  | nil => cases h
  | cons w word ih =>
    cases cs with
    | nil => cases h
    | cons c cs =>
      rw [List.cons_append, dropWord?]
      split
      · next hsame =>
        rw [List.zip_cons_cons, List.any_cons, hsame] at h
        exact ih h
      · rfl

namespace Limits

/-! ## Marks -/

/-- What follows the mark of a part at the start of a text. -/
def afterMark? (b : Bound) (cs : List Char) : Option (List Char) :=
  match b with
  | .min => afterName? "min" cs
  | .max => afterName? "max" cs
  | .step => afterName? "step" cs
  | .gte => afterSign? ['>', '='] cs
  | .lte => afterSign? ['<', '='] cs
  | .gt => afterSign? ['>'] cs
  | .lt => afterSign? ['<'] cs

theorem spellings_eq (cs : List Char) :
    spellings cs = Bound.all.map fun b => (b, afterMark? b cs) := rfl

/-- The mark of a part, with blanks between a name and the equals sign. -/
def mark (b : Bound) (gap : List Char) : List Char :=
  match b with
  | .min => "min".toList ++ (gap ++ ['='])
  | .max => "max".toList ++ (gap ++ ['='])
  | .step => "step".toList ++ (gap ++ ['='])
  | .gte => ['>', '=']
  | .lte => ['<', '=']
  | .gt => ['>']
  | .lt => ['<']

variable {b b' : Bound} {gap rest cs : List Char} {c : Char}

theorem isBlank_equals : isBlank '=' = false := by decide +kernel

theorem afterName?_append (name : String) (blankGap : ∀ c ∈ gap, isBlank c = true) :
    afterName? name (name.toList ++ (gap ++ ['=']) ++ rest) = some (rest.dropWhile isBlank) := by
  have hgap : (gap ++ ['='] ++ rest).dropWhile isBlank = '=' :: rest := by
    rw [List.append_assoc, List.dropWhile_append_of_pos blankGap]
    exact List.dropWhile_cons_of_neg (by rw [isBlank_equals]; decide)
  unfold afterName?
  rw [List.append_assoc, Text.dropWord?_append_self]
  dsimp only
  rw [hgap]
  rfl

/-- A mark is found at the start of a text. -/
theorem afterMark?_mark (blankGap : ∀ c ∈ gap, isBlank c = true) :
    afterMark? b (mark b gap ++ rest) = some (rest.dropWhile isBlank) := by
  cases b with
  | min => exact afterName?_append "min" blankGap
  | max => exact afterName?_append "max" blankGap
  | step => exact afterName?_append "step" blankGap
  | gte => rfl
  | lte => rfl
  | gt => rfl
  | lt => rfl

/-- A numeral begins with a digit or a comma. -/
theorem numeralText?_cons_of_other (hc : isDigit c = false) (hcomma : c ≠ ',') :
    numeralText? (c :: cs) = none := by
  unfold numeralText?
  dsimp only
  rw [List.takeWhile_cons_of_neg (by simp [hc, hcomma])]
  rfl

/-- The characters that a mark begins with. -/
def stem (b : Bound) : List Char :=
  match b with
  | .min => "min".toList
  | .max => "max".toList
  | .step => "step".toList
  | .gte => ['>']
  | .lte => ['<']
  | .gt => ['>']
  | .lt => ['<']

theorem exists_mark_append (b : Bound) (gap rest : List Char) :
    ∃ tail, mark b gap ++ rest = stem b ++ tail := by
  cases b with
  | min => exact ⟨_, List.append_assoc _ _ _⟩
  | max => exact ⟨_, List.append_assoc _ _ _⟩
  | step => exact ⟨_, List.append_assoc _ _ _⟩
  | gte => exact ⟨'=' :: rest, rfl⟩
  | lte => exact ⟨'=' :: rest, rfl⟩
  | gt => exact ⟨rest, rfl⟩
  | lt => exact ⟨rest, rfl⟩

theorem afterName?_of_differs {name : String}
    (h : (name.toList.zip (stem b)).any (fun p => !Unicode.sameLetter p.1 p.2) = true) :
    afterName? name (mark b gap ++ rest) = none := by
  obtain ⟨tail, htail⟩ := exists_mark_append b gap rest
  rw [afterName?, htail, Text.dropWord?_of_differs h]

/-- The names and the signs differ from one another. -/
theorem differs_of_ne {name : String} (hname : name ∈ ["min", "max", "step"])
    (h : name ≠ b.name) :
    (name.toList.zip (stem b)).any (fun p => !Unicode.sameLetter p.1 p.2) = true := by
  have hall : ∀ name ∈ ["min", "max", "step"], ∀ b ∈ Bound.all, name ≠ b.name →
      (name.toList.zip (stem b)).any (fun p => !Unicode.sameLetter p.1 p.2) = true := by
    decide +kernel
  exact hall name hname b b.mem_all h

/-- Another name is not found. -/
theorem afterName?_other_mark {name : String} (hname : name ∈ ["min", "max", "step"])
    (h : name ≠ b.name) : (afterName? name (mark b gap ++ rest)).bind numeralText? = none := by
  rw [afterName?_of_differs (differs_of_ne hname h)]
  rfl

theorem name_injective (h : b'.name = b.name) : b' = b := by
  revert h
  cases b' <;> cases b <;> decide

theorem afterSign?_other_head {s : Char} {sign : List Char} (h : s ≠ c) :
    (afterSign? (s :: sign) (c :: cs)).bind numeralText? = none := by
  simp [afterSign?, h]

/-- A sign with an equals sign is not found where the equals sign is missing. -/
theorem afterSign?_longer (s : Char) (hrest : '=' ∉ rest) :
    (afterSign? [s, '='] (s :: rest)).bind numeralText? = none := by
  cases rest with
  | nil => simp [afterSign?]
  | cons c rest =>
    have hc : '=' ≠ c := fun heq => hrest (heq ▸ List.mem_cons_self)
    simp [afterSign?, hc]

/-- No numeral follows a sign before an equals sign. -/
theorem afterSign?_shorter (s : Char) :
    (afterSign? [s] (s :: '=' :: rest)).bind numeralText? = none := by
  have hequals : isDigit '=' = false := by decide +kernel
  simp [afterSign?, isBlank_equals, numeralText?_cons_of_other hequals]

/-- Another mark is not found, or no numeral follows it. -/
theorem numeralText?_other_mark (h : b' ≠ b) (hrest : '=' ∉ rest) :
    (afterMark? b' (mark b gap ++ rest)).bind numeralText? = none := by
  have hname : b'.name ≠ b.name := fun heq => h (name_injective heq)
  obtain ⟨tail, htail⟩ := exists_mark_append b gap rest
  cases b' with
  | min => exact afterName?_other_mark (by decide) hname
  | max => exact afterName?_other_mark (by decide) hname
  | step => exact afterName?_other_mark (by decide) hname
  | gte =>
    cases b with
    | gte => exact absurd rfl h
    | gt => exact afterSign?_longer '>' hrest
    | _ => rw [htail]; exact afterSign?_other_head (by decide)
  | lte =>
    cases b with
    | lte => exact absurd rfl h
    | lt => exact afterSign?_longer '<' hrest
    | _ => rw [htail]; exact afterSign?_other_head (by decide)
  | gt =>
    cases b with
    | gt => exact absurd rfl h
    | gte => exact afterSign?_shorter '>'
    | _ => rw [htail]; exact afterSign?_other_head (by decide)
  | lt =>
    cases b with
    | lt => exact absurd rfl h
    | lte => exact afterSign?_shorter '<'
    | _ => rw [htail]; exact afterSign?_other_head (by decide)

/-- If only one item of a list can be found, it is found or nothing is. -/
theorem findSome?_of_unique {α β : Type} {f : α → Option β} {a : α} {as : List α} (mem : a ∈ as)
    (others : ∀ a' ∈ as, a' ≠ a → f a' = none) : as.findSome? f = f a := by
  cases hf : f a with
  | none =>
    rw [List.findSome?_eq_none_iff]
    intro a' ha'
    by_cases h : a' = a
    · rw [h, hf]
    · exact others a' ha' h
  | some y =>
    induction as with
    | nil => cases mem
    | cons a' as ih =>
      rw [List.findSome?_cons]
      by_cases h : a' = a
      · rw [h, hf]
      · rw [others a' List.mem_cons_self h]
        exact ih ((List.mem_cons.1 mem).resolve_left (Ne.symm h))
          fun x hx => others x (List.mem_cons_of_mem a' hx)

/-- A text after a mark is read as what the mark announces. -/
theorem part?_mark (blankGap : ∀ c ∈ gap, isBlank c = true) (hrest : '=' ∉ rest) :
    part? (mark b gap ++ rest) = (numeralText? (rest.dropWhile isBlank)).map fun n => (b, n) := by
  rw [part?, spellings_eq, List.findSome?_map]
  rw [findSome?_of_unique b.mem_all]
  · show ((afterMark? b (mark b gap ++ rest)).bind numeralText?).map _ = _
    rw [afterMark?_mark blankGap, Option.bind_some]
  · intro b' _ hne
    show ((afterMark? b' (mark b gap ++ rest)).bind numeralText?).map _ = _
    rw [numeralText?_other_mark hne hrest, Option.map_none]

end Limits

end Questionnaire
