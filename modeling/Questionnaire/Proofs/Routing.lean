import Questionnaire.Proofs.Catalog.Processes
import Questionnaire.Proofs.Text.Trimming
import Questionnaire.Routing

/-!
# Which sections are left

The completed sections are kept as data and read back in every turn.  What is read back are distinct
texts without blanks around them, so a section whose key is such a text is found again, and routing
never leads to it twice.

## Main Definitions

* `Routing.IsLabel` - a key that is read back as it was recorded

## Main Statements

* `Routing.completed_of_recorded` - distinct labels are read back as they were recorded
* `Routing.next_eq_some`, `Routing.nextAfter_eq_some` - where routing may lead
-/

namespace Questionnaire

namespace Json

/-- Texts are found in a list when they are members of it. -/
theorem contains_str (xs : List Json) (s : String) :
    xs.contains (.str s) = true ↔ .str s ∈ xs := by
  rw [List.contains_eq_any_beq, List.any_eq_true]
  constructor
  · rintro ⟨v, hv, hbeq⟩
    rw [(isName_str s).symm] at hbeq
    rw [← (beq_str v s).1 hbeq]
    exact hv
  · intro h
    exact ⟨.str s, h, (isName_str s).self⟩

end Json

namespace Routing

/-- A text that is not empty and has no blanks around it. -/
def IsLabel (key : Json) : Prop := ∃ s, key = .str s ∧ Text.trim s = s ∧ s ≠ ""

theorem contains_iff_of_isLabel {done : List Json} {key : Json} (label : IsLabel key) :
    done.contains key = true ↔ key ∈ done := by
  obtain ⟨s, rfl, -, -⟩ := label
  exact Json.contains_str done s

/-! ## Completed sections -/

/-- Distinct labels are kept as they are. -/
theorem distinctTexts_of_labels {found items : List Json} (labels : ∀ v ∈ items, IsLabel v)
    (distinct : (found ++ items).Nodup) : distinctTexts found items = found ++ items := by
  induction items generalizing found with
  | nil => rw [distinctTexts, List.append_nil]
  | cons v rest ih =>
    obtain ⟨s, rfl, htrim, hfilled⟩ := labels v List.mem_cons_self
    have hnew : .str s ∉ found := fun h =>
      (List.nodup_append.1 distinct).2.2 _ h _ List.mem_cons_self rfl
    have hkept : ¬ (s = "" ∨ found.contains (.str s) = true) := by
      rw [Json.contains_str]
      exact not_or.2 ⟨hfilled, hnew⟩
    rw [List.append_cons] at distinct ⊢
    rw [distinctTexts, Json.display_str, htrim, if_neg hkept]
    exact ih (fun w hw => labels w (List.mem_cons_of_mem _ hw)) distinct

/-- Whatever is read, it is distinct labels. -/
theorem labels_of_distinctTexts {found : List Json} (items : List Json)
    (labels : ∀ v ∈ found, IsLabel v) (distinct : found.Nodup) :
    (∀ v ∈ distinctTexts found items, IsLabel v) ∧ (distinctTexts found items).Nodup := by
  induction items generalizing found with
  | nil => exact ⟨labels, distinct⟩
  | cons v rest ih =>
    rw [distinctTexts]
    split
    · exact ih labels distinct
    · rename_i hkept
      rw [Json.contains_str, not_or] at hkept
      refine ih (fun w hw => ?_) (List.nodup_append.2 ⟨distinct, by simp, ?_⟩)
      · rcases List.mem_append.1 hw with hw | hw
        · exact labels w hw
        · rw [List.mem_singleton.1 hw]
          exact ⟨_, rfl, Text.trim_trim _, hkept.1⟩
      · intro a ha b hb hab
        rw [List.mem_singleton.1 hb] at hab
        exact hkept.2 (hab ▸ ha)

theorem labels_of_completed (fields : Fields) :
    (∀ v ∈ completed fields, IsLabel v) ∧ (completed fields).Nodup := by
  unfold completed
  split
  · exact labels_of_distinctTexts _ (by simp) List.nodup_nil
  · exact ⟨by simp, List.nodup_nil⟩

/-- Distinct labels are read back as they were recorded. -/
theorem completed_of_recorded {fields : Fields} {done : List Json}
    (recorded : Assoc.valueAt? Bookkeeping.completed fields = some (.arr done))
    (labels : ∀ v ∈ done, IsLabel v) (distinct : done.Nodup) : completed fields = done := by
  rw [completed, recorded]
  exact distinctTexts_of_labels labels distinct

/-- Without a record nothing is completed. -/
theorem completed_of_unrecorded {fields : Fields}
    (recorded : Assoc.valueAt? Bookkeeping.completed fields = none) : completed fields = [] := by
  rw [completed, recorded]
  rfl

theorem complete_of_not_mem {done : List Json} {key : Json} (label : IsLabel key)
    (h : key ∉ done) : complete done key = done ++ [key] := by
  have hcontains : done.contains key = false :=
    Bool.eq_false_iff.2 fun hc => h ((contains_iff_of_isLabel label).1 hc)
  obtain ⟨s, rfl, -, hfilled⟩ := label
  have hfill : (Json.str s).isFilled = true := by simpa [Json.isFilled] using hfilled
  rw [complete, hfill, hcontains]
  rfl

theorem mem_complete {done : List Json} {key : Json} (label : IsLabel key) :
    key ∈ complete done key := by
  by_cases h : key ∈ done
  · unfold complete
    split
    · exact List.mem_append_left _ h
    · exact h
  · rw [complete_of_not_mem label h]
    exact List.mem_append_right _ (List.mem_singleton_self key)

/-- With one more label the completed sections stay distinct labels. -/
theorem labels_of_complete {done : List Json} {key : Json} (labels : ∀ v ∈ done, IsLabel v)
    (distinct : done.Nodup) (label : IsLabel key) :
    (∀ v ∈ complete done key, IsLabel v) ∧ (complete done key).Nodup := by
  by_cases h : key ∈ done
  · have hsame : complete done key = done := by
      rw [complete, (contains_iff_of_isLabel label).2 h, Bool.not_true, Bool.and_false]
      rfl
    rw [hsame]
    exact ⟨labels, distinct⟩
  · rw [complete_of_not_mem label h]
    refine ⟨fun v hv => ?_, List.nodup_append.2 ⟨distinct, by simp, fun a ha b hb hab => h ?_⟩⟩
    · rcases List.mem_append.1 hv with hv | hv
      · exact labels v hv
      · rw [List.mem_singleton.1 hv]
        exact label
    · rw [← List.mem_singleton.1 hb, ← hab]
      exact ha

/-! ## The next section -/

variable {c : Catalog} {done : List Json} {fields : Fields} {key finished : Json}

/-- The next section exists, stands in the order of routing, and is not completed. -/
theorem next_eq_some (h : next c done fields = some key) :
    key ∈ c.processOrder ∧ (c.process? key).isSome = true ∧ done.contains key = false := by
  have hmem := List.mem_of_find?_eq_some h
  have heligible := List.find?_some h
  unfold isEligible at heligible
  rw [Bool.and_eq_true] at heligible
  obtain ⟨hfree, hholds⟩ := heligible
  refine ⟨hmem, ?_, by simpa using hfree⟩
  split at hholds
  · rename_i p hp
    rw [hp]
    rfl
  · cases hholds

theorem successor?_eq_some (h : successor? c finished done = some key) :
    ∃ p, c.process? finished = some p ∧ p.forcedNext = key ∧ key.isFilled = true ∧
      done.contains key = false := by
  unfold successor? at h
  split at h
  · rename_i p hp
    split at h
    · rename_i hforced
      cases h
      rw [Bool.and_eq_true] at hforced
      exact ⟨p, hp, rfl, hforced.1, by simpa using hforced.2⟩
    · cases h
  · cases h

/-- The sections that are forced after another one. -/
def forced (c : Catalog) : List Json :=
  (c.processes.map fun e => e.2.forcedNext).filter Json.isFilled

/-- The section that follows a completed one exists and is not completed; it stands in the order of
routing or is forced. -/
theorem nextAfter_eq_some (accepted : c.Accepted)
    (h : nextAfter c finished done fields = some key) :
    (key ∈ c.processOrder ∨ key ∈ forced c) ∧ (c.process? key).isSome = true ∧
      done.contains key = false := by
  rcases Option.or_eq_some_iff.1 h with hforced | ⟨-, hnext⟩
  · obtain ⟨p, hp, rfl, hfilled, hfree⟩ := successor?_eq_some hforced
    obtain ⟨e, he, -, rfl⟩ := Assoc.mem_of_valueAt? hp
    refine ⟨.inr (List.mem_filter.2 ⟨List.mem_map_of_mem he, hfilled⟩), ?_, hfree⟩
    exact (Catalog.hasKey_of_forcedNext accepted he hfilled).2
  · obtain ⟨hmem, hknown, hfree⟩ := next_eq_some hnext
    exact ⟨.inl hmem, hknown, hfree⟩

/-- A section of a catalog whose key is a text without blanks around it has a label as its key. -/
theorem isLabel_of_isTrimmed (accepted : c.Accepted) (h : (c.process? key).isSome = true)
    (trimmed : key.isTrimmed = true) : IsLabel key := by
  obtain ⟨p, hp⟩ := Option.isSome_iff_exists.1 h
  obtain ⟨e, he, hkey, -⟩ := Assoc.mem_of_valueAt? hp
  have hfilled := (Catalog.filesSections_of_accepted accepted).2 e he
  cases key with
  | str s =>
    rw [(Json.beq_str _ _).1 hkey] at hfilled
    exact ⟨s, rfl, of_decide_eq_true trimmed, by simpa [Json.isFilled] using hfilled⟩
  | _ => cases trimmed

/-- The keys of the sections of a catalog are labels. -/
theorem isLabel_of_process? (accepted : c.Accepted) (trimmed : c.HasTrimmedKeys)
    (h : (c.process? key).isSome = true) : IsLabel key := by
  obtain ⟨p, hp⟩ := Option.isSome_iff_exists.1 h
  obtain ⟨e, he, hkey, -⟩ := Assoc.mem_of_valueAt? hp
  have htrimmed := trimmed e he
  refine isLabel_of_isTrimmed accepted h ?_
  cases hfiled : e.1 with
  | str s =>
    rw [hfiled, (Json.isName_str s).symm] at hkey
    rwa [(Json.beq_str key s).1 hkey, ← hfiled]
  | _ => rw [hfiled] at htrimmed; cases htrimmed

theorem isLabel_of_mem_forced (accepted : c.Accepted) (trimmed : c.HasTrimmedKeys)
    (h : key ∈ forced c) : IsLabel key := by
  obtain ⟨hmem, hfilled⟩ := List.mem_filter.1 h
  obtain ⟨e, he, rfl⟩ := List.mem_map.1 hmem
  exact isLabel_of_process? accepted trimmed (Catalog.hasKey_of_forcedNext accepted he hfilled).2

end Routing

end Questionnaire
