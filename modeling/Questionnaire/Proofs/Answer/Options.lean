import Questionnaire.Answer.Choice
import Questionnaire.Proofs.Text.Folding
import Questionnaire.Proofs.Text.Pieces

/-!
# Options spelled in full

An answer that spells an option chooses the first option that is equal to it up to case.  It need
not do so when the option itself begins with a word of assent and a mark: then only the rest of the
answer is looked up, and the option is chosen exactly if no other one overlaps that rest.

## Main Statements

* `Answer.withoutAssent_part` - what is looked up is a part of the answer
* `Answer.choose?_of_unassented` - an option without a word of assent is chosen by its spelling
* `Answer.choose?_spelled_iff` - when an option is chosen by its spelling
-/

namespace Questionnaire

theorem Text.dropWord?_suffix {word cs rest : List Char} (h : dropWord? word cs = some rest) :
    rest <:+ cs := by
  induction word generalizing cs with
  | nil =>
    rw [dropWord?, Option.some.injEq] at h
    exact h ▸ List.suffix_rfl
  | cons w word ih =>
    cases cs with
    | nil => simp [dropWord?] at h
    | cons c cs =>
      rw [dropWord?] at h
      split at h
      · exact (ih h).trans (List.suffix_cons c cs)
      · cases h

theorem Text.trimChars_part (cs : List Char) : trimChars cs <:+: cs := by
  obtain ⟨lead, trail, -, -, hcs⟩ := exists_eq_append_trimChars cs
  exact ⟨lead, trail, by rw [List.append_assoc]; exact hcs.symm⟩

namespace Answer

variable {s o : String} {options : List String}

/-! ## Words of assent -/

theorem afterAssent?_suffix {cs rest : List Char} (h : afterAssent? cs = some rest) :
    rest <:+ cs := by
  unfold afterAssent? at h
  split at h
  · cases h
  · next after hafter =>
    obtain ⟨word, -, hword⟩ := List.exists_of_findSome?_eq_some hafter
    have hsuffix : after.dropWhile Unicode.isBlank <:+ cs :=
      (List.dropWhile_suffix _).trans (Text.dropWord?_suffix hword)
    split at h
    · cases h
    · next mark rest' hmark =>
      rw [hmark] at hsuffix
      split at h
      · rw [← Option.some.inj h]
        exact (List.dropWhile_suffix _).trans ((List.suffix_cons mark rest').trans hsuffix)
      · cases h

/-- What is looked up for an answer is a part of it. -/
theorem withoutAssent_part (s : String) : (withoutAssent s).toList <:+: s.toList := by
  unfold withoutAssent
  split
  · exact List.infix_rfl
  · next rest hrest =>
    dsimp only
    split
    · exact List.infix_rfl
    · show (String.ofList (Text.trimChars (String.ofList rest).toList)).toList <:+: s.toList
      rw [String.toList_ofList, String.toList_ofList]
      exact (Text.trimChars_part rest).trans (afterAssent?_suffix hrest).isInfix

theorem withoutAssent_eq_self (h : afterAssent? s.toList = none) : withoutAssent s = s := by
  rw [withoutAssent, h]

/-! ## Equal and overlapping options -/

theorem fold_of_sameOption? (h : sameOption? s options = some o) :
    Unicode.fold o = Unicode.fold s := by
  rw [sameOption?] at h
  have hequal := List.find?_some h
  exact beq_iff_eq.1 hequal

/-- An option is equal to some option. -/
theorem exists_sameOption? (mem : o ∈ options) : ∃ p ∈ options, sameOption? o options = some p := by
  have hsome : (sameOption? o options).isSome := by
    rw [sameOption?, List.find?_isSome]
    exact ⟨o, mem, beq_self_eq_true _⟩
  obtain ⟨p, hp⟩ := Option.isSome_iff_exists.1 hsome
  exact ⟨p, List.mem_of_find?_eq_some hp, hp⟩

theorem overlaps_of_part (h : s.toList <:+: o.toList) : overlaps s o = true := by
  rw [overlaps, Unicode.occursIn_fold h, Bool.true_or]

theorem overlaps_congr {p : String} (h : Unicode.fold o = Unicode.fold p) :
    overlaps s o = overlaps s p := by
  rw [overlaps, overlaps, h]

theorem overlaps_of_fold_eq (h : Unicode.fold o = Unicode.fold s) : overlaps s o = true := by
  rw [overlaps_congr h]
  exact overlaps_of_part List.infix_rfl

/-! ## Choices -/

/-- A trimmed text that is not blank is looked up as it stands. -/
theorem choose?_of_trimmed (trimmed : Text.trim o = o) (filled : o ≠ "") (mem : o ∈ options) :
    choose? o options = resolve? (withoutAssent o) options := by
  have hne : ¬(o = "" ∨ options = []) := by
    rintro (h | h)
    · exact filled h
    · exact List.ne_nil_of_mem mem h
  unfold choose?
  dsimp only
  rw [trimmed, if_neg hne]

theorem resolve?_of_sameOption? {p : String} (h : sameOption? s options = some p) :
    resolve? s options = some p := by
  rw [resolve?, h]

/-- An option that begins with no word of assent is chosen by its spelling, unless an equal one
stands before it. -/
theorem choose?_of_unassented (trimmed : Text.trim o = o) (filled : o ≠ "") (mem : o ∈ options)
    (unassented : withoutAssent o = o) : choose? o options = sameOption? o options := by
  obtain ⟨p, -, hp⟩ := exists_sameOption? mem
  rw [choose?_of_trimmed trimmed filled mem, unassented, resolve?_of_sameOption? hp, hp]

/-- If a proper part of an option is looked up, then the first option that is equal to the whole is
chosen exactly if nothing else overlaps the part. -/
theorem resolve?_part_iff (mem : o ∈ options) (part : s.toList <:+: o.toList) (proper : s ≠ o) :
    resolve? s options = sameOption? o options ↔ options.filter (overlaps s) = [o] := by
  obtain ⟨p, hmem, hp⟩ := exists_sameOption? mem
  have hfold := fold_of_sameOption? hp
  have hoverlaps : o ∈ options.filter (overlaps s) :=
    List.mem_filter.2 ⟨mem, overlaps_of_part part⟩
  have hdiffers : Unicode.fold s ≠ Unicode.fold o := fun h => proper (Unicode.eq_of_fold_eq part h)
  rw [hp]
  constructor
  · intro h
    unfold resolve? at h
    split at h
    · -- an option equal to the part is not equal to the whole
      next q hq =>
      rw [Option.some.inj h] at hq
      exact absurd ((fold_of_sameOption? hq).symm.trans hfold) hdiffers
    · split at h
      · next q hq =>
        rw [hq, List.mem_singleton] at hoverlaps
        rw [hq, hoverlaps]
      · cases h
  · intro h
    have hnone : sameOption? s options = none := by
      rw [sameOption?, List.find?_eq_none]
      intro q hq hequal
      have hmemq : q ∈ options.filter (overlaps s) :=
        List.mem_filter.2 ⟨hq, overlaps_of_fold_eq (beq_iff_eq.1 hequal)⟩
      rw [h, List.mem_singleton] at hmemq
      rw [hmemq] at hequal
      exact hdiffers (beq_iff_eq.1 hequal).symm
    have hmemp : p ∈ options.filter (overlaps s) := by
      rw [List.mem_filter, overlaps_congr hfold]
      exact ⟨hmem, overlaps_of_part part⟩
    rw [h, List.mem_singleton] at hmemp
    rw [resolve?, hnone, h, hmemp]

/-- An answer that spells an option chooses the first option that is equal to it up to case exactly
if it begins with no word of assent, or the option is the only one that overlaps what follows that
word. -/
theorem choose?_spelled_iff (mem : o ∈ options) (filled : o ≠ "") (trimmed : Text.trim o = o) :
    choose? o options = options.find? (fun p => Unicode.fold p == Unicode.fold o) ↔
      withoutAssent o = o ∨ options.filter (overlaps (withoutAssent o)) = [o] := by
  show choose? o options = sameOption? o options ↔ _
  by_cases unassented : withoutAssent o = o
  · exact ⟨fun _ => .inl unassented,
      fun _ => choose?_of_unassented trimmed filled mem unassented⟩
  · rw [choose?_of_trimmed trimmed filled mem,
      resolve?_part_iff mem (withoutAssent_part o) unassented, or_iff_right unassented]

/-- Of three options, the one that begins with a word of assent is chosen by its spelling. -/
theorem choose?_spelled_gas : "yes, gas" ∈ ["oil", "yes, gas", "wood"] ∧
    choose? "yes, gas" ["oil", "yes, gas", "wood"] = some "yes, gas" := by
  have hfind : ["oil", "yes, gas", "wood"].find?
      (fun p => Unicode.fold p == Unicode.fold "yes, gas") = some "yes, gas" := by decide +kernel
  refine ⟨by decide, ?_⟩
  rw [← hfind]
  exact (choose?_spelled_iff (by decide) (by decide) (by decide +kernel)).2
    (.inr (by decide +kernel))

/-- With the rest of it as another option, the rest is chosen in its place. -/
theorem choose?_spelled_other : "yes, gas" ∈ ["yes, gas", "gas"] ∧
    Text.trim "yes, gas" = "yes, gas" ∧ Text.trim "gas" = "gas" ∧
    ["yes, gas", "gas"].find? (fun p => Unicode.fold p == Unicode.fold "yes, gas") =
      some "yes, gas" ∧
    choose? "yes, gas" ["yes, gas", "gas"] = some "gas" := by
  decide +kernel

end Answer

end Questionnaire
