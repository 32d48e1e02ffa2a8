import Questionnaire.Text.Basic
import Questionnaire.Unicode.Case

/-!
# Folded texts

Case folding goes character by character and leaves out none, so it keeps what lies inside a text
inside it, and makes a longer text longer.  It makes no punctuation out of other characters.

## Main Definitions

* `Unicode.IsUnfolded` - a code point that only its own character is folded to

## Main Statements

* `Unicode.foldChar_ne_nil` - no character is left out
* `Unicode.mem_fold_iff` - a punctuation mark is in a folded text exactly if it is in the text
* `Unicode.occursIn_fold` - what lies inside a text does so after folding
* `Unicode.eq_of_fold_eq` - a proper part of a text is folded to another text
-/

namespace Questionnaire

/-! ## Texts inside others -/

theorem Text.infixOf_iff {needle cs : List Char} : infixOf needle cs = true ↔ needle <:+: cs := by
  induction cs with
  | nil => simp [infixOf]
  | cons c rest ih =>
    rw [infixOf, Bool.or_eq_true, List.isPrefixOf_iff_prefix, ih, List.infix_cons_iff]

theorem Text.occursIn_iff {needle s : String} :
    occursIn needle s = true ↔ needle.toList <:+: s.toList := infixOf_iff

namespace Unicode

variable {c : Char} {s t : String}

theorem toList_fold (s : String) : (fold s).toList = s.toList.flatMap foldChar :=
  String.toList_ofList

/-! ## Folded characters -/

/-- No character is left out when a text is folded. -/
theorem foldChar_ne_nil (c : Char) : foldChar c ≠ [] := by
  unfold foldChar
  split
  · next ns hns =>
    have hall : foldTexts.all (!·.2.isEmpty) = true := by decide +kernel
    obtain ⟨before, after, hmem, -⟩ := List.lookup_eq_some_iff.1 hns
    have hne := List.all_eq_true.1 hall (c.toNat, ns) (by simp [hmem])
    simpa using hne
  · split
    · exact List.cons_ne_nil _ _
    · split
      · exact List.cons_ne_nil _ _
      · exact List.cons_ne_nil _ _

/-- A code point that no other character is folded to: no text and no run of the tables leads to
it. -/
def IsUnfolded (n : Nat) : Bool :=
  n != 0 && foldTexts.all (fun e => !e.2.contains n) &&
    (foldRuns ++ lowerRuns).all fun r => (n : Int) < r.first + r.offset || r.last + r.offset < n

theorem toNat_ofNat {n : Nat} (h : (Char.ofNat n).toNat ≠ 0) : (Char.ofNat n).toNat = n := by
  by_cases hvalid : n.isValidChar
  · rw [Char.ofNat, dif_pos hvalid]
    rfl
  · rw [Char.ofNat, dif_neg hvalid] at h
    exact absurd rfl h

theorem ne_of_mem_runs {runs : List CaseRun} {n m : Nat}
    (apart : ∀ r ∈ runs, (n : Int) < r.first + r.offset ∨ r.last + r.offset < n) (hn : n ≠ 0)
    {k : Nat} (h : runs.findSome? (fun r => r.apply? k) = some m) : m ≠ n := by
  obtain ⟨r, hr, happly⟩ := List.exists_of_findSome?_eq_some h
  have hapart := apart r hr
  unfold CaseRun.apply? at happly
  split at happly
  · next hrange =>
    have hm := Option.some.inj happly
    omega
  · cases happly

/-- Only the character itself is folded to a code point that no text and no run of the tables leads
to. -/
theorem eq_of_mem_foldChar {d : Char} (unfolded : IsUnfolded d.toNat = true) (h : d ∈ foldChar c) :
    c = d := by
  simp only [IsUnfolded, Bool.and_eq_true, bne_iff_ne, List.all_eq_true, Bool.or_eq_true,
    decide_eq_true_eq, List.mem_append, Bool.not_eq_true'] at unfolded
  obtain ⟨⟨hpos, htexts⟩, hruns⟩ := unfolded
  have himage {n : Nat} (hd : d = Char.ofNat n) : d.toNat = n := by
    rw [hd] at hpos ⊢
    exact toNat_ofNat hpos
  unfold foldChar at h
  split at h
  · next ns hns =>
    obtain ⟨n, hn, hd⟩ := List.mem_map.1 h
    obtain ⟨before, after, hmem, -⟩ := List.lookup_eq_some_iff.1 hns
    have hnot := htexts (c.toNat, ns) (by simp [hmem])
    rw [himage hd.symm] at hnot
    simp [hn] at hnot
  · split at h
    · next n hn =>
      have hne := ne_of_mem_runs (fun r hr => hruns r (.inl hr)) hpos hn
      exact absurd (himage (List.mem_singleton.1 h)).symm hne
    · split at h
      · exact (List.mem_singleton.1 h).symm
      · have hd := List.mem_singleton.1 h
        rw [lowerChar, mapByRuns] at hd
        split at hd
        · next n hn =>
          have hne := ne_of_mem_runs (fun r hr => hruns r (.inr hr)) hpos hn
          exact absurd (himage hd).symm hne
        · exact hd.symm

/-- A character that is folded to itself alone, and that nothing else is folded to, is in a folded
text exactly if it is in the text. -/
theorem mem_fold_iff {d : Char} (unfolded : IsUnfolded d.toNat = true) (hd : foldChar d = [d]) :
    d ∈ (fold s).toList ↔ d ∈ s.toList := by
  rw [toList_fold, List.mem_flatMap]
  constructor
  · rintro ⟨c, hc, h⟩
    rwa [← eq_of_mem_foldChar unfolded h]
  · intro h
    exact ⟨d, h, by rw [hd]; exact List.mem_singleton_self d⟩

/-! ## Folded parts -/

/-- What lies inside a text does so after folding. -/
theorem occursIn_fold (h : s.toList <:+: t.toList) : Text.occursIn (fold s) (fold t) = true := by
  rw [Text.occursIn_iff, toList_fold, toList_fold]
  obtain ⟨before, after, h⟩ := h
  exact ⟨before.flatMap foldChar, after.flatMap foldChar, by
    rw [← h, List.flatMap_append, List.flatMap_append]⟩

theorem eq_nil_of_flatMap_foldChar {cs : List Char} (h : cs.flatMap foldChar = []) : cs = [] := by
  cases cs with
  | nil => rfl
  | cons c cs =>
    rw [List.flatMap_cons] at h
    exact absurd (List.append_eq_nil_iff.1 h).1 (foldChar_ne_nil c)

/-- A part of a text that is folded to the same text is the whole. -/
theorem eq_of_fold_eq (h : s.toList <:+: t.toList) (hfold : fold s = fold t) : s = t := by
  obtain ⟨before, after, h⟩ := h
  have hlists : s.toList.flatMap foldChar = t.toList.flatMap foldChar := by
    rw [← toList_fold, ← toList_fold, hfold]
  rw [← h, List.flatMap_append, List.flatMap_append] at hlists
  have hlength := congrArg List.length hlists
  simp only [List.length_append] at hlength
  have hbefore : before = [] :=
    eq_nil_of_flatMap_foldChar (List.eq_nil_of_length_eq_zero (by omega))
  have hafter : after = [] :=
    eq_nil_of_flatMap_foldChar (List.eq_nil_of_length_eq_zero (by omega))
  rw [hbefore, hafter, List.nil_append, List.append_nil] at h
  exact String.toList_inj.1 h

end Unicode

end Questionnaire
