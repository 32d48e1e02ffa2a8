import Questionnaire.Proofs.Number.Notation
import Questionnaire.Proofs.Text.Characters
import Questionnaire.Proofs.Text.Trimming

/-!
# Plain numerals as whole texts

A plain numeral of digits of any script is read, as a whole text, as the number nearest to it.
Whatever a whole text is read as is a number of the format.

## Main Definitions

* `Numeral.IsProper` - a numeral of digits, of which there are some

## Main Statements

* `Numeral.read?_chars` - a plain numeral is read
* `Binary64.isCanonical_of_read?` - what is read is a number of the format
* `Binary64.ofDecimal_of_ofInt?` - a natural is read as it is rounded
-/

namespace Questionnaire

namespace Binary64

/-! ## Characters of a notation -/

theorem isBlank_of_isMargin {c : Char} (h : isMargin c = true) : Unicode.isBlank c = true := by
  unfold isMargin at h
  split at h
  · rw [Unicode.isBlank, Unicode.blankRanges, Unicode.covers_cons, Unicode.covers_cons]
    simp only [Bool.or_eq_true, Bool.and_eq_true, beq_iff_eq, decide_eq_true_eq] at h ⊢
    rcases h with rfl | ⟨hlow, hhigh⟩
    · exact .inr (.inl ⟨by decide, by decide⟩)
    · exact .inl ⟨hlow, hhigh⟩
  · exact h

/-- Characters without underscores stay as they are. -/
theorem joinDigits?_eq_some {cs : List Char} (h : ∀ c ∈ cs, c ≠ '_') (afterDigit : Bool) :
    joinDigits? afterDigit false cs = some cs := by
  induction cs generalizing afterDigit with
  | nil => rfl
  | cons c cs ih =>
    obtain ⟨hc, hcs⟩ := List.forall_mem_cons.1 h
    unfold joinDigits?
    split
    · next heq => cases heq
    · next heq => exact absurd (List.cons.inj heq).1 hc
    · next heq =>
      cases heq
      rw [Bool.false_and, if_neg Bool.false_ne_true, ih hcs, Option.map_some]

/-- What a whole text is read as is a number of the format. -/
theorem isCanonical_of_read? {s : String} {x : Binary64} (h : read? s = some x) :
    x.IsCanonical := by
  unfold read? at h
  dsimp only at h
  split at h
  · cases h
  · split at h
    · cases h
      trivial
    · split at h
      · cases h
        trivial
      · obtain ⟨d, -, rfl⟩ := Option.map_eq_some_iff.1 h
        exact isCanonical_ofDecimal _ _ _

/-- A natural within the range of the format is read as the number nearest to it. -/
theorem ofDecimal_of_ofInt? {n : Nat} {x : Binary64} (h : ofInt? n = some x) :
    ofDecimal false n 0 = x := by
  have hratio : ofRatio false n 1 = x ∧ ∃ s m e, x = .finite s m e := by
    have hint : ofInt n = ofRatio false n 1 := by
      rw [ofInt, decide_eq_false (Int.not_lt.2 (Int.natCast_nonneg n)), Int.natAbs_natCast]
    unfold ofInt? at h
    split at h
    · next s m e hfinite =>
      cases h
      exact ⟨hint ▸ hfinite, s, m, e, rfl⟩
    · cases h
  obtain ⟨hratio, s, m, e, hx⟩ := hratio
  rcases Nat.eq_zero_or_pos n with rfl | hn
  · exact hratio
  -- a finite number has no more than 1024 bits, and so no more than 400 digits
  have hplaces : n.repr.length ≤ 400 := by
    have canonical := isCanonical_ofRatio false n Nat.one_pos
    rw [hratio, hx] at canonical
    obtain ⟨-, hlog⟩ := full_of_ofRatio hn (hratio.trans hx)
    have hmax : Int.log 2 (n : ℚ) < 1200 := by
      have := canonical.2.2.1
      unfold maxExponent at this
      omega
    have hsmall : (n : ℚ) < 10 ^ (400 : Nat) := by
      calc (n : ℚ) < ((2 : Nat) : ℚ) ^ (1200 : Int) :=
            (Int.lt_zpow_iff_log_lt (by decide) (by exact_mod_cast hn)).2 hmax
        _ ≤ 10 ^ (400 : Nat) := by exact_mod_cast two_zpow_le_ten_zpow
    have hlow : (10 : ℚ) ^ (n.repr.length - 1 : Nat) ≤ n := by exact_mod_cast pow_length_repr_le hn
    have := (pow_lt_pow_iff_right₀ (by norm_num : (1 : ℚ) < 10)).1 (hlow.trans_lt hsmall)
    omega
  have hlength := length_repr_pos n
  unfold ofDecimal
  dsimp only
  rw [if_neg hn.ne', if_neg (by omega), if_neg (by omega), if_pos (Int.le_refl 0), ← hratio]
  simp

/-- Digits, a fraction and what follows them are taken apart again, if no digit and no point
follows. -/
theorem readDecimal?_parts {whole fraction tail : List Char} {e : Int}
    (hwhole : ∀ c ∈ whole, Unicode.isDigit c = true)
    (hfraction : ∀ c ∈ fraction, Unicode.isDigit c = true) (filled : whole ++ fraction ≠ [])
    (htake : tail.takeWhile Unicode.isDigit = []) (hdrop : tail.dropWhile Unicode.isDigit = tail)
    (hread : readFraction tail = ([], tail)) (hexponent : readExponent? tail = some e) :
    readDecimal? (whole ++ (pointed fraction ++ tail)) =
      some (digitsValue (whole ++ fraction), e - fraction.length) := by
  have hpointed : (pointed fraction ++ tail).takeWhile Unicode.isDigit = [] ∧
      (pointed fraction ++ tail).dropWhile Unicode.isDigit = pointed fraction ++ tail ∧
      readFraction (pointed fraction ++ tail) = (fraction, tail) := by
    have hpoint : ¬Unicode.isDigit '.' = true := by decide +kernel
    unfold pointed
    split
    · next hempty =>
      rw [List.isEmpty_iff.1 hempty]
      exact ⟨htake, hdrop, hread⟩
    · refine ⟨List.takeWhile_cons_of_neg hpoint, List.dropWhile_cons_of_neg hpoint, ?_⟩
      rw [List.cons_append, readFraction, List.takeWhile_append_of_pos hfraction,
        List.dropWhile_append_of_pos hfraction, htake, hdrop, List.append_nil]
  have hsome : ¬(whole.isEmpty && fraction.isEmpty) = true := by
    intro h
    obtain ⟨h₁, h₂⟩ := Bool.and_eq_true_iff.1 h
    exact filled (by rw [List.isEmpty_iff.1 h₁, List.isEmpty_iff.1 h₂]; rfl)
  unfold readDecimal?
  rw [List.takeWhile_append_of_pos hwhole, List.dropWhile_append_of_pos hwhole, hpointed.1,
    hpointed.2.1, List.append_nil, hpointed.2.2]
  dsimp only
  rw [if_neg hsome, hexponent]
  rfl

end Binary64

namespace Numeral

/-- A numeral of digits, of which there are some. -/
structure IsProper (n : Numeral) : Prop where
  /-- The characters before the point are digits. -/
  whole : ∀ c ∈ n.whole, Unicode.isDigit c = true
  /-- Those after the point are digits. -/
  fraction : ∀ c ∈ n.fraction, Unicode.isDigit c = true
  /-- There are some. -/
  filled : n.whole ++ n.fraction ≠ []

variable {n : Numeral}

theorem IsProper.isDigit_or_point (proper : n.IsProper) :
    ∀ c ∈ n.chars, Unicode.isDigit c = true ∨ c = '.' := by
  intro c hc
  rcases List.mem_append.1 hc with hc | hc
  · exact .inl (proper.whole c hc)
  · split at hc
    · cases hc
    · rcases List.mem_cons.1 hc with rfl | hc
      · exact .inr rfl
      · exact .inl (proper.fraction c hc)

/-- Another character is not in a numeral. -/
theorem IsProper.notMem (proper : n.IsProper) {d : Char} (hd : Unicode.isDigit d = false)
    (hpoint : d ≠ '.') : d ∉ n.chars := by
  intro hc
  rcases proper.isDigit_or_point d hc with h | h
  · rw [hd] at h
    cases h
  · exact hpoint h

theorem IsProper.isMargin_eq_false (proper : n.IsProper) :
    ∀ c ∈ n.chars, Binary64.isMargin c = false := by
  intro c hc
  refine Bool.eq_false_iff.2 fun hmargin => ?_
  have hblank := Binary64.isBlank_of_isMargin hmargin
  rcases proper.isDigit_or_point c hc with h | rfl
  · rw [Unicode.isBlank_of_digit h] at hblank
    cases hblank
  · exact absurd hblank (by decide +kernel)

theorem IsProper.asciiLower_chars (proper : n.IsProper) :
    Binary64.asciiLower n.chars = n.chars := by
  refine (List.map_congr_left fun c hc => ?_).trans (List.map_id _)
  rcases proper.isDigit_or_point c hc with h | rfl
  · exact Unicode.toLower_of_digit h
  · rfl

theorem IsProper.readSign_chars (proper : n.IsProper) :
    Binary64.readSign n.chars = (false, n.chars) := by
  unfold Binary64.readSign
  split
  · next h =>
    have hminus : '-' ∈ n.chars := h ▸ List.mem_cons_self
    exact absurd hminus (proper.notMem (by decide +kernel) (by decide))
  · next h =>
    have hplus : '+' ∈ n.chars := h ▸ List.mem_cons_self
    exact absurd hplus (proper.notMem (by decide +kernel) (by decide))
  · rfl

/-- The digits of a plain numeral are found again. -/
theorem IsProper.readDecimal?_chars (proper : n.IsProper) : Binary64.readDecimal? n.chars =
    some (digitsValue (n.whole ++ n.fraction), -(n.fraction.length : Int)) := by
  have hread := @Binary64.readDecimal?_parts n.whole n.fraction [] 0 proper.whole proper.fraction
    proper.filled rfl rfl rfl rfl
  rwa [List.append_nil, Int.zero_sub] at hread

/-- A plain numeral that is a whole text is read as the number nearest to it. -/
theorem read?_chars (proper : n.IsProper) :
    Binary64.read? (String.ofList n.chars) = some (n.toBinary64 false) := by
  have hbody : ((n.chars.dropWhile Binary64.isMargin).reverse.dropWhile
      Binary64.isMargin).reverse = n.chars :=
    Text.dropEnds_eq_self proper.isMargin_eq_false
  have hjoined : Binary64.joinDigits? false false n.chars = some n.chars := by
    refine Binary64.joinDigits?_eq_some (fun c hc => ?_) false
    rintro rfl
    exact proper.notMem (by decide +kernel) (by decide) hc
  -- the words for special values begin with a letter
  have hword {d : Char} {ds : List Char} (hd : Unicode.isDigit d = false) (hpoint : d ≠ '.') :
      n.chars ≠ d :: ds := by
    intro h
    exact proper.notMem hd hpoint (h ▸ List.mem_cons_self)
  have hinfinity : ¬(n.chars = "inf".toList ∨ n.chars = "infinity".toList) := by
    rintro (h | h)
    · exact hword (by decide +kernel) (by decide) h
    · exact hword (by decide +kernel) (by decide) h
  have hnan : ¬n.chars = "nan".toList := hword (by decide +kernel) (by decide)
  unfold Binary64.read?
  rw [String.toList_ofList, hbody]
  dsimp only
  rw [hjoined]
  dsimp only
  rw [proper.readSign_chars]
  dsimp only
  rw [proper.asciiLower_chars, if_neg hinfinity, if_neg hnan, proper.readDecimal?_chars]
  rfl

end Numeral

end Questionnaire
