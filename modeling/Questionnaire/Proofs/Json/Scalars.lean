import Questionnaire.Json.Writer
import Questionnaire.Proofs.Number.Notation

/-!
# Written scalars read back

A written number or text is read up to its last character, whatever may stand behind it in a
written value.

## Main Definitions

* `Json.Reader.EndsValue` - what may follow a written value

## Main Statements

* `Json.Reader.scalar_renderInt`, `Json.Reader.scalar_writeFloat` - written numbers
* `Json.Reader.text_write` - written texts
-/

namespace Questionnaire.Json.Reader

/-- What may follow a written value: nothing, a comma, a closing bracket or a new line. -/
def EndsValue : List Char → Prop
  | [] => True
  | c :: _ => c = ',' ∨ c = ']' ∨ c = '\x7d' ∨ c = '\n'

/-! ## Numbers -/

theorem EndsValue.noDigit {rest : List Char} (h : EndsValue rest) :
    rest.takeWhile Char.isDigit = [] := by
  cases rest with
  | nil => rfl
  | cons c rest => obtain rfl | rfl | rfl | rfl := h <;> rfl

theorem EndsValue.noExponent {rest : List Char} (h : EndsValue rest) : exponent? rest = none := by
  cases rest with
  | nil => rfl
  | cons c rest => obtain rfl | rfl | rfl | rfl := h <;> rfl

theorem EndsValue.noPoint {rest : List Char} (h : EndsValue rest) : rest.head? ≠ some '.' := by
  cases rest with
  | nil => simp
  | cons c rest => obtain rfl | rfl | rfl | rfl := h <;> simp

theorem whole_append {ws tail : List Char} (hws : IsWhole ws)
    (htail : tail.takeWhile Char.isDigit = []) : whole (ws ++ tail) = ws := by
  cases ws with
  | nil => exact absurd rfl hws.ne_nil
  | cons c cs =>
    by_cases hc : c = '0'
    · have hcs := hws.leading (by rw [List.head?_cons, hc])
      rw [hcs]
      rfl
    · have hwhole : whole (c :: cs ++ tail) = (c :: cs ++ tail).takeWhile Char.isDigit := by
        unfold whole
        split
        · rename_i heq
          rw [List.cons_append, List.cons.injEq] at heq
          exact absurd heq.1 hc
        · rfl
      rw [hwhole, takeWhile_isDigit_append hws.isDigit htail]

/-- A number is taken apart into the digits before the point, those after it, and what follows. -/
theorem number_parts {ws fs : List Char} (tail : List Char) (hws : IsWhole ws)
    (hfs : ∀ c ∈ fs, c.isDigit = true) (htail : tail.takeWhile Char.isDigit = [])
    (hpoint : tail.head? ≠ some '.') :
    whole (ws ++ (pointed fs ++ tail)) = ws ∧ fraction (pointed fs ++ tail) = fs ∧
      (if fs.isEmpty then pointed fs ++ tail
        else (pointed fs ++ tail).drop (fs.length + 1)) = tail := by
  refine ⟨whole_append hws ?_, ?_, ?_⟩
  · unfold pointed
    split
    · exact htail
    · rfl
  · cases fs with
    | nil =>
      cases tail with
      | nil => rfl
      | cons c tail =>
        show fraction (c :: tail) = []
        unfold fraction
        split
        · rename_i heq
          rw [List.cons.injEq] at heq
          exact absurd (congrArg some heq.1) hpoint
        · rfl
    | cons f fs => exact takeWhile_isDigit_append hfs htail
  · cases fs with
    | nil => rfl
    | cons f fs =>
      show (('.' :: f :: fs) ++ tail).drop ('.' :: f :: fs).length = tail
      rw [List.drop_left]

/-- A written integer. -/
theorem number_int (negative : Bool) {ws rest : List Char} (hws : IsWhole ws)
    (hlength : ws.length ≤ maxDigits) (hrest : EndsValue rest) :
    number negative (ws ++ rest) =
      .ok (.int (if negative then -(digitsValue ws : Int) else digitsValue ws), rest) := by
  obtain ⟨hwhole, hfraction, -⟩ :=
    number_parts rest hws (List.forall_mem_nil _) hrest.noDigit hrest.noPoint
  change whole (ws ++ rest) = ws at hwhole
  change fraction rest = [] at hfraction
  unfold number
  simp only [hwhole, hws.isEmpty, Bool.false_eq_true, if_false, List.drop_left, hfraction,
    List.isEmpty_nil, if_true, hrest.noExponent, if_neg (Nat.not_lt.2 hlength)]

theorem exponent?_eq {negative : Bool} {ds rest : List Char} (hne : ds ≠ [])
    (hds : ∀ c ∈ ds, c.isDigit = true) (hrest : EndsValue rest) :
    exponent? ('e' :: (if negative then '-' else '+') :: (ds ++ rest)) =
      some (if negative then -(digitsValue ds : Int) else digitsValue ds, ds.length + 2) := by
  have hempty : ds.isEmpty = false := by
    cases ds with
    | nil => exact absurd rfl hne
    | cons c cs => rfl
  unfold exponent?
  cases negative with
  | true =>
    simp only [true_or, if_true, Binary64.readSign, takeWhile_isDigit_append hds hrest.noDigit,
      hempty, Bool.false_eq_true, if_false]
    congr 2
    omega
  | false =>
    simp only [true_or, if_true, Binary64.readSign, takeWhile_isDigit_append hds hrest.noDigit,
      hempty, Bool.false_eq_true, if_false]
    congr 2
    omega

/-- A written floating point number. -/
theorem number_written (negative : Bool) {w : Written} (isFloat : w.IsFloat) {rest : List Char}
    (hrest : EndsValue rest) :
    number negative (w.chars ++ rest) =
      .ok (.float (.ofDecimal negative w.digits w.power), rest) := by
  have hnoDigit : (w.tail ++ rest).takeWhile Char.isDigit = [] := by
    unfold Written.tail
    split
    · exact hrest.noDigit
    · rfl
  have hnoPoint : (w.tail ++ rest).head? ≠ some '.' := by
    unfold Written.tail
    split
    · exact hrest.noPoint
    · simp
  obtain ⟨hwhole, hfraction, htail⟩ :=
    number_parts (w.tail ++ rest) w.isWhole w.isDigit_fraction hnoDigit hnoPoint
  rw [Written.chars, List.append_assoc, List.append_assoc]
  unfold number
  simp only [hwhole, w.isWhole.isEmpty, Bool.false_eq_true, if_false, List.drop_left, hfraction,
    htail]
  unfold Written.power Written.scale Written.tail
  cases hexponent : w.exponent with
  | none =>
    have hne : w.fraction ≠ [] := isFloat.resolve_right fun h => h hexponent
    simp only [List.nil_append, hrest.noExponent, Int.zero_sub]
    rfl
  | some p =>
    obtain ⟨hne, hes⟩ := w.isDigit_exponent p hexponent
    -- behind the sign and the digits of the exponent the number ends
    have hdrop : ('e' :: (if p.1 then '-' else '+') :: (p.2 ++ rest)).drop (p.2.length + 2) =
        rest := by
      rw [List.drop_succ_cons, List.drop_succ_cons, List.drop_left]
    simp only [List.cons_append, exponent?_eq hne hes hrest, hdrop]
    rfl

/-! ## Words and signs -/

theorem dropWord?_append (word rest : List Char) : dropWord? word (word ++ rest) = some rest := by
  induction word with
  | nil => rfl
  | cons w word ih =>
    rw [List.cons_append, dropWord?, if_pos rfl]
    exact ih

theorem word_append (spelling : String) (v : Json) (rest : List Char) :
    word spelling v (spelling.toList ++ rest) = .ok (v, rest) := by
  rw [word, dropWord?_append]

theorem scalar_null (rest : List Char) : scalar ("null".toList ++ rest) = .ok (.null, rest) :=
  word_append "null" .null rest

theorem scalar_bool (b : Bool) (rest : List Char) :
    scalar ((if b then "true" else "false").toList ++ rest) = .ok (.bool b, rest) := by
  cases b
  · exact word_append "false" (.bool false) rest
  · exact word_append "true" (.bool true) rest

theorem scalar_digit {c : Char} (hc : c.isDigit = true) (cs : List Char) :
    scalar (c :: cs) = number false (c :: cs) := by
  unfold scalar
  split <;> first | (rename_i heq; cases heq; exact absurd hc (by decide)) | rfl

theorem scalar_minus {c : Char} (hc : c.isDigit = true) (cs : List Char) :
    scalar ('-' :: c :: cs) = number true (c :: cs) := by
  unfold scalar
  split <;> first | (rename_i heq; cases heq; done) | skip
  · rename_i heq
    cases heq
    exact absurd hc (by decide)
  · rename_i heq
    cases heq
    rfl
  · rename_i hminus
    exact absurd rfl (hminus (c :: cs))

/-- A sign and a magnitude in writing are a number. -/
theorem scalar_written (negative : Bool) (w : Written) (rest : List Char) :
    scalar ((minusIf negative).toList ++ w.chars ++ rest) = number negative (w.chars ++ rest) := by
  obtain ⟨c, cs, hchars, hc⟩ := w.exists_chars_eq_cons
  rw [hchars]
  cases negative with
  | true => exact scalar_minus hc (cs ++ rest)
  | false => exact scalar_digit hc (cs ++ rest)

/-- A written integer is read as the integer. -/
theorem scalar_renderInt {n : Int} (hn : n.natAbs.repr.length ≤ maxDigits) {rest : List Char}
    (hrest : EndsValue rest) : scalar ((renderInt n).toList ++ rest) = .ok (.int n, rest) := by
  rw [toList_renderInt, scalar_written, Written.chars_ofNat, Nat.toList_repr,
    number_int _ (isWhole_toDigits n.natAbs) (by rwa [← length_repr]) hrest, digitsValue_toDigits]
  by_cases hneg : n < 0
  · rw [decide_eq_true hneg, if_pos rfl, show -(n.natAbs : Int) = n by omega]
  · rw [decide_eq_false hneg, if_neg Bool.false_ne_true, show (n.natAbs : Int) = n by omega]

/-- A written number of the format is read as the number. -/
theorem scalar_writeFloat {x : Binary64} (canonical : x.IsCanonical) {rest : List Char}
    (hrest : EndsValue rest) : scalar ((writeFloat x).toList ++ rest) = .ok (.float x, rest) := by
  cases x with
  | nan => exact word_append "NaN" (.float .nan) rest
  | infinity negative =>
    cases negative
    · exact word_append "Infinity" (.float (.infinity false)) rest
    · exact word_append "-Infinity" (.float (.infinity true)) rest
  | finite negative m e =>
    obtain ⟨w, hchars, hw⟩ := Binary64.exists_written negative canonical
    show scalar ((Binary64.render (.finite negative m e)).toList ++ rest) = _
    rw [hchars, scalar_written, number_written negative hw.isFloat hrest,
      hw.ofDecimal_eq negative canonical]

/-! ## Texts -/

theorem hexFour?_append {cs rest more : List Char} {n : Nat} (h : hexFour? cs = some (n, rest)) :
    hexFour? (cs ++ more) = some (n, rest ++ more) := by
  unfold hexFour? at h
  split at h
  · rename_i a b c d tail
    split at h
    · rename_i x y z w hx hy hz hw
      cases h
      show hexFour? (a :: b :: c :: d :: (rest ++ more)) = _
      simp only [hexFour?, hx, hy, hz, hw]
    · cases h
  · cases h

theorem codeEscape?_hex {n : Nat} (hn : n < 0x20) (rest : List Char) :
    codeEscape? (Text.hex 4 n ++ rest) = some (Char.ofNat n, rest) := by
  -- there are only 32 characters that are written as a code
  have hall : ∀ n : Fin 0x20, hexFour? (Text.hex 4 n.val) = some (n.val, []) ∧
      isHighHalf n.val = false ∧ unitChar n.val = Char.ofNat n.val := by decide
  obtain ⟨hhex, hhigh, hunit⟩ := hall ⟨n, hn⟩
  unfold codeEscape?
  simp only [hexFour?_append hhex, hhigh, hunit, Bool.false_eq_true, if_false, List.nil_append]

/-- A written character is read as the character. -/
theorem text?_escape (fuel : Nat) (c : Char) (rest : List Char) :
    text? (fuel + 1) (escapeJsonChar c ++ rest) =
      (text? fuel rest).map fun p => (c :: p.1, p.2) := by
  unfold escapeJsonChar
  -- each character with an escape of its own is read back by evaluation
  iterate 7
    split
    next h =>
      rw [h]
      rfl
  split
  · rename_i h
    rw [List.cons_append, List.cons_append, text?, codeEscape?_hex h, Char.ofNat_toNat]
  · -- any other character stands for itself
    rename_i hquote hslash _ _ _ _ _ hlow
    rw [List.cons_append, List.nil_append, text?.eq_def]
    split
    · rename_i heq
      cases heq
    · rename_i heq
      cases heq
    · rename_i heq
      cases heq
      exact absurd rfl hquote
    · rename_i heq
      cases heq
      exact absurd rfl hslash
    · rename_i heq
      cases heq
      exact absurd rfl hslash
    · rename_i hfuel hcons
      cases hfuel
      cases hcons
      rw [if_neg (by simp [hslash, hlow])]

theorem text?_write (cs : List Char) {fuel : Nat} (hfuel : cs.length < fuel) (rest : List Char) :
    text? fuel (cs.flatMap escapeJsonChar ++ '"' :: rest) = some (cs, rest) := by
  induction cs generalizing fuel with
  | nil =>
    cases fuel with
    | zero => exact absurd hfuel (Nat.not_lt_zero _)
    | succ fuel => rfl
  | cons c cs ih =>
    cases fuel with
    | zero => exact absurd hfuel (Nat.not_lt_zero _)
    | succ fuel =>
      rw [List.flatMap_cons, List.append_assoc, text?_escape,
        ih (Nat.lt_of_succ_lt_succ hfuel)]
      rfl

/-- A written text is read as the text. -/
theorem text_write (s : String) {fuel : Nat} (hfuel : s.length < fuel) (rest : List Char) :
    text fuel (s.toList.flatMap escapeJsonChar ++ '"' :: rest) = .ok (s, rest) := by
  rw [text, text?_write s.toList (by rwa [String.length_toList])]
  dsimp only
  rw [String.ofList_toList]

end Questionnaire.Json.Reader
