import Questionnaire.Proofs.Json.RoundTrip
import Questionnaire.Proofs.Text.Pieces

/-!
# Data on lines

A value that is written on one line holds no character that ends a line, since such characters are
escaped in its texts.  So values that are written one after the other, each with a line feed behind
it, are found again as the lines of the whole.

## Main Definitions

* `Json.Inline` - characters that stay on their line
* `Json.linesOf` - values on lines of their own

## Main Statements

* `Json.inline_write` - a written value stays on its line
* `Json.splitTrimmed_linesOf` - the lines of written objects are the written objects
-/

namespace Questionnaire.Json

/-- No character is a control character, so none of them ends a line. -/
def Inline (cs : List Char) : Prop := ∀ c ∈ cs, 0x20 ≤ c.toNat

@[simp] theorem inline_nil : Inline [] := by simp [Inline]

@[simp] theorem inline_cons {c : Char} {cs : List Char} :
    Inline (c :: cs) ↔ 0x20 ≤ c.toNat ∧ Inline cs := by
  simp [Inline]

@[simp] theorem inline_append {cs ds : List Char} :
    Inline (cs ++ ds) ↔ Inline cs ∧ Inline ds := by
  simp only [Inline, List.mem_append, or_imp, forall_and]

/-! ## Written scalars -/

theorem inline_minusIf (negative : Bool) : Inline (minusIf negative).toList := by
  cases negative <;> simp [minusIf]

theorem inline_chars (w : Written) : Inline w.chars := by
  intro c hc
  have hmarks : Inline ['.', 'e', '+', '-'] := by simp
  rcases w.isDigit_or_mem_marks c hc with hdigit | hmark
  · rw [Char.isDigit, Bool.and_eq_true, decide_eq_true_eq, decide_eq_true_eq] at hdigit
    exact Nat.le_trans (by decide) (UInt32.le_iff_toNat_le.1 hdigit.1)
  · exact hmarks c hmark

theorem inline_renderInt (n : Int) : Inline (renderInt n).toList := by
  rw [toList_renderInt, inline_append]
  exact ⟨inline_minusIf _, inline_chars _⟩

theorem inline_writeFloat {x : Binary64} (canonical : x.IsCanonical) :
    Inline (writeFloat x).toList := by
  cases x with
  | nan => simp [writeFloat]
  | infinity negative =>
    rw [writeFloat, String.toList_append, inline_append]
    exact ⟨inline_minusIf _, by simp⟩
  | finite negative m e =>
    obtain ⟨w, hchars, -⟩ := Binary64.exists_written negative canonical
    show Inline (Binary64.render (.finite negative m e)).toList
    rw [hchars, inline_append]
    exact ⟨inline_minusIf _, inline_chars w⟩

/-- There are only 32 characters that are written as a code. -/
theorem inline_hex (n : Fin 0x20) : Inline (Text.hex 4 n.val) := by
  have hall : ∀ n : Fin 0x20,
      (Text.hex 4 n.val).all (fun d => decide (0x20 ≤ d.toNat)) = true := by decide
  simpa [Inline] using hall n

theorem inline_escapeJsonChar (c : Char) : Inline (escapeJsonChar c) := by
  unfold escapeJsonChar
  repeat' split
  · simp
  · simp
  · simp
  · simp
  · simp
  · simp
  · simp
  · next hlow => simpa using inline_hex ⟨c.toNat, hlow⟩
  · next hhigh => simpa using hhigh

theorem inline_flatMap_escape (cs : List Char) : Inline (cs.flatMap escapeJsonChar) := by
  intro d hd
  obtain ⟨c, -, hd⟩ := List.mem_flatMap.1 hd
  exact inline_escapeJsonChar c d hd

theorem inline_writeText (s : String) : Inline (writeText s).toList := by
  simp [writeText, inline_flatMap_escape]

/-! ## Written values -/

theorem inline_listed {parts : List (List Char)} (h : ∀ p ∈ parts, Inline p) :
    Inline (listed [' '] parts) := by
  induction parts with
  | nil => exact inline_nil
  | cons p parts ih =>
    have hp := h p List.mem_cons_self
    have hrest := ih fun q hq => h q (List.mem_cons_of_mem p hq)
    cases parts with
    | nil => exact hp
    | cons q parts =>
      rw [listed_cons_cons]
      simp [hp, hrest]

theorem inline_enclosed {opening closing : Char} (ho : 0x20 ≤ opening.toNat)
    (hc : 0x20 ≤ closing.toNat) {parts : List (List Char)} (h : ∀ p ∈ parts, Inline p) :
    Inline (enclosed .line opening closing parts) := by
  cases parts with
  | nil => simp [enclosed, ho, hc]
  | cons p parts => simp [enclosed, Gaps.line, ho, hc, inline_listed h]

/-- A value that is written on one line stays on it. -/
theorem inline_write {v : Json} (wellFormed : WellFormed v) : Inline (write v).toList := by
  induction wellFormed with
  | null => simp [write]
  | bool b => cases b <;> simp [write]
  | int n => exact inline_renderInt n
  | @float x canonical => exact inline_writeFloat canonical
  | str s => exact inline_writeText s
  | arr items ih =>
    rw [layout_write.arr 0]
    refine inline_enclosed (by decide) (by decide) fun p hp => ?_
    obtain ⟨v, hv, rfl⟩ := List.mem_map.1 hp
    exact ih v hv
  | obj distinct members ih =>
    rw [layout_write.obj 0]
    refine inline_enclosed (by decide) (by decide) fun p hp => ?_
    obtain ⟨m, hm, rfl⟩ := List.mem_map.1 hp
    simp [memberChars, inline_flatMap_escape, ih m hm]

/-! ## Lines -/

/-- Values on lines of their own. -/
def linesOf (vs : List Json) : String := String.join (vs.map fun v => v.write ++ "\n")

theorem linesOf_concat (vs : List Json) (v : Json) :
    linesOf (vs ++ [v]) = linesOf vs ++ v.write ++ "\n" := by
  simp [linesOf, String.append_assoc]

/-- The lines of written objects are the written objects, if line feeds are among the separators and
all separators are control characters. -/
theorem splitTrimmed_linesOf {p : Char → Bool} (hfeed : p '\n' = true)
    (hcontrol : ∀ c, 0x20 ≤ c.toNat → p c = false) {vs : List Json}
    (wellFormed : ∀ v ∈ vs, v.WellFormed) (objects : ∀ v ∈ vs, ∃ ms, v = .obj ms) :
    Text.splitTrimmed p (linesOf vs) = vs.map write := by
  induction vs with
  | nil => rfl
  | cons v vs ih =>
    have hline : ∀ c ∈ (write v).toList, p c = false :=
      fun c hc => hcontrol c (inline_write (wellFormed v List.mem_cons_self) c hc)
    have htext : (linesOf (v :: vs)).toList = (write v).toList ++ '\n' :: (linesOf vs).toList := by
      simp [linesOf]
    obtain ⟨ms, rfl⟩ := objects v List.mem_cons_self
    have hne : write (.obj ms) ≠ "" := by
      obtain ⟨body, hbody⟩ := exists_toList_write_obj ms
      intro h
      rw [h] at hbody
      cases hbody
    have hrest := ih (fun w hw => wellFormed w (List.mem_cons_of_mem _ hw))
      fun w hw => objects w (List.mem_cons_of_mem _ hw)
    unfold Text.splitTrimmed Text.split at hrest ⊢
    rw [htext, Text.splitWhere_append_cons hfeed, Text.splitWhere_eq_singleton hline,
      List.singleton_append, List.map_cons, List.map_cons,
      String.ofList_toList, trim_write_obj, List.filter_cons_of_pos (by simpa using hne), hrest,
      List.map_cons]

end Questionnaire.Json
