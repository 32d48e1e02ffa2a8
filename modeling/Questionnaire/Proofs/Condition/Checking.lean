import Questionnaire.Proofs.Catalog.Questions
import Questionnaire.Proofs.Condition.Lexing
import Questionnaire.Proofs.Condition.Reporting
import Questionnaire.Proofs.Json.WellFormed
import Questionnaire.Proofs.Number.Scanning

/-!
# Checking conditions before they are evaluated

A catalog warns of the conditions whose notation cannot be read.  A text is checked as it will be
evaluated, so a text without a warning never fails.  A value that is no text always fails, but it is
checked by its notation: truth values, integers and most floating point numbers have one that is
read as a condition, and what is not filled is not checked at all.

## Main Definitions

* `Fields.InRange` - the integers among named values are within the range
* `Condition.NeverFails` - a condition is evaluated without a report, whatever the named values are
* `Condition.isOverlooked` - the values that are no condition and pass the check

## Main Statements

* `Condition.exists_parse_written_iff` - a number in writing is read exactly if it has no exponent
* `Condition.checkSyntax_eq_none_iff_isOverlooked` - which values that are no text pass the check
* `Catalog.mem_warnings_of_ofJson` - a catalog warns of everything that does not
* `Condition.checked_iff` - for which values the check agrees with the evaluation
-/

namespace Questionnaire

/-- The integers among named values are within the range of floating point numbers. -/
def Fields.InRange (fields : Fields) : Prop :=
  ∀ e ∈ fields, ∀ n, Json.Within (.int n) e.2 → n.natAbs < 2 ^ 1023

/-! ## Numbers in writing -/

namespace Written

variable (w : Written)

/-- The letter of an exponent stands in no other part of a number in writing. -/
theorem mem_chars_iff (negative : Bool) :
    'e' ∈ (minusIf negative).toList ++ w.chars ↔ w.exponent ≠ none := by
  have hletter : 'e' ∉ (minusIf negative).toList := by cases negative <;> decide
  have hwhole : 'e' ∉ w.whole := fun h => absurd (w.isWhole.isDigit _ h) (by decide)
  have hfraction : 'e' ∉ pointed w.fraction := by
    unfold pointed
    split
    · exact List.not_mem_nil
    · intro h
      rcases List.mem_cons.1 h with h | h
      · cases h
      · exact absurd (w.isDigit_fraction _ h) (by decide)
  simp only [chars, List.mem_append, hletter, hwhole, hfraction, false_or, tail]
  cases w.exponent <;> simp

/-- A number in writing begins with a numeral, and its exponent is left. -/
theorem scan?_chars : Numeral.scan? w.chars = some (⟨w.whole, w.fraction⟩, w.tail) := by
  have htail : ∀ c ∈ w.tail.head?, Unicode.isDigit c = false ∧ c ≠ '.' := by
    unfold tail
    split
    · exact nofun
    · rintro c ⟨⟩
      decide +kernel
  refine Numeral.scan?_append w.isWhole.ne_nil
    (fun c hc => Unicode.isDigit_of_isDigit (w.isWhole.isDigit c hc))
    (fun c hc => Unicode.isDigit_of_isDigit (w.isDigit_fraction c hc))
    (fun c hc => (htail c hc).1) fun _ hpoint => ?_
  exact (htail '.' hpoint).2 rfl

end Written

namespace Condition

section Written

variable {text : String} {w : Written}

/-- The number that a number in writing is read as up to its exponent. -/
def stem (w : Written) : Json := Json.ofWhole (Numeral.toBinary64 false ⟨w.whole, w.fraction⟩)

theorem scan_written (text : String) (w : Written) (fuel position : Nat) :
    ∃ next, scan text (fuel + 1) position w.chars =
      (⟨.number (stem w), position⟩ :: ·) <$> scan text fuel next w.tail := by
  obtain ⟨c, cs, hchars, hc⟩ := w.exists_chars_eq_cons
  have hscan := w.scan?_chars
  rw [hchars] at hscan ⊢
  refine ⟨_, scan_cons _ _ _ (Unicode.isBlank_of_digit (Unicode.isDigit_of_isDigit hc)) ?_⟩
  rw [lexeme?_of_not_quote cs (by rintro rfl; cases hc) (by rintro rfl; cases hc), hscan]
  rfl

/-- The letter of an exponent is read as a name. -/
theorem lexeme?_exponent (below : Bool) (es : List Char) :
    lexeme? ('e' :: (if below then '-' else '+') :: es) =
      some (.name "e", (if below then '-' else '+') :: es) := by
  have hletter : Unicode.isWord 'e' = true ∧ Unicode.isDigit 'e' = false := by decide +kernel
  have hsign : Unicode.isWord (if below then '-' else '+') = false := by
    cases below <;> decide +kernel
  have hname : name? ('e' :: (if below then '-' else '+') :: es) =
      some (['e'], (if below then '-' else '+') :: es) := by
    have htail (fuel : Nat) : nameTail (fuel + 1) ((if below then '-' else '+') :: es) =
        ([], (if below then '-' else '+') :: es) := by
      cases below <;> rfl
    simp [name?, hletter, hsign, htail]
  rw [lexeme?_of_not_quote _ (by decide) (by decide), scan?_of_not_digit hletter.2,
    operator?_of_isWord hletter.1, hname]
  have hword : wordLexeme (String.ofList ['e']) = .name "e" := rfl
  dsimp only [Option.map_some]
  rw [hword]

/-- The token of a sign: a minus or nothing. -/
def signTokens (negative : Bool) : List Token := if negative then [⟨.minus, 0⟩] else []

/-- A number in writing is split into its sign, its numeral, and the tokens of its exponent. -/
theorem exists_tokens_written {negative : Bool}
    (h : text.toList = (minusIf negative).toList ++ w.chars) :
    ∃ fuel p next, tokens text = (signTokens negative ++ ⟨.number (stem w), p⟩ :: ·) <$>
      scan text (fuel + 1) next w.tail := by
  obtain ⟨c, cs, hchars, -⟩ := w.exists_chars_eq_cons
  have hlength : w.chars.length = cs.length + 1 := by rw [hchars, List.length_cons]
  cases negative with
  | false =>
    have htext : text.toList = w.chars := h
    obtain ⟨next, hnext⟩ := scan_written text w w.chars.length 0
    refine ⟨cs.length, 0, next, ?_⟩
    rw [tokens, htext, hnext, hlength]
    rfl
  | true =>
    have htext : text.toList = '-' :: w.chars := h
    obtain ⟨hblank, hminus⟩ := lexeme?_of_sign? (l := .minus) rfl w.chars
    have hscan := scan_cons text (w.chars.length + 1) 0 hblank hminus
    generalize 0 + (('-' :: w.chars).length - w.chars.length) = p at hscan
    obtain ⟨next, hnext⟩ := scan_written text w w.chars.length p
    refine ⟨cs.length, p, next, ?_⟩
    rw [tokens, htext]
    refine hscan.trans ?_
    rw [hnext, hlength]
    cases scan text (cs.length + 1) next w.tail <;> rfl

theorem exists_treeOf_number (negative : Bool) (v : Json) (p : Nat) :
    ∃ tree, treeOf text (signTokens negative ++ [⟨.number v, p⟩]) = .ok tree := by
  cases negative with
  | false => exact ⟨.literal v, rfl⟩
  | true => exact ⟨.literal (Condition.negative v), rfl⟩

/-- A number is no condition with a name behind it. -/
theorem exists_treeOf_number_name (text : String) (negative : Bool) (v : Json) (name : String)
    (p q : Nat) (more : List Token) :
    ∃ e, treeOf text (signTokens negative ++ ⟨.number v, p⟩ :: ⟨.name name, q⟩ :: more) =
      .error e := by
  refine ⟨⟨text, .unexpectedToken (.str name), q⟩, ?_⟩
  cases negative with
  | false =>
    have hfuel : enoughFuel (⟨.number v, p⟩ :: ⟨.name name, q⟩ :: more) =
        2 * more.length + 6 + 2 := by
      simp only [enoughFuel, List.length_cons]
      omega
    show treeOf text (⟨.number v, p⟩ :: ⟨.name name, q⟩ :: more) = _
    rw [treeOf, hfuel]
    rfl
  | true =>
    have hfuel : enoughFuel (⟨.minus, 0⟩ :: ⟨.number v, p⟩ :: ⟨.name name, q⟩ :: more) =
        2 * more.length + 8 + 2 := by
      simp only [enoughFuel, List.length_cons]
      omega
    show treeOf text (⟨.minus, 0⟩ :: ⟨.number v, p⟩ :: ⟨.name name, q⟩ :: more) = _
    rw [treeOf, hfuel]
    rfl

/-- A number in writing is read as a condition exactly if it has no exponent. -/
theorem exists_parse_written_iff {negative : Bool}
    (h : text.toList = (minusIf negative).toList ++ w.chars) :
    (∃ tree, parse text = .ok tree) ↔ w.exponent = none := by
  obtain ⟨fuel, p, next, htokens⟩ := exists_tokens_written h
  rw [parse, htokens, Written.tail]
  cases w.exponent with
  | none =>
    refine iff_of_true ?_ rfl
    exact exists_treeOf_number negative (stem w) p
  | some exponent =>
    obtain ⟨below, es⟩ := exponent
    refine iff_of_false ?_ (Option.some_ne_none _)
    dsimp only
    rw [scan_cons _ _ _ (by decide) (lexeme?_exponent below es)]
    rintro ⟨tree, htree⟩
    cases hmore : scan text fuel _ ((if below then '-' else '+') :: es) with
    | error e =>
      rw [hmore] at htree
      cases htree
    | ok more =>
      rw [hmore] at htree
      obtain ⟨e, he⟩ := exists_treeOf_number_name text negative (stem w) "e" p next more
      cases he.symm.trans htree

end Written

/-! ## Values that are no text -/

/-- A condition is evaluated without a report, whatever the named values are, as long as their
integers are within the range. -/
def NeverFails (condition : Json) : Prop :=
  ∀ fields : Fields, fields.InRange → (evaluate condition (lookupIn fields)).2 = none

/-- A value that is no condition and passes the check: it is not filled, or its notation is read as
a condition. -/
def isOverlooked : Json → Bool
  | .null => false
  | .str _ => false
  | .bool _ => true
  | .int _ => true
  | .float x => x != .infinity true && !x.render.toList.contains 'e'
  | .arr xs => xs.isEmpty
  | .obj ms => ms.isEmpty

/-- No token begins with the bracket that a list or an object begins with. -/
theorem exists_parse_bracket {text : String} {c : Char} {cs : List Char}
    (hc : c = '[' ∨ c = '\x7b') (h : text.toList = c :: cs) : ∃ e, parse text = .error e := by
  have hplain : Unicode.isBlank c = false ∧ Unicode.isDigit c = false ∧
      Unicode.isWord c = false := by
    rcases hc with rfl | rfl <;> decide +kernel
  have hquote : c ≠ '\'' ∧ c ≠ '"' := by rcases hc with rfl | rfl <;> decide
  have hoperator : operator? (c :: cs) = none := by rcases hc with rfl | rfl <;> rfl
  obtain ⟨hblank, hdigit, hword⟩ := hplain
  have hlexeme : lexeme? (c :: cs) = none := by
    rw [lexeme?_of_not_quote cs hquote.1 hquote.2, scan?_of_not_digit hdigit, hoperator]
    simp [name?, hword]
  refine ⟨⟨text, .unexpectedCharacter c, 0⟩, ?_⟩
  rw [parse, tokens, h, scan, if_neg (Bool.eq_false_iff.1 hblank), hlexeme]

/-- What passes the check is not filled, is blank or is read as a condition. -/
theorem checkSyntax_eq_none_iff {condition : Json} : checkSyntax condition = none ↔
    condition.isFilled = false ∨ Text.isBlank condition.display = true ∨
      ∃ tree, parse (Text.trim condition.display) = .ok tree := by
  unfold checkSyntax
  cases condition.isFilled <;> cases Text.isBlank condition.display <;>
    cases parse (Text.trim condition.display) <;> simp

/-- A notation that begins and ends with characters that are not blank is read as it stands. -/
theorem checkSyntax_eq_none_iff_of_ends {condition : Json} {c : Char} {cs : List Char}
    (filled : condition.isFilled = true) (h : condition.display.toList = c :: cs)
    (hhead : Unicode.isBlank c = false)
    (hlast : ∀ d ∈ (c :: cs).getLast?, Unicode.isBlank d = false) :
    checkSyntax condition = none ↔ ∃ tree, parse condition.display = .ok tree := by
  have hblank : Text.isBlank condition.display = false := by
    rw [Text.isBlank, h, List.all_cons, hhead, Bool.false_and]
  have htrim : Text.trim condition.display = condition.display := by
    rw [Text.trim, h, Text.trimChars_of_ends (by simpa using hhead) hlast, ← h,
      String.ofList_toList]
  rw [checkSyntax_eq_none_iff, filled, hblank, htrim]
  simp

/-- A filled value that is written as a number passes the check if its notation has no exponent. -/
theorem checkSyntax_written_iff {condition : Json} (filled : condition.isFilled = true)
    {negative : Bool} {w : Written}
    (h : condition.display.toList = (minusIf negative).toList ++ w.chars) :
    checkSyntax condition = none ↔ w.exponent = none := by
  have hplain : ∀ c ∈ (minusIf negative).toList ++ w.chars, Unicode.isBlank c = false := by
    have hmarks : ∀ c ∈ ['.', 'e', '+', '-'], Unicode.isBlank c = false := by
      simpa only [List.all_eq_true, Bool.not_eq_true'] using
        (by decide : ['.', 'e', '+', '-'].all (!Unicode.isBlank ·) = true)
    intro c hc
    rcases List.mem_append.1 hc with hc | hc
    · cases negative with
      | false => cases hc
      | true => exact hmarks c (List.mem_singleton.1 hc ▸ by decide)
    · rcases w.isDigit_or_mem_marks c hc with hdigit | hmark
      · exact Unicode.isBlank_of_digit (Unicode.isDigit_of_isDigit hdigit)
      · exact hmarks c hmark
  obtain ⟨d, ds, hchars, -⟩ := w.exists_chars_eq_cons
  obtain ⟨c, cs, hcs⟩ : ∃ c cs, (minusIf negative).toList ++ w.chars = c :: cs :=
    List.exists_cons_of_ne_nil (by simp [hchars])
  rw [← exists_parse_written_iff h]
  rw [hcs] at h hplain
  exact checkSyntax_eq_none_iff_of_ends filled h (hplain c List.mem_cons_self)
    fun d hd => hplain d (List.mem_of_getLast? hd)

/-- A filled list or object is warned of. -/
theorem checkSyntax_bracketed {condition : Json} (filled : condition.isFilled = true)
    {opening closing : Char} {parts : List String} (hopening : opening = '[' ∨ opening = '\x7b')
    (hclosing : Unicode.isBlank closing = false) (h : condition.display =
      bracketed (String.ofList [opening]) (String.ofList [closing]) parts) :
    checkSyntax condition ≠ none := by
  have hchars : condition.display.toList =
      opening :: ((String.intercalate ", " parts).toList ++ [closing]) := by
    simp [h, bracketed, String.toList_append]
  have hhead : Unicode.isBlank opening = false := by rcases hopening with rfl | rfl <;> decide
  rw [Ne, checkSyntax_eq_none_iff_of_ends filled hchars hhead]
  · obtain ⟨e, he⟩ := exists_parse_bracket hopening hchars
    rintro ⟨tree, htree⟩
    cases he.symm.trans htree
  · rw [← List.cons_append, List.getLast?_concat]
    rintro d ⟨⟩
    exact hclosing

/-- Which floating point numbers pass the check. -/
theorem checkSyntax_float_iff {x : Binary64} (canonical : x.IsCanonical) :
    checkSyntax (.float x) = none ↔ isOverlooked (.float x) = true := by
  cases x with
  | nan => exact iff_of_true rfl rfl
  | infinity negative =>
    cases negative with
    | false => exact iff_of_true rfl rfl
    | true => exact iff_of_false nofun nofun
  | finite negative m e =>
    by_cases hm : m = 0
    · subst hm
      refine iff_of_true rfl ?_
      cases negative <;> simp [isOverlooked, Binary64.render, minusIf]
    · obtain ⟨w, hchars, -⟩ := Binary64.exists_written negative canonical
      have filled : (Json.float (.finite negative m e)).isFilled = true := by
        simpa [Json.isFilled, Binary64.isZero] using hm
      rw [checkSyntax_written_iff filled hchars, isOverlooked, hchars]
      have hexponent := w.mem_chars_iff negative
      simp only [List.contains_eq_mem, hexponent]
      simp

/-- Which values that are no text pass the check. -/
theorem checkSyntax_eq_none_iff_isOverlooked {condition : Json} (wf : condition.WellFormed)
    (given : condition ≠ .null) (h : ∀ s, condition ≠ .str s) :
    checkSyntax condition = none ↔ isOverlooked condition = true := by
  cases condition with
  | null => exact absurd rfl given
  | str s => exact absurd rfl (h s)
  | bool b =>
    refine iff_of_true ?_ rfl
    cases b <;> rfl
  | int n =>
    refine iff_of_true ?_ rfl
    by_cases hn : n = 0
    · subst hn
      rfl
    · have filled : (Json.int n).isFilled = true := by simpa [Json.isFilled] using hn
      exact (checkSyntax_written_iff filled (toList_renderInt n)).2 rfl
  | float x =>
    cases wf with
    | float canonical => exact checkSyntax_float_iff canonical
  | arr xs =>
    cases xs with
    | nil => exact iff_of_true rfl rfl
    | cons x xs =>
      exact iff_of_false (checkSyntax_bracketed rfl (.inl rfl) (by decide) rfl) nofun
  | obj ms =>
    cases ms with
    | nil => exact iff_of_true rfl rfl
    | cons m ms =>
      exact iff_of_false (checkSyntax_bracketed rfl (.inr rfl) (by decide) rfl) nofun

/-- A text that passes the check is evaluated without a report. -/
theorem neverFails_of_checkSyntax {s : String} (h : checkSyntax (.str s) = none) :
    NeverFails (.str s) := by
  intro fields bounded
  refine Option.eq_none_iff_forall_ne_some.2 fun r hr => ?_
  have fails := evaluate_eq_some_iff.1 hr
  rcases checkSyntax_eq_none_iff.1 h with hfilled | hblank | ⟨tree, htree⟩
  · have hs : s = "" := by simpa [Json.isFilled] using hfilled
    subst hs
    cases hr
  · rw [Json.display_str] at hblank
    rw [evaluate_blank hblank] at hr
    cases hr
  · exact not_fails_of_parse htree bounded r fails

/-- A value that is neither absent nor a text is reported over any named values. -/
theorem not_neverFails {condition : Json} (given : condition ≠ .null)
    (h : ∀ s, condition ≠ .str s) : ¬ NeverFails condition := by
  intro never
  have hnone := never [] nofun
  rw [evaluate_eq_some_iff.2 (.notText given h)] at hnone
  cases hnone

/-- The check agrees with the evaluation on all but the values that are overlooked. -/
theorem neverFails_of_checkSyntax_iff {condition : Json} (wf : condition.WellFormed) :
    (checkSyntax condition = none → NeverFails condition) ↔ isOverlooked condition = false := by
  by_cases hnull : condition = .null
  · subst hnull
    exact iff_of_true (fun _ _ _ => rfl) rfl
  by_cases hstr : ∃ s, condition = .str s
  · obtain ⟨s, rfl⟩ := hstr
    exact iff_of_true neverFails_of_checkSyntax rfl
  · have hnotText : ∀ s, condition ≠ .str s := fun s hs => hstr ⟨s, hs⟩
    rw [checkSyntax_eq_none_iff_isOverlooked wf hnull hnotText, ← Bool.not_eq_true]
    exact ⟨fun h overlooked => not_neverFails hnull hnotText (h overlooked),
      fun h overlooked => absurd overlooked h⟩

end Condition

namespace Catalog

/-- A warning that one of the steps of a list gives is among the warnings after all of them. -/
theorem Build.mem_warnings_of_forM {α : Type} {g : α → Build PUnit} {w : Warning} {x : α}
    (keeps : ∀ y s s', (g y).run s = .ok ((), s') → ∀ w ∈ s.warnings, w ∈ s'.warnings)
    (gives : ∀ s s', (g x).run s = .ok ((), s') → w ∈ s'.warnings) {xs : List α} (hx : x ∈ xs)
    {s s' : Findings} (h : (xs.forM g).run s = .ok ((), s')) : w ∈ s'.warnings := by
  have kept {ys : List α} {s s' : Findings} (h : (ys.forM g).run s = .ok ((), s'))
      (hw : w ∈ s.warnings) : w ∈ s'.warnings := by
    induction ys generalizing s with
    | nil =>
      cases h
      exact hw
    | cons y ys ih =>
      obtain ⟨_, s₁, hfirst, hrest⟩ := run_bind_eq_ok_iff.1 h
      exact ih hrest (keeps y s s₁ hfirst w hw)
  induction xs generalizing s with
  | nil => cases hx
  | cons y ys ih =>
    obtain ⟨_, s₁, hfirst, hrest⟩ := run_bind_eq_ok_iff.1 h
    rcases List.mem_cons.1 hx with rfl | hx
    · exact kept hrest (gives s s₁ hfirst)
    · exact ih hx hrest

/-- A condition that does not pass the check is warned of. -/
theorem mem_warnings_of_checkConditions {c : Catalog} {s s' : Findings}
    (h : (checkConditions c).run s = .ok ((), s')) {p : String × Json} (hp : p ∈ c.conditions)
    {e : Condition.SyntaxError} (he : Condition.checkSyntax p.2 = some e) :
    .malformedCondition p.1 e ∈ s'.warnings := by
  refine Build.mem_warnings_of_forM (fun q s s' hq w hw => ?_) (fun s s' hstep => ?_) hp h
  · split at hq
    · cases hq
      exact List.mem_append_left _ hw
    · cases hq
      exact hw
  · rw [he] at hstep
    cases hstep
    exact List.mem_append_right _ List.mem_cons_self

/-- The conditions are checked last. -/
theorem exists_checkConditions {c : Catalog} {s s' : Findings}
    (h : (check c).run s = .ok ((), s')) :
    ∃ s₁, (checkConditions c).run s₁ = .ok ((), s') := by
  obtain ⟨s₁, h⟩ : ∃ s₁, (c.stages.forM (checkStage c) >>= fun _ => checkProcesses c [] c.processes
      >>= fun _ => checkOrder c [] c.processOrder >>= fun _ => checkRules c >>= fun _ =>
      checkConditions c).run s₁ = .ok ((), s') := by
    unfold check at h
    split at h
    · obtain ⟨_, s₁, -, hrest⟩ := Build.run_bind_eq_ok_iff.1 h
      exact ⟨s₁, hrest⟩
    · exact ⟨s, h⟩
  obtain ⟨_, s₂, -, h⟩ := Build.run_bind_eq_ok_iff.1 h
  obtain ⟨_, s₃, -, h⟩ := Build.run_bind_eq_ok_iff.1 h
  obtain ⟨_, s₄, -, h⟩ := Build.run_bind_eq_ok_iff.1 h
  obtain ⟨_, s₅, -, h⟩ := Build.run_bind_eq_ok_iff.1 h
  exact ⟨s₅, h⟩

/-- A catalog that is loaded comes with a warning of each condition that does not pass the check. -/
theorem mem_warnings_of_ofJson {data : Json} {source : String} {c : Catalog}
    {warnings : List Warning} (h : ofJson data source = .ok (c, warnings)) {p : String × Json}
    (hp : p ∈ c.conditions) {e : Condition.SyntaxError}
    (he : Condition.checkSyntax p.2 = some e) : .malformedCondition p.1 e ∈ warnings := by
  unfold ofJson at h
  split at h
  · split at h
    · cases h
    · rename_i findings hbuild
      split at h
      · cases h
        obtain ⟨c', s₁, -, hrest⟩ := Build.run_bind_eq_ok_iff.1 hbuild
        obtain ⟨_, s₂, hcheck, hrest⟩ := Build.run_bind_eq_ok_iff.1 hrest
        cases hrest
        obtain ⟨s, hconditions⟩ := exists_checkConditions hcheck
        exact mem_warnings_of_checkConditions hconditions hp he
      · cases h
  · cases h

end Catalog

namespace Condition

/-- What passes the check is evaluated without a report exactly if it is not overlooked.  A catalog
warns of every condition in it that is neither overlooked nor evaluated without a report. -/
theorem checked_iff {condition : Json} (wf : condition.WellFormed) :
    ((checkSyntax condition = none → NeverFails condition) ↔ isOverlooked condition = false) ∧
      ∀ data source c warnings place, Catalog.ofJson data source = .ok (c, warnings) →
        (place, condition) ∈ c.conditions → isOverlooked condition = false →
          NeverFails condition ∨ ∃ e, .malformedCondition place e ∈ warnings := by
  have agrees := neverFails_of_checkSyntax_iff wf
  refine ⟨agrees, fun data source c warnings place hload hmem noticed => ?_⟩
  cases hcheck : checkSyntax condition with
  | none => exact .inl (agrees.2 noticed hcheck)
  | some e => exact .inr ⟨e, Catalog.mem_warnings_of_ofJson hload hmem hcheck⟩

/-- A catalog in which a condition stands in a list. -/
def enlisted : Json :=
  .obj [
    ("questions", .arr [.obj [("qid", .str "Q1"), ("field_key", .str "name"),
      ("ask_if", .arr [.str "age > 17"])]]),
    ("stages", .arr [.obj [("stage_key", .str "s"), ("question_ids", .arr [.str "Q1"])]])]

/-- A condition is that of the catalog, in its place. -/
def isEnlisted : String × Json → Bool
  | (place, .arr [.str s]) => place == "question Q1 ask_if" && s == "age > 17"
  | _ => false

theorem eq_of_isEnlisted {entry : String × Json} (h : isEnlisted entry = true) :
    entry = ("question Q1 ask_if", .arr [.str "age > 17"]) := by
  unfold isEnlisted at h
  split at h
  · obtain ⟨hplace, hs⟩ := Bool.and_eq_true_iff.1 h
    rw [eq_of_beq hplace, eq_of_beq hs]
  · cases h

/-- A condition in a list is warned of. -/
theorem checked_enlisted : ∃ c warnings e,
    Catalog.ofJson enlisted "catalog.json" = .ok (c, warnings) ∧
      .malformedCondition "question Q1 ask_if" e ∈ warnings := by
  have evaluated : Outcome.Gives (Catalog.ofJson enlisted "catalog.json") fun e =>
      (Catalog.conditions e.1).any isEnlisted = true := by
    decide +kernel
  obtain ⟨⟨c, warnings⟩, hload, hfound⟩ := evaluated
  obtain ⟨entry, hentry, hfound⟩ := List.any_eq_true.1 hfound
  have hmem : ("question Q1 ask_if", .arr [.str "age > 17"]) ∈ c.conditions :=
    eq_of_isEnlisted hfound ▸ hentry
  have wf : (Json.arr [.str "age > 17"]).WellFormed := by simp
  rcases (checked_iff wf).2 _ _ _ _ _ hload hmem rfl with never | ⟨e, he⟩
  · exact absurd never (not_neverFails nofun nofun)
  · exact ⟨c, warnings, e, hload, he⟩

/-- The check sees the notation of a truth value, and the evaluation that it is no text. -/
theorem not_checked_true : ¬ ∀ condition : Json, condition.WellFormed →
    checkSyntax condition = none → NeverFails condition := by
  intro h
  have never := h (.bool true) (.bool true) rfl
  exact absurd never (not_neverFails nofun nofun)

end Condition

end Questionnaire
