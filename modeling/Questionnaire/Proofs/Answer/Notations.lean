import Questionnaire.Answer.Reading
import Questionnaire.Proofs.Answer.Marks
import Questionnaire.Proofs.Answer.Readable
import Questionnaire.Proofs.Text.Pieces

/-!
# Two notations of limits

Limits are written as an object of numbers, or as a text of clauses.  Both notations give the same
limits exactly if no number has a minus and no integer is beyond the range of the format: a clause
with a minus spells no limit and is passed over, and such an integer is refused in an object and
infinite in a text.

## Main Definitions

* `Limits.Figure` - a decimal in writing, with commas between its digits
* `Limits.Clause` - a limit in writing, with blanks where they may stand
* `Limits.textOf` - the text of clauses
* `Limits.Mirrors` - an object that has the same limits as clauses

## Main Statements

* `Limits.Clause.part?_body` - a clause spells its limit, unless it has a minus
* `Limits.exists_readParts_clauses` - what the clauses of a text are read as
* `Limits.Mirrors.get?_of_ofJson` - what the members of an object are read as
* `Limits.notations_agree_iff` - when both notations give the same limits
-/

namespace Questionnaire

open Unicode (isBlank isDigit)

namespace Limits

/-! ## Figures -/

/-- A decimal in writing: a sign, digits with commas between them, and a fraction. -/
structure Figure where
  /-- It has a minus. -/
  negative : Bool
  /-- The digits before the point, and the commas. -/
  whole : List Char
  /-- The digits after the point, none without a point. -/
  fraction : List Char
  /-- Only digits and commas stand before the point. -/
  isWhole : ∀ c ∈ whole, isDigit c = true ∨ c = ','
  /-- Only digits stand after the point. -/
  isFraction : ∀ c ∈ fraction, isDigit c = true
  /-- Some digit stands before the point. -/
  filled : whole.filter (· != ',') ≠ []

namespace Figure

variable (f : Figure)

/-- The characters of a decimal. -/
def chars : List Char :=
  (if f.negative then ['-'] else []) ++ (f.whole ++ pointed f.fraction)

/-- The numeral without sign and commas. -/
def numeral : Numeral := ⟨f.whole.filter (· != ','), f.fraction⟩

theorem isProper_numeral : f.numeral.IsProper where
  whole c hc := by
    obtain ⟨hmem, hcomma⟩ := List.mem_filter.1 hc
    exact (f.isWhole c hmem).resolve_right (by simpa using hcomma)
  fraction := f.isFraction
  filled := List.append_ne_nil_of_left_ne_nil f.filled _

theorem isDigit_or_mem_marks : ∀ c ∈ f.chars, isDigit c = true ∨ c ∈ ['-', ',', '.'] := by
  intro c hc
  rcases List.mem_append.1 hc with hc | hc
  · split at hc
    · exact .inr (List.mem_singleton.1 hc ▸ List.mem_cons_self)
    · cases hc
  · rcases List.mem_append.1 hc with hc | hc
    · rcases f.isWhole c hc with h | rfl
      · exact .inl h
      · exact .inr (by decide)
    · unfold pointed at hc
      split at hc
      · cases hc
      · rcases List.mem_cons.1 hc with rfl | hc
        · exact .inr (by decide)
        · exact .inl (f.isFraction c hc)

theorem isBlank_chars : ∀ c ∈ f.chars, isBlank c = false := by
  intro c hc
  rcases f.isDigit_or_mem_marks c hc with h | h
  · exact Unicode.isBlank_of_digit h
  · have hall : ['-', ',', '.'].all (!isBlank ·) = true := by decide +kernel
    simpa using List.all_eq_true.1 hall c h

theorem notMem_chars {d : Char} (hd : isDigit d = false) (hmarks : d ∉ ['-', ',', '.']) :
    d ∉ f.chars := by
  intro hc
  rcases f.isDigit_or_mem_marks d hc with h | h
  · rw [hd] at h
    cases h
  · exact hmarks h

theorem whole_ne_nil : f.whole ≠ [] := by
  intro h
  have hfilled := f.filled
  rw [h] at hfilled
  exact hfilled rfl

theorem chars_ne_nil : f.chars ≠ [] :=
  List.append_ne_nil_of_right_ne_nil _ (List.append_ne_nil_of_left_ne_nil f.whole_ne_nil _)

/-- A decimal is a plain numeral, unless it has a minus. -/
theorem numeralText?_chars :
    numeralText? f.chars = if f.negative then none else some f.numeral.chars := by
  unfold chars
  split
  · exact numeralText?_cons_of_other (by decide +kernel) (by decide)
  · have hwhole : ∀ c ∈ f.whole, (isDigit c || c == ',') = true := by
      intro c hc
      rcases f.isWhole c hc with h | rfl
      · rw [h, Bool.true_or]
      · rw [beq_self_eq_true, Bool.or_true]
    have hpoint : ¬(isDigit '.' || '.' == ',') = true := by decide +kernel
    have htake : ('.' :: f.fraction).takeWhile (fun c => isDigit c || c == ',') = [] :=
      List.takeWhile_cons_of_neg hpoint
    have hdrop : ('.' :: f.fraction).dropWhile (fun c => isDigit c || c == ',') =
        '.' :: f.fraction := List.dropWhile_cons_of_neg hpoint
    have hempty : f.whole.isEmpty = false :=
      Bool.eq_false_iff.2 fun h => f.whole_ne_nil (List.isEmpty_iff.1 h)
    unfold numeralText?
    dsimp only
    rw [List.nil_append, List.takeWhile_append_of_pos hwhole,
      List.dropWhile_append_of_pos hwhole]
    unfold pointed
    split
    · next hfraction =>
      rw [List.takeWhile_nil, List.append_nil, hempty, if_neg Bool.false_ne_true,
        List.dropWhile_nil]
      have hnone : f.numeral.chars = f.whole.filter (· != ',') := by
        unfold Numeral.chars numeral
        dsimp only
        rw [hfraction, if_pos rfl, List.append_nil]
      rw [hnone]
    · next hfraction =>
      rw [htake, List.append_nil, hempty, if_neg Bool.false_ne_true, hdrop]
      have hall : (!f.fraction.isEmpty && f.fraction.all isDigit) = true := by
        rw [Bool.and_eq_true, List.all_eq_true]
        exact ⟨by simpa using hfraction, f.isFraction⟩
      have hsome : f.numeral.chars = f.whole.filter (· != ',') ++ '.' :: f.fraction := by
        unfold Numeral.chars numeral
        dsimp only
        rw [if_neg hfraction]
      rw [hsome]
      exact if_pos hall

/-- The number that stands for a decimal in an object. -/
def IsData : Json → Prop
  | .int n => f.fraction = [] ∧
      n = if f.negative then -(digitsValue f.numeral.whole : Int) else digitsValue f.numeral.whole
  | .float x => x = f.numeral.toBinary64 f.negative
  | _ => False

/-- Without a minus the number is read as the nearest one to the decimal. -/
theorem IsData.asFloat {v : Json} {x : Binary64} (data : f.IsData v) (unsigned : f.negative = false)
    (h : v.asFloat = .ok x) : x = f.numeral.toBinary64 false := by
  cases v with
  | int n =>
    obtain ⟨hfraction, hn⟩ := data
    rw [unsigned, if_neg Bool.false_ne_true] at hn
    rw [Json.asFloat, hn] at h
    split at h
    · next y hy =>
      cases h
      rw [← Binary64.ofDecimal_of_ofInt? hy, Numeral.toBinary64]
      unfold numeral
      rw [hfraction, List.append_nil]
      rfl
    · cases h
  | float y =>
    cases h
    rw [← unsigned]
    exact data
  | _ => cases data

end Figure

/-! ## Clauses -/

/-- A limit in writing. -/
structure Clause where
  /-- The limit. -/
  bound : Bound
  /-- Its value. -/
  figure : Figure
  /-- The blanks before it. -/
  lead : List Char
  /-- The blanks between its name and the equals sign. -/
  gap : List Char
  /-- The blanks before its value. -/
  space : List Char
  /-- The blanks after it. -/
  trail : List Char
  /-- Only blanks stand before it. -/
  blankLead : ∀ c ∈ lead, isBlank c = true
  /-- Only blanks stand between its name and the equals sign. -/
  blankGap : ∀ c ∈ gap, isBlank c = true
  /-- Only blanks stand before its value. -/
  blankSpace : ∀ c ∈ space, isBlank c = true
  /-- Only blanks stand after it. -/
  blankTrail : ∀ c ∈ trail, isBlank c = true

namespace Clause

variable (k : Clause)

/-- The characters of a clause without the blanks around it. -/
def body : List Char := mark k.bound k.gap ++ (k.space ++ k.figure.chars)

/-- The characters of a clause. -/
def chars : List Char := k.lead ++ (k.body ++ k.trail)

theorem notMem_of_blank {cs : List Char} (blank : ∀ c ∈ cs, isBlank c = true) {d : Char}
    (hd : isBlank d = false) : d ∉ cs := by
  intro h
  rw [blank d h] at hd
  cases hd

/-- A clause spells its limit, unless its value has a minus. -/
theorem part?_body : part? k.body =
    if k.figure.negative then none else some (k.bound, k.figure.numeral.chars) := by
  have hrest : '=' ∉ k.space ++ k.figure.chars := by
    rw [List.mem_append]
    rintro (h | h)
    · exact notMem_of_blank k.blankSpace isBlank_equals h
    · exact k.figure.notMem_chars (by decide +kernel) (by decide) h
  have hdrop : (k.space ++ k.figure.chars).dropWhile isBlank = k.figure.chars := by
    rw [List.dropWhile_append_of_pos k.blankSpace]
    exact Text.dropWhile_eq_self k.figure.isBlank_chars
  rw [body, part?_mark k.blankGap hrest, hdrop, k.figure.numeralText?_chars]
  split <;> rfl

/-- There are no blanks around the body of a clause. -/
theorem trimChars_body : Text.trimChars k.body = k.body := by
  refine Text.trimChars_of_ends ?_ ?_
  · have hhead (b : Bound) (gap rest : List Char) :
        ∀ c ∈ (mark b gap ++ rest).head?, isBlank c = false := by
      obtain ⟨tail, htail⟩ := exists_mark_append b gap rest
      rw [htail]
      cases b <;> simp [stem] <;> decide +kernel
    exact hhead k.bound k.gap _
  · intro c hc
    have hlast : k.body.getLast? = k.figure.chars.getLast? := by
      rw [body, ← List.append_assoc, List.getLast?_append_of_ne_nil _ k.figure.chars_ne_nil]
    rw [hlast] at hc
    exact k.figure.isBlank_chars c (List.mem_of_getLast? hc)

theorem body_ne_nil : k.body ≠ [] :=
  List.append_ne_nil_of_right_ne_nil _
    (List.append_ne_nil_of_right_ne_nil _ k.figure.chars_ne_nil)

/-- No semicolon is in the body of a clause. -/
theorem semicolon_notMem_body : ∀ c ∈ k.body, (c == ';') = false := by
  have hsemicolon : isBlank ';' = false := by decide +kernel
  have hmark : ';' ∉ mark k.bound k.gap := by
    have hgap := notMem_of_blank k.blankGap hsemicolon
    cases k.bound <;> simp [mark, hgap]
  intro c hc
  refine beq_eq_false_iff_ne.2 ?_
  rintro rfl
  rcases List.mem_append.1 hc with hc | hc
  · exact hmark hc
  · rcases List.mem_append.1 hc with hc | hc
    · exact notMem_of_blank k.blankSpace hsemicolon hc
    · exact k.figure.notMem_chars (by decide +kernel) (by decide) hc

theorem trimmedPieces_chars : Text.trimmedPieces (· == ';') k.chars = [k.body] := by
  rw [chars, Text.trimmedPieces_pad k.blankLead k.blankTrail,
    Text.trimmedPieces_eq_singleton k.semicolon_notMem_body k.trimChars_body k.body_ne_nil]

end Clause

/-! ## Texts of clauses -/

variable {ks : List Clause} {ms : Object} {l l' : Limits}

/-- The text of clauses, with semicolons between them. -/
def textOf (ks : List Clause) : String :=
  String.ofList (List.intercalate [';'] (ks.map Clause.chars))

/-- The text of clauses falls into them. -/
theorem splitTrimmed_textOf (ks : List Clause) : Text.splitTrimmed (· == ';') (textOf ks) =
    ks.map fun k => String.ofList k.body := by
  rw [Text.splitTrimmed_eq, textOf, String.toList_ofList, Text.trimmedPieces_intercalate rfl,
    List.flatMap_map]
  simp only [Clause.trimmedPieces_chars]
  rw [← List.map_eq_flatMap, List.map_map]
  rfl

/-- Clauses are read as their values, but those with a minus are passed over. -/
theorem exists_readParts_clauses (distinct : (ks.map (·.bound)).Nodup) (l : Limits) :
    ∃ l', readParts l (ks.map fun k => String.ofList k.body) = .ok l' ∧
      (∀ k ∈ ks, l'.get? k.bound = if k.figure.negative then l.get? k.bound else
        some (k.figure.numeral.toBinary64 false)) ∧
      ∀ b ∉ ks.map (·.bound), l'.get? b = l.get? b := by
  induction ks generalizing l with
  | nil => exact ⟨l, rfl, nofun, fun _ _ => rfl⟩
  | cons k ks ih =>
    rw [List.map_cons] at distinct
    obtain ⟨hnotMem, distinct⟩ := List.nodup_cons.1 distinct
    rw [List.map_cons, readParts, String.toList_ofList, k.part?_body]
    cases hsign : k.figure.negative with
    | true =>
      obtain ⟨l', hl', hks, hothers⟩ := ih distinct l
      refine ⟨l', hl', List.forall_mem_cons.2 ⟨?_, hks⟩, fun b hb => ?_⟩
      · rw [hsign, if_pos rfl]
        exact hothers _ hnotMem
      · exact hothers b fun hmem => hb (List.mem_cons_of_mem _ hmem)
    | false =>
      have hread : (Json.str (String.ofList k.figure.numeral.chars)).asFloat =
          .ok (k.figure.numeral.toBinary64 false) := by
        rw [Json.asFloat, Numeral.read?_chars k.figure.isProper_numeral]
      obtain ⟨l', hl', hks, hothers⟩ :=
        ih distinct (l.put k.bound (k.figure.numeral.toBinary64 false))
      refine ⟨l', ?_, List.forall_mem_cons.2 ⟨?_, fun k' hk' => ?_⟩, fun b hb => ?_⟩
      · rw [if_neg Bool.false_ne_true]
        dsimp only
        rw [hread, Outcome.ok_bind, hl']
      · rw [hsign, if_neg Bool.false_ne_true, hothers _ hnotMem, get?_put_self]
      · have hne : k.bound ≠ k'.bound := fun heq =>
          hnotMem (heq ▸ List.mem_map_of_mem hk')
        rw [hks k' hk', get?_put_of_ne l _ hne]
      · have hne : k.bound ≠ b := fun heq => hb (heq ▸ List.mem_cons_self)
        rw [hothers b fun hmem => hb (List.mem_cons_of_mem _ hmem), get?_put_of_ne l _ hne]

/-! ## Objects -/

/-- An object has the same limits as clauses, in numbers. -/
structure Mirrors (ks : List Clause) (ms : Object) : Prop where
  /-- There is one clause at most for every limit. -/
  distinct : (ks.map (·.bound)).Nodup
  /-- The object gives the value of every clause. -/
  given : ∀ k ∈ ks, ∃ v, k.bound.written? ms = some v ∧ k.figure.IsData v
  /-- It gives no other limits. -/
  absent : ∀ b ∉ ks.map (·.bound), b.written? ms = none

/-- The limits of clauses are held in both notations: none has a minus, and every number of the
object is within the range of the format. -/
def HeldInBoth (ks : List Clause) (ms : Object) : Prop :=
  ∀ k ∈ ks, k.figure.negative = false ∧ ∀ v ∈ k.bound.written? ms, v.isNumeric = true

theorem ext_get? (h : ∀ b, l.get? b = l'.get? b) : l = l' := by
  cases l
  cases l'
  congr 1
  · exact h .min
  · exact h .max
  · exact h .step
  · exact h .gte
  · exact h .lte
  · exact h .gt
  · exact h .lt

namespace Mirrors

/-- What the members of an object are read as. -/
theorem get?_of_ofJson (mirrors : Mirrors ks ms) (h : ofJson (.obj ms) = .ok l) :
    (∀ k ∈ ks, ∃ x, l.get? k.bound = some x ∧
      (k.figure.negative = false → x = k.figure.numeral.toBinary64 false)) ∧
    ∀ b ∉ ks.map (·.bound), l.get? b = none := by
  constructor
  · intro k hk
    obtain ⟨v, hv, data⟩ := mirrors.given k hk
    have hholds := holds_of_ofJson h k.bound
    rw [hv] at hholds
    obtain ⟨x, hx, hget⟩ := hholds
    exact ⟨x, hget, fun unsigned => data.asFloat _ unsigned hx⟩
  · intro b hb
    have hholds := holds_of_ofJson h b
    rw [mirrors.absent b hb] at hholds
    exact hholds

/-- An object of numbers within the range of the format can be read. -/
theorem exists_ofJson (mirrors : Mirrors ks ms) (held : HeldInBoth ks ms) :
    ∃ l, ofJson (.obj ms) = .ok l := by
  rw [exists_ofJson_iff]
  intro _ b v hv
  by_cases hb : b ∈ ks.map (·.bound)
  · obtain ⟨k, hk, rfl⟩ := List.mem_map.1 hb
    exact (held k hk).2 v hv
  · rw [mirrors.absent b hb] at hv
    cases hv

/-- An object is read only if its numbers are within the range of the format. -/
theorem isNumeric_of_ofJson (h : ofJson (.obj ms) = .ok l) (b : Bound) :
    ∀ v ∈ b.written? ms, v.isNumeric = true := by
  intro v hv
  have hholds := holds_of_ofJson h b
  rw [Option.mem_def.1 hv] at hholds
  obtain ⟨x, hx, -⟩ := hholds
  rw [Json.isNumeric, hx]

end Mirrors

/-- Both notations give the same limits, and so the same judgement of every number, exactly if no
value has a minus and every number of the object is within the range of the format. -/
theorem notations_agree_iff (mirrors : Mirrors ks ms) :
    ((∃ l, ofJson (.str (textOf ks)) = .ok l ∧ ofJson (.obj ms) = .ok l) ↔ HeldInBoth ks ms) ∧
    (HeldInBoth ks ms → ∀ (q : Question) (s : String),
      Answer.readNumber { q with constraints := .str (textOf ks) } s =
        Answer.readNumber { q with constraints := .obj ms } s) := by
  obtain ⟨l, hread, hclauses, hothers⟩ := exists_readParts_clauses mirrors.distinct {}
  have htext : ofJson (.str (textOf ks)) = .ok l := by
    rw [ofJson_str, splitTrimmed_textOf, hread]
  have hagree (held : HeldInBoth ks ms) : ofJson (.obj ms) = .ok l := by
    obtain ⟨l', hl'⟩ := mirrors.exists_ofJson held
    obtain ⟨hgiven, habsent⟩ := mirrors.get?_of_ofJson hl'
    rw [hl']
    refine congrArg _ (ext_get? fun b => ?_)
    by_cases hb : b ∈ ks.map (·.bound)
    · obtain ⟨k, hk, rfl⟩ := List.mem_map.1 hb
      obtain ⟨x, hx, hvalue⟩ := hgiven k hk
      have unsigned := (held k hk).1
      rw [hx, hvalue unsigned, hclauses k hk, unsigned, if_neg Bool.false_ne_true]
    · rw [habsent b hb, hothers b hb, get?_empty]
  refine ⟨⟨?_, fun held => ⟨l, htext, hagree held⟩⟩, fun held q s => ?_⟩
  · rintro ⟨l', hl', hobject⟩
    rw [htext] at hl'
    cases hl'
    intro k hk
    refine ⟨?_, Mirrors.isNumeric_of_ofJson hobject k.bound⟩
    -- a clause with a minus is passed over, but the member of the object is not
    obtain ⟨x, hx, -⟩ := (mirrors.get?_of_ofJson hobject).1 k hk
    cases hsign : k.figure.negative with
    | false => rfl
    | true =>
      rw [hclauses k hk, hsign, if_pos rfl, get?_empty] at hx
      cases hx
  · unfold Answer.readNumber
    rw [htext, hagree held]

theorem isWhole_of_all {cs : List Char} (h : cs.all (fun c => isDigit c || c == ',') = true) :
    ∀ c ∈ cs, isDigit c = true ∨ c = ',' := by
  simpa using h

/-- A least price and one that must not be reached. -/
def priceClauses : List Clause := [
  { bound := .min
    figure := ⟨false, "1,000".toList, [], isWhole_of_all (by decide +kernel),
      List.forall_mem_nil _, List.isEmpty_eq_false_iff.1 (by decide)⟩
    lead := []
    gap := [' ']
    space := [' ']
    trail := [' ']
    blankLead := Text.blank_nil
    blankGap := Text.blank_space
    blankSpace := Text.blank_space
    blankTrail := Text.blank_space },
  { bound := .lt
    figure := ⟨false, "5000".toList, ['5'], isWhole_of_all (by decide +kernel),
      List.all_eq_true.1 (by decide +kernel), List.isEmpty_eq_false_iff.1 (by decide)⟩
    lead := [' ']
    gap := []
    space := []
    trail := []
    blankLead := Text.blank_space
    blankGap := Text.blank_nil
    blankSpace := Text.blank_nil
    blankTrail := Text.blank_nil }]

/-- The same limits in numbers. -/
def priceObject : Object := [("lt", .float (.ofDecimal false 50005 (-1))), ("min", .int 1000)]

theorem mirrors_priceObject : Mirrors priceClauses priceObject where
  distinct := by decide
  given := by
    intro k hk
    rcases List.mem_pair.1 hk with rfl | rfl
    · exact ⟨.int 1000, rfl, rfl, by decide +kernel⟩
    · refine ⟨.float (.ofDecimal false 50005 (-1)), rfl, ?_⟩
      show Binary64.ofDecimal false 50005 (-1) = _
      decide +kernel
  absent b hb := by cases b <;> first | rfl | exact absurd (by decide) hb

/-- Prices are limited in both notations alike. -/
theorem notations_agree_prices : textOf priceClauses = "min = 1,000 ; <5000.5" ∧
    ∃ l, ofJson (.str (textOf priceClauses)) = .ok l ∧ ofJson (.obj priceObject) = .ok l := by
  have held : HeldInBoth priceClauses priceObject := by
    intro k hk
    rcases List.mem_pair.1 hk with rfl | rfl
    · exact ⟨rfl, by decide +kernel⟩
    · exact ⟨rfl, by decide +kernel⟩
  exact ⟨by decide +kernel, (notations_agree_iff mirrors_priceObject).1.2 held⟩

/-- A least value below zero. -/
def frostClauses : List Clause := [
  { bound := .min
    figure := ⟨true, ['5'], [], isWhole_of_all (by decide +kernel), List.forall_mem_nil _,
      List.isEmpty_eq_false_iff.1 (by decide)⟩
    lead := []
    gap := []
    space := []
    trail := []
    blankLead := Text.blank_nil
    blankGap := Text.blank_nil
    blankSpace := Text.blank_nil
    blankTrail := Text.blank_nil }]

/-- A least value below zero is held in an object and lost in a text, where a value below it is
accepted. -/
theorem notations_differ_frost : textOf frostClauses = "min=-5" ∧
    Mirrors frostClauses [("min", .int (-5))] ∧
    (Outcome.Gives (ofJson (.str (textOf frostClauses))) fun l =>
      l.min = none ∧ Outcome.Gives (l.violation? (.int (-6))) fun v => v.isNone = true) ∧
    Outcome.Gives (ofJson (.obj [("min", .int (-5))])) fun l =>
      l.min = some (.ofInt (-5)) ∧
        Outcome.Gives (l.violation? (.int (-6))) fun v => v.isSome = true := by
  refine ⟨by decide +kernel, ?_, by decide +kernel, by decide +kernel⟩
  constructor
  · decide
  · intro k hk
    rw [List.mem_singleton.1 hk]
    exact ⟨.int (-5), rfl, rfl, by decide +kernel⟩
  · intro b hb
    cases b <;> first | rfl | exact absurd (by decide) hb

end Limits

end Questionnaire
