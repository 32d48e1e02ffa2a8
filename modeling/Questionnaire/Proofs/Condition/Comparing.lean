import Questionnaire.Condition.Evaluation
import Questionnaire.Proofs.Condition.Printing
import Questionnaire.Proofs.Lookup
import Questionnaire.Proofs.Text.Trimming

/-!
# Comparing fields

The order of two fields is that of the numbers that they denote.  So is their equality, unless both
are texts: these are equal when they are the same between their blanks, whatever they denote.  Hence
equality and order belong together except for two texts that spell one number in different ways,
neither of which is less than, equal to, or greater than the other.

## Main Definitions

* `Json.ReadsAs` - a value is read as a number
* `Condition.comparison` - the condition that compares two fields
* `Condition.Coherent` - equality and order of two fields belong together
* `Condition.SpelledApart` - two texts spell one number in different ways

## Main Statements

* `Condition.holds_comparison` - when a comparison of two fields holds
* `Condition.coherent_iff` - which fields have an equality and an order that belong together
-/

namespace Questionnaire

/-! ## Numbers -/

namespace Quantity

/-- The other way round, quantities compare the other way round. -/
theorem compare?_swap (x y : Quantity) : compare? y x = (compare? x y).map Ordering.swap := by
  cases x with
  | nan => cases y <;> rfl
  | infinity s =>
    cases y with
    | nan => rfl
    | infinity t => cases s <;> cases t <;> rfl
    | exact y => cases s <;> rfl
  | exact x =>
    cases y with
    | nan => rfl
    | infinity t => cases t <;> rfl
    | exact y =>
      rcases lt_trichotomy x y with h | h | h
      · simp [compare?, h, h.not_gt, h.ne']
      · simp [compare?, h]
      · simp [compare?, h, h.not_gt, h.ne']

/-- Quantities that are numbers are comparable. -/
theorem exists_compare? {x y : Quantity} (hx : x ≠ .nan) (hy : y ≠ .nan) :
    ∃ o, compare? x y = some o := by
  cases x with
  | nan => exact absurd rfl hx
  | infinity s =>
    cases y with
    | nan => exact absurd rfl hy
    | infinity t => exact ⟨_, rfl⟩
    | exact y => exact ⟨_, rfl⟩
  | exact x =>
    cases y with
    | nan => exact absurd rfl hy
    | infinity t => exact ⟨_, rfl⟩
    | exact y => exact ⟨_, rfl⟩

end Quantity

theorem Binary64.quantity_ne_nan {x : Binary64} (hx : x ≠ .nan) : x.quantity ≠ .nan := by
  cases x with
  | nan => exact absurd rfl hx
  | infinity s => nofun
  | finite s m e => nofun

/-- A value is read as a number. -/
structure Json.ReadsAs (v : Json) (x : Binary64) : Prop where
  /-- The number is read from it. -/
  number : v.number? = .ok (some x)
  /-- It is a number indeed. -/
  ne_nan : x ≠ .nan

/-- Only numbers and texts denote numbers. -/
theorem Json.ReadsAs.kind {v : Json} {x : Binary64} (hv : v.ReadsAs x) :
    (∃ n, v = .int n) ∨ (∃ z, v = .float z) ∨ ∃ s, v = .str s := by
  cases v with
  | int n => exact .inl ⟨n, rfl⟩
  | float z => exact .inr (.inl ⟨z, rfl⟩)
  | str s => exact .inr (.inr ⟨s, rfl⟩)
  | _ => cases hv.number

namespace Condition

/-- Two texts are different between their blanks and spell one number. -/
inductive SpelledApart : Json → Json → Prop where
  /-- The texts and their numbers. -/
  | texts {s t : String} {x y : Binary64} (differ : Text.trim s ≠ Text.trim t)
    (hx : Json.textNumber? s = some x) (hy : Json.textNumber? t = some y)
    (same : x.quantity.eq y.quantity = true) : SpelledApart (.str s) (.str t)

section Values

variable {v w : Json} {x y : Binary64}

theorem relateNumbers_of_readsAs (r : Quantity → Quantity → Bool) (hv : v.ReadsAs x)
    (hw : w.ReadsAs y) : relateNumbers r v w = .ok (r x.quantity y.quantity) := by
  unfold relateNumbers
  rw [hv.number, hw.number]
  rfl

/-- Values that denote numbers are compared as numbers, except for two texts. -/
theorem looselyEqual_of_readsAs (hv : v.ReadsAs x) (hw : w.ReadsAs y) :
    looselyEqual v w = .ok (x.quantity.eq y.quantity) ∨
      ∃ s t, v = .str s ∧ w = .str t ∧
        looselyEqual v w = .ok (Text.trim s == Text.trim t) := by
  have related := relateNumbers_of_readsAs Quantity.eq hv hw
  rcases hv.kind with ⟨n, rfl⟩ | ⟨z, rfl⟩ | ⟨s, rfl⟩
  · rcases hw.kind with ⟨m, rfl⟩ | ⟨z', rfl⟩ | ⟨t, rfl⟩ <;> exact .inl related
  · rcases hw.kind with ⟨m, rfl⟩ | ⟨z', rfl⟩ | ⟨t, rfl⟩ <;> exact .inl related
  · rcases hw.kind with ⟨m, rfl⟩ | ⟨z', rfl⟩ | ⟨t, rfl⟩
    · exact .inl related
    · exact .inl related
    · exact .inr ⟨s, t, rfl, rfl, rfl⟩

theorem textNumber?_of_readsAs {s : String} (hs : (Json.str s).ReadsAs x) :
    Json.textNumber? s = some x := Except.ok.inj hs.number

/-- Two texts that spell one number in different ways are not equal. -/
theorem looselyEqual_of_spelledApart (apart : SpelledApart v w) : looselyEqual v w = .ok false := by
  obtain ⟨differ, -, -, -⟩ := apart
  exact congrArg Except.ok (beq_eq_false_iff_ne.2 differ)

theorem eq_of_spelledApart (hv : v.ReadsAs x) (hw : w.ReadsAs y) (apart : SpelledApart v w) :
    x.quantity.eq y.quantity = true := by
  obtain ⟨-, hx, hy, same⟩ := apart
  cases hx.symm.trans (textNumber?_of_readsAs hv)
  cases hy.symm.trans (textNumber?_of_readsAs hw)
  exact same

/-- All other values that denote numbers are equal exactly if the numbers are. -/
theorem looselyEqual_of_not_spelledApart (hv : v.ReadsAs x) (hw : w.ReadsAs y)
    (apart : ¬ SpelledApart v w) : looselyEqual v w = .ok (x.quantity.eq y.quantity) := by
  rcases looselyEqual_of_readsAs hv hw with h | ⟨s, t, rfl, rfl, h⟩
  · exact h
  · rw [h]
    have hx := textNumber?_of_readsAs hv
    have hy := textNumber?_of_readsAs hw
    by_cases same : Text.trim s = Text.trim t
    · have hxy : x = y := by
        rw [Json.textNumber?, same] at hx
        exact Option.some.inj (hx.symm.trans hy)
      have heq : x.quantity.eq y.quantity = true :=
        (Quantity.eq_iff _ _).2 ⟨congrArg _ hxy, Binary64.quantity_ne_nan hv.ne_nan⟩
      rw [heq, same, beq_self_eq_true]
    · have hne : x.quantity.eq y.quantity = false :=
        Bool.eq_false_iff.2 fun heq => apart (.texts same hx hy heq)
      rw [hne, beq_eq_false_iff_ne.2 same]

end Values

/-! ## The text of a comparison -/

/-- The condition that compares two fields. -/
def comparison (a : String) (op : Comparison) (b : String) : Json :=
  .str (String.intercalate " " [a, op.spelling, b])

section Fields

variable {a b : String} {fields : Fields}

theorem isBlank_of_mem_identifier (h : isIdentifier a = true) {c : Char} (hc : c ∈ a.toList) :
    Unicode.isBlank c = false := by
  rcases isWord_or_point h hc with hword | rfl
  · exact Unicode.isBlank_of_isWord hword
  · decide

/-- A comparison begins and ends with the names, so there is nothing to trim. -/
theorem trim_comparison (ha : isIdentifier a = true) (hb : isIdentifier b = true)
    (op : Comparison) :
    Text.isBlank (String.intercalate " " [a, op.spelling, b]) = false ∧
      Text.trim (String.intercalate " " [a, op.spelling, b]) =
        String.intercalate " " [a, op.spelling, b] := by
  have hchars : (String.intercalate " " [a, op.spelling, b]).toList =
      a.toList ++ ' ' :: (op.spelling.toList ++ [' ']) ++ b.toList := by simp
  generalize String.intercalate " " [a, op.spelling, b] = text at hchars ⊢
  obtain ⟨c, cs, parts, hfirst, -, -, -⟩ := exists_parts ha
  obtain ⟨d, ds, parts', hlast, -, -, -⟩ := exists_parts hb
  have hc : Unicode.isBlank c = false := isBlank_of_mem_identifier ha (by simp [hfirst])
  have hb' : b.toList ≠ [] := by simp [hlast]
  refine ⟨?_, ?_⟩
  · simp [Text.isBlank, hchars, hfirst, hc]
  · rw [Text.trim, Text.trimChars_of_ends, String.ofList_toList]
    · intro first hmem
      rw [hchars, hfirst] at hmem
      cases hmem
      exact hc
    · intro last hmem
      rw [hchars, List.getLast?_append_of_ne_nil _ hb'] at hmem
      exact isBlank_of_mem_identifier hb (List.mem_of_getLast? hmem)

/-- A comparison of fields holds if their values compare so. -/
theorem holds_comparison (ha : (Expr.field a).isPrintable = true)
    (hb : (Expr.field b).isPrintable = true) {op : Comparison} {c : Bool}
    (h : compareValues op (fields.resolve a) (fields.resolve b) = .ok c) :
    holds (comparison a op b) fields = c := by
  obtain ⟨hblank, htrim⟩ := trim_comparison (Bool.and_eq_true_iff.1 ha).1
    (Bool.and_eq_true_iff.1 hb).1 op
  have prints : Prints .alone (.compare op (.field a) (.field b)) [a, op.spelling, b] :=
    .compare op (.field .operand a) (.field .operand b)
  have hparse := prints.parse_eq_ok (Bool.and_eq_true_iff.2 ⟨ha, hb⟩)
  have heval : Expr.holds (lookupIn fields) (.compare op (.field a) (.field b)) = .ok c := by
    simp only [Expr.holds, Expr.eval, lookupIn, Outcome.ok_bind, h, Outcome.pure_eq_ok]
    rfl
  simp only [holds, comparison, evaluate, evaluateText, hblank, htrim, hparse, heval,
    Bool.false_eq_true, if_false]

/-- Equality and order of two fields belong together: one is less than, equal to, or greater than
the other, in just one of these ways, and the two further comparisons are the alternatives that they
are named for. -/
structure Coherent (a b : String) (fields : Fields) : Prop where
  /-- Just one of three comparisons holds. -/
  one : [holds (comparison a .less b) fields, holds (comparison a .equal b) fields,
    holds (comparison a .greater b) fields].count true = 1
  /-- At least is greater or equal. -/
  greaterEqual : holds (comparison a .greaterEqual b) fields =
    (holds (comparison a .greater b) fields || holds (comparison a .equal b) fields)
  /-- At most is less or equal. -/
  lessEqual : holds (comparison a .lessEqual b) fields =
    (holds (comparison a .less b) fields || holds (comparison a .equal b) fields)

/-- Equality and order of two fields that denote numbers belong together unless the fields are texts
that spell one number in different ways. -/
theorem coherent_iff {x y : Binary64} (ha : (Expr.field a).isPrintable = true)
    (hb : (Expr.field b).isPrintable = true) (hx : (fields.resolve a).ReadsAs x)
    (hy : (fields.resolve b).ReadsAs y) :
    Coherent a b fields ↔ ¬ SpelledApart (fields.resolve a) (fields.resolve b) := by
  obtain ⟨o, ho⟩ := Quantity.exists_compare? (Binary64.quantity_ne_nan hx.ne_nan)
    (Binary64.quantity_ne_nan hy.ne_nan)
  have hswap : y.quantity.compare? x.quantity = some o.swap := by
    rw [Quantity.compare?_swap, ho, Option.map_some]
  have ordered (op : Comparison) (r : Quantity → Quantity → Bool)
      (hop : compareValues op = relateNumbers r) :
      holds (comparison a op b) fields = r x.quantity y.quantity :=
    holds_comparison ha hb (by rw [hop, relateNumbers_of_readsAs r hx hy])
  have hless := ordered .less Quantity.lt rfl
  have hgreater := ordered .greater (fun x y => y.lt x) rfl
  have hlessEqual := ordered .lessEqual Quantity.le rfl
  have hgreaterEqual := ordered .greaterEqual (fun x y => y.le x) rfl
  simp only [Quantity.le, Quantity.lt, Quantity.eq, ho, hswap] at hless hgreater hlessEqual
  simp only [Quantity.le, Quantity.lt, Quantity.eq, hswap] at hgreaterEqual
  by_cases apart : SpelledApart (fields.resolve a) (fields.resolve b)
  · have hequal : holds (comparison a .equal b) fields = false :=
      holds_comparison ha hb (looselyEqual_of_spelledApart apart)
    have same := eq_of_spelledApart hx hy apart
    rw [Quantity.eq, ho] at same
    obtain rfl : o = .eq := by simpa using same
    refine iff_of_false ?_ (not_not.2 apart)
    intro coherent
    have hone := coherent.one
    rw [hless, hequal, hgreater] at hone
    cases hone
  · have hequal : holds (comparison a .equal b) fields = x.quantity.eq y.quantity :=
      holds_comparison ha hb (looselyEqual_of_not_spelledApart hx hy apart)
    rw [Quantity.eq, ho] at hequal
    refine iff_of_true ⟨?_, ?_, ?_⟩ apart
    · rw [hless, hequal, hgreater]
      cases o <;> rfl
    · rw [hgreaterEqual, hequal, hgreater]
      cases o <;> rfl
    · rw [hlessEqual, hequal, hless]

end Fields

/-- A text and a number. -/
theorem coherent_iff_thousand :
    let fields : Fields := [(.str "l", .str "1,000"), (.str "r", .int 1000)]
    (fields.resolve "l").ReadsAs (.ofInt 1000) ∧ (fields.resolve "r").ReadsAs (.ofInt 1000) ∧
      Coherent "l" "r" fields := by
  intro fields
  have hl : (fields.resolve "l").ReadsAs (.ofInt 1000) :=
    ⟨congrArg Except.ok (by decide +kernel : Json.textNumber? "1,000" = _), by decide +kernel⟩
  have hr : (fields.resolve "r").ReadsAs (.ofInt 1000) := ⟨rfl, by decide +kernel⟩
  refine ⟨hl, hr, (coherent_iff (by decide +kernel) (by decide +kernel) hl hr).2 ?_⟩
  nofun

/-- Two texts that spell one number: neither is less than, equal to, or greater than the other. -/
theorem not_coherent_thousand :
    let fields : Fields := [(.str "l", .str "1,000"), (.str "r", .str "1000")]
    (fields.resolve "l").ReadsAs (.ofInt 1000) ∧ (fields.resolve "r").ReadsAs (.ofInt 1000) ∧
      ¬ Coherent "l" "r" fields := by
  intro fields
  have hl : Json.textNumber? "1,000" = some (.ofInt 1000) := by decide +kernel
  have hr : Json.textNumber? "1000" = some (.ofInt 1000) := by decide +kernel
  refine ⟨⟨congrArg Except.ok hl, by decide +kernel⟩, ⟨congrArg Except.ok hr, by decide +kernel⟩, ?_⟩
  intro coherent
  have hnone : [holds (comparison "l" .less "r") fields, holds (comparison "l" .equal "r") fields,
      holds (comparison "l" .greater "r") fields].count true = 0 := by decide +kernel
  cases hnone.symm.trans coherent.one

end Condition

end Questionnaire
