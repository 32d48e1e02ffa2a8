import Questionnaire.Proofs.Answer.Judging
import Questionnaire.Proofs.Answer.Steps
import Questionnaire.Proofs.Catalog.Deciding
import Questionnaire.Proofs.Json.WellFormed
import Questionnaire.Proofs.Number.Numerals

/-!
# Limits that can be read

Limits are read whenever a number stands where one is looked for.  In an object a member may be
anything; in a text only a part that gives commas for a number cannot be read, and a part that
spells no limit is passed over.

## Main Definitions

* `Limits.IsReadable` - the limits that are written as a value can be read

## Main Statements

* `Limits.exists_ofJson_iff` - limits are read exactly if they can be read
* `Limits.ofJson_str_eq` - parts that spell no limit are ignored
* `Limits.isCanonical_ofJson` - limits that are read are numbers of the format
-/

namespace Questionnaire

/-- A value of the format is read as one. -/
theorem Json.isCanonical_asFloat {v : Json} {x : Binary64} (hv : v.WellFormed)
    (h : v.asFloat = .ok x) : x.IsCanonical := by
  cases hv with
  | null => cases h
  | bool b =>
    cases h
    exact Binary64.isCanonical_ofRatio _ _ Nat.one_pos
  | int n => exact ((Denotes.int n).asFloat h).1
  | float canonical =>
    cases h
    exact canonical
  | str s =>
    rw [asFloat] at h
    split at h
    · next y hy =>
      cases h
      exact Binary64.isCanonical_of_read? hy
    · cases h
  | arr items => cases h
  | obj distinct members => cases h

namespace Limits

variable {l l' : Limits} {ms : Object} {bounds : List Bound} {parts : List String}

theorem isCanonical_empty : IsCanonical {} := by
  intro b x hx
  rw [get?_empty] at hx
  cases hx

theorem IsCanonical.put (canonical : l.IsCanonical) (b : Bound) {x : Binary64}
    (hx : x.IsCanonical) : (l.put b x).IsCanonical := by
  intro b' y hy
  by_cases h : b = b'
  · rw [← h, get?_put_self, Option.mem_def, Option.some.injEq] at hy
    rw [← hy]
    exact hx
  · rw [get?_put_of_ne l x h] at hy
    exact canonical b' y hy

/-! ## Members of an object -/

/-- The members of an object are read exactly if those that are written are numbers. -/
theorem exists_readMembers_iff :
    (∃ l', readMembers ms l bounds = .ok l') ↔
      ∀ b ∈ bounds, ∀ w ∈ b.written? ms, w.isNumeric = true := by
  induction bounds generalizing l with
  | nil => exact iff_of_true ⟨l, rfl⟩ nofun
  | cons b rest ih =>
    simp only [readMembers_cons_eq_ok_iff, List.forall_mem_cons]
    cases hw : b.written? ms with
    | none =>
      simp only [true_and, false_and, exists_false, or_false, Option.mem_def, reduceCtorEq,
        false_imp_iff, implies_true]
      exact ih
    | some w =>
      have hnumeric : w.isNumeric = true ↔ ∃ x, w.asFloat = .ok x := by
        unfold Json.isNumeric
        cases w.asFloat <;> simp
      constructor
      · rintro ⟨l', ⟨h, -⟩ | ⟨w', x, heq, hx, h⟩⟩
        · cases h
        · cases heq
          refine ⟨fun w' hw' => ?_, ih.1 ⟨l', h⟩⟩
          rw [← Option.some.inj (Option.mem_def.1 hw'), hnumeric]
          exact ⟨x, hx⟩
      · rintro ⟨h, hrest⟩
        obtain ⟨x, hx⟩ := hnumeric.1 (h w rfl)
        obtain ⟨l', hl'⟩ := (ih (l := l.put b x)).2 hrest
        exact ⟨l', .inr ⟨w, x, rfl, hx, hl'⟩⟩

theorem isCanonical_readMembers (hms : (Json.obj ms).WellFormed) (canonical : l.IsCanonical)
    (h : readMembers ms l bounds = .ok l') : l'.IsCanonical := by
  induction bounds generalizing l with
  | nil =>
    cases h
    exact canonical
  | cons b rest ih =>
    rcases readMembers_cons_eq_ok_iff.1 h with ⟨-, h⟩ | ⟨w, x, hw, hx, h⟩
    · exact ih canonical h
    · have hwell : w.WellFormed := by
        have hfound : Assoc.valueAt? b.name ms = some w := by
          unfold Bound.written? at hw
          split at hw
          · cases hw
          · exact hw
        obtain ⟨m, hm, -, rfl⟩ := Assoc.mem_of_valueAt? hfound
        exact (Json.wellFormed_obj_iff.1 hms).2 m hm
      exact ih (canonical.put b (Json.isCanonical_asFloat hwell hx)) h

/-! ## Parts of a text -/

/-- The text of a plain numeral is empty or a proper numeral. -/
theorem exists_numeral_of_numeralText? {cs t : List Char} (h : numeralText? cs = some t) :
    t = [] ∨ ∃ n : Numeral, n.IsProper ∧ t = n.chars := by
  have hwhole : ∀ c ∈ (cs.takeWhile fun c => Unicode.isDigit c || c == ',').filter (· != ','),
      Unicode.isDigit c = true := by
    intro c hc
    obtain ⟨hmem, hcomma⟩ := List.mem_filter.1 hc
    have hdigit := List.mem_takeWhile_imp hmem
    rw [Bool.or_eq_true] at hdigit
    rcases hdigit with hdigit | heq
    · exact hdigit
    · simp [beq_iff_eq.1 heq] at hcomma
  unfold numeralText? at h
  dsimp only at h
  split at h
  · cases h
  · split at h
    · cases h
      by_cases hempty : (cs.takeWhile fun c => Unicode.isDigit c || c == ',').filter
          (· != ',') = []
      · exact .inl hempty
      · refine .inr ⟨⟨_, []⟩, ⟨hwhole, nofun, ?_⟩, (List.append_nil _).symm⟩
        rw [List.append_nil]
        exact hempty
    · next fraction _ =>
      split at h
      · next hfraction =>
        cases h
        rw [Bool.and_eq_true, List.all_eq_true, Bool.not_eq_true'] at hfraction
        refine .inr ⟨⟨_, fraction⟩, ⟨hwhole, hfraction.2, ?_⟩, ?_⟩
        · refine List.append_ne_nil_of_right_ne_nil _ ?_
          rintro rfl
          cases hfraction.1
        · rw [Numeral.chars, hfraction.1]
          rfl
      · cases h
    · cases h

theorem exists_numeral_of_part? {cs t : List Char} {b : Bound} (h : part? cs = some (b, t)) :
    t = [] ∨ ∃ n : Numeral, n.IsProper ∧ t = n.chars := by
  obtain ⟨s, -, hs⟩ := List.exists_of_findSome?_eq_some h
  obtain ⟨t', ht', heq⟩ := Option.map_eq_some_iff.1 hs
  cases heq
  obtain ⟨rest, -, hrest⟩ := Option.bind_eq_some_iff.1 ht'
  exact exists_numeral_of_numeralText? hrest

/-- A part that spells a limit gives a number, unless it gives nothing but commas for it. -/
theorem asFloat_of_part? {cs t : List Char} {b : Bound} (h : part? cs = some (b, t)) :
    (t = [] ∧ ∃ e, (Json.str (String.ofList t)).asFloat = .error e) ∨
      (t ≠ [] ∧ ∃ x, (Json.str (String.ofList t)).asFloat = .ok x) := by
  rcases exists_numeral_of_part? h with rfl | ⟨n, proper, rfl⟩
  · exact .inl ⟨rfl, _, rfl⟩
  · refine .inr ⟨?_, n.toBinary64 false, by rw [Json.asFloat, Numeral.read?_chars proper]⟩
    intro hempty
    have hread := Numeral.read?_chars proper
    rw [hempty] at hread
    cases hread

/-- The parts of a text are read exactly if none of them gives only commas for a number. -/
theorem exists_readParts_iff :
    (∃ l', readParts l parts = .ok l') ↔ ∀ p ∈ parts, ∀ b, part? p.toList ≠ some (b, []) := by
  induction parts generalizing l with
  | nil => exact iff_of_true ⟨l, rfl⟩ nofun
  | cons p rest ih =>
    rw [List.forall_mem_cons, readParts]
    cases hp : part? p.toList with
    | none =>
      dsimp only
      rw [ih]
      exact ⟨fun h => ⟨nofun, h⟩, fun h => h.2⟩
    | some s =>
      obtain ⟨b, t⟩ := s
      dsimp only
      rcases asFloat_of_part? hp with ⟨rfl, e, he⟩ | ⟨hne, x, hx⟩
      · rw [he, Outcome.error_bind]
        refine iff_of_false ?_ fun h => h.1 b rfl
        rintro ⟨l', h⟩
        cases h
      · rw [hx, Outcome.ok_bind, ih]
        refine ⟨fun h => ⟨fun b' heq => ?_, h⟩, fun h => h.2⟩
        cases heq
        exact hne rfl

theorem isCanonical_readParts (canonical : l.IsCanonical) (h : readParts l parts = .ok l') :
    l'.IsCanonical := by
  induction parts generalizing l with
  | nil =>
    cases h
    exact canonical
  | cons p rest ih =>
    rw [readParts] at h
    split at h
    · exact ih canonical h
    · next b numeral _ =>
      obtain ⟨x, hx, h⟩ := Outcome.bind_eq_ok_iff.1 h
      exact ih (canonical.put b (Json.isCanonical_asFloat (.str _) hx)) h

/-- Parts that spell no limit are passed over. -/
theorem readParts_filter (l : Limits) (parts : List String) :
    readParts l (parts.filter fun p => (part? p.toList).isSome) = readParts l parts := by
  induction parts generalizing l with
  | nil => rfl
  | cons p rest ih =>
    cases hp : part? p.toList with
    | none => rw [List.filter_cons_of_neg (by simp [hp]), ih, readParts, hp]
    | some s =>
      rw [List.filter_cons_of_pos (by simp [hp]), readParts, readParts, hp]
      dsimp only
      simp only [ih]

/-! ## Limits -/

/-- The limits that are written as a value can be read: the members of an object are numbers, and no
part of a text gives only commas for one. -/
def IsReadable (v : Json) : Prop :=
  v.isFilled = true →
    match v with
    | .obj ms => ∀ b : Bound, ∀ w ∈ b.written? ms, w.isNumeric = true
    | w => w.longestInt ≤ maxDigits ∧
        ∀ p ∈ Text.splitTrimmed (· == ';') w.display, ∀ b, part? p.toList ≠ some (b, [])

theorem exists_ofText_iff (v : Json) :
    (∃ l, (if maxDigits < v.longestInt then .error (.tooManyDigits v.longestInt)
      else readParts {} (Text.splitTrimmed (· == ';') v.display)) = Except.ok l) ↔
      v.longestInt ≤ maxDigits ∧
        ∀ p ∈ Text.splitTrimmed (· == ';') v.display, ∀ b, part? p.toList ≠ some (b, []) := by
  split
  · next h =>
    refine iff_of_false ?_ fun h' => absurd h (Nat.not_lt.2 h'.1)
    rintro ⟨l, hl⟩
    cases hl
  · next h => rw [exists_readParts_iff, and_iff_right (Nat.not_lt.1 h)]

/-- Limits are read exactly if they can be read. -/
theorem exists_ofJson_iff (v : Json) : (∃ l, ofJson v = .ok l) ↔ IsReadable v := by
  unfold ofJson IsReadable
  cases v.isFilled with
  | false => exact iff_of_true ⟨_, rfl⟩ nofun
  | true =>
    rw [if_pos rfl]
    refine Iff.trans ?_ (forall_prop_of_true rfl).symm
    cases v with
    | obj ms =>
      dsimp only
      rw [exists_readMembers_iff]
      exact ⟨fun h b => h b b.mem_all, fun h b _ => h b⟩
    | _ => exact exists_ofText_iff _

/-- Limits that are read are numbers of the format. -/
theorem isCanonical_ofJson {v : Json} (hv : v.WellFormed) (h : ofJson v = .ok l) :
    l.IsCanonical := by
  have htext {w : Json} (h : (if maxDigits < w.longestInt then .error (.tooManyDigits w.longestInt)
      else readParts {} (Text.splitTrimmed (· == ';') w.display)) = Except.ok l) :
      l.IsCanonical := by
    split at h
    · cases h
    · exact isCanonical_readParts isCanonical_empty h
  unfold ofJson at h
  split at h
  · cases v with
    | obj ms => exact isCanonical_readMembers hv isCanonical_empty h
    | _ => exact htext h
  · cases h
    exact isCanonical_empty

/-- The limits in a text are those of its parts. -/
theorem ofJson_str (s : String) :
    ofJson (.str s) = readParts {} (Text.splitTrimmed (· == ';') s) := by
  unfold ofJson
  split
  · rfl
  · next h =>
    have hempty : s = "" := by simpa [Json.isFilled] using h
    rw [hempty]
    rfl

/-- Parts of a text that spell no limit are ignored. -/
theorem ofJson_str_eq (s : String) : ofJson (.str s) =
    readParts {} ((Text.splitTrimmed (· == ';') s).filter fun p => (part? p.toList).isSome) := by
  rw [readParts_filter, ofJson_str]

end Limits

end Questionnaire
