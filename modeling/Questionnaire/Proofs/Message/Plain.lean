import Mathlib.Data.List.DropRight
import Questionnaire.Message.Wording
import Questionnaire.Proofs.Outcome

/-!
# Plain patterns

A plain pattern has no other braces than those around its placeholders, and a placeholder is a mere
name.  Such a pattern can always be filled: every placeholder is replaced by the value of its name,
or stays as it is without one.  All standard wordings are plain.

## Main Definitions

* `Pattern.Segment` - a character or a placeholder
* `Pattern.segments` - the segments of a pattern
* `Pattern.IsPlain` - a pattern is plain

## Main Statements

* `Pattern.chars_segments` - a pattern is made of its segments
* `Pattern.fillFrom_segments` - plain segments are filled one by one
* `Pattern.render_of_isPlain` - a plain pattern can be filled
* `Message.render_standard` - the standard wording of a message
-/

namespace Questionnaire

namespace Pattern

/-- A piece of a pattern. -/
inductive Segment where
  /-- A character that stands for itself. -/
  | char (c : Char)
  /-- A name in braces. -/
  | placeholder (name : List Char)

namespace Segment

/-- The characters of a segment. -/
def chars : Segment → List Char
  | .char c => [c]
  | .placeholder name => '\x7b' :: (name ++ ['\x7d'])

/-- What a segment is replaced by. -/
def filled (values : Object) : Segment → List Char
  | .char c => [c]
  | .placeholder name => (named values (String.ofList name)).display.toList

/-- The characters that have a meaning inside a placeholder. -/
def marks : List Char := ['\x7b', '\x7d', ':', '!', '.', '[']

/-- A character is no brace, and a name holds no marks and begins with no digit. -/
def isPlain : Segment → Bool
  | .char c => c != '\x7b' && c != '\x7d'
  | .placeholder name => name.all (!marks.contains ·) && name.head?.any (!Unicode.isDigit ·)

end Segment

/-- The segments of a pattern, `name` being the characters since an open brace, backwards. -/
def segmentsFrom : Option (List Char) → List Char → List Segment
  | none, [] => []
  | some name, [] => .char '\x7b' :: name.reverse.map .char
  | none, c :: rest =>
    if c = '\x7b' then segmentsFrom (some []) rest else .char c :: segmentsFrom none rest
  | some name, c :: rest =>
    if c = '\x7d' then .placeholder name.reverse :: segmentsFrom none rest
    else segmentsFrom (some (c :: name)) rest

/-- The segments of a pattern. -/
def segments (cs : List Char) : List Segment := segmentsFrom none cs

/-- A pattern is plain. -/
def IsPlain (pattern : String) : Prop :=
  (segments pattern.toList).all Segment.isPlain = true

/-! ## Segments -/

theorem chars_segmentsFrom (cs : List Char) :
    (segmentsFrom none cs).flatMap Segment.chars = cs ∧ ∀ name : List Char,
      (segmentsFrom (some name) cs).flatMap Segment.chars = '\x7b' :: (name.reverse ++ cs) := by
  induction cs with
  | nil =>
    refine ⟨rfl, fun name => ?_⟩
    rw [segmentsFrom, List.flatMap_cons, List.flatMap_map, List.append_nil]
    simp [Segment.chars]
  | cons c rest ih =>
    obtain ⟨houtside, hinside⟩ := ih
    constructor
    · rw [segmentsFrom]
      split
      · next hc => rw [hinside, hc]; rfl
      · rw [List.flatMap_cons, houtside]; rfl
    · intro name
      rw [segmentsFrom]
      split
      · next hc => rw [List.flatMap_cons, houtside, hc]; simp [Segment.chars]
      · rw [hinside, List.reverse_cons, List.append_assoc]; rfl

/-- A pattern is made of its segments. -/
theorem chars_segments (cs : List Char) : (segments cs).flatMap Segment.chars = cs :=
  (chars_segmentsFrom cs).1

/-! ## Filling -/

variable {values : Object} {nested : List Char → Except Fault (List Char)} {name rest : List Char}
  {fuel : Nat}

/-- A name without marks is read up to the closing brace. -/
theorem readPath_name (h : ∀ c ∈ name, Segment.marks.contains c = false) :
    readPath false (name ++ '\x7d' :: rest) = .ok (name, '\x7d', rest) := by
  induction name with
  | nil => rfl
  | cons c name ih =>
    obtain ⟨hc, hname⟩ := List.forall_mem_cons.1 h
    have hc : c ≠ '\x7b' ∧ c ≠ '\x7d' ∧ c ≠ ':' ∧ c ≠ '!' ∧ c ≠ '.' ∧ c ≠ '[' := by
      simpa [Segment.marks] using hc
    rw [List.cons_append, readPath, if_neg hc.1, if_neg (by simp [hc]),
      beq_eq_false_iff_ne.2 hc.2.2.2.2.2, ih hname]
    rfl

/-- A name without marks that is no position denotes the value of the name. -/
theorem referent_name (hmarks : ∀ c ∈ name, Segment.marks.contains c = false) (hname : name ≠ [])
    (hposition : asPosition name = .ok none) :
    referent values name = .ok (.value (named values (String.ofList name))) := by
  have hparts : ∀ c ∈ name, (!endsPart c) = true := by
    intro c hc
    have hc : c ≠ '\x7b' ∧ c ≠ '\x7d' ∧ c ≠ ':' ∧ c ≠ '!' ∧ c ≠ '.' ∧ c ≠ '[' := by
      simpa [Segment.marks] using hmarks c hc
    simp [endsPart, hc]
  have htake : name.takeWhile (!endsPart ·) = name := List.takeWhile_eq_self_iff.2 hparts
  have hdrop : name.dropWhile (!endsPart ·) = [] := List.dropWhile_eq_nil_iff.2 hparts
  unfold referent
  dsimp only
  rw [htake, hdrop, hposition, Outcome.ok_bind, Option.isSome_none, Bool.or_false,
    List.isEmpty_eq_false_iff.2 hname]
  rfl

theorem readPlaceholder_name (hmarks : ∀ c ∈ name, Segment.marks.contains c = false) :
    readPlaceholder (name ++ '\x7d' :: rest) = .ok (⟨name, none, []⟩, rest) := by
  rw [readPlaceholder, readPath_name hmarks]
  rfl

/-- What a placeholder denotes. -/
def denoted (values : Object) (p : Placeholder) : Except Fault Referent := do
  converted (← referent values p.path) p.conversion

/-- The layout of a placeholder with its own placeholders filled. -/
def filledLayout (nested : List Char → Except Fault (List Char)) (p : Placeholder) :
    Except Fault (List Char) :=
  if p.layout.contains '\x7b' then nested p.layout else .ok p.layout

/-- A brace that is not doubled opens a placeholder. -/
theorem fillFrom_field {c : Char} {cs : List Char} (hc : c ≠ '\x7b') :
    fillFrom values nested (fuel + 1) ('\x7b' :: c :: cs) = (do
      let (p, rest) ← readPlaceholder (c :: cs)
      let d ← denoted values p
      let layout ← filledLayout nested p
      let shown ← d.layOut layout
      let filled ← fillFrom values nested fuel rest
      pure (shown.toList ++ filled)) := by
  conv_lhs => unfold fillFrom
  rw [if_neg (by decide), if_pos rfl]
  split
  · next h => cases h
  · next h => exact absurd (List.cons.inj h).1 hc
  · refine bind_congr fun ⟨p, rest⟩ => ?_
    dsimp only
    unfold denoted filledLayout
    rw [bind_assoc]
    refine bind_congr fun d => bind_congr fun e => ?_
    split <;> rfl

/-- A name in braces is filled, whatever follows it. -/
theorem fillFrom_name (hmarks : ∀ c ∈ name, Segment.marks.contains c = false) (hname : name ≠ [])
    (hposition : asPosition name = .ok none) :
    fillFrom values nested (fuel + 1) ('\x7b' :: (name ++ '\x7d' :: rest)) =
      ((named values (String.ofList name)).display.toList ++ ·) <$>
        fillFrom values nested fuel rest := by
  have hread : readPlaceholder (name ++ '\x7d' :: rest) = .ok (⟨name, none, []⟩, rest) :=
    readPlaceholder_name hmarks
  have hreferent : referent values name = .ok (.value (named values (String.ofList name))) :=
    referent_name hmarks hname hposition
  obtain ⟨c, cs, rfl⟩ := List.exists_cons_of_ne_nil hname
  have hc : c ≠ '\x7b' := by
    rintro rfl
    exact absurd (hmarks _ List.mem_cons_self) (by decide)
  rw [List.cons_append] at hread ⊢
  rw [fillFrom_field hc, hread, Outcome.ok_bind]
  dsimp only
  unfold denoted
  rw [hreferent]
  rfl

/-- A text that begins with no digit is no position. -/
theorem asPosition_of_head (hhead : name.head?.any (!Unicode.isDigit ·) = true) :
    asPosition name = .ok none := by
  cases name with
  | nil => cases hhead
  | cons c name =>
    have hdigit : Unicode.isDigit c = false := by simpa using hhead
    rw [asPosition, List.takeWhile_cons_of_neg (by simp [hdigit])]
    simp [digitsValue, hdigit]

theorem fillFrom_placeholder (plain : (Segment.placeholder name).isPlain = true) :
    fillFrom values nested (fuel + 1) ((Segment.placeholder name).chars ++ rest) =
      ((Segment.placeholder name).filled values ++ ·) <$> fillFrom values nested fuel rest := by
  obtain ⟨hmarks, hhead⟩ := Bool.and_eq_true_iff.1 plain
  have hmarks : ∀ c ∈ name, Segment.marks.contains c = false := by
    simpa using List.all_eq_true.1 hmarks
  have hname : name ≠ [] := by
    rintro rfl
    cases hhead
  have hchars : (Segment.placeholder name).chars ++ rest =
      '\x7b' :: (name ++ '\x7d' :: rest) := by simp [Segment.chars]
  rw [hchars]
  exact fillFrom_name hmarks hname (asPosition_of_head hhead)

/-- A character that is no brace stands for itself. -/
theorem fillFrom_char {c : Char} (hopen : c ≠ '\x7b') (hclose : c ≠ '\x7d') :
    fillFrom values nested (fuel + 1) (c :: rest) =
      (c :: ·) <$> fillFrom values nested fuel rest := by
  conv_lhs => unfold fillFrom
  rw [if_neg hclose, if_neg hopen]
  rfl

/-- A text whose parts are filled one at a time, whatever follows them, is filled part by part. -/
theorem fillFrom_flatMap {ι : Type} {chars filled : ι → List Char} {parts : List ι}
    (hne : ∀ p ∈ parts, chars p ≠ [])
    (hstep : ∀ p ∈ parts, ∀ fuel rest, fillFrom values nested (fuel + 1) (chars p ++ rest) =
      (filled p ++ ·) <$> fillFrom values nested fuel rest)
    (h : (parts.flatMap chars).length ≤ fuel) :
    fillFrom values nested fuel (parts.flatMap chars) = .ok (parts.flatMap filled) := by
  induction parts generalizing fuel with
  | nil => cases fuel <;> rfl
  | cons p parts ih =>
    obtain ⟨hp, hparts⟩ := List.forall_mem_cons.1 hne
    obtain ⟨hfill, hrest⟩ := List.forall_mem_cons.1 hstep
    have hpos : 0 < (chars p).length := List.length_pos_iff.2 hp
    rw [List.flatMap_cons, List.length_append] at h
    obtain ⟨fuel, rfl⟩ : ∃ n, fuel = n + 1 := ⟨fuel - 1, by omega⟩
    rw [List.flatMap_cons, hfill, ih hparts hrest (by omega), List.flatMap_cons]
    rfl

theorem Segment.chars_ne_nil (s : Segment) : s.chars ≠ [] := by
  cases s <;> exact List.cons_ne_nil _ _

/-- Plain segments are filled one by one. -/
theorem fillFrom_segments {ss : List Segment} (plain : ∀ s ∈ ss, s.isPlain = true)
    (h : (ss.flatMap Segment.chars).length ≤ fuel) :
    fillFrom values nested fuel (ss.flatMap Segment.chars) =
      .ok (ss.flatMap (Segment.filled values)) := by
  refine fillFrom_flatMap (fun s _ => s.chars_ne_nil) (fun s hs fuel rest => ?_) h
  cases s with
  | char c =>
    obtain ⟨hopen, hclose⟩ := Bool.and_eq_true_iff.1 (plain _ hs)
    exact fillFrom_char (bne_iff_ne.1 hopen) (bne_iff_ne.1 hclose)
  | placeholder name => exact fillFrom_placeholder (plain _ hs)

/-- A plain pattern can be filled. -/
theorem render_of_isPlain {pattern : String} (plain : IsPlain pattern) (values : Object) :
    render pattern values =
      .ok (String.ofList ((segments pattern.toList).flatMap (Segment.filled values))) := by
  have hlength : ((segments pattern.toList).flatMap Segment.chars).length ≤
      pattern.toList.length + 1 := by
    rw [chars_segments]
    exact Nat.le_succ _
  have hfilled : fillFrom values (fill values 1) (pattern.toList.length + 1)
      ((segments pattern.toList).flatMap Segment.chars) = _ :=
    fillFrom_segments (List.all_eq_true.1 plain) hlength
  rw [chars_segments] at hfilled
  rw [render, levels, fill, hfilled]
  rfl

end Pattern

namespace Message

/-- The standard wordings are plain. -/
theorem isPlain_wording (m : Message) : Pattern.IsPlain m.wording := by
  unfold Pattern.IsPlain
  cases m <;> decide +kernel

/-- The standard wording of a message is given for all values. -/
theorem render_standard (m : Message) (values : Object) :
    m.render [] values = .ok (String.ofList
      ((Pattern.segments m.wording.toList).flatMap (Pattern.Segment.filled values))) :=
  Pattern.render_of_isPlain m.isPlain_wording values

end Message

end Questionnaire
