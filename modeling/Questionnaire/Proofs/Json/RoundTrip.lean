import Questionnaire.Proofs.Json.Scalars
import Questionnaire.Proofs.Json.WellFormed

/-!
# Written data reads back

A well-formed value is the value that each of its written forms denotes, on one line or with one
part a line.  The two forms differ in the blanks around the parts of a list or an object, which the
reader skips.  It takes fuel for twice the length of a text, and each part of a written value leaves
enough of it for the next one.

## Main Definitions

* `Json.Layout` - a way of writing values that differs from others in its blanks
* `Json.Reader.Spells` - a text is read as a value

## Main Statements

* `Json.Reader.spells_of_layout` - a value is read from each of its written forms
* `Json.read_write`, `Json.read_writeIndented` - a written value reads back
* `Json.decoded_write` - the same for data in a stored text
-/

namespace Questionnaire.Json

/-! ## Written forms -/

theorem writeItems_eq_map (xs : List Json) : writeItems xs = xs.map write := by
  induction xs with
  | nil => rfl
  | cons x xs ih => rw [writeItems, ih, List.map_cons]

theorem writeMembers_eq_map (ms : List (String × Json)) :
    writeMembers ms = ms.map fun m => writeText m.1 ++ ": " ++ write m.2 := by
  induction ms with
  | nil => rfl
  | cons m ms ih => rw [writeMembers, ih, List.map_cons]

theorem writeItemsAt_eq_map (level : Nat) (xs : List Json) :
    writeItemsAt level xs = xs.map (writeAt level) := by
  induction xs with
  | nil => rfl
  | cons x xs ih => rw [writeItemsAt, ih, List.map_cons]

theorem writeMembersAt_eq_map (level : Nat) (ms : List (String × Json)) :
    writeMembersAt level ms = ms.map fun m => writeText m.1 ++ ": " ++ writeAt level m.2 := by
  induction ms with
  | nil => rfl
  | cons m ms ih => rw [writeMembersAt, ih, List.map_cons]

theorem longestInt_le_items {v : Json} {xs : List Json} (h : v ∈ xs) :
    v.longestInt ≤ longestIntItems xs := by
  induction xs with
  | nil => cases h
  | cons x xs ih =>
    rw [longestIntItems]
    rcases List.mem_cons.1 h with rfl | h
    · exact Nat.le_max_left _ _
    · exact Nat.le_trans (ih h) (Nat.le_max_right _ _)

theorem longestInt_le_members {m : String × Json} {ms : List (String × Json)} (h : m ∈ ms) :
    m.2.longestInt ≤ longestIntMembers ms := by
  induction ms with
  | nil => cases h
  | cons n ms ih =>
    rw [longestIntMembers]
    rcases List.mem_cons.1 h with rfl | h
    · exact Nat.le_max_left _ _
    · exact Nat.le_trans (ih h) (Nat.le_max_right _ _)

/-- The characters of parts with a comma and a gap between them. -/
def listed (gap : List Char) : List (List Char) → List Char
  | [] => []
  | [p] => p
  | p :: q :: rest => p ++ ',' :: (gap ++ listed gap (q :: rest))

theorem listed_cons_cons (gap p q : List Char) (rest : List (List Char)) :
    listed gap (p :: q :: rest) = p ++ ',' :: (gap ++ listed gap (q :: rest)) := rfl

theorem toList_intercalate (gap : String) (parts : List String) :
    (String.intercalate ("," ++ gap) parts).toList =
      listed gap.toList (parts.map String.toList) := by
  induction parts with
  | nil => rfl
  | cons p parts ih =>
    cases parts with
    | nil => simp [listed]
    | cons q parts =>
      rw [String.intercalate_cons_cons, String.toList_append, String.toList_append, ih]
      simp [listed]

/-- The blanks around the parts of a list or an object. -/
structure Gaps where
  /-- Between the opening bracket and the first part. -/
  before : List Char
  /-- Between a comma and the next part. -/
  between : List Char
  /-- Between the last part and the closing bracket. -/
  after : List Char

/-- The characters of parts between brackets. -/
def enclosed (gaps : Gaps) (opening closing : Char) : List (List Char) → List Char
  | [] => [opening, closing]
  | p :: ps =>
    opening :: (gaps.before ++ (listed gaps.between (p :: ps) ++ (gaps.after ++ [closing])))

/-- The gaps are blanks, and if there are any in front of the closing bracket, they begin a line. -/
structure Gaps.Blank (gaps : Gaps) : Prop where
  /-- Blanks follow the opening bracket. -/
  before : ∀ c ∈ gaps.before, Reader.isSpace c = true
  /-- Blanks follow a comma. -/
  between : ∀ c ∈ gaps.between, Reader.isSpace c = true
  /-- Blanks precede the closing bracket. -/
  after : ∀ c ∈ gaps.after, Reader.isSpace c = true
  /-- They begin a line. -/
  head : gaps.after.head? = none ∨ gaps.after.head? = some '\n'

/-- The gaps on one line. -/
def Gaps.line : Gaps := ⟨[], [' '], []⟩

/-- The gaps with one part a line. -/
def Gaps.block (level : Nat) : Gaps :=
  ⟨(newLine (level + 1)).toList, (newLine (level + 1)).toList, (newLine level).toList⟩

theorem toList_bracketed {opening closing : String} {o c : Char} (ho : opening.toList = [o])
    (hc : closing.toList = [c]) (parts : List String) :
    (bracketed opening closing parts).toList =
      enclosed .line o c (parts.map String.toList) := by
  rw [bracketed, String.toList_append, String.toList_append, ho, hc,
    show ", " = "," ++ " " from rfl, toList_intercalate]
  cases parts with
  | nil => rfl
  | cons p parts => simp [enclosed, Gaps.line]

theorem toList_writeBlock {opening closing : String} {o c : Char} (ho : opening.toList = [o])
    (hc : closing.toList = [c]) (level : Nat) (parts : List String) :
    (writeBlock level opening closing parts).toList =
      enclosed (.block level) o c (parts.map String.toList) := by
  cases parts with
  | nil => simp [writeBlock, enclosed, ho, hc]
  | cons p parts =>
    simp only [writeBlock, String.toList_append, toList_intercalate, ho, hc, enclosed, Gaps.block,
      List.map_cons, List.cons_append, List.nil_append, List.append_assoc]

/-- The characters of a member whose value is written as `cs`. -/
def memberChars (name : String) (cs : List Char) : List Char :=
  '"' :: (name.toList.flatMap escapeJsonChar ++ '"' :: ':' :: ' ' :: cs)

theorem toList_member (name text : String) :
    (writeText name ++ ": " ++ text).toList = memberChars name text.toList := by
  simp [writeText, memberChars]

/-- A way of writing values inside any number of containers: blanks stand around the parts of a list
or an object, and all other values are written in one way. -/
structure Layout (w : Nat → Json → List Char) (gaps : Nat → Gaps) : Prop where
  /-- The gaps are blank. -/
  blank : ∀ level, (gaps level).Blank
  /-- How lists are written. -/
  arr : ∀ level xs, w level (.arr xs) = enclosed (gaps level) '[' ']' (xs.map (w (level + 1)))
  /-- How objects are written. -/
  obj : ∀ level ms, w level (.obj ms) =
    enclosed (gaps level) '\x7b' '\x7d' (ms.map fun m => memberChars m.1 (w (level + 1) m.2))
  /-- How other values are written. -/
  other : ∀ level v, v.isKey = true → w level v = (write v).toList

theorem layout_write : Layout (fun _ v => (write v).toList) fun _ => .line where
  blank _ :=
    ⟨by simp [Gaps.line], by simp [Gaps.line, Reader.isSpace], by simp [Gaps.line], .inl rfl⟩
  arr level xs := by
    rw [write, toList_bracketed rfl rfl, writeItems_eq_map, List.map_map]
    rfl
  obj level ms := by
    rw [write, toList_bracketed (o := '\x7b') (c := '\x7d') rfl rfl, writeMembers_eq_map,
      List.map_map]
    simp only [Function.comp_def, toList_member]
  other _ _ _ := rfl

theorem isSpace_of_mem_newLine {level : Nat} {c : Char} (h : c ∈ (newLine level).toList) :
    Reader.isSpace c = true := by
  rw [newLine, String.toList_ofList] at h
  rcases List.mem_cons.1 h with rfl | h
  · rfl
  · rw [(List.mem_replicate.1 h).2]
    rfl

theorem layout_writeAt : Layout (fun level v => (writeAt level v).toList) .block where
  blank _ := ⟨fun _ => isSpace_of_mem_newLine, fun _ => isSpace_of_mem_newLine,
    fun _ => isSpace_of_mem_newLine, .inr (by simp [Gaps.block, newLine])⟩
  arr level xs := by
    rw [writeAt, toList_writeBlock rfl rfl, writeItemsAt_eq_map, List.map_map]
    rfl
  obj level ms := by
    rw [writeAt, toList_writeBlock (o := '\x7b') (c := '\x7d') rfl rfl, writeMembersAt_eq_map,
      List.map_map]
    simp only [Function.comp_def, toList_member]
  other level v h := by
    cases v with
    | arr xs => cases h
    | obj ms => cases h
    | _ => rfl

/-! ## Reading what was written -/

namespace Reader

/-- The first character of a written scalar that is no text. -/
def startsScalar (c : Char) : Bool := c.isDigit || ['-', 'n', 't', 'f', 'N', 'I'].contains c

theorem ne_of_startsScalar {c d : Char} (hc : startsScalar c = true)
    (hd : startsScalar d = false) : c ≠ d := by
  rintro rfl
  rw [hc] at hd
  cases hd

theorem startsScalar_of_isDigit {c : Char} (hc : c.isDigit = true) : startsScalar c = true := by
  rw [startsScalar, hc, Bool.true_or]

theorem exists_signed (negative : Bool) (w : Written) :
    ∃ c cs, (minusIf negative).toList ++ w.chars = c :: cs ∧ startsScalar c = true := by
  obtain ⟨c, cs, hchars, hc⟩ := w.exists_chars_eq_cons
  rw [hchars]
  cases negative with
  | true => exact ⟨'-', c :: cs, rfl, rfl⟩
  | false => exact ⟨c, cs, rfl, startsScalar_of_isDigit hc⟩

theorem exists_renderInt (n : Int) :
    ∃ c cs, (renderInt n).toList = c :: cs ∧ startsScalar c = true := by
  rw [toList_renderInt]
  exact exists_signed _ _

theorem exists_writeFloat {x : Binary64} (canonical : x.IsCanonical) :
    ∃ c cs, (writeFloat x).toList = c :: cs ∧ startsScalar c = true := by
  cases x with
  | nan => exact ⟨'N', _, rfl, rfl⟩
  | infinity negative =>
    cases negative
    · exact ⟨'I', _, rfl, rfl⟩
    · exact ⟨'-', _, rfl, rfl⟩
  | finite negative m e =>
    obtain ⟨w, hchars, -⟩ := Binary64.exists_written negative canonical
    show ∃ c cs, (Binary64.render (.finite negative m e)).toList = c :: cs ∧ _
    rw [hchars]
    exact exists_signed negative w

theorem skip_cons {c : Char} (hc : isSpace c = false) (cs : List Char) :
    skip (c :: cs) = c :: cs := by
  rw [skip, List.dropWhile_cons_of_neg (by simp [hc])]

theorem skip_space (cs : List Char) : skip (' ' :: cs) = skip cs := by
  rw [skip, List.dropWhile_cons_of_pos (by rfl), skip]

theorem value_scalar (fuel : Nat) {c : Char} (hc : startsScalar c = true) (cs : List Char) :
    value (fuel + 1) (c :: cs) = scalar (c :: cs) := by
  have h1 : c ≠ '"' := ne_of_startsScalar hc rfl
  have h2 : c ≠ '[' := ne_of_startsScalar hc rfl
  have h3 : c ≠ '\x7b' := ne_of_startsScalar hc rfl
  rw [value]
  · intro tail h
    cases h
    exact h1 rfl
  · intro tail h
    cases h
    exact h2 rfl
  · intro tail h
    cases h
    exact h3 rfl

/-- A written scalar is read when the reader has fuel for one step. -/
theorem value_of_scalar {fuel : Nat} (hfuel : 0 < fuel) {text rest : List Char} {v : Json}
    (htext : ∃ c cs, text = c :: cs ∧ startsScalar c = true)
    (h : scalar (text ++ rest) = .ok (v, rest)) : value fuel (text ++ rest) = .ok (v, rest) := by
  obtain ⟨c, cs, rfl, hc⟩ := htext
  cases fuel with
  | zero => exact absurd hfuel (Nat.lt_irrefl 0)
  | succ fuel => exact (value_scalar fuel hc (cs ++ rest)).trans h

theorem length_le_flatMap (cs : List Char) : cs.length ≤ (cs.flatMap escapeJsonChar).length := by
  induction cs with
  | nil => exact Nat.le_refl 0
  | cons c cs ih =>
    have hpos : 0 < (escapeJsonChar c).length := by
      unfold escapeJsonChar
      repeat' split
      all_goals simp
    rw [List.flatMap_cons, List.length_append, List.length_cons]
    omega

/-- A text is read as a value, whatever ends it. -/
structure Spells (cs : List Char) (v : Json) : Prop where
  /-- It begins with a character that neither is a blank nor closes a list. -/
  starts : ∃ c tail, cs = c :: tail ∧ isSpace c = false ∧ c ≠ ']'
  /-- It is read when there is fuel for twice its length. -/
  reads : ∀ (fuel : Nat) (rest : List Char), EndsValue rest → 2 * cs.length ≤ fuel →
    value fuel (cs ++ rest) = .ok (v, rest)

theorem skip_append {gap : List Char} (h : ∀ c ∈ gap, isSpace c = true) (cs : List Char) :
    skip (gap ++ cs) = skip cs := by
  unfold skip
  rw [List.dropWhile_append_of_pos h]

theorem Spells.skip_append {cs : List Char} {v : Json} (spells : Spells cs v) (rest : List Char) :
    skip (cs ++ rest) = cs ++ rest := by
  obtain ⟨c, tail, rfl, hc, -⟩ := spells.starts
  exact skip_cons hc (tail ++ rest)

theorem Spells.exists_cons {cs : List Char} {v : Json} (spells : Spells cs v) :
    ∃ c tail, cs = c :: tail ∧ isSpace c = false := by
  obtain ⟨c, tail, hcs, hc, -⟩ := spells.starts
  exact ⟨c, tail, hcs, hc⟩

theorem endsValue_comma (rest : List Char) : EndsValue (',' :: rest) := .inl rfl

/-- What stands behind the last part of a list or an object ends it. -/
theorem endsValue_after {gaps : Gaps} (blank : gaps.Blank) {c : Char} {rest : List Char}
    (h : EndsValue (c :: rest)) : EndsValue (gaps.after ++ c :: rest) := by
  cases hafter : gaps.after with
  | nil => exact h
  | cons d tail =>
    rcases blank.head with hhead | hhead <;> rw [hafter] at hhead
    · cases hhead
    · cases hhead
      exact .inr (.inr (.inr rfl))

variable {gaps : Gaps} {spelled : Json → List Char}

/-- Listed parts begin as the first one does. -/
theorem skip_listed {gap p : List Char} {ps : List (List Char)}
    (hp : ∃ c tail, p = c :: tail ∧ isSpace c = false) (rest : List Char) :
    skip (listed gap (p :: ps) ++ rest) = listed gap (p :: ps) ++ rest := by
  obtain ⟨c, tail, rfl, hc⟩ := hp
  cases ps with
  | nil => exact skip_cons hc _
  | cons q ps => exact skip_cons hc _

/-- Listed items are read one after the other up to the closing bracket. -/
theorem items_listed (blank : gaps.Blank) {x : Json} {xs : List Json}
    (h : ∀ v ∈ x :: xs, Spells (spelled v) v) (fuel : Nat) (rest : List Char)
    (hfuel : 2 * (listed gaps.between ((x :: xs).map spelled)).length + 1 ≤ fuel) :
    items fuel (listed gaps.between ((x :: xs).map spelled) ++ (gaps.after ++ ']' :: rest)) =
      .ok (x :: xs, rest) := by
  induction xs generalizing x fuel with
  | nil =>
    cases fuel with
    | zero => omega
    | succ fuel =>
      show items (fuel + 1) (spelled x ++ (gaps.after ++ ']' :: rest)) = _
      change 2 * (spelled x).length + 1 ≤ fuel + 1 at hfuel
      have hends : EndsValue (gaps.after ++ ']' :: rest) := endsValue_after blank (.inr (.inl rfl))
      rw [items, (h x List.mem_cons_self).reads fuel _ hends (by omega)]
      simp only [skip_append blank.after, skip_cons (show isSpace ']' = false from rfl)]
  | cons y xs ih =>
    cases fuel with
    | zero => omega
    | succ fuel =>
      have hrest : ∀ v ∈ y :: xs, Spells (spelled v) v :=
        fun v hv => h v (List.mem_cons_of_mem x hv)
      simp only [List.map_cons, listed_cons_cons, List.length_append, List.length_cons] at hfuel
      have hitems := ih hrest fuel (by rw [List.map_cons]; omega)
      rw [List.map_cons] at hitems
      rw [List.map_cons, List.map_cons, listed_cons_cons, List.append_assoc, List.cons_append,
        items, (h x List.mem_cons_self).reads fuel _ (endsValue_comma _) (by omega)]
      -- the blanks behind the comma are skipped
      show (items fuel (skip (gaps.between ++ _ ++ (gaps.after ++ ']' :: rest)))).map _ = _
      rw [List.append_assoc, skip_append blank.between,
        skip_listed (hrest y List.mem_cons_self).exists_cons, hitems]
      rfl

theorem length_memberChars (name : String) (cs : List Char) :
    name.length + cs.length + 4 ≤ (memberChars name cs).length := by
  have h := length_le_flatMap name.toList
  rw [String.length_toList] at h
  simp only [memberChars, List.length_cons, List.length_append]
  omega

/-- How the reading of members goes on after a member. -/
def afterMember (fuel : Nat) (m : String × Json) :
    List Char → Except ReadError (List (String × Json) × List Char)
  | ',' :: tail => (members fuel (skip tail)).map fun p => ((m.1, m.2) :: p.1, p.2)
  | '\x7d' :: tail => .ok ([(m.1, m.2)], tail)
  | _ => .error .malformed

/-- One member is read up to the end of its value. -/
theorem members_memberChars {m : String × Json} {cs : List Char} (h : Spells cs m.2) {fuel : Nat}
    {rest : List Char} (hrest : EndsValue rest)
    (hfuel : 2 * (memberChars m.1 cs).length ≤ fuel + 1) :
    members (fuel + 1) (memberChars m.1 cs ++ rest) = afterMember fuel m (skip rest) := by
  have hlength := length_memberChars m.1 cs
  have hchars : memberChars m.1 cs ++ rest = '"' :: (m.1.toList.flatMap escapeJsonChar ++
      '"' :: ':' :: ' ' :: (cs ++ rest)) := by
    simp [memberChars]
  rw [hchars, members, text_write m.1 (by omega)]
  have hcolon : skip (':' :: ' ' :: (cs ++ rest)) = ':' :: ' ' :: (cs ++ rest) := rfl
  have hvalue : value fuel (skip (' ' :: (cs ++ rest))) = .ok (m.2, rest) := by
    rw [skip_space, h.skip_append]
    exact h.reads _ _ hrest (by omega)
  simp only [hcolon, hvalue]
  rfl

/-- The characters of members whose values are spelled. -/
def memberList (spelled : Json → List Char) (ms : List (String × Json)) : List (List Char) :=
  ms.map fun m => memberChars m.1 (spelled m.2)

/-- Listed members are read one after the other up to the closing brace. -/
theorem members_listed (blank : gaps.Blank) {m : String × Json} {ms : List (String × Json)}
    (h : ∀ n ∈ m :: ms, Spells (spelled n.2) n.2) (fuel : Nat) (rest : List Char)
    (hfuel : 2 * (listed gaps.between (memberList spelled (m :: ms))).length + 1 ≤ fuel) :
    members fuel (listed gaps.between (memberList spelled (m :: ms)) ++
      (gaps.after ++ '\x7d' :: rest)) = .ok (m :: ms, rest) := by
  induction ms generalizing m fuel with
  | nil =>
    cases fuel with
    | zero => omega
    | succ fuel =>
      change 2 * (memberChars m.1 (spelled m.2)).length + 1 ≤ fuel + 1 at hfuel
      have hends : EndsValue (gaps.after ++ '\x7d' :: rest) :=
        endsValue_after blank (.inr (.inr (.inl rfl)))
      refine (members_memberChars (h m List.mem_cons_self) hends (by omega)).trans ?_
      rw [skip_append blank.after, skip_cons (show isSpace '\x7d' = false from rfl)]
      rfl
  | cons n ms ih =>
    cases fuel with
    | zero => omega
    | succ fuel =>
      unfold memberList at hfuel ih ⊢
      simp only [List.map_cons, listed_cons_cons, List.length_append, List.length_cons] at hfuel
      have hmembers := ih (fun v hv => h v (List.mem_cons_of_mem m hv)) fuel (by
        rw [List.map_cons]
        omega)
      rw [List.map_cons] at hmembers
      rw [List.map_cons, List.map_cons, listed_cons_cons, List.append_assoc, List.cons_append,
        members_memberChars (h m List.mem_cons_self) (endsValue_comma _) (by omega)]
      show (members fuel (skip (gaps.between ++ _ ++ (gaps.after ++ '\x7d' :: rest)))).map _ = _
      have hquote : ∃ c tail, memberChars n.1 (spelled n.2) = c :: tail ∧ isSpace c = false :=
        ⟨'"', _, rfl, rfl⟩
      rw [List.append_assoc, skip_append blank.between, skip_listed hquote, hmembers]
      rfl

theorem spells_str (s : String) : Spells (write (.str s)).toList (.str s) := by
  have hwrite : (write (.str s)).toList = '"' :: (s.toList.flatMap escapeJsonChar ++ ['"']) := by
    simp [write, writeText]
  -- no character is written in less than one, and there are two quotes
  have hlength := length_le_flatMap s.toList
  rw [String.length_toList] at hlength
  refine ⟨⟨'"', _, hwrite, rfl, by decide⟩, fun fuel rest _ hfuel => ?_⟩
  rw [hwrite] at hfuel ⊢
  simp only [List.length_cons, List.length_append] at hfuel
  obtain ⟨fuel, rfl⟩ := Nat.exists_eq_add_of_le' (show 1 ≤ fuel by omega)
  rw [List.cons_append, List.append_assoc, List.singleton_append, value, text_write s (by omega)]
  rfl

/-- A bracket that is followed by an item opens a list of items. -/
theorem value_bracket {cs tail : List Char} {c : Char} (hcs : skip cs = c :: tail) (hne : c ≠ ']')
    (fuel : Nat) :
    value (fuel + 1) ('[' :: cs) = (items fuel (skip cs)).map fun p => (.arr p.1, p.2) := by
  rw [value]
  split
  · next heq =>
    rw [hcs] at heq
    exact absurd (List.cons.inj heq).1 hne
  · rfl

/-- A brace that is followed by a member opens an object of members. -/
theorem value_brace {cs tail : List Char} {c : Char} (hcs : skip cs = c :: tail) (hne : c ≠ '\x7d')
    (fuel : Nat) :
    value (fuel + 1) ('\x7b' :: cs) =
      (members fuel (skip cs)).map fun p => (.obj (Assoc.ofEntries p.1), p.2) := by
  rw [value]
  split
  · next heq =>
    rw [hcs] at heq
    exact absurd (List.cons.inj heq).1 hne
  · rfl

theorem listed_eq_cons (gap : List Char) {p tail : List Char} {c : Char} (hp : p = c :: tail)
    (ps : List (List Char)) : ∃ more, listed gap (p :: ps) = c :: more := by
  cases ps with
  | nil => exact ⟨tail, hp⟩
  | cons q ps => exact ⟨_, by rw [listed_cons_cons, hp, List.cons_append]⟩

theorem spells_arr (blank : gaps.Blank) {xs : List Json} (h : ∀ v ∈ xs, Spells (spelled v) v) :
    Spells (enclosed gaps '[' ']' (xs.map spelled)) (.arr xs) := by
  cases xs with
  | nil =>
    refine ⟨⟨'[', _, rfl, rfl, by decide⟩, fun fuel rest _ hfuel => ?_⟩
    change 4 ≤ fuel at hfuel
    obtain ⟨fuel, rfl⟩ := Nat.exists_eq_add_of_le' (show 1 ≤ fuel by omega)
    rfl
  | cons x xs =>
    refine ⟨⟨'[', _, rfl, rfl, by decide⟩, fun fuel rest _ hfuel => ?_⟩
    have hitems := items_listed blank h
    rw [List.map_cons] at hitems ⊢
    rw [List.map_cons, enclosed] at hfuel
    simp only [List.length_cons, List.length_append] at hfuel
    obtain ⟨fuel, rfl⟩ := Nat.exists_eq_add_of_le' (show 1 ≤ fuel by omega)
    obtain ⟨c, tail, hc, hspace, hne⟩ := (h x List.mem_cons_self).starts
    obtain ⟨more, hmore⟩ := listed_eq_cons gaps.between hc (xs.map spelled)
    simp only [enclosed, List.cons_append, List.append_assoc, List.nil_append]
    have hskip : skip (gaps.before ++ (listed gaps.between (spelled x :: xs.map spelled) ++
        (gaps.after ++ ']' :: rest))) = listed gaps.between (spelled x :: xs.map spelled) ++
        (gaps.after ++ ']' :: rest) := by
      rw [skip_append blank.before, skip_listed ⟨c, tail, hc, hspace⟩]
    rw [value_bracket (hskip.trans (by rw [hmore, List.cons_append])) hne, hskip,
      hitems fuel rest (by omega)]
    rfl

theorem spells_obj (blank : gaps.Blank) {ms : List (String × Json)}
    (distinct : (ms.map (·.1)).Nodup) (h : ∀ m ∈ ms, Spells (spelled m.2) m.2) :
    Spells (enclosed gaps '\x7b' '\x7d' (memberList spelled ms)) (.obj ms) := by
  cases ms with
  | nil =>
    refine ⟨⟨'\x7b', _, rfl, rfl, by decide⟩, fun fuel rest _ hfuel => ?_⟩
    change 4 ≤ fuel at hfuel
    obtain ⟨fuel, rfl⟩ := Nat.exists_eq_add_of_le' (show 1 ≤ fuel by omega)
    rfl
  | cons m ms =>
    refine ⟨⟨'\x7b', _, rfl, rfl, by decide⟩, fun fuel rest _ hfuel => ?_⟩
    have hmembers := members_listed blank h
    unfold memberList at hmembers hfuel ⊢
    rw [List.map_cons] at hmembers hfuel ⊢
    rw [enclosed] at hfuel
    simp only [List.length_cons, List.length_append] at hfuel
    obtain ⟨fuel, rfl⟩ := Nat.exists_eq_add_of_le' (show 1 ≤ fuel by omega)
    have hquote : memberChars m.1 (spelled m.2) = '"' :: _ := rfl
    obtain ⟨more, hmore⟩ := listed_eq_cons gaps.between hquote
      (ms.map fun n => memberChars n.1 (spelled n.2))
    simp only [enclosed, List.cons_append, List.append_assoc, List.nil_append]
    have hskip (rest : List Char) : skip (gaps.before ++ (listed gaps.between
        (memberChars m.1 (spelled m.2) :: ms.map fun n => memberChars n.1 (spelled n.2)) ++ rest)) =
        listed gaps.between
          (memberChars m.1 (spelled m.2) :: ms.map fun n => memberChars n.1 (spelled n.2)) ++
          rest := by
      rw [skip_append blank.before, skip_listed ⟨'"', _, hquote, rfl⟩]
    rw [value_brace ((hskip _).trans (by rw [hmore, List.cons_append])) (by decide), hskip,
      hmembers fuel rest (by omega)]
    show Except.ok (Json.obj (Assoc.ofEntries (m :: ms)), rest) = _
    rw [Assoc.ofEntries_of_nodup distinct]

/-- A written scalar that is no text is read back. -/
theorem spells_of_scalar {v : Json}
    (htext : ∃ c cs, (write v).toList = c :: cs ∧ startsScalar c = true)
    (h : ∀ rest, EndsValue rest → scalar ((write v).toList ++ rest) = .ok (v, rest)) :
    Spells (write v).toList v := by
  obtain ⟨c, cs, hcs, hc⟩ := htext
  refine ⟨⟨c, cs, hcs, ?_, ne_of_startsScalar hc rfl⟩, fun fuel rest hrest hfuel => ?_⟩
  · have h1 : c ≠ ' ' := ne_of_startsScalar hc rfl
    have h2 : c ≠ '\t' := ne_of_startsScalar hc rfl
    have h3 : c ≠ '\n' := ne_of_startsScalar hc rfl
    have h4 : c ≠ '\r' := ne_of_startsScalar hc rfl
    simp [isSpace, h1, h2, h3, h4]
  · have hpos : 0 < (write v).toList.length := by
      rw [hcs]
      exact Nat.succ_pos _
    exact value_of_scalar (by omega) ⟨c, cs, hcs, hc⟩ (h rest hrest)

/-- A well-formed value without overlong integers is read from each of its written forms. -/
theorem spells_of_layout {w : Nat → Json → List Char} {gaps : Nat → Gaps} (layout : Layout w gaps)
    {v : Json} (wellFormed : WellFormed v) (h : v.longestInt ≤ maxDigits) (level : Nat) :
    Spells (w level v) v := by
  induction wellFormed generalizing level with
  | null =>
    rw [layout.other level _ rfl]
    exact spells_of_scalar ⟨'n', _, rfl, rfl⟩ fun rest _ => scalar_null rest
  | bool b =>
    rw [layout.other level _ rfl]
    refine spells_of_scalar ?_ fun rest _ => scalar_bool b rest
    cases b
    · exact ⟨'f', _, rfl, rfl⟩
    · exact ⟨'t', _, rfl, rfl⟩
  | int n =>
    rw [layout.other level _ rfl]
    exact spells_of_scalar (exists_renderInt n) fun _ hrest => scalar_renderInt h hrest
  | @float x canonical =>
    rw [layout.other level _ rfl]
    exact spells_of_scalar (exists_writeFloat canonical) fun _ hrest =>
      scalar_writeFloat canonical hrest
  | str s =>
    rw [layout.other level _ rfl]
    exact spells_str s
  | arr items ih =>
    rw [layout.arr]
    exact spells_arr (layout.blank level) fun v hv =>
      ih v hv (Nat.le_trans (longestInt_le_items hv) h) (level + 1)
  | obj distinct members ih =>
    rw [layout.obj]
    exact spells_obj (layout.blank level) distinct fun m hm =>
      ih m hm (Nat.le_trans (longestInt_le_members hm) h) (level + 1)

/-- A text that is read as a value up to its end is the value that the whole text denotes. -/
theorem Spells.read {text : String} {v : Json} (spells : Spells text.toList v) :
    Json.read text = .ok v := by
  have hskip := spells.skip_append []
  have hvalue := spells.reads _ [] trivial (Nat.le_succ (2 * text.toList.length))
  rw [List.append_nil] at hskip hvalue
  unfold Json.read
  dsimp only
  rw [hskip, hvalue]
  rfl

end Reader

/-- A value on one line reads back. -/
theorem read_write {v : Json} (wellFormed : WellFormed v) (h : v.longestInt ≤ maxDigits) :
    read v.write = .ok v :=
  (Reader.spells_of_layout layout_write wellFormed h 0).read

/-- A value with one part a line reads back. -/
theorem read_writeIndented {v : Json} (wellFormed : WellFormed v) (h : v.longestInt ≤ maxDigits) :
    read v.writeIndented = .ok v :=
  (Reader.spells_of_layout layout_writeAt wellFormed h 0).read

/-! ## Data in stored texts -/

theorem dump_eq_ok_iff {v : Json} {text : String} :
    v.dump = .ok text ↔ v.longestInt ≤ maxDigits ∧ text = v.write := by
  unfold dump
  by_cases h : maxDigits < v.longestInt
  · rw [if_pos h]
    constructor
    · intro heq
      cases heq
    · rintro ⟨hle, -⟩
      omega
  · rw [if_neg h, Except.ok.injEq]
    exact ⟨fun heq => ⟨Nat.le_of_not_lt h, heq.symm⟩, fun heq => heq.2.symm⟩

/-- A text between two characters that are no blanks has no blanks around it. -/
theorem trim_between {opening closing : Char} (hopening : Unicode.isBlank opening = false)
    (hclosing : Unicode.isBlank closing = false) {s : String} {body : List Char}
    (hs : s.toList = opening :: (body ++ [closing])) : Text.trim s = s := by
  have hchars : Text.trimChars s.toList = s.toList := by
    rw [hs, Text.trimChars, List.dropWhile_cons_of_neg (by simp [hopening]), Text.trimEnd,
      ← List.cons_append, List.reverse_append, List.reverse_singleton, List.singleton_append,
      List.dropWhile_cons_of_neg (by simp [hclosing]), List.reverse_cons, List.reverse_reverse]
  rw [Text.trim, hchars, String.ofList_toList]

theorem exists_toList_write_obj (ms : List (String × Json)) :
    ∃ body, (write (.obj ms)).toList = '\x7b' :: (body ++ ['\x7d']) := by
  rw [layout_write.obj 0 ms]
  cases ms with
  | nil => exact ⟨[], rfl⟩
  | cons m ms => exact ⟨_, rfl⟩

theorem trim_write_obj (ms : List (String × Json)) :
    Text.trim (write (.obj ms)) = write (.obj ms) := by
  obtain ⟨body, hbody⟩ := exists_toList_write_obj ms
  exact trim_between (by decide) (by decide) hbody

theorem trim_write_arr (xs : List Json) :
    Text.trim (write (.arr xs)) = write (.arr xs) := by
  obtain ⟨body, hbody⟩ : ∃ body, (write (.arr xs)).toList = '[' :: (body ++ [']']) := by
    rw [layout_write.arr 0 xs]
    cases xs with
    | nil => exact ⟨[], rfl⟩
    | cons x xs => exact ⟨_, rfl⟩
  exact trim_between (by decide) (by decide) hbody

/-- The data in a stored text is the data that was written into it. -/
theorem decoded_write {v : Json} (wellFormed : WellFormed v) (h : v.longestInt ≤ maxDigits)
    (default : Json) (trimmed : Text.trim v.write = v.write) :
    decoded default (.str v.write) = v := by
  rw [decoded, trimmed, read?, read_write wellFormed h]
  rfl

end Questionnaire.Json
