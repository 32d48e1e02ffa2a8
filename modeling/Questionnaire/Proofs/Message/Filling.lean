import Questionnaire.Proofs.Message.Plain

/-!
# What a pattern promises

A message promises that the values of its placeholders stand in their places and that whatever is no
placeholder with a value stays as it is written.  What is written are single characters, doubled
braces, texts in braces and stray braces, and they can be told apart without knowing how a pattern
is filled.

A pattern is regular if it has no stray brace and all its texts in braces are names.  Such a pattern
is filled as promised.

## Main Definitions

* `Pattern.isName` - a text that names a value
* `Pattern.pieces` - what a pattern is made of
* `Pattern.filledText` - what a pattern promises
* `Pattern.IsRegular` - a pattern with names in braces only

## Main Statements

* `Pattern.chars_pieces` - a pattern is made of its pieces
* `Pattern.render_of_isRegular` - a regular pattern is filled as promised

## Design Notes

A text in braces that goes on after a name, with a part, a conversion or a layout, is the name of no
value, so it is promised as it is written.
-/

namespace Questionnaire.Pattern

/-- A text is a name if it holds no marks, is not made of digits alone, as the empty text is, and
does not begin with a number beyond all positions. -/
def isName (cs : List Char) : Bool :=
  cs.all (!Segment.marks.contains ·) && !cs.all Unicode.isDigit &&
    decide (digitsValue (cs.takeWhile Unicode.isDigit) ≤ maxCount)

/-- What a pattern is made of. -/
inductive Piece where
  /-- A character that stands for itself. -/
  | char (c : Char)
  /-- Two braces that stand for one. -/
  | doubled (c : Char)
  /-- A text in braces. -/
  | field (body : List Char)
  /-- A brace that belongs to no other. -/
  | stray (c : Char)

namespace Piece

/-- A piece as it is written. -/
def chars : Piece → List Char
  | .char c => [c]
  | .doubled c => [c, c]
  | .field body => '\x7b' :: (body ++ ['\x7d'])
  | .stray c => [c]

/-- What a piece is replaced by. -/
def filled (values : Object) : Piece → List Char
  | .char c => [c]
  | .doubled c => [c]
  | .field body =>
    match Assoc.valueAt? (String.ofList body) values with
    | some v => v.display.toList
    | none => (Piece.field body).chars
  | .stray c => [c]

/-- A piece has no fault. -/
def isRegular : Piece → Bool
  | .char c => c != '\x7b' && c != '\x7d'
  | .doubled c => c == '\x7b' || c == '\x7d'
  | .field body => isName body
  | .stray _ => false

end Piece

/-- The pieces of a pattern, `body` being the characters since an open brace, backwards. -/
def piecesFrom : Option (List Char) → List Char → List Piece
  | none, [] => []
  | some body, [] => .stray '\x7b' :: body.reverse.map .char
  | none, c :: rest =>
    if c = '\x7b' then piecesFrom (some []) rest
    else if c = '\x7d' then
      match rest with
      | '\x7d' :: rest => .doubled '\x7d' :: piecesFrom none rest
      | rest => .stray '\x7d' :: piecesFrom none rest
    else .char c :: piecesFrom none rest
  | some body, c :: rest =>
    if c = '\x7b' then
      if body = [] then .doubled '\x7b' :: piecesFrom none rest
      else .stray '\x7b' :: body.reverse.map .char ++ piecesFrom (some []) rest
    else if c = '\x7d' then .field body.reverse :: piecesFrom none rest
    else piecesFrom (some (c :: body)) rest

/-- The pieces of a pattern. -/
def pieces (cs : List Char) : List Piece := piecesFrom none cs

/-- What a pattern promises for the values of names. -/
def filledText (pattern : String) (values : Object) : String :=
  String.ofList ((pieces pattern.toList).flatMap (Piece.filled values))

/-- A pattern has no stray brace, and all its texts in braces are names. -/
def IsRegular (pattern : String) : Prop :=
  (pieces pattern.toList).all Piece.isRegular = true

/-! ## Names -/

variable {values : Object} {nested : List Char → Except Fault (List Char)} {name rest : List Char}
  {fuel : Nat}

theorem isName_iff : isName name = true ↔ (∀ c ∈ name, Segment.marks.contains c = false) ∧
    name ≠ [] ∧ asPosition name = .ok none := by
  unfold isName asPosition
  rw [Bool.and_eq_true, Bool.and_eq_true, decide_eq_true_iff, ← not_lt]
  cases name with
  | nil => simp
  | cons c name =>
    by_cases hlarge : maxCount < digitsValue ((c :: name).takeWhile Unicode.isDigit)
    · simp [hlarge]
    · rw [if_neg hlarge]
      cases (c :: name).all Unicode.isDigit <;> simp [hlarge]

theorem ne_of_isName (h : isName name = true) {c : Char} (hc : c ∈ name) :
    c ≠ '\x7b' ∧ c ≠ '\x7d' := by
  have hmarks := (isName_iff.1 h).1 c hc
  refine ⟨?_, ?_⟩ <;>
  · rintro rfl
    exact absurd hmarks (by decide)

/-! ## Pieces -/

theorem piecesFrom_close {cs : List Char} : piecesFrom none ('\x7d' :: '\x7d' :: cs) =
    .doubled '\x7d' :: piecesFrom none cs := rfl

theorem piecesFrom_lone {cs : List Char} (h : cs.head? ≠ some '\x7d') :
    piecesFrom none ('\x7d' :: cs) = .stray '\x7d' :: piecesFrom none cs := by
  rw [piecesFrom, if_neg (by decide), if_pos rfl]
  rintro rest rfl
  exact h rfl

theorem flatMap_chars_map (cs : List Char) : (cs.map Piece.char).flatMap Piece.chars = cs := by
  rw [List.flatMap_map]
  exact List.flatMap_singleton' cs

/-- The characters since an open brace, with the brace. -/
def pending : Option (List Char) → List Char
  | none => []
  | some body => '\x7b' :: body.reverse

theorem chars_piecesFrom (state : Option (List Char)) (cs : List Char) :
    (piecesFrom state cs).flatMap Piece.chars = pending state ++ cs := by
  fun_induction piecesFrom state cs with
  | case1 => rfl
  | case2 body =>
    rw [List.flatMap_cons, flatMap_chars_map, List.append_nil]
    rfl
  | case3 rest ih => rw [ih]; rfl
  | case4 rest hbrace ih => rw [List.flatMap_cons, ih]; rfl
  | case5 rest hlone hbrace ih => rw [List.flatMap_cons, ih]; rfl
  | case6 c rest hopen hclose ih => rw [List.flatMap_cons, ih]; rfl
  | case7 rest ih => rw [List.flatMap_cons, ih]; rfl
  | case8 body rest hbody ih =>
    rw [List.flatMap_append, List.flatMap_cons, flatMap_chars_map, ih]
    rfl
  | case9 body rest hbrace ih =>
    rw [List.flatMap_cons, ih]
    simp [Piece.chars, pending]
  | case10 body c rest hopen hclose ih =>
    rw [ih]
    simp [pending]

/-- A pattern is made of its pieces. -/
theorem chars_pieces (cs : List Char) : (pieces cs).flatMap Piece.chars = cs :=
  chars_piecesFrom none cs

/-! ## Filling -/

theorem Piece.chars_ne_nil (p : Piece) : p.chars ≠ [] := by
  cases p <;> exact List.cons_ne_nil _ _

theorem Piece.filled_field (body : List Char) : (Piece.field body).filled values =
    (named values (String.ofList body)).display.toList := by
  rw [Piece.filled, named]
  cases Assoc.valueAt? (String.ofList body) values with
  | some v => rfl
  | none => simp [Piece.chars]

/-- A piece without a fault is filled as promised, whatever follows it. -/
theorem fillFrom_piece {p : Piece} (regular : p.isRegular = true) :
    fillFrom values nested (fuel + 1) (p.chars ++ rest) =
      (p.filled values ++ ·) <$> fillFrom values nested fuel rest := by
  cases p with
  | char c =>
    obtain ⟨hopen, hclose⟩ := Bool.and_eq_true_iff.1 regular
    exact fillFrom_char (bne_iff_ne.1 hopen) (bne_iff_ne.1 hclose)
  | doubled c =>
    rcases Bool.or_eq_true_iff.1 regular with hc | hc
    · rw [eq_of_beq hc]; rfl
    · rw [eq_of_beq hc]; rfl
  | field body =>
    obtain ⟨hmarks, hne, hposition⟩ := isName_iff.1 regular
    have hchars : (Piece.field body).chars ++ rest = '\x7b' :: (body ++ '\x7d' :: rest) := by
      simp [Piece.chars]
    rw [hchars, fillFrom_name hmarks hne hposition, Piece.filled_field]
  | stray c => cases regular

/-- A regular pattern is filled as promised. -/
theorem render_of_isRegular {pattern : String} (regular : IsRegular pattern) (values : Object) :
    render pattern values = .ok (filledText pattern values) := by
  have hpieces : ∀ p ∈ pieces pattern.toList, p.isRegular = true := List.all_eq_true.1 regular
  have hlength : ((pieces pattern.toList).flatMap Piece.chars).length ≤
      pattern.toList.length + 1 := by
    rw [chars_pieces]
    exact Nat.le_succ _
  have hfilled : fillFrom values (fill values 1) (pattern.toList.length + 1)
      ((pieces pattern.toList).flatMap Piece.chars) = _ :=
    fillFrom_flatMap (fun p _ => p.chars_ne_nil) (fun p hp _ _ => fillFrom_piece (hpieces p hp))
      hlength
  rw [chars_pieces] at hfilled
  rw [render, levels, fill, hfilled]
  rfl

end Questionnaire.Pattern
