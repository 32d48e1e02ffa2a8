import Questionnaire.Proofs.Condition.Completeness
import Questionnaire.Proofs.Condition.Lexing

/-!
# Printed conditions

A tree is printed with brackets around each operand that is no literal, name or call, and with
spaces between the tokens.  What is printed is read as the tree it was printed from.

## Main Definitions

* `Condition.Expr.isPrintable` - the trees that can be printed
* `Condition.Prints` - the ways in which a tree may be printed

## Main Statements

* `Condition.exists_prints` - every tree that can be printed is printed in some way
* `Condition.Prints.exists_row` - the pieces of a printed tree spell a derivation of it
* `Condition.parse_printed` - a printed tree is read as itself

## Design Notes

Printing is a relation: each text may be quoted in two ways, a minus may stand apart from the
digits, and brackets may be put around anything.
-/

namespace Questionnaire.Condition

/-- A literal that can be printed: an absent value, a truth value, a text, or an integer of at most
53 bits. -/
def isPrintableLiteral : Json → Bool
  | .null => true
  | .bool _ => true
  | .str _ => true
  | .int n => n.natAbs ≤ 2 ^ 53
  | _ => false

/-- A tree that can be printed.  Its names have the form of names and have no other meaning. -/
def Expr.isPrintable : Expr → Bool
  | .literal v => isPrintableLiteral v
  | .field name => isIdentifier name && (keyword? name).isNone
  | .not x => x.isPrintable
  | .conj l r => l.isPrintable && r.isPrintable
  | .disj l r => l.isPrintable && r.isPrintable
  | .compare _ l r => l.isPrintable && r.isPrintable
  | .includes c n => c.isPrintable && n.isPrintable
  | .presentCall x => x.isPrintable
  | .includesCall c n => c.isPrintable && n.isPrintable

/-- Where a tree is printed. -/
inductive Place where
  /-- As a whole text, as an argument, or inside brackets. -/
  | alone
  /-- As an operand of an operator. -/
  | operand
  deriving DecidableEq, Repr

/-- The ways in which a tree may be printed, as the pieces that spaces are put between. -/
inductive Prints : Place → Expr → List String → Prop where
  /-- The absent value. -/
  | null (place : Place) : Prints place (.literal .null) ["null"]
  /-- A truth value. -/
  | bool (place : Place) (b : Bool) :
    Prints place (.literal (.bool b)) [if b then "true" else "false"]
  /-- An integer in decimal notation. -/
  | integer (place : Place) (n : Int) : Prints place (.literal (.int n)) [n.repr]
  /-- A negative integer with a space behind its minus. -/
  | negative (place : Place) (n : Nat) : Prints place (.literal (.int (-n))) ["-", n.repr]
  /-- A text in quotes. -/
  | text (place : Place) (q : Quote) (s : String) : Prints place (.literal (.str s)) [q.quoted s]
  /-- The name of a field. -/
  | field (place : Place) (name : String) : Prints place (.field name) [name]
  /-- A negation. -/
  | not {x : Expr} {ps : List String} (operand : Prints .operand x ps) :
    Prints .alone (.not x) ("NOT" :: ps)
  /-- A conjunction. -/
  | conj {l r : Expr} {ps qs : List String} (left : Prints .operand l ps)
    (right : Prints .operand r qs) : Prints .alone (.conj l r) (ps ++ "AND" :: qs)
  /-- A disjunction. -/
  | disj {l r : Expr} {ps qs : List String} (left : Prints .operand l ps)
    (right : Prints .operand r qs) : Prints .alone (.disj l r) (ps ++ "OR" :: qs)
  /-- A comparison. -/
  | compare (op : Comparison) {l r : Expr} {ps qs : List String} (left : Prints .operand l ps)
    (right : Prints .operand r qs) : Prints .alone (.compare op l r) (ps ++ op.spelling :: qs)
  /-- Membership as an operator. -/
  | includes {c n : Expr} {ps qs : List String} (container : Prints .operand c ps)
    (needle : Prints .operand n qs) : Prints .alone (.includes c n) (ps ++ "includes" :: qs)
  /-- Presence as a call. -/
  | presentCall (place : Place) {x : Expr} {ps : List String} (argument : Prints .alone x ps) :
    Prints place (.presentCall x) ("present" :: "(" :: (ps ++ [")"]))
  /-- Membership as a call. -/
  | includesCall (place : Place) {c n : Expr} {ps qs : List String} (container : Prints .alone c ps)
    (needle : Prints .alone n qs) :
    Prints place (.includesCall c n) ("includes" :: "(" :: (ps ++ "," :: (qs ++ [")"])))
  /-- Brackets around a tree. -/
  | group (place : Place) {x : Expr} {ps : List String} (inner : Prints .alone x ps) :
    Prints place x ("(" :: (ps ++ [")"]))

/-- What is printed alone is printed as an operand inside brackets. -/
theorem exists_prints_of_alone {tree : Expr} (h : ∃ pieces, Prints .alone tree pieces)
    (place : Place) : ∃ pieces, Prints place tree pieces := by
  obtain ⟨pieces, prints⟩ := h
  exact ⟨_, .group place prints⟩

/-- Both operands of an operator, or arguments of a call, are printed. -/
theorem exists_prints_both {l r : Expr}
    (left : l.isPrintable = true → ∀ place, ∃ ps, Prints place l ps)
    (right : r.isPrintable = true → ∀ place, ∃ qs, Prints place r qs)
    (printable : (l.isPrintable && r.isPrintable) = true) (place : Place) :
    ∃ ps qs, Prints place l ps ∧ Prints place r qs := by
  obtain ⟨hl, hr⟩ := Bool.and_eq_true_iff.1 printable
  obtain ⟨ps, hps⟩ := left hl place
  obtain ⟨qs, hqs⟩ := right hr place
  exact ⟨ps, qs, hps, hqs⟩

/-- Every tree that can be printed is printed in some way. -/
theorem exists_prints {tree : Expr} (printable : tree.isPrintable = true) (place : Place) :
    ∃ pieces, Prints place tree pieces := by
  induction tree generalizing place with
  | literal v =>
    cases v with
    | null => exact ⟨_, .null place⟩
    | bool b => exact ⟨_, .bool place b⟩
    | int n => exact ⟨_, .integer place n⟩
    | str s => exact ⟨_, .text place .single s⟩
    | float | arr | obj => cases printable
  | field name => exact ⟨_, .field place name⟩
  | not x ih =>
    obtain ⟨ps, prints⟩ := ih printable .operand
    exact exists_prints_of_alone ⟨_, .not prints⟩ place
  | presentCall x ih =>
    obtain ⟨ps, prints⟩ := ih printable .alone
    exact ⟨_, .presentCall place prints⟩
  | conj l r ihl ihr =>
    obtain ⟨ps, qs, left, right⟩ := exists_prints_both ihl ihr printable .operand
    exact exists_prints_of_alone ⟨_, .conj left right⟩ place
  | disj l r ihl ihr =>
    obtain ⟨ps, qs, left, right⟩ := exists_prints_both ihl ihr printable .operand
    exact exists_prints_of_alone ⟨_, .disj left right⟩ place
  | compare op l r ihl ihr =>
    obtain ⟨ps, qs, left, right⟩ := exists_prints_both ihl ihr printable .operand
    exact exists_prints_of_alone ⟨_, .compare op left right⟩ place
  | includes c n ihc ihn =>
    obtain ⟨ps, qs, container, needle⟩ := exists_prints_both ihc ihn printable .operand
    exact exists_prints_of_alone ⟨_, .includes container needle⟩ place
  | includesCall c n ihc ihn =>
    obtain ⟨ps, qs, container, needle⟩ := exists_prints_both ihc ihn printable .alone
    exact ⟨_, .includesCall place container needle⟩

/-! ## Derivations of what is printed -/

/-- An atom that is not compared with anything. -/
def Derivation.ofAtom (a : Derivation .atom) : Derivation .negation := .comparison a .noRelation

/-- A negation that stands by itself. -/
def Derivation.ofNegation (n : Derivation .negation) : Derivation .disjunction :=
  .disjunction (.conjunction n .noConjunct) .noDisjunct

/-- Tokens are derived as a tree in a place. -/
def Place.Derives (place : Place) (word : List Lexeme) (tree : Expr) : Prop :=
  match place with
  | .alone => ∃ d : Derivation .disjunction, d.word = word ∧ d.tree = tree
  | .operand => ∃ d : Derivation .atom, d.word = word ∧ d.tree = tree

namespace Place

open Questionnaire.Condition.Derivation

variable {word word' : List Lexeme} {tree tree' : Expr}

theorem derives_atom (place : Place) (a : Derivation .atom) : place.Derives a.word a.tree := by
  cases place with
  | alone =>
    refine ⟨.ofNegation (.ofAtom a), ?_, rfl⟩
    simp [ofNegation, ofAtom, Derivation.word]
  | operand => exact ⟨a, rfl, rfl⟩

theorem derives_group (place : Place) (h : alone.Derives word tree) :
    place.Derives (.opening :: (word ++ [.closing])) tree := by
  obtain ⟨d, rfl, rfl⟩ := h
  exact place.derives_atom (.group d)

theorem derives_not (w : String) (h : operand.Derives word tree) :
    alone.Derives (.neg w :: word) (.not tree) := by
  obtain ⟨a, rfl, rfl⟩ := h
  refine ⟨.ofNegation (.not w (.ofAtom a)), ?_, rfl⟩
  simp [ofNegation, ofAtom, Derivation.word]

theorem derives_conj (w : String) (h : operand.Derives word tree)
    (h' : operand.Derives word' tree') :
    alone.Derives (word ++ .conj w :: word') (.conj tree tree') := by
  obtain ⟨a, rfl, rfl⟩ := h
  obtain ⟨b, rfl, rfl⟩ := h'
  refine ⟨.disjunction (.conjunction (.ofAtom a) (.conjunct w (.ofAtom b) .noConjunct)) .noDisjunct,
    ?_, rfl⟩
  simp [ofAtom, Derivation.word]

theorem derives_disj (w : String) (h : operand.Derives word tree)
    (h' : operand.Derives word' tree') :
    alone.Derives (word ++ .disj w :: word') (.disj tree tree') := by
  obtain ⟨a, rfl, rfl⟩ := h
  obtain ⟨b, rfl, rfl⟩ := h'
  refine ⟨.disjunction (.conjunction (.ofAtom a) .noConjunct)
    (.disjunct w (.conjunction (.ofAtom b) .noConjunct) .noDisjunct), ?_, rfl⟩
  simp [ofAtom, Derivation.word]

theorem derives_relation (op : Relation) (h : operand.Derives word tree)
    (h' : operand.Derives word' tree') :
    alone.Derives (word ++ op.lexeme :: word') (op.apply tree tree') := by
  obtain ⟨a, rfl, rfl⟩ := h
  obtain ⟨b, rfl, rfl⟩ := h'
  refine ⟨.ofNegation (.comparison a (.relation op b .noRelation)), ?_, rfl⟩
  simp [ofNegation, Derivation.word]

theorem derives_presentCall (place : Place) (head : Lexeme)
    (hhead : head.function? = some .present) (h : alone.Derives word tree) :
    place.Derives (head :: .opening :: (word ++ [.closing])) (.presentCall tree) := by
  obtain ⟨d, rfl, rfl⟩ := h
  exact place.derives_atom (.presentCall head hhead d)

theorem derives_includesCall (place : Place) (head : Lexeme)
    (hhead : head.function? = some .includes) (h : alone.Derives word tree)
    (h' : alone.Derives word' tree') :
    place.Derives (head :: .opening :: (word ++ .comma :: (word' ++ [.closing])))
      (.includesCall tree tree') := by
  obtain ⟨d, rfl, rfl⟩ := h
  obtain ⟨d', rfl, rfl⟩ := h'
  exact place.derives_atom (.includesCall head hhead d d')

end Place

/-! ## The pieces of what is printed -/

theorem scans_word {w : String} {l : Lexeme} (h : isIdentifier w = true) (hl : wordLexeme w = l) :
    Scans w.toList [l] :=
  hl ▸ (spells_identifier h).scans

theorem scans_sign {l : Lexeme} {c : Char} (h : l.sign? = some c) : Scans [c] [l] :=
  scans_nil.cons_sign h

/-- An integer is spelled by its digits, behind a minus if it is negative. -/
theorem exists_row_integer (place : Place) {n : Int} (h : n.natAbs ≤ 2 ^ 53) :
    ∃ word, Row [n.repr] word ∧ place.Derives word (.literal (.int n)) := by
  cases n with
  | ofNat k =>
    have scans : Scans (Nat.toDigits 10 k) [.number (.int k)] := (spells_toDigits h).scans
    refine ⟨_, .single ?_, place.derives_atom (.constant (.number (.int k)) _ rfl)⟩
    rwa [show (Int.ofNat k).repr = k.repr from rfl, Nat.toList_repr]
  | negSucc k =>
    have scans : Scans ('-' :: Nat.toDigits 10 (k + 1)) [.minus, .number (.int (k + 1))] :=
      (spells_toDigits h).scans.cons_sign rfl
    refine ⟨_, .single ?_, place.derives_atom (.negative (.int (k + 1)))⟩
    rwa [show (Int.negSucc k).repr = "-" ++ (k + 1).repr from rfl, String.toList_append,
      Nat.toList_repr]

/-- The pieces of both operands of an operator, or of both arguments of a call, spell
derivations. -/
theorem exists_row_both {place : Place} {l r : Expr} {ps qs : List String}
    (left : l.isPrintable = true → ∃ word, Row ps word ∧ place.Derives word l)
    (right : r.isPrintable = true → ∃ word, Row qs word ∧ place.Derives word r)
    (printable : (l.isPrintable && r.isPrintable) = true) :
    ∃ word word', Row ps word ∧ Row qs word' ∧ place.Derives word l ∧ place.Derives word' r := by
  obtain ⟨hl, hr⟩ := Bool.and_eq_true_iff.1 printable
  obtain ⟨word, row, derives⟩ := left hl
  obtain ⟨word', row', derives'⟩ := right hr
  exact ⟨word, word', row, row', derives, derives'⟩

/-- The pieces of a printed tree spell a derivation of it. -/
theorem Prints.exists_row {place : Place} {tree : Expr} {pieces : List String}
    (prints : Prints place tree pieces) (printable : tree.isPrintable = true) :
    ∃ word, Row pieces word ∧ place.Derives word tree := by
  have opening : Scans "(".toList [.opening] := scans_sign rfl
  have closing : Row [")"] [.closing] := .single (scans_sign rfl)
  have comma : Scans ",".toList [.comma] := scans_sign rfl
  induction prints with
  | null place =>
    exact ⟨_, .single (scans_word (by decide +kernel) rfl),
      place.derives_atom (.constant (.absent "null") _ rfl)⟩
  | bool place b =>
    cases b with
    | false =>
      exact ⟨_, .single (scans_word (by decide +kernel) rfl),
        place.derives_atom (.constant (.no "false") _ rfl)⟩
    | true =>
      exact ⟨_, .single (scans_word (by decide +kernel) rfl),
        place.derives_atom (.constant (.yes "true") _ rfl)⟩
  | integer place n => exact exists_row_integer place (of_decide_eq_true printable)
  | negative place n =>
    have bound : n ≤ 2 ^ 53 := by
      have := of_decide_eq_true printable
      omega
    have digits : Scans n.repr.toList [.number (.int n)] := by
      rw [Nat.toList_repr]
      exact (spells_toDigits bound).scans
    exact ⟨_, .cons (scans_sign rfl) (.single digits), place.derives_atom (.negative (.int n))⟩
  | text place q s =>
    exact ⟨_, .single (spells_quoted q s).scans, place.derives_atom (.constant (.quoted s) _ rfl)⟩
  | field place name =>
    obtain ⟨hname, hkeyword⟩ := Bool.and_eq_true_iff.1 printable
    have hlexeme : wordLexeme name = .name name := by
      rw [wordLexeme, Option.isNone_iff_eq_none.1 hkeyword, Option.getD_none]
    exact ⟨_, .single (scans_word hname hlexeme), place.derives_atom (.field name)⟩
  | not _ ih =>
    obtain ⟨word, row, derives⟩ := ih printable
    exact ⟨_, .cons (scans_word (by decide +kernel) rfl) row, Place.derives_not "NOT" derives⟩
  | conj _ _ ihl ihr =>
    obtain ⟨word, word', row, row', derives, derives'⟩ := exists_row_both ihl ihr printable
    exact ⟨_, row.append (.cons (scans_word (by decide +kernel) rfl) row'),
      Place.derives_conj "AND" derives derives'⟩
  | disj _ _ ihl ihr =>
    obtain ⟨word, word', row, row', derives, derives'⟩ := exists_row_both ihl ihr printable
    exact ⟨_, row.append (.cons (scans_word (by decide +kernel) rfl) row'),
      Place.derives_disj "OR" derives derives'⟩
  | compare op _ _ ihl ihr =>
    obtain ⟨word, word', row, row', derives, derives'⟩ := exists_row_both ihl ihr printable
    exact ⟨_, row.append (.cons (spells_spelling op).scans row'),
      Place.derives_relation (.compare op) derives derives'⟩
  | includes _ _ ihc ihn =>
    obtain ⟨word, word', row, row', derives, derives'⟩ := exists_row_both ihc ihn printable
    exact ⟨_, row.append (.cons (scans_word (by decide +kernel) rfl) row'),
      Place.derives_relation (.includes "includes") derives derives'⟩
  | presentCall place _ ih =>
    obtain ⟨word, row, derives⟩ := ih printable
    exact ⟨_, .cons (scans_word (by decide +kernel) rfl) (.cons opening (row.append closing)),
      place.derives_presentCall (.name "present") rfl derives⟩
  | includesCall place _ _ ihc ihn =>
    obtain ⟨word, word', row, row', derives, derives'⟩ := exists_row_both ihc ihn printable
    exact ⟨_, .cons (scans_word (by decide +kernel) rfl)
        (.cons opening (row.append (.cons comma (row'.append closing)))),
      place.derives_includesCall (.includes "includes") rfl derives derives'⟩
  | group place _ ih =>
    obtain ⟨word, row, derives⟩ := ih printable
    exact ⟨_, .cons opening (row.append closing), place.derives_group derives⟩

/-- The pieces of a printed tree are read as it. -/
theorem Prints.parse_eq_ok {tree : Expr} {pieces : List String} (prints : Prints .alone tree pieces)
    (printable : tree.isPrintable = true) : parse (String.intercalate " " pieces) = .ok tree := by
  obtain ⟨word, row, d, hword, htree⟩ := prints.exists_row printable
  obtain ⟨ts, hts, hlexemes⟩ := row.tokens_eq_ok
  unfold parse
  rw [hts]
  exact treeOf_eq_ok_iff.2 ⟨d, hword.trans hlexemes.symm, htree⟩

/-- A tree of literals, names, operators and calls can be printed, and however it is printed, the
text is read as the tree. -/
theorem parse_printed {tree : Expr} (printable : tree.isPrintable = true) :
    (∃ pieces, Prints .alone tree pieces) ∧
      ∀ pieces, Prints .alone tree pieces →
        parse (String.intercalate " " pieces) = .ok tree :=
  ⟨exists_prints printable .alone, fun _ prints => prints.parse_eq_ok printable⟩

/-- A negation beside a comparison with a text that holds a quote, a backslash and a line feed. -/
theorem parse_printed_escaped :
    (Expr.conj (.not (.presentCall (.field "client.name")))
      (.compare .unequal (.literal (.int (-5))) (.literal (.str "a\"\\\n")))).isPrintable = true ∧
    parse "( NOT present ( client.name ) ) AND ( - 5 != \"a\\\"\\\\\n\" )" =
      .ok (.conj (.not (.presentCall (.field "client.name")))
        (.compare .unequal (.literal (.int (-5))) (.literal (.str "a\"\\\n")))) := by
  have prints := Prints.conj
    (.group .operand (.not (.presentCall .operand (.field .alone "client.name"))))
    (.group .operand (.compare .unequal (.negative .operand 5) (.text .operand .double "a\"\\\n")))
  have text : String.intercalate " " ["(", "NOT", "present", "(", "client.name", ")", ")", "AND",
      "(", "-", "5", "!=", Quote.double.quoted "a\"\\\n", ")"] =
        "( NOT present ( client.name ) ) AND ( - 5 != \"a\\\"\\\\\n\" )" := by decide +kernel
  have read := (parse_printed (by decide +kernel)).2 _ prints
  exact ⟨by decide +kernel, text ▸ read⟩

end Questionnaire.Condition
