import Mathlib.Data.List.Chain
import Questionnaire.Condition.Parser

/-!
# The grammar of conditions

A condition is read by this grammar, with every binary operator associating to the left:

    or   := and (OR and)*
    and  := not (AND not)*
    not  := NOT not | cmp
    cmp  := atom (op atom)* [op NOT not]
    atom := literal | '-' NUMBER | name | call | '(' or ')'

An operator of a comparison is one of the nine comparisons, or membership.  A call has the name of a
function in front of its bracket and as many arguments as the function takes.

## Main Definitions

* `Condition.Phrase` - the parts of a condition that the grammar speaks of
* `Condition.Derivation` - the ways in which a phrase may be put together
* `Condition.Derivation.word` - the tokens that a derivation spells
* `Condition.Derivation.tree` - the tree that it stands for

## Main Statements

* `Condition.Derivation.eq_of_word` - tokens have at most one derivation

## Design Notes

A repetition is a phrase of its own, so a derivation is taken apart from the left as it is read.
Its meaning is what it makes of the tree to its left.
-/

namespace Questionnaire.Condition

/-- The parts of a condition. -/
inductive Phrase where
  /-- `or` -/
  | disjunction
  /-- `(OR and)*` -/
  | disjuncts
  /-- `and` -/
  | conjunction
  /-- `(AND not)*` -/
  | conjuncts
  /-- `not` -/
  | negation
  /-- `(op atom)* [op NOT not]` -/
  | relations
  /-- `atom` -/
  | atom
  deriving DecidableEq, Repr

/-- What a phrase stands for: a tree, or for a repetition what it makes of the tree to its left. -/
@[reducible] def Phrase.Meaning : Phrase → Type
  | .disjuncts | .conjuncts | .relations => Expr → Expr
  | _ => Expr

/-- An operator of a comparison, as it is written. -/
inductive Relation where
  /-- One of the comparisons. -/
  | compare (op : Comparison)
  /-- Membership. -/
  | includes (written : String)

namespace Relation

/-- The token of an operator. -/
def lexeme : Relation → Lexeme
  | .compare op => .comparison op
  | .includes w => .includes w

/-- The tree of an operator with its two operands. -/
def apply : Relation → Expr → Expr → Expr
  | .compare op, l, r => .compare op l r
  | .includes _, l, r => .includes l r

theorem ofLexeme?_lexeme (op : Relation) :
    ∃ b, Binary.ofLexeme? op.lexeme = some b ∧ b.strength = .compare ∧ b.apply = op.apply := by
  cases op <;> exact ⟨_, rfl, rfl, rfl⟩

theorem lexeme_injective {op op' : Relation} (h : op.lexeme = op'.lexeme) : op = op' := by
  cases op <;> cases op' <;> cases h <;> rfl

end Relation

namespace Lexeme

/-- The value that a token is a literal of. -/
def constant? : Lexeme → Option Json
  | .number v => some v
  | .quoted s => some (.str s)
  | .yes _ => some (.bool true)
  | .no _ => some (.bool false)
  | .absent _ => some .null
  | _ => none

/-- The function that a token in front of a bracket calls. -/
def function? : Lexeme → Option Function
  | .name w => Function.ofName? w
  | .includes w => Function.ofName? w
  | _ => none

theorem function?_of_constant? {l : Lexeme} {v : Json} (h : l.constant? = some v) :
    l.function? = none := by
  cases l <;> first | rfl | cases h

end Lexeme

/-- The ways in which a phrase may be put together. -/
inductive Derivation : Phrase → Type where
  /-- A conjunction, and further ones behind it. -/
  | disjunction (first : Derivation .conjunction) (more : Derivation .disjuncts) :
    Derivation .disjunction
  /-- No further conjunction. -/
  | noDisjunct : Derivation .disjuncts
  /-- One more conjunction. -/
  | disjunct (written : String) (next : Derivation .conjunction) (more : Derivation .disjuncts) :
    Derivation .disjuncts
  /-- A negation, and further ones behind it. -/
  | conjunction (first : Derivation .negation) (more : Derivation .conjuncts) :
    Derivation .conjunction
  /-- No further negation. -/
  | noConjunct : Derivation .conjuncts
  /-- One more negation. -/
  | conjunct (written : String) (next : Derivation .negation) (more : Derivation .conjuncts) :
    Derivation .conjuncts
  /-- A phrase that is negated. -/
  | not (written : String) (operand : Derivation .negation) : Derivation .negation
  /-- A comparison of one or more atoms. -/
  | comparison (first : Derivation .atom) (more : Derivation .relations) : Derivation .negation
  /-- Nothing more to compare with. -/
  | noRelation : Derivation .relations
  /-- One more atom to compare with. -/
  | relation (op : Relation) (next : Derivation .atom) (more : Derivation .relations) :
    Derivation .relations
  /-- A phrase that is negated stands last. -/
  | lastNot (op : Relation) (written : String) (operand : Derivation .negation) :
    Derivation .relations
  /-- A literal. -/
  | constant (l : Lexeme) (v : Json) (h : l.constant? = some v) : Derivation .atom
  /-- A negative number. -/
  | negative (v : Json) : Derivation .atom
  /-- The name of a field. -/
  | field (name : String) : Derivation .atom
  /-- A call of the function with one argument. -/
  | presentCall (head : Lexeme) (h : head.function? = some .present)
    (operand : Derivation .disjunction) : Derivation .atom
  /-- A call of the function with two arguments. -/
  | includesCall (head : Lexeme) (h : head.function? = some .includes)
    (container needle : Derivation .disjunction) : Derivation .atom
  /-- A condition in brackets. -/
  | group (inner : Derivation .disjunction) : Derivation .atom

namespace Derivation

/-- The tokens that a derivation spells. -/
def word : {s : Phrase} → Derivation s → List Lexeme
  | _, .disjunction first more => first.word ++ more.word
  | _, .noDisjunct => []
  | _, .disjunct w next more => .disj w :: (next.word ++ more.word)
  | _, .conjunction first more => first.word ++ more.word
  | _, .noConjunct => []
  | _, .conjunct w next more => .conj w :: (next.word ++ more.word)
  | _, .not w operand => .neg w :: operand.word
  | _, .comparison first more => first.word ++ more.word
  | _, .noRelation => []
  | _, .relation op next more => op.lexeme :: (next.word ++ more.word)
  | _, .lastNot op w operand => op.lexeme :: .neg w :: operand.word
  | _, .constant l _ _ => [l]
  | _, .negative v => [.minus, .number v]
  | _, .field name => [.name name]
  | _, .presentCall head _ x => head :: .opening :: (x.word ++ [.closing])
  | _, .includesCall head _ c n => head :: .opening :: (c.word ++ .comma :: (n.word ++ [.closing]))
  | _, .group inner => .opening :: (inner.word ++ [.closing])

/-- The tree that a derivation stands for. -/
def tree : {s : Phrase} → Derivation s → s.Meaning
  | _, .disjunction first more => more.tree first.tree
  | _, .noDisjunct => id
  | _, .disjunct _ next more => fun left => more.tree (.disj left next.tree)
  | _, .conjunction first more => more.tree first.tree
  | _, .noConjunct => id
  | _, .conjunct _ next more => fun left => more.tree (.conj left next.tree)
  | _, .not _ operand => .not operand.tree
  | _, .comparison first more => more.tree first.tree
  | _, .noRelation => id
  | _, .relation op next more => fun left => more.tree (op.apply left next.tree)
  | _, .lastNot op _ operand => fun left => op.apply left (.not operand.tree)
  | _, .constant _ v _ => .literal v
  | _, .negative v => .literal (Condition.negative v)
  | _, .field name => .field name
  | _, .presentCall _ _ x => .presentCall x.tree
  | _, .includesCall _ _ c n => .includesCall c.tree n.tree
  | _, .group inner => inner.tree

end Derivation

/-! ## One derivation at most -/

/-- No operator in front binds more tightly than `limit`. -/
def Stops (limit : Strength) (rest : List Lexeme) : Prop :=
  ∀ l, rest.head? = some l → ∀ op, Binary.ofLexeme? l = some op → op.strength.rank ≤ limit.rank

/-- What may stand behind a phrase: a reader of the phrase stops there, and no bracket opens that
would make a call of a name. -/
structure Ends (limit : Strength) (rest : List Lexeme) : Prop where
  /-- No operator goes on with the phrase. -/
  stops : Stops limit rest
  /-- No bracket opens. -/
  not_opening : rest.head? ≠ some .opening

/-- The operators that may stand behind a phrase bind at most this tightly. -/
def Phrase.limit : Phrase → Strength
  | .disjunction | .disjuncts => .outermost
  | .conjunction | .conjuncts => .disj
  | .negation | .relations => .neg
  | .atom => .compare

namespace Stops

variable {limit limit' : Strength} {rest : List Lexeme}

theorem mono (stops : Stops limit rest) (h : limit.rank ≤ limit'.rank) : Stops limit' rest := by
  intro l hl op hop
  exact Nat.le_trans (stops l hl op hop) h

/-- A token that is no operator goes on with nothing. -/
theorem of_not_operator {l : Lexeme} (h : Binary.ofLexeme? l = none) : Stops limit (l :: rest) := by
  intro l' hl op hop
  cases hl
  rw [h] at hop
  cases hop

/-- An operator that binds more tightly goes on. -/
theorem rank_le {l : Lexeme} (stops : Stops limit (l :: rest)) (op : Binary)
    (hop : Binary.ofLexeme? l = some op) : op.strength.rank ≤ limit.rank :=
  stops l rfl op hop

end Stops

namespace Ends

variable {limit limit' : Strength} {rest : List Lexeme}

theorem nil (limit : Strength) : Ends limit [] :=
  ⟨nofun, nofun⟩

theorem closing (limit : Strength) (rest : List Lexeme) : Ends limit (.closing :: rest) :=
  ⟨.of_not_operator rfl, nofun⟩

theorem comma (limit : Strength) (rest : List Lexeme) : Ends limit (.comma :: rest) :=
  ⟨.of_not_operator rfl, nofun⟩

theorem mono (ends : Ends limit rest) (h : limit.rank ≤ limit'.rank) : Ends limit' rest :=
  ⟨ends.stops.mono h, ends.not_opening⟩

/-- A bracket that opens would belong to the phrase. -/
theorem not_ends_opening : ¬ Ends limit (.opening :: rest) :=
  fun ends => ends.not_opening rfl

/-- An operator ends what binds at least as tightly. -/
theorem of_operator {l : Lexeme} (op : Binary) (hop : Binary.ofLexeme? l = some op)
    (h : op.strength.rank ≤ limit.rank) (rest : List Lexeme) : Ends limit (l :: rest) := by
  refine ⟨?_, ?_⟩
  · intro l' hl op' hop'
    cases hl
    cases hop.symm.trans hop'
    exact h
  · intro hl
    cases hl
    cases hop

end Ends

theorem Relation.not_stops (op : Relation) (rest : List Lexeme) :
    ¬ Stops .neg (op.lexeme :: rest) := by
  obtain ⟨b, hb, hs, -⟩ := op.ofLexeme?_lexeme
  intro stops
  have := stops.rank_le b hb
  rw [hs] at this
  exact absurd this (by decide)

namespace Derivation

variable {rest rest' : List Lexeme} {s : Phrase}

/-- Nothing that a disjunction goes on with may stand where it stops. -/
theorem eq_noDisjunct {d : Derivation .disjuncts} (stops : Stops .outermost (d.word ++ rest)) :
    d = .noDisjunct := by
  cases d with
  | noDisjunct => rfl
  | disjunct w next more => exact absurd (stops.rank_le .disj rfl) (by decide)

theorem eq_noConjunct {d : Derivation .conjuncts} (stops : Stops .disj (d.word ++ rest)) :
    d = .noConjunct := by
  cases d with
  | noConjunct => rfl
  | conjunct w next more => exact absurd (stops.rank_le .conj rfl) (by decide)

theorem eq_noRelation {d : Derivation .relations} (stops : Stops .neg (d.word ++ rest)) :
    d = .noRelation := by
  cases d with
  | noRelation => rfl
  | relation op next more => exact absurd stops (op.not_stops _)
  | lastNot op w operand => exact absurd stops (op.not_stops _)

/-- Behind a conjunction stands the sign of a disjunction, or what stands behind the disjunction. -/
theorem ends_disjuncts (d : Derivation .disjuncts) (ends : Ends .outermost rest) :
    Ends .disj (d.word ++ rest) := by
  cases d with
  | noDisjunct => exact ends.mono (by decide)
  | disjunct w next more => exact .of_operator .disj rfl (by decide) _

theorem ends_conjuncts (d : Derivation .conjuncts) (ends : Ends .disj rest) :
    Ends .neg (d.word ++ rest) := by
  cases d with
  | noConjunct => exact ends.mono (by decide)
  | conjunct w next more => exact .of_operator .conj rfl (by decide) _

theorem ends_relations (d : Derivation .relations) (ends : Ends .neg rest) :
    Ends .compare (d.word ++ rest) := by
  have hop (op : Relation) (tail : List Lexeme) : Ends .compare (op.lexeme :: tail) := by
    obtain ⟨b, hb, hs, -⟩ := op.ofLexeme?_lexeme
    exact .of_operator b hb (Nat.le_of_eq (congrArg Strength.rank hs)) tail
  cases d with
  | noRelation => exact ends.mono (by decide)
  | relation op next more => exact hop op _
  | lastNot op w operand => exact hop op _

/-- No atom begins with the sign of a negation. -/
theorem word_ne_neg (a : Derivation .atom) (w : String) (tail : List Lexeme) :
    a.word ++ rest ≠ .neg w :: tail := by
  cases a with
  | constant l v h =>
    intro heq
    cases heq
    cases h
  | presentCall head h x =>
    intro heq
    cases heq
    cases h
  | includesCall head h c n =>
    intro heq
    cases heq
    cases h
  | _ => simp [word]

/-- A derivation stops where it must: the beginning of a list of tokens is spelled in one way, if
what stands behind it cannot go on with it. -/
theorem eq_and_eq_of_append {s : Phrase} (d d' : Derivation s)
    (heq : d.word ++ rest = d'.word ++ rest') (ends : Ends s.limit rest)
    (ends' : Ends s.limit rest') : d = d' ∧ rest = rest' := by
  induction d generalizing rest rest' with
  | disjunction first more ihFirst ihMore =>
    cases d' with
    | disjunction first' more' =>
      simp only [word, List.append_assoc] at heq
      obtain ⟨rfl, tails⟩ :=
        ihFirst first' heq (more.ends_disjuncts ends) (more'.ends_disjuncts ends')
      obtain ⟨rfl, behind⟩ := ihMore more' tails ends ends'
      exact ⟨rfl, behind⟩
  | noDisjunct =>
    have behind : rest = d'.word ++ rest' := heq
    obtain rfl := eq_noDisjunct (behind ▸ ends.stops)
    exact ⟨rfl, behind⟩
  | disjunct w next more ihNext ihMore =>
    cases d' with
    | noDisjunct =>
      have behind : (disjunct w next more).word ++ rest = rest' := heq
      cases eq_noDisjunct (behind ▸ ends'.stops)
    | disjunct w' next' more' =>
      simp only [word, List.cons_append, List.append_assoc, List.cons.injEq,
        Lexeme.disj.injEq] at heq
      obtain ⟨rfl, words⟩ := heq
      obtain ⟨rfl, tails⟩ :=
        ihNext next' words (more.ends_disjuncts ends) (more'.ends_disjuncts ends')
      obtain ⟨rfl, behind⟩ := ihMore more' tails ends ends'
      exact ⟨rfl, behind⟩
  | conjunction first more ihFirst ihMore =>
    cases d' with
    | conjunction first' more' =>
      simp only [word, List.append_assoc] at heq
      obtain ⟨rfl, tails⟩ :=
        ihFirst first' heq (more.ends_conjuncts ends) (more'.ends_conjuncts ends')
      obtain ⟨rfl, behind⟩ := ihMore more' tails ends ends'
      exact ⟨rfl, behind⟩
  | noConjunct =>
    have behind : rest = d'.word ++ rest' := heq
    obtain rfl := eq_noConjunct (behind ▸ ends.stops)
    exact ⟨rfl, behind⟩
  | conjunct w next more ihNext ihMore =>
    cases d' with
    | noConjunct =>
      have behind : (conjunct w next more).word ++ rest = rest' := heq
      cases eq_noConjunct (behind ▸ ends'.stops)
    | conjunct w' next' more' =>
      simp only [word, List.cons_append, List.append_assoc, List.cons.injEq,
        Lexeme.conj.injEq] at heq
      obtain ⟨rfl, words⟩ := heq
      obtain ⟨rfl, tails⟩ :=
        ihNext next' words (more.ends_conjuncts ends) (more'.ends_conjuncts ends')
      obtain ⟨rfl, behind⟩ := ihMore more' tails ends ends'
      exact ⟨rfl, behind⟩
  | not w operand ih =>
    cases d' with
    | not w' operand' =>
      simp only [word, List.cons_append, List.cons.injEq, Lexeme.neg.injEq] at heq
      obtain ⟨rfl, words⟩ := heq
      obtain ⟨rfl, behind⟩ := ih operand' words ends ends'
      exact ⟨rfl, behind⟩
    | comparison first' more' =>
      simp only [word, List.append_assoc] at heq
      exact absurd heq.symm (first'.word_ne_neg w _)
  | comparison first more ihFirst ihMore =>
    simp only [word, List.append_assoc] at heq
    cases d' with
    | not w' operand' => exact absurd heq (first.word_ne_neg w' _)
    | comparison first' more' =>
      simp only [word, List.append_assoc] at heq
      obtain ⟨rfl, tails⟩ :=
        ihFirst first' heq (more.ends_relations ends) (more'.ends_relations ends')
      obtain ⟨rfl, behind⟩ := ihMore more' tails ends ends'
      exact ⟨rfl, behind⟩
  | noRelation =>
    have behind : rest = d'.word ++ rest' := heq
    obtain rfl := eq_noRelation (behind ▸ ends.stops)
    exact ⟨rfl, behind⟩
  | relation op next more ihNext ihMore =>
    cases d' with
    | noRelation =>
      have behind : (relation op next more).word ++ rest = rest' := heq
      cases eq_noRelation (behind ▸ ends'.stops)
    | relation op' next' more' =>
      simp only [word, List.cons_append, List.append_assoc, List.cons.injEq] at heq
      obtain ⟨signs, words⟩ := heq
      obtain rfl := Relation.lexeme_injective signs
      obtain ⟨rfl, tails⟩ :=
        ihNext next' words (more.ends_relations ends) (more'.ends_relations ends')
      obtain ⟨rfl, behind⟩ := ihMore more' tails ends ends'
      exact ⟨rfl, behind⟩
    | lastNot op' w' operand' =>
      simp only [word, List.cons_append, List.append_assoc, List.cons.injEq] at heq
      exact absurd heq.2 (next.word_ne_neg w' _)
  | lastNot op w operand ih =>
    cases d' with
    | noRelation =>
      have behind : (lastNot op w operand).word ++ rest = rest' := heq
      cases eq_noRelation (behind ▸ ends'.stops)
    | relation op' next' more' =>
      simp only [word, List.cons_append, List.append_assoc, List.cons.injEq] at heq
      exact absurd heq.2.symm (next'.word_ne_neg w _)
    | lastNot op' w' operand' =>
      simp only [word, List.cons_append, List.cons.injEq, Lexeme.neg.injEq] at heq
      obtain ⟨signs, rfl, words⟩ := heq
      obtain rfl := Relation.lexeme_injective signs
      obtain ⟨rfl, behind⟩ := ih operand' words ends ends'
      exact ⟨rfl, behind⟩
  -- the token in front tells the atoms apart, and a bracket behind a name
  | constant l v h =>
    cases d' with
    | constant l' v' h' =>
      obtain ⟨rfl, behind⟩ := List.cons.inj heq
      obtain rfl := Option.some.inj (h.symm.trans h')
      exact ⟨rfl, behind⟩
    | _ => grind [word, Lexeme.constant?, Lexeme.function?_of_constant?]
  | negative v =>
    cases d' with
    | negative v' =>
      obtain ⟨numbers, behind⟩ := List.cons.inj (List.cons.inj heq).2
      cases numbers
      exact ⟨rfl, behind⟩
    | _ => grind [word, Lexeme.constant?, Lexeme.function?]
  | field name =>
    cases d' with
    | field name' =>
      obtain ⟨names, behind⟩ := List.cons.inj heq
      cases names
      exact ⟨rfl, behind⟩
    | _ => grind [word, Lexeme.constant?, Ends.not_ends_opening]
  | presentCall head h x ih =>
    cases d' with
    | presentCall head' h' x' =>
      simp only [word, List.cons_append, List.append_assoc, List.cons.injEq, true_and] at heq
      obtain ⟨rfl, words⟩ := heq
      obtain ⟨rfl, behind⟩ := ih x' words (.closing _ _) (.closing _ _)
      exact ⟨rfl, (List.cons.inj behind).2⟩
    | _ => grind [word, Lexeme.function?_of_constant?, Lexeme.function?, Ends.not_ends_opening]
  | includesCall head h c n ihContainer ihNeedle =>
    cases d' with
    | includesCall head' h' c' n' =>
      simp only [word, List.cons_append, List.append_assoc, List.cons.injEq, true_and] at heq
      obtain ⟨rfl, words⟩ := heq
      obtain ⟨rfl, tails⟩ := ihContainer c' words (.comma _ _) (.comma _ _)
      obtain ⟨rfl, behind⟩ := ihNeedle n' (List.cons.inj tails).2 (.closing _ _) (.closing _ _)
      exact ⟨rfl, (List.cons.inj behind).2⟩
    | _ => grind [word, Lexeme.function?_of_constant?, Lexeme.function?, Ends.not_ends_opening]
  | group inner ih =>
    cases d' with
    | group inner' =>
      simp only [word, List.cons_append, List.append_assoc, List.cons.injEq, true_and] at heq
      obtain ⟨rfl, behind⟩ := ih inner' heq (.closing _ _) (.closing _ _)
      exact ⟨rfl, (List.cons.inj behind).2⟩
    | _ => grind [word, Lexeme.constant?, Lexeme.function?]

/-- Tokens have at most one derivation. -/
theorem eq_of_word {d d' : Derivation .disjunction} (h : d.word = d'.word) : d = d' :=
  (eq_and_eq_of_append d d' (congrArg (· ++ []) h) (.nil _) (.nil _)).1

/-! ## Names in front of a bracket -/

/-- Two tokens may stand beside each other: a name in front of a bracket that opens is that of a
function. -/
def Beside (l l' : Lexeme) : Prop :=
  ∀ written, l = .name written → l' = .opening → (Function.ofName? written).isSome

theorem beside_of_ne {l l' : Lexeme} (h : l' ≠ .opening) : Beside l l' :=
  fun _ _ h' => absurd h' h

/-- No repetition begins with a bracket. -/
theorem head?_word_ne_opening {l : Lexeme} (d : Derivation s)
    (h : s = .disjuncts ∨ s = .conjuncts ∨ s = .relations) (hl : d.word.head? = some l) :
    l ≠ .opening := by
  cases d with
  | noDisjunct | noConjunct | noRelation => cases hl
  | disjunct | conjunct =>
    cases hl
    nofun
  | relation op | lastNot op =>
    cases hl
    cases op <;> exact nofun
  | _ => simp at h

theorem isChain_beside_append {first more : List Lexeme} (hfirst : first.IsChain Beside)
    (hmore : more.IsChain Beside) (h : ∀ l, more.head? = some l → l ≠ .opening) :
    (first ++ more).IsChain Beside :=
  List.isChain_append.mpr ⟨hfirst, hmore, fun _ _ l hl => beside_of_ne (h l hl)⟩

theorem isChain_beside_cons {l : Lexeme} {more : List Lexeme} (hmore : more.IsChain Beside)
    (h : ∀ w, l ≠ .name w) : (l :: more).IsChain Beside :=
  List.isChain_cons.mpr ⟨fun _ _ w hw => absurd hw (h w), hmore⟩

/-- The name of a field never stands in front of a bracket. -/
theorem isChain_beside (d : Derivation s) : d.word.IsChain Beside := by
  -- what stands between brackets, and the bracket that closes
  have closed {inner : List Lexeme} (h : inner.IsChain Beside) :
      (inner ++ [Lexeme.closing]).IsChain Beside := by
    refine isChain_beside_append h (.singleton _) fun l hl => ?_
    cases hl
    exact nofun
  induction d with
  | disjunction first more ihFirst ihMore | conjunction first more ihFirst ihMore
  | comparison first more ihFirst ihMore =>
    exact isChain_beside_append ihFirst ihMore fun l => more.head?_word_ne_opening (by simp)
  | noDisjunct | noConjunct | noRelation => exact .nil
  | disjunct w next more ihNext ihMore | conjunct w next more ihNext ihMore =>
    refine isChain_beside_cons (isChain_beside_append ihNext ihMore ?_) nofun
    exact fun l => more.head?_word_ne_opening (by simp)
  | relation op next more ihNext ihMore =>
    refine isChain_beside_cons (isChain_beside_append ihNext ihMore ?_) ?_
    · exact fun l => more.head?_word_ne_opening (by simp)
    · cases op <;> exact nofun
  | not w operand ih => exact isChain_beside_cons ih nofun
  | lastNot op w operand ih =>
    exact isChain_beside_cons (isChain_beside_cons ih nofun) (by cases op <;> exact nofun)
  | constant | field => exact .singleton _
  | negative v => exact isChain_beside_cons (.singleton _) nofun
  | presentCall head h x ih =>
    refine List.isChain_cons.mpr ⟨?_, isChain_beside_cons (closed ih) nofun⟩
    rintro l ⟨⟩ w rfl -
    exact Option.isSome_of_eq_some h
  | includesCall head h c n ihContainer ihNeedle =>
    refine List.isChain_cons.mpr ⟨?_, isChain_beside_cons (isChain_beside_append ihContainer
      (isChain_beside_cons (closed ihNeedle) nofun) ?_) nofun⟩
    · rintro l ⟨⟩ w rfl -
      exact Option.isSome_of_eq_some h
    · rintro l ⟨⟩
      nofun
  | group inner ih => exact isChain_beside_cons (closed ih) nofun

end Derivation

end Questionnaire.Condition
