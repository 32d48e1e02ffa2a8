import Mathlib.Order.Defs.LinearOrder
import Questionnaire.Proofs.Condition.Grammar
import Questionnaire.Proofs.Outcome

/-!
# What is read as a condition is derived

The readers stop where no operator binds more tightly than the strength they were given.  So an
operand is followed by comparisons, then by conjunctions, then by disjunctions, each kind only under
a strength that is below it.

## Main Definitions

* `Condition.Tail` - what follows an operand
* `Condition.Bare` - the negations that an operator may take as its right operand
* `Condition.ReadsTerm` - a term and its tail

## Main Statements

* `Condition.Sound.of_fuel` - what the readers find is derived, where the fuel suffices
-/

namespace Questionnaire.Condition

open Condition.Derivation Outcome

/-- What the tokens are, without their positions. -/
def lexemes (ts : List Token) : List Lexeme := ts.map (·.lexeme)

@[simp] theorem lexemes_nil : lexemes [] = [] := rfl

@[simp] theorem lexemes_cons (t : Token) (ts : List Token) :
    lexemes (t :: ts) = t.lexeme :: lexemes ts := rfl

@[simp] theorem length_lexemes (ts : List Token) : (lexemes ts).length = ts.length := by
  simp [lexemes]

theorem lexemes_eq_cons {ts : List Token} {l : Lexeme} {rest : List Lexeme}
    (h : lexemes ts = l :: rest) : ∃ t ts', ts = t :: ts' ∧ t.lexeme = l ∧ lexemes ts' = rest := by
  cases ts with
  | nil => cases h
  | cons t ts' => exact ⟨t, ts', rfl, (List.cons.inj h).1, (List.cons.inj h).2⟩

/-- A list of tokens that begins with some is at least as long as what is behind them. -/
theorem length_le_of_lexemes_eq {ts rest : List Token} {word : List Lexeme}
    (h : lexemes ts = word ++ lexemes rest) : rest.length ≤ ts.length := by
  have := congrArg List.length h
  simp only [length_lexemes, List.length_append] at this
  omega

/-! ## The operator in front -/

section Operator

variable {limit : Strength} {ts rest : List Token} {op : Binary}

theorem operatorAbove?_eq_none_iff : operatorAbove? limit ts = none ↔ Stops limit (lexemes ts) := by
  cases ts with
  | nil => simp [operatorAbove?, Stops]
  | cons t ts =>
    cases h : Binary.ofLexeme? t.lexeme <;> simp [operatorAbove?, Stops, h]

theorem operatorAbove?_eq_some_iff : operatorAbove? limit ts = some (op, rest) ↔
    ∃ t, ts = t :: rest ∧ Binary.ofLexeme? t.lexeme = some op ∧ limit.rank < op.strength.rank := by
  cases ts with
  | nil => simp [operatorAbove?]
  | cons t ts =>
    cases h : Binary.ofLexeme? t.lexeme with
    | none => simp [operatorAbove?, h]
    | some op' =>
      by_cases hr : limit.rank < op'.strength.rank <;> simp [operatorAbove?, h, hr] <;> grind

end Operator

/-- An operator is the sign of a disjunction, the sign of a conjunction, or an operator of a
comparison. -/
theorem Binary.ofLexeme?_eq_some {l : Lexeme} {op : Binary} (h : Binary.ofLexeme? l = some op) :
    (∃ w, l = .disj w ∧ op = .disj) ∨ (∃ w, l = .conj w ∧ op = .conj) ∨
      ∃ r : Relation, l = r.lexeme ∧ op.strength = .compare ∧ op.apply = r.apply := by
  cases l <;> cases h
  case disj w => exact .inl ⟨w, rfl, rfl⟩
  case conj w => exact .inr (.inl ⟨w, rfl, rfl⟩)
  case includes w => exact .inr (.inr ⟨.includes w, rfl, rfl, rfl⟩)
  case comparison op => exact .inr (.inr ⟨.compare op, rfl, rfl, rfl⟩)

/-! ## What is read is derived -/

/-- What follows an operand: comparisons, then conjunctions, then disjunctions. -/
structure Tail where
  /-- The comparisons. -/
  relations : Derivation .relations
  /-- The conjunctions. -/
  conjuncts : Derivation .conjuncts
  /-- The disjunctions. -/
  disjuncts : Derivation .disjuncts

namespace Tail

/-- The tokens of a tail. -/
def word (tail : Tail) : List Lexeme :=
  tail.relations.word ++ (tail.conjuncts.word ++ tail.disjuncts.word)

/-- What a tail makes of the tree to its left. -/
def tree (tail : Tail) (left : Expr) : Expr :=
  tail.disjuncts.tree (tail.conjuncts.tree (tail.relations.tree left))

/-- All operators of a tail bind more tightly than `limit`. -/
structure Above (limit : Strength) (tail : Tail) : Prop where
  /-- A comparison does not bind more tightly than a comparison. -/
  relations : Strength.compare.rank ≤ limit.rank → tail.relations = .noRelation
  /-- Neither does a conjunction. -/
  conjuncts : Strength.conj.rank ≤ limit.rank → tail.conjuncts = .noConjunct
  /-- Neither does a disjunction. -/
  disjuncts : Strength.disj.rank ≤ limit.rank → tail.disjuncts = .noDisjunct

variable {limit : Strength} {tail : Tail} {rest : List Lexeme}

/-- Where a negation stops, no comparison follows. -/
theorem relations_of_stops (stops : Stops .neg (tail.word ++ rest)) :
    tail.relations = .noRelation := by
  simp only [word, List.append_assoc] at stops
  exact eq_noRelation stops

/-- Where a conjunction stops, no conjunction follows. -/
theorem conjuncts_of_stops (stops : Stops .disj (tail.word ++ rest)) :
    tail.relations = .noRelation ∧ tail.conjuncts = .noConjunct := by
  have relations := relations_of_stops (stops.mono (by decide))
  simp only [word, relations, List.append_assoc] at stops
  exact ⟨relations, eq_noConjunct stops⟩

end Tail

/-- A negation that no comparison follows: an atom by itself, or a phrase that is negated. -/
inductive Bare : Derivation .negation → List Lexeme → Prop where
  /-- An atom. -/
  | atom (a : Derivation .atom) (rest : List Lexeme) : Bare (.comparison a .noRelation) rest
  /-- A phrase that is negated, where it stops. -/
  | not (w : String) (operand : Derivation .negation) {rest : List Lexeme}
    (stops : Stops .neg rest) : Bare (.not w operand) rest

/-- The comparisons behind an operand belong to its negation. -/
theorem Bare.exists_negation {n : Derivation .negation} {relations : Derivation .relations}
    {rest : List Lexeme} (bare : Bare n (relations.word ++ rest)) :
    ∃ n' : Derivation .negation, n'.word = n.word ++ relations.word ∧
      n'.tree = relations.tree n.tree := by
  cases bare with
  | atom a => exact ⟨.comparison a relations, by simp [word], rfl⟩
  | not w operand stops =>
    obtain rfl := eq_noRelation stops
    exact ⟨.not w operand, by simp [word], rfl⟩

/-- What `extend` reads under a strength: a tail of the tree `left`. -/
structure Extended (limit : Strength) (left : Expr) (ts : List Token) (t : Expr)
    (rest : List Token) : Prop where
  /-- The tail. -/
  exists_tail : ∃ tail : Tail, tail.Above limit ∧ lexemes ts = tail.word ++ lexemes rest ∧
    tail.tree left = t
  /-- No operator goes on with it. -/
  stops : Stops limit (lexemes rest)

/-- What `operand` reads. -/
def ReadsOperand (ts : List Token) (t : Expr) (rest : List Token) : Prop :=
  ∃ n : Derivation .negation, Bare n (lexemes rest) ∧ lexemes ts = n.word ++ lexemes rest ∧
    n.tree = t

theorem ReadsOperand.length_le {ts rest : List Token} {t : Expr} (h : ReadsOperand ts t rest) :
    rest.length ≤ ts.length := by
  obtain ⟨n, -, hts, -⟩ := h
  exact length_le_of_lexemes_eq hts

/-- What `term` reads under a strength: an operand and its tail. -/
def ReadsTerm (limit : Strength) (ts : List Token) (t : Expr) (rest : List Token) : Prop :=
  ∃ left behind, ReadsOperand ts left behind ∧ Extended limit left behind t rest

namespace ReadsTerm

variable {limit : Strength} {ts rest : List Token} {t : Expr}

theorem length_le (h : ReadsTerm limit ts t rest) : rest.length ≤ ts.length := by
  obtain ⟨left, behind, hoperand, ⟨⟨tail, -, hbehind, -⟩, -⟩⟩ := h
  exact le_trans (length_le_of_lexemes_eq hbehind) hoperand.length_le

/-- Above all operators a term is an operand. -/
theorem operand (h : ReadsTerm .compare ts t rest) : ReadsOperand ts t rest := by
  obtain ⟨left, behind, ⟨n, bare, hts, rfl⟩, ⟨⟨tail, above, hbehind, rfl⟩, -⟩⟩ := h
  have : lexemes behind = lexemes rest := by
    simpa [Tail.word, above.relations (by decide), above.conjuncts (by decide),
      above.disjuncts (by decide), Derivation.word] using hbehind
  refine ⟨n, this ▸ bare, this ▸ hts, ?_⟩
  simp [Tail.tree, above.relations (by decide), above.conjuncts (by decide),
    above.disjuncts (by decide), Derivation.tree]

theorem stops (h : ReadsTerm limit ts t rest) : Stops limit (lexemes rest) := by
  obtain ⟨left, behind, -, hextended⟩ := h
  exact hextended.stops

/-- The comparisons of a term belong to the negation that it begins with. -/
theorem exists_negation (h : ReadsTerm limit ts t rest) :
    ∃ (n : Derivation .negation) (conjuncts : Derivation .conjuncts)
      (disjuncts : Derivation .disjuncts),
      lexemes ts = n.word ++ (conjuncts.word ++ (disjuncts.word ++ lexemes rest)) ∧
      disjuncts.tree (conjuncts.tree n.tree) = t ∧
      (Strength.conj.rank ≤ limit.rank → conjuncts = .noConjunct) ∧
      (Strength.disj.rank ≤ limit.rank → disjuncts = .noDisjunct) := by
  obtain ⟨left, behind, ⟨n, bare, hts, rfl⟩, ⟨⟨tail, above, hbehind, rfl⟩, -⟩⟩ := h
  simp only [Tail.word, List.append_assoc] at hbehind
  rw [hbehind] at bare hts
  obtain ⟨n', hword, htree⟩ := bare.exists_negation
  refine ⟨n', tail.conjuncts, tail.disjuncts, ?_, ?_, above.conjuncts, above.disjuncts⟩
  · rw [hts, hword, List.append_assoc]
  · rw [htree, Tail.tree]

theorem negation (h : ReadsTerm limit ts t rest) (hlimit : Strength.conj.rank ≤ limit.rank) :
    ∃ n : Derivation .negation, lexemes ts = n.word ++ lexemes rest ∧ n.tree = t := by
  obtain ⟨n, conjuncts, disjuncts, hts, rfl, hconjuncts, hdisjuncts⟩ := h.exists_negation
  obtain rfl := hconjuncts hlimit
  obtain rfl := hdisjuncts (le_trans (by decide) hlimit)
  exact ⟨n, hts, rfl⟩

theorem conjunction (h : ReadsTerm limit ts t rest) (hlimit : Strength.disj.rank ≤ limit.rank) :
    ∃ d : Derivation .conjunction, lexemes ts = d.word ++ lexemes rest ∧ d.tree = t := by
  obtain ⟨n, conjuncts, disjuncts, hts, rfl, -, hdisjuncts⟩ := h.exists_negation
  obtain rfl := hdisjuncts hlimit
  refine ⟨.conjunction n conjuncts, ?_, rfl⟩
  rw [hts]
  simp [word]

theorem disjunction (h : ReadsTerm limit ts t rest) :
    ∃ d : Derivation .disjunction, lexemes ts = d.word ++ lexemes rest ∧ d.tree = t := by
  obtain ⟨n, conjuncts, disjuncts, hts, rfl, -, -⟩ := h.exists_negation
  refine ⟨.disjunction (.conjunction n conjuncts) disjuncts, ?_, rfl⟩
  rw [hts]
  simp [word]

end ReadsTerm

/-- Where no operator goes on, a tail is empty. -/
theorem Extended.of_stops {limit : Strength} {ts : List Token} (left : Expr)
    (stops : Stops limit (lexemes ts)) : Extended limit left ts left ts :=
  ⟨⟨⟨.noRelation, .noConjunct, .noDisjunct⟩, ⟨fun _ => rfl, fun _ => rfl, fun _ => rfl⟩, rfl,
    rfl⟩, stops⟩

/-- An operator, what it takes as its right operand, and the tail behind that are a tail. -/
theorem Extended.cons {limit : Strength} {op : Binary} {sign : Token} {left right t : Expr}
    {ts behind rest : List Token} (hop : Binary.ofLexeme? sign.lexeme = some op)
    (above : limit.rank < op.strength.rank) (hright : ReadsTerm op.strength ts right behind)
    (more : Extended limit (op.apply left right) behind t rest) :
    Extended limit left (sign :: ts) t rest := by
  have ended := hright.stops
  obtain ⟨⟨tail, htail, hbehind, rfl⟩, stops⟩ := more
  refine ⟨?_, stops⟩
  rw [hbehind] at ended
  rcases Binary.ofLexeme?_eq_some hop with ⟨w, hsign, rfl⟩ | ⟨w, hsign, rfl⟩ | ⟨r, hsign, hs, ha⟩
  · obtain ⟨d, hts, rfl⟩ := hright.conjunction (by decide)
    obtain ⟨hrelations, hconjuncts⟩ := Tail.conjuncts_of_stops ended
    refine ⟨⟨.noRelation, .noConjunct, .disjunct w d tail.disjuncts⟩,
      ⟨fun _ => rfl, fun _ => rfl, fun h => absurd above (Nat.not_lt.mpr h)⟩, ?_, ?_⟩
    · simp [Tail.word, word, hsign, hts, hbehind, hrelations, hconjuncts]
    · simp [Tail.tree, tree, Binary.apply, hrelations, hconjuncts]
  · obtain ⟨d, hts, rfl⟩ := hright.negation (by decide)
    have hrelations := Tail.relations_of_stops (ended.mono (by decide))
    refine ⟨⟨.noRelation, .conjunct w d tail.conjuncts, tail.disjuncts⟩,
      ⟨fun _ => rfl, fun h => absurd above (Nat.not_lt.mpr h), htail.disjuncts⟩, ?_, ?_⟩
    · simp [Tail.word, word, hsign, hts, hbehind, hrelations]
    · simp [Tail.tree, tree, Binary.apply, hrelations]
  · rw [hs] at hright above
    obtain ⟨n, bare, hts, rfl⟩ := hright.operand
    cases bare with
    | atom a =>
      refine ⟨⟨.relation r a tail.relations, tail.conjuncts, tail.disjuncts⟩,
        ⟨fun h => absurd above (Nat.not_lt.mpr h), htail.conjuncts, htail.disjuncts⟩, ?_, ?_⟩
      · simp [Tail.word, word, hsign, hts, hbehind]
      · simp [Tail.tree, tree, ha]
    | not w operand stops' =>
      have hrelations := Tail.relations_of_stops (hbehind ▸ stops')
      refine ⟨⟨.lastNot r w operand, tail.conjuncts, tail.disjuncts⟩,
        ⟨fun h => absurd above (Nat.not_lt.mpr h), htail.conjuncts, htail.disjuncts⟩, ?_, ?_⟩
      · simp [Tail.word, word, hsign, hts, hbehind, hrelations]
      · simp [Tail.tree, tree, ha, hrelations]

section Calls

variable {ts rest : List Token}

theorem callHead?_eq_some {t : Token} {w : String} (h : callHead? ts = some (t, w, rest)) :
    ∃ p, ts = t :: ⟨.opening, p⟩ :: rest ∧ t.lexeme.function? = Function.ofName? w := by
  unfold callHead? at h
  split at h <;> cases h
  · exact ⟨_, rfl, rfl⟩
  · exact ⟨_, rfl, rfl⟩

theorem afterClosing_eq_ok {text : String} (h : afterClosing text ts = .ok rest) :
    lexemes ts = .closing :: lexemes rest := by
  unfold afterClosing at h
  split at h <;> cases h
  rfl

theorem afterMinus_eq_ok {text : String} {t : Expr} (h : afterMinus text ts = .ok (t, rest)) :
    ∃ v, lexemes ts = .number v :: lexemes rest ∧ t = .literal (negative v) := by
  unfold afterMinus at h
  split at h <;> cases h
  exact ⟨_, rfl, rfl⟩

theorem callTree_eq_ok {text w : String} {sign : Token} {f : Function} {args : List Expr} {t : Expr}
    (h : callTree text sign w f args = .ok t) :
    (f = .present ∧ ∃ x, args = [x] ∧ t = .presentCall x) ∨
      f = .includes ∧ ∃ x y, args = [x, y] ∧ t = .includesCall x y := by
  unfold callTree at h
  split at h <;> cases h
  rename_i hcall
  unfold Function.call? at hcall
  split at hcall <;> cases hcall
  · exact .inl ⟨rfl, _, rfl, rfl⟩
  · exact .inr ⟨rfl, _, _, rfl, rfl⟩

theorem leaf?_of_ne_name {l : Lexeme} (h : ∀ w, l ≠ .name w) :
    leaf? l = l.constant?.map .literal := by
  cases l with
  | name w => exact absurd rfl (h w)
  | _ => rfl

theorem leaf?_eq_some {l : Lexeme} {t : Expr} (h : leaf? l = some t) :
    ∃ a : Derivation .atom, a.word = [l] ∧ a.tree = t := by
  by_cases hl : ∃ w, l = .name w
  · obtain ⟨w, rfl⟩ := hl
    cases h
    exact ⟨.field w, rfl, rfl⟩
  · rw [leaf?_of_ne_name fun w hw => hl ⟨w, hw⟩] at h
    obtain ⟨v, hv, rfl⟩ := Option.map_eq_some_iff.1 h
    exact ⟨.constant l v hv, rfl, rfl⟩

end Calls

/-- The tokens of further arguments of a call. -/
def further (ds : List (Derivation .disjunction)) : List Lexeme :=
  ds.flatMap fun d => .comma :: d.word

/-- What the readers read with an amount of fuel is derived. -/
structure Sound (text : String) (fuel : Nat) : Prop where
  /-- A term is derived. -/
  term {limit ts t rest} (hfuel : 2 * ts.length + 2 ≤ fuel)
    (h : Condition.term text fuel limit ts = .ok (t, rest)) : ReadsTerm limit ts t rest
  /-- A tail is derived. -/
  extend {limit left ts t rest} (hfuel : 2 * ts.length + 1 ≤ fuel)
    (h : Condition.extend text fuel limit left ts = .ok (t, rest)) : Extended limit left ts t rest
  /-- An operand is derived. -/
  operand {ts t rest} (hfuel : 2 * ts.length + 1 ≤ fuel)
    (h : Condition.operand text fuel ts = .ok (t, rest)) : ReadsOperand ts t rest
  /-- The arguments of a call are derived. -/
  arguments {ts args rest} (hfuel : 2 * ts.length + 3 ≤ fuel)
    (h : Condition.arguments text fuel ts = .ok (args, rest)) :
    args = [] ∨ ∃ (d : Derivation .disjunction) (ds : List (Derivation .disjunction)),
      args = d.tree :: ds.map tree ∧ lexemes ts = d.word ++ (further ds ++ lexemes rest)
  /-- The further arguments of a call are derived. -/
  moreArguments {first ts args rest} (hfuel : 2 * ts.length + 1 ≤ fuel)
    (h : Condition.moreArguments text fuel first ts = .ok (args, rest)) :
    ∃ ds : List (Derivation .disjunction),
      args = first :: ds.map tree ∧ lexemes ts = further ds ++ lexemes rest

namespace Sound

variable {text : String} {fuel : Nat} {ts rest : List Token} {t : Expr}

theorem zero (text : String) : Sound text 0 where
  term hfuel := by omega
  extend hfuel := by omega
  operand hfuel := by omega
  arguments hfuel := by omega
  moreArguments hfuel := by omega

theorem term_succ (sound : Sound text fuel) {limit : Strength}
    (hfuel : 2 * ts.length + 2 ≤ fuel + 1)
    (h : Condition.term text (fuel + 1) limit ts = .ok (t, rest)) : ReadsTerm limit ts t rest := by
  rw [Condition.term] at h
  obtain ⟨⟨left, behind⟩, hleft, h⟩ := bind_eq_ok_iff.1 h
  have reads := sound.operand (by omega) hleft
  have := reads.length_le
  exact ⟨left, behind, reads, sound.extend (by omega) h⟩

theorem extend_succ (sound : Sound text fuel) {limit : Strength} {left : Expr}
    (hfuel : 2 * ts.length + 1 ≤ fuel + 1)
    (h : Condition.extend text (fuel + 1) limit left ts = .ok (t, rest)) :
    Extended limit left ts t rest := by
  rw [Condition.extend] at h
  split at h
  · next hop =>
    cases h
    exact .of_stops _ (operatorAbove?_eq_none_iff.1 hop)
  · next op behind hop =>
    obtain ⟨sign, rfl, hsign, above⟩ := operatorAbove?_eq_some_iff.1 hop
    obtain ⟨⟨right, rest'⟩, hright, h⟩ := bind_eq_ok_iff.1 h
    simp only [List.length_cons] at hfuel
    have reads := sound.term (by omega) hright
    have := reads.length_le
    exact .cons hsign above reads (sound.extend (by omega) h)

theorem arguments_succ (sound : Sound text fuel) {args : List Expr}
    (hfuel : 2 * ts.length + 3 ≤ fuel + 1)
    (h : Condition.arguments text (fuel + 1) ts = .ok (args, rest)) :
    args = [] ∨ ∃ (d : Derivation .disjunction) (ds : List (Derivation .disjunction)),
      args = d.tree :: ds.map tree ∧ lexemes ts = d.word ++ (further ds ++ lexemes rest) := by
  unfold Condition.arguments at h
  split at h
  · cases h
    exact .inl rfl
  · obtain ⟨⟨first, behind⟩, hfirst, h⟩ := bind_eq_ok_iff.1 h
    have reads := sound.term (by omega) hfirst
    have := reads.length_le
    obtain ⟨d, hts, rfl⟩ := reads.disjunction
    obtain ⟨ds, rfl, hbehind⟩ := sound.moreArguments (by omega) h
    exact .inr ⟨d, ds, rfl, hbehind ▸ hts⟩

theorem operand_succ (sound : Sound text fuel) (hfuel : 2 * ts.length + 1 ≤ fuel + 1)
    (h : Condition.operand text (fuel + 1) ts = .ok (t, rest)) : ReadsOperand ts t rest := by
  unfold Condition.operand at h
  split at h
  · next sign w behind hhead =>
    obtain ⟨p, rfl, hsign⟩ := callHead?_eq_some hhead
    split at h
    · cases h
    next f hf =>
    rw [hf] at hsign
    obtain ⟨⟨args, rest'⟩, hargs, h⟩ := bind_eq_ok_iff.1 h
    obtain ⟨rest'', hclosing, h⟩ := bind_eq_ok_iff.1 h
    obtain ⟨tree, htree, h⟩ := bind_eq_ok_iff.1 h
    cases h
    simp only [List.length_cons] at hfuel
    have words := sound.arguments (by omega) hargs
    rw [afterClosing_eq_ok hclosing] at words
    rcases callTree_eq_ok htree with ⟨rfl, x, rfl, rfl⟩ | ⟨rfl, x, y, rfl, rfl⟩
    · obtain ⟨⟨⟩⟩ | ⟨d, _ | ⟨d', ds⟩, ⟨⟩, hts⟩ := words
      refine ⟨_, .atom (.presentCall sign.lexeme hsign d) _, ?_, rfl⟩
      simp [word, hts, further]
    · obtain ⟨⟨⟩⟩ | ⟨d, _ | ⟨d', _ | ⟨d'', ds⟩⟩, ⟨⟩, hts⟩ := words
      refine ⟨_, .atom (.includesCall sign.lexeme hsign d d') _, ?_, rfl⟩
      simp [word, hts, further]
  · split at h
    · cases h
    next sign behind =>
    simp only [List.length_cons] at hfuel
    split at h
    · next hsign =>
      obtain ⟨⟨tree, rest'⟩, hinner, h⟩ := bind_eq_ok_iff.1 h
      obtain ⟨rest'', hclosing, h⟩ := bind_eq_ok_iff.1 h
      cases h
      obtain ⟨d, hts, rfl⟩ := (sound.term (by omega) hinner).disjunction
      refine ⟨_, .atom (.group d) _, ?_, rfl⟩
      simp [word, hsign, hts, afterClosing_eq_ok hclosing]
    · next w hsign =>
      obtain ⟨⟨tree, rest'⟩, hinner, h⟩ := bind_eq_ok_iff.1 h
      cases h
      have reads := sound.term (by omega) hinner
      obtain ⟨n, hts, rfl⟩ := reads.negation (by decide)
      refine ⟨_, .not w n reads.stops, ?_, rfl⟩
      simp [word, hsign, hts]
    · next hsign =>
      obtain ⟨v, hbehind, rfl⟩ := afterMinus_eq_ok h
      refine ⟨_, .atom (.negative v) _, ?_, rfl⟩
      simp [word, hsign, hbehind]
    · split at h
      · next tree hleaf =>
        cases h
        obtain ⟨a, hword, rfl⟩ := leaf?_eq_some hleaf
        refine ⟨_, .atom a _, ?_, rfl⟩
        simp [word, hword]
      · cases h

theorem moreArguments_succ (sound : Sound text fuel) {first : Expr} {args : List Expr}
    (hfuel : 2 * ts.length + 1 ≤ fuel + 1)
    (h : Condition.moreArguments text (fuel + 1) first ts = .ok (args, rest)) :
    ∃ ds : List (Derivation .disjunction),
      args = first :: ds.map tree ∧ lexemes ts = further ds ++ lexemes rest := by
  unfold Condition.moreArguments at h
  split at h
  · next p behind =>
    simp only [List.length_cons] at hfuel
    obtain ⟨⟨next, rest'⟩, hnext, h⟩ := bind_eq_ok_iff.1 h
    have reads := sound.term (by omega) hnext
    have := reads.length_le
    obtain ⟨d, hts, rfl⟩ := reads.disjunction
    obtain ⟨⟨args', rest''⟩, hargs, h⟩ := bind_eq_ok_iff.1 h
    obtain ⟨ds, rfl, hbehind⟩ := sound.moreArguments (by omega) hargs
    cases h
    refine ⟨d :: ds, rfl, ?_⟩
    simp [further, hts, hbehind]
  · cases h
    exact ⟨[], rfl, rfl⟩

/-- What is read is derived, where the fuel suffices. -/
theorem of_fuel (text : String) (fuel : Nat) : Sound text fuel := by
  induction fuel with
  | zero => exact zero text
  | succ fuel ih =>
    exact ⟨ih.term_succ, ih.extend_succ, ih.operand_succ, ih.arguments_succ, ih.moreArguments_succ⟩

end Sound

end Questionnaire.Condition
