import Questionnaire.Proofs.Condition.Soundness

/-!
# What is derived is read as a condition

Each part of a derivation is read in front of any tokens that end it, so the readings of the parts
are put together as the derivation is.

## Main Definitions

* `Condition.OperandReads`, `Condition.TermReads`, `Condition.TailReads` - a word is read as a tree,
  or as what it makes of the tree to its left

## Main Statements

* `Condition.complete` - the tokens of a derivation are read as its tree
* `Condition.parse_iff_derives` - a text is read exactly if its tokens have a derivation
-/

namespace Questionnaire.Condition

open Condition.Derivation Outcome

section Completeness

variable (text : String) (bound : Strength) (word : List Lexeme)

/-- `operand` reads the tokens of a word as a tree, wherever they end. -/
def OperandReads (t : Expr) : Prop :=
  ∀ ⦃front rest : List Token⦄ ⦃fuel : Nat⦄, lexemes front = word → Ends bound (lexemes rest) →
    2 * (front ++ rest).length + 1 ≤ fuel → operand text fuel (front ++ rest) = .ok (t, rest)

/-- `term` reads the tokens of a word as a tree and goes on from there. -/
def TermReads (t : Expr) : Prop :=
  ∀ ⦃front rest : List Token⦄ ⦃fuel : Nat⦄ ⦃limit : Strength⦄, lexemes front = word →
    Ends bound (lexemes rest) → limit.rank ≤ bound.rank → 2 * (front ++ rest).length + 2 ≤ fuel →
    ∃ fuel', 2 * rest.length + 1 ≤ fuel' ∧
      term text fuel limit (front ++ rest) = extend text fuel' limit t rest

/-- `extend` reads the tokens of a word as a tail and goes on from there. -/
def TailReads (f : Expr → Expr) : Prop :=
  ∀ ⦃front rest : List Token⦄ ⦃fuel : Nat⦄ ⦃limit : Strength⦄ (left : Expr), lexemes front = word →
    Ends bound (lexemes rest) → limit.rank ≤ bound.rank → 2 * (front ++ rest).length + 1 ≤ fuel →
    ∃ fuel', 2 * rest.length + 1 ≤ fuel' ∧
      extend text fuel limit left (front ++ rest) = extend text fuel' limit (f left) rest

/-- `term` reads the tokens of a word behind an operator of a strength. -/
def RightReads (strength : Strength) (t : Expr) : Prop :=
  ∀ ⦃front rest : List Token⦄ ⦃fuel : Nat⦄, lexemes front = word → Ends bound (lexemes rest) →
    2 * (front ++ rest).length + 2 ≤ fuel → term text fuel strength (front ++ rest) = .ok (t, rest)

end Completeness

variable {text : String} {bound bound' limit : Strength} {word word' : List Lexeme} {t : Expr}
  {f : Expr → Expr}

theorem extend_of_stops {ts : List Token} (stops : Stops limit (lexemes ts)) (fuel : Nat)
    (left : Expr) : extend text fuel limit left ts = .ok (left, ts) := by
  cases fuel with
  | zero => rfl
  | succ fuel => simp only [extend, operatorAbove?_eq_none_iff.2 stops]

/-- No operator binds as tightly as a negation. -/
theorem Stops.conj_of_neg {rest : List Lexeme} (stops : Stops .neg rest) : Stops .conj rest := by
  intro l hl op hop
  have := stops l hl op hop
  cases op with
  | disj | conj => decide
  | includes | compare => exact absurd (show 40 ≤ 30 from this) (by decide)

/-- Nothing binds more tightly than a comparison. -/
theorem stops_compare (rest : List Lexeme) : Stops .compare rest := by
  intro l hl op hop
  cases op with
  | disj | conj => decide
  | includes | compare => exact Nat.le_refl 40

theorem exists_append_of_lexemes_eq {front : List Token} (h : lexemes front = word ++ word') :
    ∃ ts ts', front = ts ++ ts' ∧ lexemes ts = word ∧ lexemes ts' = word' :=
  List.map_eq_append_iff.1 h

theorem lexemes_append (ts ts' : List Token) : lexemes (ts ++ ts') = lexemes ts ++ lexemes ts' :=
  List.map_append

theorem OperandReads.term (h : OperandReads text bound word t) : TermReads text bound word t := by
  intro front rest fuel limit hfront ends hlimit hfuel
  obtain ⟨fuel, rfl⟩ := Nat.exists_eq_add_of_le' (show 1 ≤ fuel by omega)
  refine ⟨fuel, ?_, ?_⟩
  · simp only [List.length_append] at hfuel
    omega
  · have hleft : operand text fuel (front ++ rest) = .ok (t, rest) := h hfront ends (by omega)
    simp only [Condition.term, hleft, ok_bind]

theorem OperandReads.right (h : OperandReads text bound word t) :
    RightReads text bound word .compare t := by
  intro front rest fuel hfront ends hfuel
  obtain ⟨fuel, rfl⟩ := Nat.exists_eq_add_of_le' (show 1 ≤ fuel by omega)
  have hleft : operand text fuel (front ++ rest) = .ok (t, rest) := h hfront ends (by omega)
  simp only [Condition.term, hleft, ok_bind, extend_of_stops (stops_compare _)]

theorem TermReads.right {strength : Strength} (h : TermReads text bound word t)
    (hstrength : strength.rank ≤ bound.rank)
    (stops : ∀ rest, Ends bound rest → Stops strength rest) :
    RightReads text bound word strength t := by
  intro front rest fuel hfront ends hfuel
  obtain ⟨fuel', -, hterm⟩ := h hfront ends hstrength hfuel
  rw [hterm, extend_of_stops (stops _ ends)]

/-- A term and its tail are a term. -/
theorem TermReads.append (h : TermReads text bound' word t) (more : TailReads text bound word' f)
    (hbound : bound.rank ≤ bound'.rank)
    (hends : ∀ rest, Ends bound rest → Ends bound' (word' ++ rest)) :
    TermReads text bound (word ++ word') (f t) := by
  intro front rest fuel limit hfront ends hlimit hfuel
  obtain ⟨ts, ts', rfl, hts, hts'⟩ := exists_append_of_lexemes_eq hfront
  rw [List.append_assoc] at hfuel ⊢
  have hends' : Ends bound' (lexemes (ts' ++ rest)) := by
    rw [lexemes_append, hts']
    exact hends _ ends
  obtain ⟨fuel', hfuel', hterm⟩ := h hts hends' (le_trans hlimit hbound) hfuel
  obtain ⟨fuel'', hfuel'', hextend⟩ := more t hts' ends hlimit hfuel'
  exact ⟨fuel'', hfuel'', hterm.trans hextend⟩

theorem TailReads.nil (text : String) (bound : Strength) : TailReads text bound [] id := by
  intro front rest fuel limit left hfront ends hlimit hfuel
  obtain rfl := List.map_eq_nil_iff.1 hfront
  exact ⟨fuel, hfuel, rfl⟩

/-- An operator, its right operand and a tail are a tail. -/
theorem TailReads.cons {l : Lexeme} (op : Binary) (hop : Binary.ofLexeme? l = some op)
    (above : bound.rank < op.strength.rank) (right : RightReads text bound' word op.strength t)
    (hends : ∀ rest, Ends bound rest → Ends bound' (word' ++ rest))
    (more : TailReads text bound word' f) :
    TailReads text bound (l :: (word ++ word')) fun left => f (op.apply left t) := by
  intro front rest fuel limit left hfront ends hlimit hfuel
  obtain ⟨sign, behind, rfl, rfl, hbehind⟩ := lexemes_eq_cons hfront
  obtain ⟨ts, ts', rfl, hts, hts'⟩ := exists_append_of_lexemes_eq hbehind
  obtain ⟨fuel, rfl⟩ := Nat.exists_eq_add_of_le' (show 1 ≤ fuel by omega)
  rw [List.cons_append, List.append_assoc] at hfuel ⊢
  simp only [List.length_cons, List.length_append] at hfuel
  have hends' : Ends bound' (lexemes (ts' ++ rest)) := by
    rw [lexemes_append, hts']
    exact hends _ ends
  have hsign : operatorAbove? limit (sign :: (ts ++ (ts' ++ rest))) =
      some (op, ts ++ (ts' ++ rest)) :=
    operatorAbove?_eq_some_iff.2 ⟨sign, rfl, hop, lt_of_le_of_lt hlimit above⟩
  have hright : term text fuel op.strength (ts ++ (ts' ++ rest)) = .ok (t, ts' ++ rest) := by
    refine right hts hends' ?_
    simp only [List.length_append]
    omega
  obtain ⟨fuel', hfuel', hextend⟩ : ∃ fuel', 2 * rest.length + 1 ≤ fuel' ∧
      extend text fuel limit (op.apply left t) (ts' ++ rest) =
        extend text fuel' limit (f (op.apply left t)) rest := by
    refine more _ hts' ends hlimit ?_
    simp only [List.length_append]
    omega
  refine ⟨fuel', hfuel', ?_⟩
  simp only [extend, hsign, hright, ok_bind]
  exact hextend

/-! ### Operands -/

theorem callHead?_of_function? {sign : Token} {g : Function} (h : sign.lexeme.function? = some g)
    (p : Nat) (rest : List Token) :
    ∃ w, callHead? (sign :: ⟨.opening, p⟩ :: rest) = some (sign, w, rest) ∧
      Function.ofName? w = some g := by
  obtain ⟨l, position⟩ := sign
  cases l <;> first | cases h | exact ⟨_, rfl, h⟩

/-- Where `term` finds something, so do the arguments of a call. -/
theorem arguments_of_term {ts rest : List Token} {fuel : Nat}
    (h : term text fuel .outermost ts = .ok (t, rest)) :
    arguments text (fuel + 1) ts = moreArguments text fuel t rest := by
  unfold arguments
  split
  · -- no term begins with a bracket that closes
    rcases fuel with _ | _ | fuel <;> cases h
  · rw [h, ok_bind]

theorem OperandReads.constant {l : Lexeme} {v : Json} (h : l.constant? = some v) :
    OperandReads text bound [l] (.literal v) := by
  intro front rest fuel hfront ends hfuel
  obtain ⟨⟨l', p⟩, behind, rfl, rfl, hbehind⟩ := lexemes_eq_cons hfront
  obtain rfl := List.map_eq_nil_iff.1 hbehind
  obtain ⟨fuel, rfl⟩ := Nat.exists_eq_add_of_le' (show 1 ≤ fuel by omega)
  cases l' <;> cases h <;> rfl

theorem OperandReads.negative (v : Json) :
    OperandReads text bound [.minus, .number v] (.literal (Condition.negative v)) := by
  intro front rest fuel hfront ends hfuel
  obtain ⟨⟨-, p⟩, behind, rfl, rfl, hbehind⟩ := lexemes_eq_cons hfront
  obtain ⟨⟨-, p'⟩, behind', rfl, rfl, hbehind'⟩ := lexemes_eq_cons hbehind
  obtain rfl := List.map_eq_nil_iff.1 hbehind'
  obtain ⟨fuel, rfl⟩ := Nat.exists_eq_add_of_le' (show 1 ≤ fuel by omega)
  rfl

/-- A name is that of a field where no bracket opens behind it. -/
theorem OperandReads.field (name : String) :
    OperandReads text bound [.name name] (.field name) := by
  intro front rest fuel hfront ends hfuel
  obtain ⟨⟨-, p⟩, behind, rfl, rfl, hbehind⟩ := lexemes_eq_cons hfront
  obtain rfl := List.map_eq_nil_iff.1 hbehind
  obtain ⟨fuel, rfl⟩ := Nat.exists_eq_add_of_le' (show 1 ≤ fuel by omega)
  rcases rest with _ | ⟨⟨l, p'⟩, rest⟩
  · rfl
  · cases l
    case opening => exact absurd rfl ends.not_opening
    all_goals rfl

theorem OperandReads.not (w : String) (h : TermReads text .neg word t) :
    OperandReads text .neg (.neg w :: word) (.not t) := by
  intro front rest fuel hfront ends hfuel
  obtain ⟨⟨-, p⟩, behind, rfl, rfl, hbehind⟩ := lexemes_eq_cons hfront
  obtain ⟨fuel, rfl⟩ := Nat.exists_eq_add_of_le' (show 1 ≤ fuel by omega)
  rw [List.cons_append, List.length_cons] at hfuel
  have hinner : Condition.term text fuel .neg (behind ++ rest) = .ok (t, rest) :=
    h.right (le_refl _) (fun _ ends => ends.stops) hbehind ends (by omega)
  exact bind_eq_ok_iff.2 ⟨_, hinner, rfl⟩

theorem OperandReads.group (h : TermReads text .outermost word t) :
    OperandReads text bound (.opening :: (word ++ [.closing])) t := by
  intro front rest fuel hfront ends hfuel
  obtain ⟨⟨-, p⟩, behind, rfl, rfl, hbehind⟩ := lexemes_eq_cons hfront
  obtain ⟨ts, ts', rfl, hts, hts'⟩ := exists_append_of_lexemes_eq hbehind
  obtain ⟨⟨-, p'⟩, behind', rfl, rfl, hbehind'⟩ := lexemes_eq_cons hts'
  obtain rfl := List.map_eq_nil_iff.1 hbehind'
  obtain ⟨fuel, rfl⟩ := Nat.exists_eq_add_of_le' (show 1 ≤ fuel by omega)
  simp only [List.cons_append, List.append_assoc, List.nil_append, List.length_cons] at hfuel ⊢
  have hinner : Condition.term text fuel .outermost (ts ++ ⟨.closing, p'⟩ :: rest) =
      .ok (t, ⟨.closing, p'⟩ :: rest) :=
    h.right (le_refl _) (fun _ ends => ends.stops) hts (.closing _ _) (by omega)
  exact bind_eq_ok_iff.2 ⟨_, hinner, rfl⟩

/-! ### Calls -/

theorem moreArguments_closing (fuel : Nat) (first : Expr) (p : Nat) (rest : List Token) :
    moreArguments text fuel first (⟨.closing, p⟩ :: rest) =
      .ok ([first], ⟨.closing, p⟩ :: rest) := by
  cases fuel <;> rfl

/-- A function whose name stands in front of a bracket is called on what is between the brackets. -/
theorem operand_of_arguments {sign : Token} {g : Function} (hsign : sign.lexeme.function? = some g)
    {ts rest : List Token} {args : List Expr} {fuel : Nat} (p p' : Nat)
    (hargs : arguments text fuel ts = .ok (args, ⟨.closing, p'⟩ :: rest))
    (hcall : g.call? args = some t) :
    operand text (fuel + 1) (sign :: ⟨.opening, p⟩ :: ts) = .ok (t, rest) := by
  obtain ⟨w, hhead, hname⟩ := callHead?_of_function? hsign p ts
  simp only [operand, hhead, hname, hargs, ok_bind, afterClosing, callTree, hcall, pure_eq_ok]

theorem OperandReads.presentCall {head : Lexeme} (hhead : head.function? = some .present)
    (h : TermReads text .outermost word t) :
    OperandReads text bound (head :: .opening :: (word ++ [.closing])) (.presentCall t) := by
  intro front rest fuel hfront ends hfuel
  obtain ⟨sign, behind, rfl, rfl, hbehind⟩ := lexemes_eq_cons hfront
  obtain ⟨⟨-, p⟩, inner, rfl, rfl, hinner⟩ := lexemes_eq_cons hbehind
  obtain ⟨arg, last, rfl, harg, hlast⟩ := exists_append_of_lexemes_eq hinner
  obtain ⟨⟨-, p'⟩, none, rfl, rfl, hnone⟩ := lexemes_eq_cons hlast
  obtain rfl := List.map_eq_nil_iff.1 hnone
  simp only [List.cons_append, List.append_assoc, List.nil_append, List.length_cons] at hfuel ⊢
  obtain ⟨fuel, rfl⟩ := Nat.exists_eq_add_of_le' (show 2 ≤ fuel by omega)
  have hread : Condition.term text fuel .outermost (arg ++ ⟨.closing, p'⟩ :: rest) =
      .ok (t, ⟨.closing, p'⟩ :: rest) :=
    h.right (le_refl _) (fun _ ends => ends.stops) harg (.closing _ _) (by omega)
  exact operand_of_arguments hhead p p'
    ((arguments_of_term hread).trans (moreArguments_closing fuel t p' rest)) rfl

theorem OperandReads.includesCall {head : Lexeme} (hhead : head.function? = some .includes)
    {t' : Expr} (h : TermReads text .outermost word t) (h' : TermReads text .outermost word' t') :
    OperandReads text bound (head :: .opening :: (word ++ .comma :: (word' ++ [.closing])))
      (.includesCall t t') := by
  intro front rest fuel hfront ends hfuel
  obtain ⟨sign, behind, rfl, rfl, hbehind⟩ := lexemes_eq_cons hfront
  obtain ⟨⟨-, p⟩, inner, rfl, rfl, hinner⟩ := lexemes_eq_cons hbehind
  obtain ⟨arg, behind, rfl, harg, hbehind⟩ := exists_append_of_lexemes_eq hinner
  obtain ⟨⟨-, q⟩, second, rfl, rfl, hsecond⟩ := lexemes_eq_cons hbehind
  obtain ⟨arg', last, rfl, harg', hlast⟩ := exists_append_of_lexemes_eq hsecond
  obtain ⟨⟨-, p'⟩, none, rfl, rfl, hnone⟩ := lexemes_eq_cons hlast
  obtain rfl := List.map_eq_nil_iff.1 hnone
  simp only [List.cons_append, List.append_assoc, List.nil_append, List.length_cons,
    List.length_append] at hfuel ⊢
  obtain ⟨fuel, rfl⟩ := Nat.exists_eq_add_of_le' (show 3 ≤ fuel by omega)
  have hread : Condition.term text (fuel + 1) .outermost
      (arg ++ ⟨.comma, q⟩ :: (arg' ++ ⟨.closing, p'⟩ :: rest)) =
        .ok (t, ⟨.comma, q⟩ :: (arg' ++ ⟨.closing, p'⟩ :: rest)) := by
    refine h.right (le_refl _) (fun _ ends => ends.stops) harg (.comma _ _) ?_
    simp only [List.length_append, List.length_cons]
    omega
  have hread' : Condition.term text fuel .outermost (arg' ++ ⟨.closing, p'⟩ :: rest) =
      .ok (t', ⟨.closing, p'⟩ :: rest) := by
    refine h'.right (le_refl _) (fun _ ends => ends.stops) harg' (.closing _ _) ?_
    simp only [List.length_append, List.length_cons]
    omega
  have hmore : moreArguments text (fuel + 1) t (⟨.comma, q⟩ :: (arg' ++ ⟨.closing, p'⟩ :: rest)) =
      .ok ([t, t'], ⟨.closing, p'⟩ :: rest) := by
    simp only [moreArguments, hread', ok_bind, moreArguments_closing, pure_eq_ok]
  exact operand_of_arguments hhead p p' ((arguments_of_term hread).trans hmore) rfl

/-! ### Derivations -/

/-- How the tokens of a derivation are read. -/
def Complete (text : String) : {s : Phrase} → Derivation s → Prop
  | .disjunction, d => TermReads text .outermost d.word d.tree
  | .disjuncts, d => TailReads text .outermost d.word d.tree
  | .conjunction, d => TermReads text .disj d.word d.tree
  | .conjuncts, d => TailReads text .disj d.word d.tree
  | .negation, d => TermReads text .neg d.word d.tree
  | .relations, d => TailReads text .neg d.word d.tree
  | .atom, d => OperandReads text .compare d.word d.tree

theorem complete (text : String) {s : Phrase} (d : Derivation s) : Complete text d := by
  induction d with
  | disjunction first more ihFirst ihMore =>
    exact TermReads.append ihFirst ihMore (by decide) fun _ => more.ends_disjuncts
  | conjunction first more ihFirst ihMore =>
    exact TermReads.append ihFirst ihMore (by decide) fun _ => more.ends_conjuncts
  | comparison first more ihFirst ihMore =>
    exact (OperandReads.term ihFirst).append ihMore (by decide) fun _ => more.ends_relations
  | noDisjunct | noConjunct | noRelation => exact .nil text _
  | disjunct w next more ihNext ihMore =>
    exact TailReads.cons .disj rfl (by decide)
      (TermReads.right ihNext (by decide) fun _ ends => ends.stops)
      (fun _ => more.ends_disjuncts) ihMore
  | conjunct w next more ihNext ihMore =>
    exact TailReads.cons .conj rfl (by decide)
      (TermReads.right ihNext (by decide) fun _ ends => ends.stops.conj_of_neg)
      (fun _ => more.ends_conjuncts) ihMore
  | relation op next more ihNext ihMore =>
    obtain ⟨b, hb, hs, ha⟩ := op.ofLexeme?_lexeme
    have right : RightReads text .compare next.word b.strength next.tree :=
      hs ▸ OperandReads.right ihNext
    have reads :=
      TailReads.cons b hb (by rw [hs]; decide) right (fun _ => more.ends_relations) ihMore
    rw [ha] at reads
    exact reads
  | lastNot op w operand ih =>
    obtain ⟨b, hb, hs, ha⟩ := op.ofLexeme?_lexeme
    have right : RightReads text .neg (.neg w :: operand.word) b.strength (.not operand.tree) :=
      hs ▸ (OperandReads.not w ih).right
    have reads := TailReads.cons b hb (by rw [hs]; decide) right (fun _ => id) (.nil text _)
    rw [ha, List.append_nil] at reads
    exact reads
  | not w operand ih => exact (OperandReads.not w ih).term
  | constant l v h => exact .constant h
  | negative v => exact .negative v
  | field name => exact .field name
  | presentCall head h x ih => exact .presentCall h ih
  | includesCall head h c n ihContainer ihNeedle => exact .includesCall h ihContainer ihNeedle
  | group inner ih => exact .group ih

/-! ## The reader and the grammar -/

/-- All tokens are read exactly if they have a derivation, and as the tree of it. -/
theorem treeOf_eq_ok_iff {ts : List Token} :
    treeOf text ts = .ok t ↔ ∃ d : Derivation .disjunction, d.word = lexemes ts ∧ d.tree = t := by
  constructor
  · intro h
    unfold treeOf at h
    split at h
    · cases h
    · next hterm =>
      cases h
      have reads := (Sound.of_fuel text (enoughFuel ts)).term (by unfold enoughFuel; omega) hterm
      obtain ⟨d, hword, htree⟩ := reads.disjunction
      exact ⟨d, by simpa using hword.symm, htree⟩
    · cases h
  · rintro ⟨d, hword, rfl⟩
    have reads : TermReads text .outermost d.word d.tree := complete text d
    have enough : 2 * (ts ++ []).length + 2 ≤ enoughFuel ts := by
      simp only [List.append_nil, enoughFuel]
      omega
    have hterm := reads.right (le_refl _) (fun _ ends => ends.stops) hword.symm (.nil _) enough
    rw [List.append_nil] at hterm
    simp only [treeOf, hterm]

/-- A text is read exactly if its tokens have a derivation in the grammar, and as the tree of this
derivation, of which there is one at most and in which no field stands in front of a bracket.  Every
other text is refused. -/
theorem parse_iff_derives (text : String) :
    (∀ t, parse text = .ok t ↔ ∃ ts, tokens text = .ok ts ∧
      ∃ d : Derivation .disjunction, d.word = lexemes ts ∧ d.tree = t) ∧
    (∀ d d' : Derivation .disjunction, d.word = d'.word → d = d') ∧
    (∀ d : Derivation .disjunction, d.word.IsChain Beside) ∧
    ((∃ e, parse text = .error e) ↔
      ¬ ∃ ts, tokens text = .ok ts ∧ ∃ d : Derivation .disjunction, d.word = lexemes ts) := by
  have iff (t : Expr) : parse text = .ok t ↔ ∃ ts, tokens text = .ok ts ∧
      ∃ d : Derivation .disjunction, d.word = lexemes ts ∧ d.tree = t := by
    unfold parse
    split
    · next e he => simp [he]
    · next ts hts => simp [hts, treeOf_eq_ok_iff]
  refine ⟨iff, fun d d' => eq_of_word, isChain_beside, ?_, fun none => ?_⟩
  · rintro ⟨e, he⟩ ⟨ts, hts, d, hword⟩
    cases he.symm.trans ((iff d.tree).2 ⟨ts, hts, d, hword, rfl⟩)
  · cases h : parse text with
    | error e => exact ⟨e, rfl⟩
    | ok t =>
      obtain ⟨ts, hts, d, hword, -⟩ := (iff t).1 h
      exact absurd ⟨ts, hts, d, hword⟩ none

end Questionnaire.Condition
