import Questionnaire.Proofs.Condition.Soundness
import Questionnaire.Proofs.Condition.Tiling

/-!
# Where a text is refused

A reader of tokens takes some from the front and leaves the rest.  So it does not go beyond the last
of them, and it fails at a token that it was given or at the end of the text, where something is
wrong indeed: what is read there cannot stand there.  With about twice as much fuel as there are
tokens it never runs out, so a failure is never for want of fuel, and more fuel makes no difference.

## Main Definitions

* `Condition.Wrong` - what is wrong with the tokens at the place of a fault
* `Condition.Located` - a reader finds what has a property, or fails where something is wrong
* `Condition.Contained` - the readers leave last tokens of those that they are given
* `Condition.Settled` - more fuel makes no difference to the readers

## Main Statements

* `Condition.Contained.of_fuel` - the readers stay within their tokens, where the fuel suffices
* `Condition.Settled.of_fuel` - the fuel makes no difference where it suffices
* `Condition.tokens_tiled_and_faults_located` - tokens tile their text, and faults point into it
-/

namespace Questionnaire.Condition

open Outcome

/-! ## Faults -/

/-- An operand begins with a token of this kind. -/
def beginsOperand : Lexeme → Bool
  | .opening => true
  | .neg _ => true
  | .minus => true
  | l => (leaf? l).isSome

/-- Something is wrong with the tokens from some place on, and this is how it is reported. -/
inductive Wrong (text : String) : List Token → SyntaxError → Prop where
  /-- No operand begins there. -/
  | noOperand {rest : List Token} (hcall : callHead? rest = none)
    (h : ∀ t ∈ rest.head?, beginsOperand t.lexeme = false) : Wrong text rest (noOperand text rest)
  /-- No bracket closes there. -/
  | notClosed {rest : List Token} (h : ∀ t ∈ rest.head?, t.lexeme ≠ .closing) :
    Wrong text rest (missing text Lexeme.closing.kindName rest)
  /-- No number stands there, behind a minus. -/
  | notNumber {rest : List Token} (h : ∀ t ∈ rest.head?, ∀ v, t.lexeme ≠ .number v) :
    Wrong text rest (missing text (Lexeme.number .null).kindName rest)
  /-- What is called there is no function. -/
  | unknownFunction {rest behind : List Token} {t : Token} {w : String}
    (hcall : callHead? rest = some (t, w, behind)) (hf : Function.ofName? w = none) :
    Wrong text rest ⟨text, .unknownFunction w, t.position⟩
  /-- The function that is called there takes another number of arguments. -/
  | wrongArity {rest behind : List Token} {t : Token} {w : String} {f : Function}
    (hcall : callHead? rest = some (t, w, behind)) (hf : Function.ofName? w = some f) {given : Nat}
    (hgiven : given ≠ f.arity) : Wrong text rest ⟨text, .wrongArity w f.arity given, t.position⟩
  /-- The condition is over, and what stands there does not go on with it. -/
  | leftOver {rest : List Token} {t : Token} (stops : Stops .outermost (lexemes (t :: rest))) :
    Wrong text (t :: rest) ⟨text, .unexpectedToken t.lexeme.value, t.position⟩

/-- A reader of tokens finds what has a property, or it fails where something is wrong with what is
left of them. -/
def Located (text : String) (ts : List Token) {α : Type} (P : α → Prop) :
    Except SyntaxError α → Prop
  | .ok a => P a
  | .error e => ∃ rest, rest <:+ ts ∧ Wrong text rest e

namespace Located

variable {text : String} {ts ts' : List Token} {α β : Type} {P : α → Prop}

theorem bind {Q : β → Prop} {x : Except SyntaxError α} {k : α → Except SyntaxError β}
    (located : Located text ts P x) (next : ∀ a, P a → Located text ts Q (k a)) :
    Located text ts Q (x >>= k) := by
  cases x with
  | ok a => exact next a located
  | error e => exact located

/-- A reader of last tokens stays within all of them. -/
theorem within {x : Except SyntaxError (α × List Token)}
    (located : Located text ts' (·.2 <:+ ts') x) (suffix : ts' <:+ ts) :
    Located text ts (·.2 <:+ ts) x := by
  cases x with
  | ok p => exact List.IsSuffix.trans located suffix
  | error e =>
    obtain ⟨rest, hrest, wrong⟩ := located
    exact ⟨rest, hrest.trans suffix, wrong⟩

end Located

section Faults

variable {text : String} {ts rest : List Token}

/-- A fault is reported at the first of the tokens that are left, or at the end of the text. -/
theorem Wrong.position_eq {e : SyntaxError} (wrong : Wrong text rest e) :
    e.expression = text ∧ e.position = startOf text rest := by
  have atCall {behind : List Token} {t : Token} {w : String}
      (hcall : callHead? rest = some (t, w, behind)) : t.position = startOf text rest := by
    obtain ⟨p, rfl, -⟩ := callHead?_eq_some hcall
    rfl
  cases wrong with
  | noOperand => cases rest <;> exact ⟨rfl, rfl⟩
  | notClosed => exact ⟨rfl, rfl⟩
  | notNumber => exact ⟨rfl, rfl⟩
  | unknownFunction hcall => exact ⟨rfl, atCall hcall⟩
  | wrongArity hcall => exact ⟨rfl, atCall hcall⟩
  | leftOver => exact ⟨rfl, rfl⟩

theorem startOf_mem_marks (suffix : rest <:+ ts) : startOf text rest ∈ marks text ts := by
  cases rest with
  | nil => exact List.mem_append_right _ List.mem_cons_self
  | cons t rest =>
    exact List.mem_append_left _ (List.mem_map_of_mem (suffix.subset List.mem_cons_self))

/-! ## The readers of one token -/

theorem located_afterClosing (suffix : rest <:+ ts) :
    Located text ts (· <:+ ts) (afterClosing text rest) := by
  unfold afterClosing
  split
  · exact (List.suffix_cons _ _).trans suffix
  · next other =>
    refine ⟨rest, suffix, .notClosed ?_⟩
    rintro ⟨l, p⟩ ht rfl
    obtain ⟨behind, rfl⟩ := List.head?_eq_some_iff.1 ht
    exact other p behind rfl

theorem located_afterMinus (text : String) (ts : List Token) :
    Located text ts (·.2 <:+ ts) (afterMinus text ts) := by
  unfold afterMinus
  split
  · exact List.suffix_cons _ _
  · next other =>
    refine ⟨ts, List.suffix_rfl, .notNumber ?_⟩
    rintro ⟨l, p⟩ ht v rfl
    obtain ⟨behind, rfl⟩ := List.head?_eq_some_iff.1 ht
    exact other v p behind rfl

theorem located_callTree {behind : List Token} {t : Token} {w : String} {f : Function}
    (hcall : callHead? ts = some (t, w, behind)) (hf : Function.ofName? w = some f)
    (args : List Expr) : Located text ts (fun _ => True) (callTree text t w f args) := by
  unfold callTree
  split
  · trivial
  · next hnone =>
    refine ⟨ts, List.suffix_rfl, .wrongArity hcall hf ?_⟩
    intro hgiven
    have given := (f.call?_isSome_iff args).2 hgiven
    rw [hnone] at given
    cases given

end Faults

/-! ## All readers -/

/-- With an amount of fuel that suffices, the readers leave last tokens of those that they are given,
or fail where something is wrong with last tokens of these. -/
structure Contained (text : String) (fuel : Nat) : Prop where
  /-- A term. -/
  term {ts : List Token} (limit : Strength) (hfuel : 2 * ts.length + 2 ≤ fuel) :
    Located text ts (·.2 <:+ ts) (Condition.term text fuel limit ts)
  /-- The operators behind a term. -/
  extend {ts : List Token} (limit : Strength) (left : Expr) (hfuel : 2 * ts.length + 1 ≤ fuel) :
    Located text ts (·.2 <:+ ts) (Condition.extend text fuel limit left ts)
  /-- An operand. -/
  operand {ts : List Token} (hfuel : 2 * ts.length + 1 ≤ fuel) :
    Located text ts (·.2 <:+ ts) (Condition.operand text fuel ts)
  /-- The arguments of a call. -/
  arguments {ts : List Token} (hfuel : 2 * ts.length + 3 ≤ fuel) :
    Located text ts (·.2 <:+ ts) (Condition.arguments text fuel ts)
  /-- The further arguments of a call. -/
  moreArguments {ts : List Token} (first : Expr) (hfuel : 2 * ts.length + 1 ≤ fuel) :
    Located text ts (·.2 <:+ ts) (Condition.moreArguments text fuel first ts)

namespace Contained

variable {text : String} {ts : List Token} {fuel : Nat}

theorem zero (text : String) : Contained text 0 where
  term _ hfuel := by omega
  extend _ _ hfuel := by omega
  operand hfuel := by omega
  arguments hfuel := by omega
  moreArguments _ hfuel := by omega

theorem term_succ (contained : Contained text fuel) (limit : Strength)
    (hfuel : 2 * ts.length + 2 ≤ fuel + 1) :
    Located text ts (·.2 <:+ ts) (Condition.term text (fuel + 1) limit ts) := by
  rw [Condition.term]
  apply (contained.operand (by omega)).bind
  rintro ⟨left, rest⟩ hrest
  have : rest.length ≤ ts.length := hrest.length_le
  exact (contained.extend limit left (by omega)).within hrest

theorem extend_succ (contained : Contained text fuel) (limit : Strength) (left : Expr)
    (hfuel : 2 * ts.length + 1 ≤ fuel + 1) :
    Located text ts (·.2 <:+ ts) (Condition.extend text (fuel + 1) limit left ts) := by
  rw [Condition.extend]
  split
  · exact List.suffix_rfl
  · next op behind hop =>
    obtain ⟨sign, rfl, -, -⟩ := operatorAbove?_eq_some_iff.1 hop
    rw [List.length_cons] at hfuel
    refine Located.within ?_ (List.suffix_cons sign behind)
    apply (contained.term op.strength (by omega)).bind
    rintro ⟨right, rest⟩ hrest
    have : rest.length ≤ behind.length := hrest.length_le
    exact (contained.extend limit _ (by omega)).within hrest

theorem operand_succ (contained : Contained text fuel) (hfuel : 2 * ts.length + 1 ≤ fuel + 1) :
    Located text ts (·.2 <:+ ts) (Condition.operand text (fuel + 1) ts) := by
  unfold Condition.operand
  split
  · next sign w behind hcall =>
    split
    · next hf => exact ⟨ts, List.suffix_rfl, .unknownFunction hcall hf⟩
    · next f hf =>
      obtain ⟨p, hts, -⟩ := callHead?_eq_some hcall
      have hbehind : behind <:+ ts := by
        rw [hts]
        exact (List.suffix_cons _ _).trans (List.suffix_cons _ _)
      have hlength : ts.length = behind.length + 2 := by simp [hts]
      apply ((contained.arguments (by omega)).within hbehind).bind
      rintro ⟨args, rest⟩ hrest
      apply (located_afterClosing hrest).bind
      intro rest' hrest'
      apply (located_callTree hcall hf args).bind
      intro tree _
      exact hrest'
  · next hcall =>
    split
    · refine ⟨[], List.suffix_rfl, .noOperand rfl ?_⟩
      intro t ht
      cases ht
    · next t behind =>
      rw [List.length_cons] at hfuel
      have hbehind := List.suffix_cons t behind
      split
      · apply ((contained.term .outermost (by omega)).within hbehind).bind
        rintro ⟨tree, rest⟩ hrest
        apply (located_afterClosing hrest).bind
        intro rest' hrest'
        exact hrest'
      · apply ((contained.term .neg (by omega)).within hbehind).bind
        rintro ⟨tree, rest⟩ hrest
        exact hrest
      · exact (located_afterMinus text behind).within hbehind
      · next hopening hneg hminus =>
        split
        · exact hbehind
        · next hleaf =>
          refine ⟨t :: behind, List.suffix_rfl, .noOperand hcall ?_⟩
          rintro _ ⟨⟩
          unfold beginsOperand
          split
          · next h => exact absurd h hopening
          · next w h => exact absurd h (hneg w)
          · next h => exact absurd h hminus
          · rw [hleaf, Option.isSome_none]

theorem arguments_succ (contained : Contained text fuel) (hfuel : 2 * ts.length + 3 ≤ fuel + 1) :
    Located text ts (·.2 <:+ ts) (Condition.arguments text (fuel + 1) ts) := by
  unfold Condition.arguments
  split
  · exact List.suffix_rfl
  · apply (contained.term .outermost (by omega)).bind
    rintro ⟨first, rest⟩ hrest
    have : rest.length ≤ ts.length := hrest.length_le
    exact (contained.moreArguments first (by omega)).within hrest

theorem moreArguments_succ (contained : Contained text fuel) (first : Expr)
    (hfuel : 2 * ts.length + 1 ≤ fuel + 1) :
    Located text ts (·.2 <:+ ts) (Condition.moreArguments text (fuel + 1) first ts) := by
  unfold Condition.moreArguments
  split
  · next p behind =>
    rw [List.length_cons] at hfuel
    refine Located.within ?_ (List.suffix_cons _ behind)
    apply (contained.term .outermost (by omega)).bind
    rintro ⟨next, rest⟩ hrest
    have : rest.length ≤ behind.length := hrest.length_le
    have more : Located text rest (·.2 <:+ rest)
        (Condition.moreArguments text fuel next rest) := contained.moreArguments next (by omega)
    apply (more.within hrest).bind
    rintro ⟨args, rest'⟩ hrest'
    exact hrest'
  · exact List.suffix_rfl

/-- The readers stay within their tokens, where the fuel suffices. -/
theorem of_fuel (text : String) (fuel : Nat) : Contained text fuel := by
  induction fuel with
  | zero => exact zero text
  | succ fuel ih =>
    exact ⟨ih.term_succ, ih.extend_succ, ih.operand_succ, ih.arguments_succ, ih.moreArguments_succ⟩

end Contained

theorem Located.length_le {text : String} {ts rest : List Token} {α : Type} {a : α}
    {x : Except SyntaxError (α × List Token)} (located : Located text ts (·.2 <:+ ts) x)
    (h : x = .ok (a, rest)) : rest.length ≤ ts.length := by
  subst h
  exact List.IsSuffix.length_le located

/-! ## The fuel suffices -/

/-- One more unit of fuel makes no difference, where there is enough. -/
structure Settled (text : String) (fuel : Nat) : Prop where
  /-- A term. -/
  term {ts : List Token} (limit : Strength) (hfuel : 2 * ts.length + 2 ≤ fuel) :
    Condition.term text (fuel + 1) limit ts = Condition.term text fuel limit ts
  /-- The operators behind a term. -/
  extend {ts : List Token} (limit : Strength) (left : Expr) (hfuel : 2 * ts.length + 1 ≤ fuel) :
    Condition.extend text (fuel + 1) limit left ts = Condition.extend text fuel limit left ts
  /-- An operand. -/
  operand {ts : List Token} (hfuel : 2 * ts.length + 1 ≤ fuel) :
    Condition.operand text (fuel + 1) ts = Condition.operand text fuel ts
  /-- The arguments of a call. -/
  arguments {ts : List Token} (hfuel : 2 * ts.length + 3 ≤ fuel) :
    Condition.arguments text (fuel + 1) ts = Condition.arguments text fuel ts
  /-- The further arguments of a call. -/
  moreArguments {ts : List Token} (first : Expr) (hfuel : 2 * ts.length + 1 ≤ fuel) :
    Condition.moreArguments text (fuel + 1) first ts =
      Condition.moreArguments text fuel first ts

namespace Settled

variable {text : String} {fuel : Nat} {ts : List Token}

theorem zero (text : String) : Settled text 0 where
  term _ hfuel := by omega
  extend _ _ hfuel := by omega
  operand hfuel := by omega
  arguments hfuel := by omega
  moreArguments _ hfuel := by omega

theorem term_succ (settled : Settled text fuel) (limit : Strength)
    (hfuel : 2 * ts.length + 2 ≤ fuel + 1) :
    Condition.term text (fuel + 1 + 1) limit ts = Condition.term text (fuel + 1) limit ts := by
  rw [Condition.term, Condition.term, settled.operand (by omega)]
  apply bind_congr_of_ok
  rintro ⟨left, rest⟩ hleft
  have := ((Contained.of_fuel text fuel).operand (by omega)).length_le hleft
  exact settled.extend limit left (by omega)

theorem extend_succ (settled : Settled text fuel) (limit : Strength) (left : Expr)
    (hfuel : 2 * ts.length + 1 ≤ fuel + 1) : Condition.extend text (fuel + 1 + 1) limit left ts =
      Condition.extend text (fuel + 1) limit left ts := by
  rw [Condition.extend, Condition.extend]
  split
  · rfl
  · next op behind hop =>
    obtain ⟨sign, rfl, -, -⟩ := operatorAbove?_eq_some_iff.1 hop
    rw [List.length_cons] at hfuel
    rw [settled.term op.strength (by omega)]
    apply bind_congr_of_ok
    rintro ⟨right, rest⟩ hright
    have := ((Contained.of_fuel text fuel).term op.strength (by omega)).length_le hright
    exact settled.extend limit _ (by omega)

theorem operand_succ (settled : Settled text fuel) (hfuel : 2 * ts.length + 1 ≤ fuel + 1) :
    Condition.operand text (fuel + 1 + 1) ts = Condition.operand text (fuel + 1) ts := by
  unfold Condition.operand
  split
  · next sign w behind hhead =>
    obtain ⟨p, rfl, -⟩ := callHead?_eq_some hhead
    simp only [List.length_cons] at hfuel
    rw [settled.arguments (by omega)]
  · split
    · rfl
    · rw [List.length_cons] at hfuel
      rw [settled.term .outermost (by omega), settled.term .neg (by omega)]

theorem arguments_succ (settled : Settled text fuel) (hfuel : 2 * ts.length + 3 ≤ fuel + 1) :
    Condition.arguments text (fuel + 1 + 1) ts = Condition.arguments text (fuel + 1) ts := by
  unfold Condition.arguments
  split
  · rfl
  · rw [settled.term .outermost (by omega)]
    apply bind_congr_of_ok
    rintro ⟨first, rest⟩ hfirst
    have := ((Contained.of_fuel text fuel).term .outermost (by omega)).length_le hfirst
    exact settled.moreArguments first (by omega)

theorem moreArguments_succ (settled : Settled text fuel) (first : Expr)
    (hfuel : 2 * ts.length + 1 ≤ fuel + 1) : Condition.moreArguments text (fuel + 1 + 1) first ts =
      Condition.moreArguments text (fuel + 1) first ts := by
  unfold Condition.moreArguments
  split
  · next p behind =>
    rw [List.length_cons] at hfuel
    rw [settled.term .outermost (by omega)]
    apply bind_congr_of_ok
    rintro ⟨next, rest⟩ hnext
    have := ((Contained.of_fuel text fuel).term .outermost (by omega)).length_le hnext
    dsimp only
    rw [settled.moreArguments next (by omega)]
  · rfl

/-- More fuel makes no difference, where there is enough. -/
theorem of_fuel (text : String) (fuel : Nat) : Settled text fuel := by
  induction fuel with
  | zero => exact zero text
  | succ fuel ih =>
    exact ⟨ih.term_succ, ih.extend_succ, ih.operand_succ, ih.arguments_succ, ih.moreArguments_succ⟩

end Settled

theorem le_enoughFuel (ts : List Token) : 2 * ts.length + 2 ≤ enoughFuel ts := by
  unfold enoughFuel
  omega

theorem term_add (text : String) (limit : Strength) (ts : List Token) (extra : Nat) :
    term text (enoughFuel ts + extra) limit ts = term text (enoughFuel ts) limit ts := by
  induction extra with
  | zero => rfl
  | succ extra ih =>
    rw [← ih]
    exact (Settled.of_fuel text _).term limit ((le_enoughFuel ts).trans (Nat.le_add_right _ _))

/-! ## Texts -/

theorem located_treeOf (text : String) (ts : List Token) :
    Located text ts (fun _ => True) (treeOf text ts) := by
  have located := (Contained.of_fuel text _).term .outermost (le_enoughFuel ts)
  unfold treeOf
  split
  · next hterm => rwa [hterm] at located
  · trivial
  · next tree t rest hterm =>
    have stops := ((Sound.of_fuel text _).term (le_enoughFuel ts) hterm).stops
    rw [hterm] at located
    exact ⟨t :: rest, located, .leftOver stops⟩

/-- A text has the tokens that it is taken apart into, or it is refused at the first position where
none starts.  Its tokens are read as a tree, or something is wrong with the last of them, and this is
reported where they begin.  No reader goes beyond its tokens, and more fuel than there is makes no
difference. -/
theorem tokens_tiled_and_faults_located (text : String) :
    ((∃ ts, tokens text = .ok ts ∧ Tiled text ts) ∨
      ∃ ts c rest, Tiles 0 text.toList ts (c :: rest) ∧ Stuck c rest ∧ tokens text =
        .error ⟨text, .unexpectedCharacter c, text.toList.length - (c :: rest).length⟩) ∧
    ((∃ tree, parse text = .ok tree) ∨
      ∃ e, parse text = .error e ∧ e.expression = text ∧ e.position ≤ text.toList.length ∧
        (tokens text = .error e ∨ ∃ ts rest, tokens text = .ok ts ∧ rest <:+ ts ∧
          e.position = startOf text rest ∧ Wrong text rest e)) ∧
    (∀ extra, scan text (text.toList.length + 1 + extra) 0 text.toList = tokens text) ∧
    ∀ limit ts, Located text ts (·.2 <:+ ts) (term text (enoughFuel ts) limit ts) ∧
      ∀ extra, term text (enoughFuel ts + extra) limit ts = term text (enoughFuel ts) limit ts := by
  refine ⟨?_, ?_, fun extra => scan_eq_tokens (by omega), fun limit ts => ⟨?_, ?_⟩⟩
  · obtain ⟨ts, tiles, htokens⟩ | stuck := tiles_or_stuck text
    · exact .inl ⟨ts, htokens, tiles.tiled⟩
    · exact .inr stuck
  · unfold parse
    obtain ⟨ts, tiles, htokens⟩ | ⟨ts, c, rest, -, -, htokens⟩ := tiles_or_stuck text
    · have located := located_treeOf text ts
      rw [htokens]
      dsimp only
      cases htree : treeOf text ts with
      | ok tree => exact .inl ⟨tree, rfl⟩
      | error e =>
        rw [htree] at located
        obtain ⟨rest, suffix, wrong⟩ := located
        obtain ⟨hexpression, hposition⟩ := wrong.position_eq
        have hle : e.position ≤ text.toList.length := by
          rw [hposition]
          exact tiles.tiled.le_of_mem_marks (startOf_mem_marks suffix)
        exact .inr ⟨e, rfl, hexpression, hle, .inr ⟨ts, rest, rfl, suffix, hposition, wrong⟩⟩
    · rw [htokens]
      exact .inr ⟨_, rfl, rfl, Nat.sub_le _ _, .inl rfl⟩
  · exact (Contained.of_fuel text _).term limit (le_enoughFuel ts)
  · exact term_add text limit ts

end Questionnaire.Condition
