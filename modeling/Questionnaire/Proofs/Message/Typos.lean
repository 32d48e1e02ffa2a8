import Mathlib.Algebra.GroupWithZero.Nat
import Mathlib.Algebra.Order.BigOperators.Group.List
import Mathlib.Algebra.Order.Group.Nat
import Mathlib.Data.List.Infix
import Questionnaire.Proofs.Lookup
import Questionnaire.Proofs.Message.Balance

/-!
# Messages with typos

A message fails, or is not what it promises, as soon as its wording has a stray brace or a text in
braces that is no name: for every such wording there are values that show it.  Where all names have
the absent value, no placeholder that is filled leaves a brace, and every brace that is promised to
stay comes from a doubled one.  So an opening brace that belongs to a fault is missing in the filled
text.

## Main Definitions

* `Pattern.openings` - the opening braces that are promised to stay
* `Pattern.blanks` - all names of a text with the absent value

## Main Statements

* `Pattern.count_of_fills` - how many opening braces stay
* `Pattern.render_iff_isRegular` - which patterns are filled as promised
* `Message.promised_iff_isRegular` - which wordings are given as promised

## Design Notes

Opening braces are counted and closing ones are not: a closing brace outside of braces may pair up
with the next one, so the number of those that are promised to stay depends on what follows.
-/

namespace Questionnaire

namespace Pattern

/-- The opening braces that a piece leaves at least in a filled text if only names have values. -/
def Piece.openings : Piece → Nat
  | .char c => [c].count '\x7b'
  | .doubled c => [c].count '\x7b'
  | .field body => if isName body then 0 else 1
  | .stray c => [c].count '\x7b'

/-- The opening braces that a text leaves at least, `body` being the characters since an open brace
before it, backwards. -/
def openings (state : Option (List Char)) (cs : List Char) : Nat :=
  ((piecesFrom state cs).map Piece.openings).sum

variable {values : Object} {nested : List Char → Except Fault (List Char)}
  {body name cs rest out : List Char} {c : Char}

/-! ## Opening braces -/

theorem piecesFrom_char (hc : ¬IsBrace c) :
    piecesFrom none (c :: cs) = .char c :: piecesFrom none cs := by
  obtain ⟨hopen, hclose⟩ := not_or.1 hc
  conv_lhs => unfold piecesFrom
  rw [if_neg hopen, if_neg hclose]

theorem piecesFrom_open (cs : List Char) :
    piecesFrom none ('\x7b' :: cs) = piecesFrom (some []) cs := by
  conv_lhs => unfold piecesFrom
  exact if_pos rfl

theorem openings_open : openings none ('\x7b' :: cs) = openings (some []) cs := by
  rw [openings, piecesFrom_open, openings]

theorem openings_char (hc : ¬IsBrace c) : openings none (c :: cs) = openings none cs := by
  rw [openings, piecesFrom_char hc, List.map_cons, List.sum_cons, Piece.openings,
    List.count_singleton, if_neg (by simpa using (not_or.1 hc).1), Nat.zero_add, openings]

/-- A closing brace outside of braces does not change what is left. -/
theorem openings_close : openings none ('\x7d' :: cs) = openings none cs := by
  induction cs with
  | nil => rfl
  | cons c cs ih =>
    by_cases hc : c = '\x7d'
    · subst hc
      rw [ih, openings, piecesFrom_close, List.map_cons, List.sum_cons]
      exact Nat.zero_add _
    · rw [openings, piecesFrom_lone (by simpa using hc), List.map_cons, List.sum_cons]
      exact Nat.zero_add _

theorem openings_some_char (hc : ¬IsBrace c) :
    openings (some body) (c :: cs) = openings (some (c :: body)) cs := by
  obtain ⟨hopen, hclose⟩ := not_or.1 hc
  rw [openings, piecesFrom, if_neg hopen, if_neg hclose, openings]

theorem openings_some_close : openings (some body) ('\x7d' :: cs) =
    (if isName body.reverse then 0 else 1) + openings none cs := by
  rw [openings, piecesFrom, if_neg (by decide), if_pos rfl, List.map_cons, List.sum_cons]
  rfl

/-- A brace that is opened twice, or again, leaves a brace. -/
theorem lt_openings_some_open : openings (if body = [] then none else some []) cs <
    openings (some body) ('\x7b' :: cs) := by
  rw [openings, openings, piecesFrom, if_pos rfl]
  split
  · rw [List.map_cons, List.sum_cons]
    exact Nat.lt_add_of_pos_left Nat.one_pos
  · rw [List.cons_append, List.map_cons, List.sum_cons, List.map_append, List.sum_append]
    have hstray : (Piece.stray '\x7b').openings = 1 := rfl
    omega

/-- What comes before a closing brace takes no opening brace from what comes after it. -/
theorem openings_le (state : Option (List Char)) (cs rest : List Char) :
    openings none rest ≤ openings state (cs ++ '\x7d' :: rest) := by
  -- a brace changes the state, so the bound is needed for both states at once
  induction cs generalizing state with
  | nil =>
    cases state with
    | none => exact openings_close.ge
    | some body =>
      rw [List.nil_append, openings_some_close]
      exact Nat.le_add_left _ _
  | cons c cs ih =>
    rw [List.cons_append]
    cases state with
    | none =>
      by_cases hopen : c = '\x7b'
      · rw [hopen, openings_open]
        exact ih (some [])
      · by_cases hclose : c = '\x7d'
        · rw [hclose, openings_close]
          exact ih none
        · rw [openings_char (not_or.2 ⟨hopen, hclose⟩)]
          exact ih none
    | some body =>
      by_cases hopen : c = '\x7b'
      · rw [hopen]
        exact (ih _).trans lt_openings_some_open.le
      · by_cases hclose : c = '\x7d'
        · rw [hclose, openings_some_close]
          exact Nat.le_add_left_of_le (ih _)
        · rw [openings_some_char (not_or.2 ⟨hopen, hclose⟩)]
          exact ih _

/-- A text in braces that is no name leaves a brace. -/
theorem openings_lt_or (body cs rest : List Char) :
    openings none rest < openings (some body) (cs ++ '\x7d' :: rest) ∨
      ∃ tail after, cs ++ '\x7d' :: rest = tail ++ '\x7d' :: after ∧
        isName (body.reverse ++ tail) = true := by
  induction cs generalizing body with
  | nil =>
    rw [List.nil_append, openings_some_close]
    by_cases hname : isName body.reverse = true
    · exact .inr ⟨[], rest, rfl, by rwa [List.append_nil]⟩
    · rw [if_neg hname]
      exact .inl (by omega)
  | cons c cs ih =>
    rw [List.cons_append]
    by_cases hopen : c = '\x7b'
    · rw [hopen]
      exact .inl ((openings_le _ cs rest).trans_lt lt_openings_some_open)
    · by_cases hclose : c = '\x7d'
      · rw [hclose, openings_some_close]
        by_cases hname : isName body.reverse = true
        · exact .inr ⟨[], cs ++ '\x7d' :: rest, rfl, by rwa [List.append_nil]⟩
        · have hle := openings_le none cs rest
          rw [if_neg hname]
          exact .inl (by omega)
      · rw [openings_some_char (not_or.2 ⟨hopen, hclose⟩)]
        refine (ih (c :: body)).imp_right ?_
        rintro ⟨tail, after, heq, hname⟩
        refine ⟨c :: tail, after, by rw [heq, List.cons_append], ?_⟩
        rwa [List.reverse_cons, List.append_assoc] at hname

/-! ## What blank values leave -/

theorem piecesFrom_some_name (hfree : BraceFree name) :
    piecesFrom (some body) (name ++ '\x7d' :: rest) =
      .field (body.reverse ++ name) :: piecesFrom none rest := by
  induction name generalizing body with
  | nil =>
    rw [List.nil_append, piecesFrom, if_neg (by decide), if_pos rfl, List.append_nil]
  | cons c name ih =>
    obtain ⟨hc, hname⟩ := List.forall_mem_cons.1 hfree
    obtain ⟨hopen, hclose⟩ := not_or.1 hc
    rw [List.cons_append, piecesFrom, if_neg hopen, if_neg hclose, ih hname, List.reverse_cons,
      List.append_assoc]
    rfl

/-- A placeholder leaves an opening brace if it is no name in braces. -/
theorem openings_lt_or_field {p : Placeholder} {written : List Char}
    (hp : readPlaceholder cs = .ok (p, rest)) (hcs : cs = written ++ '\x7d' :: rest) :
    openings none rest < openings none ('\x7b' :: cs) ∨
      ∃ name, isName name = true ∧ pieces ('\x7b' :: cs) = .field name :: pieces rest := by
  rw [openings_open]
  rcases openings_lt_or [] written rest with hlt | ⟨name, after, heq, hname⟩
  · rw [← hcs] at hlt
    exact .inl hlt
  · rw [List.reverse_nil, List.nil_append] at hname
    rw [← hcs] at heq
    rw [heq, readPlaceholder_name (isName_iff.1 hname).1] at hp
    cases hp
    refine .inr ⟨name, hname, ?_⟩
    rw [pieces, piecesFrom_open, heq, piecesFrom_some_name (braceFree_of_isName hname)]
    rfl

/-- With blank values a filled text has no more opening braces than its pattern leaves, and fewer if
the pattern has a fault. -/
theorem count_of_fills (keeps : KeepsBalance values nested) (h : Fills values nested cs out)
    (blank : IsBlank values cs) : out.count '\x7b' ≤ openings none cs ∧
      (openings none cs ≤ out.count '\x7b' → ∀ p ∈ pieces cs, p.isRegular = true) := by
  induction h with
  | nil => exact ⟨Nat.le_refl 0, fun _ => List.forall_mem_nil _⟩
  | @char c cs out hc h ih =>
    obtain ⟨hle, hregular⟩ := ih (blank.within (List.suffix_cons _ _).isInfix)
    rw [openings_char hc, List.count_cons_of_ne (not_or.1 hc).1]
    refine ⟨hle, fun hge => ?_⟩
    rw [pieces, piecesFrom_char hc]
    refine List.forall_mem_cons.2 ⟨?_, hregular hge⟩
    simpa [Piece.isRegular] using not_or.1 hc
  | @doubled c cs out hc h ih =>
    obtain ⟨hle, hregular⟩ := ih (blank.within (List.suffix_append [c, c] cs).isInfix)
    have hpieces : pieces (c :: c :: cs) = .doubled c :: pieces cs := by
      rcases hc with rfl | rfl <;> rfl
    have hopenings : openings none (c :: c :: cs) = [c].count '\x7b' + openings none cs := by
      rw [openings, ← pieces, hpieces]
      rfl
    rw [hopenings, hpieces, List.count_cons, List.count_singleton]
    refine ⟨by omega, fun hge => List.forall_mem_cons.2 ⟨?_, hregular (by omega)⟩⟩
    rcases hc with rfl | rfl <;> rfl
  | @field p d cs rest layout out shown hp hd hlayout hshown h ih =>
    have blank' : IsBlank values cs := blank.within (List.suffix_cons _ _).isInfix
    have hfree := braceFree_field keeps blank' hp hd hlayout hshown
    have hcount : shown.toList.count '\x7b' = 0 :=
      List.count_eq_zero.2 fun hc => hfree _ hc (.inl rfl)
    obtain ⟨-, -, written, hcs, -⟩ := isClear_denoted blank' hp hd
    obtain ⟨hle, hregular⟩ := ih (blank'.within ⟨written ++ ['\x7d'], [], by simp [hcs]⟩)
    rw [List.count_append, hcount, Nat.zero_add]
    -- nothing is left of the placeholder, so a fault in it makes the bound strict
    rcases openings_lt_or_field hp hcs with hlt | ⟨name, hname, hpieces⟩
    · exact ⟨by omega, fun hge => by omega⟩
    · have hopenings : openings none ('\x7b' :: cs) = openings none rest := by
        rw [openings, ← pieces, hpieces, List.map_cons, List.sum_cons, Piece.openings, if_pos hname,
          Nat.zero_add]
        rfl
      rw [hopenings, hpieces]
      exact ⟨hle, fun hge => List.forall_mem_cons.2 ⟨hname, hregular hge⟩⟩

/-! ## The values that find a fault -/

/-- Every name in a text with the absent value. -/
def blanks (cs : List Char) : Object :=
  ((cs.tails.flatMap List.inits).filter isName).map fun name => (String.ofList name, .null)

theorem valueAt?_map_null (names : List (List Char)) (name : List Char) :
    Assoc.valueAt? (String.ofList name) (names.map fun n => (String.ofList n, Json.null)) =
      if name ∈ names then some .null else none := by
  induction names with
  | nil => rfl
  | cons n names ih =>
    rw [List.map_cons, Assoc.valueAt?_cons, ih]
    by_cases hn : n = name
    · simp [hn]
    · have hne : String.ofList n ≠ String.ofList name := fun h => hn (String.ofList_injective h)
      simp [hne, Ne.symm hn]

theorem valueAt?_blanks (cs name : List Char) :
    Assoc.valueAt? (String.ofList name) (blanks cs) =
      if name <:+: cs ∧ isName name = true then some .null else none := by
  have hmem : name ∈ (cs.tails.flatMap List.inits).filter isName ↔
      name <:+: cs ∧ isName name = true := by
    rw [List.mem_filter, List.mem_flatMap, List.infix_iff_prefix_suffix]
    simp only [List.mem_tails, List.mem_inits, and_comm]
  rw [blanks, valueAt?_map_null]
  exact if_congr hmem rfl rfl

theorem Piece.openings_le_count (keys : ∀ body, isName body = false →
    Assoc.valueAt? (String.ofList body) values = none) (p : Piece) :
    p.openings ≤ (p.filled values).count '\x7b' := by
  cases p with
  | field body =>
    rw [Piece.openings]
    split
    · exact Nat.zero_le _
    · next hname =>
      rw [Piece.filled, keys body (Bool.eq_false_of_not_eq_true hname)]
      exact List.count_pos_iff.2 List.mem_cons_self
  | char c => exact Nat.le_refl _
  | doubled c => exact Nat.le_refl _
  | stray c => exact Nat.le_refl _

/-- Where only names have values a pattern is promised to keep its other opening braces. -/
theorem openings_le_count (keys : ∀ body, isName body = false →
    Assoc.valueAt? (String.ofList body) values = none) (cs : List Char) :
    openings none cs ≤ ((pieces cs).flatMap (Piece.filled values)).count '\x7b' := by
  rw [List.count_flatMap]
  exact List.sum_le_sum fun p _ => p.openings_le_count keys

theorem isRegular_of_render {pattern : String}
    (h : ∀ values, render pattern values = .ok (filledText pattern values)) :
    IsRegular pattern := by
  obtain ⟨out, hfill, hout⟩ := Outcome.map_eq_ok_iff.1 (h (blanks pattern.toList))
  have blank : IsBlank (blanks pattern.toList) pattern.toList := by
    intro name hname hwithin
    rw [valueAt?_blanks, if_pos ⟨hwithin, hname⟩]
  have keys : ∀ body, isName body = false →
      Assoc.valueAt? (String.ofList body) (blanks pattern.toList) = none := by
    intro body hbody
    rw [valueAt?_blanks, if_neg (by simp [hbody])]
  have hfills := fills_of_fillFrom hfill (Nat.lt_succ_self _)
  have hregular := (count_of_fills (keepsBalance_fill 1) hfills blank).2
  rw [String.ofList_injective hout] at hregular
  exact List.all_eq_true.2 (hregular (openings_le_count keys _))

/-- A pattern is filled as promised for all values exactly if it is regular. -/
theorem render_iff_isRegular (pattern : String) :
    (∀ values, render pattern values = .ok (filledText pattern values)) ↔ IsRegular pattern :=
  ⟨isRegular_of_render, render_of_isRegular⟩

end Pattern

namespace Message

/-- The standard wordings are regular. -/
theorem isRegular_wording (m : Message) : Pattern.IsRegular m.wording := by
  unfold Pattern.IsRegular
  cases m <;> decide +kernel

/-- The standard wording under an identifier, which is empty under one without a message. -/
def standard (name : String) : String := ((ofIdentifier? name).map wording).getD ""

theorem renderNamed_eq (name : String) (overrides : Fields) (values : Object) :
    renderNamed name overrides values =
      Pattern.renderValue (patternUnder name overrides (.str (standard name))) values := by
  unfold renderNamed standard
  cases hm : ofIdentifier? name with
  | none => rfl
  | some m =>
    have hname : m.identifier = name := by
      simpa using List.find?_some hm
    rw [← hname]
    rfl

/-- The message of an identifier is given as its wording promises for all values exactly if the
wording is regular, and so is every other pattern of a catalog. -/
theorem promised_iff_isRegular (name : String) (overrides : Fields) (template : String)
    (h : patternUnder name overrides (.str (standard name)) = .str template) :
    ((∀ values, renderNamed name overrides values = .ok (Pattern.filledText template values)) ↔
      Pattern.IsRegular template) ∧
    ∀ pattern, (∀ values, Pattern.render pattern values = .ok (Pattern.filledText pattern values)) ↔
      Pattern.IsRegular pattern := by
  refine ⟨?_, Pattern.render_iff_isRegular⟩
  rw [← Pattern.render_iff_isRegular]
  refine forall_congr' fun values => ?_
  rw [renderNamed_eq, h]
  rfl

/-- A wording with doubled braces and a name without a value. -/
theorem promised_dear :
    patternUnder "handoff"
        [(.str "handoff", .str "Dear \x7bname\x7d \x7b\x7b\x7blimit\x7d\x7d\x7d")]
        (.str (standard "handoff")) = .str "Dear \x7bname\x7d \x7b\x7b\x7blimit\x7d\x7d\x7d" ∧
      renderNamed "handoff"
        [(.str "handoff", .str "Dear \x7bname\x7d \x7b\x7b\x7blimit\x7d\x7d\x7d")]
        [("limit", .int 5)] = .ok "Dear \x7bname\x7d \x7b5\x7d" := by
  have h : patternUnder "handoff"
      [(.str "handoff", .str "Dear \x7bname\x7d \x7b\x7b\x7blimit\x7d\x7d\x7d")]
      (.str (standard "handoff")) = .str "Dear \x7bname\x7d \x7b\x7b\x7blimit\x7d\x7d\x7d" := by
    decide +kernel
  have hregular : Pattern.IsRegular "Dear \x7bname\x7d \x7b\x7b\x7blimit\x7d\x7d\x7d" := by
    unfold Pattern.IsRegular
    decide +kernel
  have hpromise := (promised_iff_isRegular _ _ _ h).1.2 hregular [("limit", .int 5)]
  exact ⟨h, hpromise.trans (congrArg Except.ok (by decide +kernel))⟩

/-- A wording with a part of a name that has no value is promised as it is written, but fails. -/
theorem not_promised_agent :
    patternUnder "handoff" [(.str "handoff", .str "Call \x7bagent.name\x7d")]
        (.str (standard "handoff")) = .str "Call \x7bagent.name\x7d" ∧
      Pattern.filledText "Call \x7bagent.name\x7d" [] = "Call \x7bagent.name\x7d" ∧
      renderNamed "handoff" [(.str "handoff", .str "Call \x7bagent.name\x7d")] [] =
        .error (.noPart "str" "name") := by
  refine ⟨by decide +kernel, by decide +kernel, ?_⟩
  rfl

end Message

end Questionnaire
