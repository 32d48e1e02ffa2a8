import Questionnaire.Proofs.Message.Braces
import Questionnaire.Proofs.Message.Filling

/-!
# Braces of filled patterns

Where all names have the absent value, everything that a placeholder can denote is free of braces:
the absent value, names of kinds and single characters of them.  So a placeholder that is filled has
closed all the braces that it opened, its layout is balanced at whatever depth it is filled, and no
brace is left of it.

## Main Definitions

* `Pattern.Referent.IsClear` - what is denoted where all names have the absent value
* `Pattern.Placeholder.IsWritten` - how a placeholder stands in a text
* `Pattern.Fills` - how a pattern is filled, as a relation
* `Pattern.IsBlank` - all names in a text have the absent value

## Main Statements

* `Pattern.isClear_followParts` - a path whose parts all exist has no braces
* `Pattern.fills_of_fillFrom` - a filled pattern is related to its text
* `Pattern.keepsBalance_fill` - filling keeps as many opening as closing braces
* `Pattern.braceFree_field` - no brace is left of a placeholder
-/

namespace Questionnaire.Pattern

/-! ## What placeholders denote -/

namespace Referent

/-- What is denoted is the absent value, or a text or a kind without braces. -/
def IsClear : Referent → Prop
  | .value .null => True
  | .value (.str s) => BraceFree s.toList
  | .value _ => False
  | .kind name => BraceFree name.toList

variable {d e : Referent}

theorem IsClear.cases (h : d.IsClear) : d = .value .null ∨
    (∃ s, d = .value (.str s) ∧ BraceFree s.toList) ∨
    ∃ name, d = .kind name ∧ BraceFree name.toList := by
  cases d with
  | kind name => exact .inr (.inr ⟨name, rfl, h⟩)
  | value v =>
    cases v with
    | null => exact .inl rfl
    | str s => exact .inr (.inl ⟨s, rfl, h⟩)
    | _ => exact h.elim

theorem braceFree_kind {name : String} (h : BraceFree name.toList) :
    BraceFree ("<class '" ++ name ++ "'>").toList := by
  rw [String.toList_append, String.toList_append]
  exact (BraceFree.append (by decide) h).append (by decide)

theorem braceFree_display (h : d.IsClear) : BraceFree d.display.toList := by
  rcases h.cases with rfl | ⟨s, rfl, hs⟩ | ⟨name, rfl, hname⟩
  · decide
  · exact hs
  · exact braceFree_kind hname

theorem braceFree_literal (h : d.IsClear) : BraceFree d.literal.toList := by
  rcases h.cases with rfl | ⟨s, rfl, hs⟩ | ⟨name, rfl, hname⟩
  · decide
  · exact Text.braceFree_quote hs
  · exact braceFree_kind hname

theorem braceFree_kindName (h : d.IsClear) : BraceFree d.kindName.toList := by
  rcases h.cases with rfl | ⟨s, rfl, -⟩ | ⟨name, rfl, -⟩
  · show BraceFree "NoneType".toList
    decide
  · show BraceFree "str".toList
    decide
  · show BraceFree "type".toList
    decide

/-- The parts that exist have names without braces. -/
theorem isClear_part {name : String} (hd : d.IsClear) (h : d.part name = .ok e) :
    e.IsClear ∧ BraceFree name.toList := by
  unfold part at h
  split at h
  · next hname =>
    cases h
    exact ⟨braceFree_kindName hd, by rw [hname]; decide⟩
  · rcases hd.cases with rfl | ⟨s, rfl, hs⟩ | ⟨kind, rfl, hkind⟩
    · cases h
    · cases h
    · dsimp only at h
      split at h
      · next w hw =>
        cases h
        unfold kindPart? at hw
        split at hw <;> cases hw
        · exact ⟨hkind, by decide⟩
        · exact ⟨hkind, by decide⟩
        · exact ⟨by unfold IsClear; decide, by decide⟩
      · cases h

theorem isClear_itemAt {n : Nat} (hd : d.IsClear) (h : d.itemAt n = .ok e) : e.IsClear := by
  rcases hd.cases with rfl | ⟨s, rfl, hs⟩ | ⟨kind, rfl, hkind⟩
  · cases h
  · unfold itemAt at h
    dsimp only at h
    split at h
    · next c hc =>
      cases h
      show BraceFree _
      rw [String.toList_ofList]
      exact List.forall_mem_singleton.2 (hs c (List.mem_of_getElem? hc))
    · cases h
  · cases h

theorem itemUnder_ne_ok {key : String} (hd : d.IsClear) : d.itemUnder key ≠ .ok e := by
  rcases hd.cases with rfl | ⟨s, rfl, hs⟩ | ⟨kind, rfl, hkind⟩ <;> exact nofun

/-- A conversion that exists is no brace and adds none. -/
theorem isClear_converted {letter : Option Char} (hd : d.IsClear)
    (h : converted d letter = .ok e) : e.IsClear ∧ ∀ c, IsBrace c → letter ≠ some c := by
  unfold converted at h
  split at h <;> cases h
  · exact ⟨hd, nofun⟩
  · exact ⟨braceFree_display hd, by rintro c (rfl | rfl) <;> decide⟩
  · exact ⟨braceFree_literal hd, by rintro c (rfl | rfl) <;> decide⟩
  · exact ⟨Text.braceFree_escapeNonAscii (braceFree_literal hd),
      by rintro c (rfl | rfl) <;> decide⟩

/-- A layout with as many opening as closing braces adds no braces. -/
theorem braceFree_layOut {layout : List Char} {shown : String} (hd : d.IsClear)
    (hnet : net layout = 0) (h : d.layOut layout = .ok shown) : BraceFree shown.toList := by
  rcases hd.cases with rfl | ⟨s, rfl, hs⟩ | ⟨kind, rfl, hkind⟩
  · unfold layOut Layout.value at h
    dsimp only at h
    split at h
    · cases h
      decide
    · cases h
  · exact Layout.braceFree_value h hnet hs
  · unfold layOut at h
    dsimp only at h
    split at h
    · cases h
      exact braceFree_kind hkind
    · cases h

end Referent

variable {values : Object} {nested : List Char → Except Fault (List Char)}
  {cs rest path layout out : List Char} {d e : Referent}

theorem braceFree_of_asPosition {n : Nat} (h : asPosition cs = .ok (some n)) : BraceFree cs := by
  unfold asPosition at h
  split at h
  · cases h
  · split at h
    · next hdigits =>
      have hall := List.all_eq_true.1 (Bool.and_eq_true_iff.1 hdigits).2
      exact fun c hc => not_isBrace_of_isDigit (hall c hc)
    · cases h

/-- A path goes on with a part after a dot, or with an item in brackets. -/
theorem followParts_cons {fuel : Nat} {c : Char}
    (h : followParts (fuel + 1) (c :: rest) d = .ok e) :
    ∃ name after next, followParts fuel after next = .ok e ∧
      ((c = '.' ∧ rest = name ++ after ∧ d.part (String.ofList name) = .ok next) ∨
        (c = '[' ∧ rest = name ++ ']' :: after ∧
          ((∃ n, asPosition name = .ok (some n) ∧ d.itemAt n = .ok next) ∨
            d.itemUnder (String.ofList name) = .ok next))) := by
  unfold followParts at h
  dsimp only at h
  split at h
  · next hc =>
    split at h
    · cases h
    · obtain ⟨next, hnext, h⟩ := Outcome.bind_eq_ok_iff.1 h
      exact ⟨_, _, next, h, .inl ⟨hc, List.takeWhile_append_dropWhile.symm, hnext⟩⟩
  · split at h
    · next hc =>
      split at h
      · cases h
      · next x after hafter =>
        have hx : x = ']' := by
          have hhead := List.head?_dropWhile_not (· != ']') rest
          rw [hafter] at hhead
          simpa using hhead
        have hrest : rest = rest.takeWhile (· != ']') ++ ']' :: after := by
          have hsplit := List.takeWhile_append_dropWhile (p := (· != ']')) (l := rest)
          rw [hafter, hx] at hsplit
          exact hsplit.symm
        split at h
        · cases h
        · obtain ⟨position, hposition, h⟩ := Outcome.bind_eq_ok_iff.1 h
          split at h
          · next n =>
            obtain ⟨next, hnext, h⟩ := Outcome.bind_eq_ok_iff.1 h
            exact ⟨_, after, next, h, .inr ⟨hc, hrest, .inl ⟨n, hposition, hnext⟩⟩⟩
          · obtain ⟨next, hnext, h⟩ := Outcome.bind_eq_ok_iff.1 h
            exact ⟨_, after, next, h, .inr ⟨hc, hrest, .inr hnext⟩⟩
    · cases h

/-- A path whose parts all exist has no braces. -/
theorem isClear_followParts {fuel : Nat} (hd : d.IsClear) (h : followParts fuel cs d = .ok e)
    (hfuel : cs.length < fuel) : e.IsClear ∧ BraceFree cs := by
  induction fuel generalizing cs d with
  | zero => exact absurd hfuel (Nat.not_lt_zero _)
  | succ fuel ih =>
    cases cs with
    | nil =>
      cases h
      exact ⟨hd, List.forall_mem_nil _⟩
    | cons c rest =>
      obtain ⟨name, after, next, hfollow, ⟨rfl, rfl, hnext⟩ | ⟨rfl, rfl, hnext⟩⟩ :=
        followParts_cons h
      all_goals rw [List.length_cons, List.length_append] at hfuel
      · obtain ⟨hclear, hname⟩ := Referent.isClear_part hd hnext
        rw [String.toList_ofList] at hname
        obtain ⟨he, hafter⟩ := ih hclear hfollow (by omega)
        exact ⟨he, List.forall_mem_cons.2 ⟨by decide, hname.append hafter⟩⟩
      · rcases hnext with ⟨n, hposition, hitem⟩ | hentry
        · rw [List.length_cons] at hfuel
          obtain ⟨he, hafter⟩ := ih (Referent.isClear_itemAt hd hitem) hfollow (by omega)
          have hafter' : BraceFree (']' :: after) := List.forall_mem_cons.2 ⟨by decide, hafter⟩
          exact ⟨he, List.forall_mem_cons.2
            ⟨by decide, (braceFree_of_asPosition hposition).append hafter'⟩⟩
        · exact absurd hentry (Referent.itemUnder_ne_ok hd)

/-! ## How placeholders are written -/

/-- The name of a path holds no marks. -/
theorem of_readPath {hidden : Bool} {ending : Char}
    (h : readPath hidden cs = .ok (path, ending, rest)) :
    cs = path ++ ending :: rest ∧ (ending = '\x7d' ∨ ending = ':' ∨ ending = '!') ∧
      (hidden = false → ∀ c ∈ path.takeWhile (!endsPart ·), Segment.marks.contains c = false) := by
  induction cs generalizing hidden path with
  | nil => cases hidden <;> cases h
  | cons c cs ih =>
    cases hidden with
    | true =>
      obtain ⟨⟨path, ending', rest'⟩, hread, h⟩ := Outcome.bind_eq_ok_iff.1 h
      cases h
      obtain ⟨rfl, hending, -⟩ := ih hread
      exact ⟨rfl, hending, nofun⟩
    | false =>
      rw [readPath] at h
      split at h
      · cases h
      · next hopen =>
        split at h
        · next hc =>
          cases h
          exact ⟨rfl, hc, fun _ => List.forall_mem_nil _⟩
        · next hc =>
          obtain ⟨⟨path, ending', rest'⟩, hread, h⟩ := Outcome.bind_eq_ok_iff.1 h
          cases h
          obtain ⟨rfl, hending, hname⟩ := ih hread
          refine ⟨rfl, hending, fun _ => ?_⟩
          rw [List.takeWhile_cons]
          split
          · next hpart =>
            have hpart' : c ≠ '.' ∧ c ≠ '[' := by simpa [endsPart] using hpart
            refine List.forall_mem_cons.2 ⟨?_, hname (beq_eq_false_iff_ne.2 hpart'.2)⟩
            rw [not_or, not_or] at hc
            simp [Segment.marks, hopen, hc, hpart']
          · exact List.forall_mem_nil _

/-- Every brace that is opened in a layout is closed there. -/
theorem of_readLayout {depth : Nat} (h : readLayout depth cs = .ok (layout, rest)) :
    cs = layout ++ '\x7d' :: rest ∧ net layout = -depth := by
  induction cs generalizing depth layout with
  | nil => cases depth <;> cases h
  | cons c cs ih =>
    rw [readLayout] at h
    split at h
    · next hc =>
      cases h
      rw [hc.1, hc.2]
      exact ⟨rfl, rfl⟩
    · next hc =>
      obtain ⟨⟨layout, rest'⟩, hread, h⟩ := Outcome.bind_eq_ok_iff.1 h
      cases h
      obtain ⟨rfl, hnet⟩ := ih hread
      refine ⟨rfl, ?_⟩
      split at hnet
      · next hopen =>
        rw [hopen, net_open, hnet]
        omega
      · next hopen =>
        split at hnet
        · next hclose =>
          rw [hclose, net_close, hnet]
          have : depth ≠ 0 := fun hdepth => hc ⟨hclose, hdepth⟩
          omega
        · next hclose => rw [net_cons (not_or.2 ⟨hopen, hclose⟩), hnet]

/-- How a placeholder stands in a text: its path, the marks and the letter of its conversion, its
layout and the closing brace. -/
structure Placeholder.IsWritten (p : Placeholder) (marked cs rest : List Char) : Prop where
  /-- The text is the placeholder and what follows it. -/
  eq : cs = p.path ++ (marked ++ (p.layout ++ '\x7d' :: rest))
  /-- The name of the path holds no marks. -/
  name : ∀ c ∈ p.path.takeWhile (!endsPart ·), Segment.marks.contains c = false
  /-- Between the path and the layout only the letter of the conversion may be a brace. -/
  conversion : ∀ c ∈ marked, IsBrace c → p.conversion = some c
  /-- The layout closes the braces that it opens. -/
  layout : net p.layout = 0

theorem isWritten_of_readPlaceholder {p : Placeholder}
    (hplaceholder : readPlaceholder cs = .ok (p, rest)) : ∃ marked, p.IsWritten marked cs rest := by
  obtain ⟨⟨path, ending, after⟩, hread, h⟩ := Outcome.bind_eq_ok_iff.1 hplaceholder
  obtain ⟨rfl, hending, hplain⟩ := of_readPath hread
  have hname := hplain rfl
  dsimp only at h
  split at h
  · next hmark =>
    subst hmark
    split at h
    · cases h
    · cases h
    · next letter next after =>
      have hletter : ∀ marks : List Char, BraceFree marks →
          ∀ c ∈ '!' :: letter :: marks, IsBrace c → some letter = some c := by
        intro marks hmarks c hc hbrace
        rcases List.mem_cons.1 hc with rfl | hc
        · exact absurd hbrace (by decide)
        · rcases List.mem_cons.1 hc with rfl | hc
          · rfl
          · exact absurd hbrace (hmarks c hc)
      split at h
      · next hnext =>
        cases h
        exact ⟨['!', letter], by rw [hnext]; rfl, hname, hletter _ (by decide), rfl⟩
      · split at h
        · next hnext =>
          obtain ⟨⟨layout, rest'⟩, hlayout, h⟩ := Outcome.bind_eq_ok_iff.1 h
          cases h
          obtain ⟨rfl, hnet⟩ := of_readLayout hlayout
          exact ⟨['!', letter, ':'], by rw [hnext]; rfl, hname, hletter _ (by decide), hnet⟩
        · cases h
  · split at h
    · next hmark =>
      obtain ⟨⟨layout, rest'⟩, hlayout, h⟩ := Outcome.bind_eq_ok_iff.1 h
      cases h
      obtain ⟨rfl, hnet⟩ := of_readLayout hlayout
      have hcolon : BraceFree [':'] := by decide
      exact ⟨[':'], by rw [hmark]; rfl, hname, fun c hc hbrace => absurd hbrace (hcolon c hc), hnet⟩
    · next hbang hcolon =>
      cases h
      have hclose : ending = '\x7d' := hending.resolve_right (not_or.2 ⟨hcolon, hbang⟩)
      exact ⟨[], by rw [hclose]; rfl, hname, List.forall_mem_nil _, rfl⟩

/-! ## Filling without fuel -/

/-- How a pattern is filled, one character, doubled brace or placeholder after the other. -/
inductive Fills (values : Object) (nested : List Char → Except Fault (List Char)) :
    List Char → List Char → Prop
  | nil : Fills values nested [] []
  | char {c : Char} {cs out : List Char} (hc : ¬IsBrace c) (h : Fills values nested cs out) :
    Fills values nested (c :: cs) (c :: out)
  | doubled {c : Char} {cs out : List Char} (hc : IsBrace c) (h : Fills values nested cs out) :
    Fills values nested (c :: c :: cs) (c :: out)
  | field {p : Placeholder} {d : Referent} {cs rest layout out : List Char} {shown : String}
    (hp : readPlaceholder cs = .ok (p, rest)) (hd : denoted values p = .ok d)
    (hlayout : filledLayout nested p = .ok layout) (hshown : d.layOut layout = .ok shown)
    (h : Fills values nested rest out) :
    Fills values nested ('\x7b' :: cs) (shown.toList ++ out)

/-- Fuel for every character is enough, since a placeholder takes at least its closing brace. -/
theorem fills_of_fillFrom {fuel : Nat} (h : fillFrom values nested fuel cs = .ok out)
    (hfuel : cs.length < fuel) : Fills values nested cs out := by
  induction fuel generalizing cs out with
  | zero => exact absurd hfuel (Nat.not_lt_zero _)
  | succ fuel ih =>
    cases cs with
    | nil =>
      cases h
      exact .nil
    | cons c cs =>
      rw [List.length_cons] at hfuel
      by_cases hopen : c = '\x7b'
      · subst hopen
        cases cs with
        | nil => cases h
        | cons c cs =>
          rw [List.length_cons] at hfuel
          by_cases hc : c = '\x7b'
          · subst hc
            obtain ⟨filled, hfilled, h⟩ := Outcome.bind_eq_ok_iff.1 h
            cases h
            exact .doubled (.inl rfl) (ih hfilled (by omega))
          · rw [fillFrom_field hc] at h
            obtain ⟨⟨p, rest⟩, hp, h⟩ := Outcome.bind_eq_ok_iff.1 h
            obtain ⟨d, hd, h⟩ := Outcome.bind_eq_ok_iff.1 h
            obtain ⟨layout, hlayout, h⟩ := Outcome.bind_eq_ok_iff.1 h
            obtain ⟨shown, hshown, h⟩ := Outcome.bind_eq_ok_iff.1 h
            obtain ⟨filled, hfilled, h⟩ := Outcome.bind_eq_ok_iff.1 h
            cases h
            obtain ⟨marked, hwritten⟩ := isWritten_of_readPlaceholder hp
            have hlength := congrArg List.length hwritten.eq
            simp only [List.length_append, List.length_cons] at hlength
            exact .field hp hd hlayout hshown (ih hfilled (by omega))
      · by_cases hclose : c = '\x7d'
        · subst hclose
          unfold fillFrom at h
          rw [if_pos rfl] at h
          split at h
          · next rest =>
            rw [List.length_cons] at hfuel
            obtain ⟨filled, hfilled, h⟩ := Outcome.bind_eq_ok_iff.1 h
            cases h
            exact .doubled (.inr rfl) (ih hfilled (by omega))
          · cases h
        · rw [fillFrom_char hopen hclose] at h
          obtain ⟨filled, hfilled, h⟩ := Outcome.map_eq_ok_iff.1 h
          cases h
          exact .char (not_or.2 ⟨hopen, hclose⟩) (ih hfilled (by omega))

/-! ## Blank values -/

/-- All names in a text are known and have the absent value. -/
def IsBlank (values : Object) (cs : List Char) : Prop :=
  ∀ name, isName name = true → name <:+: cs →
    Assoc.valueAt? (String.ofList name) values = some .null

theorem IsBlank.within {ds : List Char} (h : IsBlank values cs) (hds : ds <:+: cs) :
    IsBlank values ds :=
  fun name hname hwithin => h name hname (hwithin.trans hds)

theorem braceFree_of_isName {name : List Char} (h : isName name = true) : BraceFree name :=
  fun _ hc => not_or.2 (ne_of_isName h hc)

theorem isClear_referent (blank : IsBlank values path)
    (hname : ∀ c ∈ path.takeWhile (!endsPart ·), Segment.marks.contains c = false)
    (h : referent values path = .ok d) : d.IsClear ∧ BraceFree path := by
  obtain ⟨position, hposition, h⟩ := Outcome.bind_eq_ok_iff.1 h
  split at h
  · cases h
  · next hfit =>
    obtain ⟨hne, hnone⟩ := not_or.1 (mt Bool.or_eq_true_iff.2 hfit)
    have hposition : asPosition (path.takeWhile (!endsPart ·)) = .ok none := by
      rw [hposition, Option.not_isSome_iff_eq_none.1 hnone]
    have hisName := isName_iff.2 ⟨hname, by simpa using hne, hposition⟩
    have hnull := blank _ hisName (List.takeWhile_prefix _).isInfix
    rw [named, hnull] at h
    have hsplit := List.takeWhile_append_dropWhile (p := (!endsPart ·)) (l := path)
    have hlength := congrArg List.length hsplit
    rw [List.length_append] at hlength
    obtain ⟨hd, hparts⟩ := isClear_followParts (d := .value .null) trivial h (by omega)
    refine ⟨hd, ?_⟩
    rw [← hsplit]
    exact (braceFree_of_isName hisName).append hparts

/-- Blank values give a placeholder no braces, and it closes the braces that it opens. -/
theorem isClear_denoted {p : Placeholder} (blank : IsBlank values cs)
    (hp : readPlaceholder cs = .ok (p, rest)) (hd : denoted values p = .ok d) :
    d.IsClear ∧ net p.layout = 0 ∧ ∃ written, cs = written ++ '\x7d' :: rest ∧ net written = 0 := by
  obtain ⟨marked, hwritten⟩ := isWritten_of_readPlaceholder hp
  obtain ⟨e, he, hd⟩ := Outcome.bind_eq_ok_iff.1 hd
  have hpath : p.path <:+: cs := ⟨[], _, by rw [hwritten.eq]; rfl⟩
  obtain ⟨hclear, hfree⟩ := isClear_referent (blank.within hpath) hwritten.name he
  obtain ⟨hclear', hletter⟩ := Referent.isClear_converted hclear hd
  have hmarked : BraceFree marked :=
    fun c hc hbrace => hletter c hbrace (hwritten.conversion c hc hbrace)
  refine ⟨hclear', hwritten.layout, p.path ++ (marked ++ p.layout), ?_, ?_⟩
  · rw [hwritten.eq, List.append_assoc, List.append_assoc]
  · rw [net_append, net_append, net_of_braceFree hfree, net_of_braceFree hmarked, hwritten.layout]
    rfl

/-- Layouts are filled in such a way that they keep as many opening as closing braces. -/
def KeepsBalance (values : Object) (nested : List Char → Except Fault (List Char)) : Prop :=
  ∀ cs out, nested cs = .ok out → IsBlank values cs → net cs = 0 → net out = 0

theorem braceFree_field {p : Placeholder} {shown : String} (keeps : KeepsBalance values nested)
    (blank : IsBlank values cs) (hp : readPlaceholder cs = .ok (p, rest))
    (hd : denoted values p = .ok d) (hlayout : filledLayout nested p = .ok layout)
    (hshown : d.layOut layout = .ok shown) : BraceFree shown.toList := by
  obtain ⟨hclear, hnet, -⟩ := isClear_denoted blank hp hd
  obtain ⟨marked, hwritten⟩ := isWritten_of_readPlaceholder hp
  refine Referent.braceFree_layOut hclear ?_ hshown
  unfold filledLayout at hlayout
  split at hlayout
  · have hwithin : p.layout <:+: cs :=
      ⟨p.path ++ marked, '\x7d' :: rest, by rw [hwritten.eq]; simp⟩
    exact keeps _ _ hlayout (blank.within hwithin) hnet
  · cases hlayout
    exact hnet

/-- Of every two braces of a pattern one is left, or they are those of a placeholder. -/
theorem net_of_fills (keeps : KeepsBalance values nested) (h : Fills values nested cs out)
    (blank : IsBlank values cs) : net cs = 2 * net out := by
  induction h with
  | nil => rfl
  | char hc h ih => rw [net_cons hc, net_cons hc, ih (blank.within (List.suffix_cons _ _).isInfix)]
  | @doubled c cs out hc h ih =>
    have hrest := ih (blank.within (List.suffix_append [c, c] cs).isInfix)
    rcases hc with rfl | rfl
    · rw [net_open, net_open, net_open, hrest]
      omega
    · rw [net_close, net_close, net_close, hrest]
      omega
  | @field p d cs rest layout out shown hp hd hlayout hshown h ih =>
    have blank' : IsBlank values cs := blank.within (List.suffix_cons _ _).isInfix
    obtain ⟨-, -, written, rfl, hwritten⟩ := isClear_denoted blank' hp hd
    have hrest := ih (blank'.within ⟨written ++ ['\x7d'], [], by simp⟩)
    have hfree := braceFree_field keeps blank' hp hd hlayout hshown
    rw [net_open, net_append, net_close, hwritten, hrest, net_append, net_of_braceFree hfree]
    omega

/-- Filling keeps as many opening as closing braces, however deep the layouts are filled. -/
theorem keepsBalance_fill (depth : Nat) : KeepsBalance values (fill values depth) := by
  induction depth with
  | zero => exact nofun
  | succ depth ih =>
    intro cs out h blank hnet
    have hfills := fills_of_fillFrom h (Nat.lt_succ_self _)
    have htwice := net_of_fills ih hfills blank
    omega

end Questionnaire.Pattern
