import Questionnaire.Proofs.Condition.Soundness
import Questionnaire.Proofs.Number.Whole
import Questionnaire.Proofs.Text.Characters

/-!
# Tokens of a text in pieces

A text is cut into pieces by spaces.  Each kind of token has a piece that spells it wherever a space
or the end of the text follows, and the tokens of the text are those of its pieces in a row.

## Main Definitions

* `Condition.Quote` - the signs that a text may be quoted with
* `Condition.isIdentifier` - whether a text has the form of a name
* `Condition.Spells` - a piece spells one token in front of a space or the end
* `Condition.Scans` - a piece spells tokens in front of a space or the end
* `Condition.Row` - pieces that spell tokens in a row

## Main Statements

* `Condition.spells_quoted`, `Condition.spells_toDigits`, `Condition.spells_identifier` - the pieces
  of the tokens that have a content
* `Condition.Row.intercalate` - pieces with spaces between them spell their tokens in a row
* `Condition.Row.tokens_eq_ok` - the tokens of a text that is spelled as a whole

## Design Notes

What follows a piece matters: digits, words and comparisons take as many characters as they can.
-/

namespace Questionnaire

namespace Condition

/-- A sign that a text may be quoted with. -/
inductive Quote where
  /-- `'` -/
  | single
  /-- `"` -/
  | double
  deriving DecidableEq, Repr

/-- The character of a quote. -/
def Quote.char : Quote → Char
  | .single => '\''
  | .double => '"'

/-- A character inside quotes.  The backslash and the quote itself get a backslash in front. -/
def Quote.escape (q : Quote) (c : Char) : List Char :=
  if c = '\\' ∨ c = q.char then ['\\', c] else [c]

/-- A text inside quotes. -/
def Quote.quoted (q : Quote) (s : String) : String :=
  .ofList (q.char :: (s.toList.flatMap q.escape ++ [q.char]))

/-- A name is made of parts with points between them.  The parts are nonempty rows of word
characters, and the first does not begin with a digit. -/
def isIdentifier (written : String) : Bool :=
  (written.toList.splitOn '.').all (fun part => !part.isEmpty && part.all Unicode.isWord) &&
    !written.toList.head?.any Unicode.isDigit

/-- A space or the end of the text follows. -/
def Ended (rest : List Char) : Prop := ∀ c, rest.head? = some c → c = ' '

theorem ended_nil : Ended [] := nofun

theorem ended_space (rest : List Char) : Ended (' ' :: rest) := by
  rintro _ ⟨⟩
  rfl

/-- What follows a piece does not go on with a kind of character that has no space. -/
theorem Ended.takeWhile_eq_nil {rest : List Char} (ended : Ended rest) {p : Char → Bool}
    (hp : p ' ' = false) : rest.takeWhile p = [] := by
  cases rest with
  | nil => rfl
  | cons c rest =>
    obtain rfl := ended c rfl
    exact List.takeWhile_cons_of_neg (by simp [hp])

theorem Ended.dropWhile_eq_self {rest : List Char} (ended : Ended rest) {p : Char → Bool}
    (hp : p ' ' = false) : rest.dropWhile p = rest := by
  have := List.takeWhile_append_dropWhile (p := p) (l := rest)
  rwa [ended.takeWhile_eq_nil hp] at this

/-! ## The token at the start -/

/-- A piece spells a token in front of a space or the end. -/
structure Spells (piece : List Char) (l : Lexeme) : Prop where
  /-- The piece begins with a character that is not skipped. -/
  head : ∃ c rest, piece = c :: rest ∧ Unicode.isBlank c = false
  /-- The token is read from the piece. -/
  lexeme ⦃rest : List Char⦄ (ended : Ended rest) : lexeme? (piece ++ rest) = some (l, rest)

theorem quotedBody?_escaped (q : Quote) (cs rest : List Char) :
    quotedBody? q.char (cs.flatMap q.escape ++ q.char :: rest) = some (cs, rest) := by
  have hquote : q.char ≠ '\\' := by cases q <;> decide
  have hfeed : q.char ≠ '\n' := by cases q <;> decide
  induction cs with
  | nil => cases q <;> rfl
  | cons c cs ih =>
    rw [List.flatMap_cons, List.append_assoc, Quote.escape]
    split
    · next h =>
      -- an escaped character is no line feed
      have hc : c ≠ '\n' := by rcases h with rfl | rfl <;> first | decide | assumption
      simp [quotedBody?, hc, ih]
    · next h =>
      obtain ⟨hslash, hq⟩ := not_or.1 h
      rw [List.singleton_append, quotedBody?.eq_4 _ _ _ hslash, if_neg hq, ih]
      rfl

theorem spells_quoted (q : Quote) (s : String) : Spells (q.quoted s).toList (.quoted s) := by
  have hread (rest : List Char) := quotedBody?_escaped q s.toList rest
  unfold Quote.quoted
  rw [String.toList_ofList]
  refine ⟨⟨_, _, rfl, by cases q <;> decide⟩, fun rest _ => ?_⟩
  rw [List.cons_append, List.append_assoc, List.singleton_append]
  cases q <;> simp only [Quote.char] at hread ⊢ <;> simp [lexeme?, hread, String.ofList_toList]

/-- Digits are read as a numeral without a fraction. -/
theorem scan?_digits {ds rest : List Char} (hne : ds ≠ [])
    (hds : ∀ c ∈ ds, Unicode.isDigit c = true) (ended : Ended rest) :
    Numeral.scan? (ds ++ rest) = some (⟨ds, []⟩, rest) := by
  have hspace : Unicode.isDigit ' ' = false := by decide +kernel
  have htake : (ds ++ rest).takeWhile Unicode.isDigit = ds := by
    rw [List.takeWhile_append_of_pos hds, ended.takeWhile_eq_nil hspace, List.append_nil]
  have hdrop : (ds ++ rest).dropWhile Unicode.isDigit = rest := by
    rw [List.dropWhile_append_of_pos hds, ended.dropWhile_eq_self hspace]
  unfold Numeral.scan?
  rw [htake, hdrop, if_neg (by simpa using hne)]
  split
  · cases ended _ rfl
  · rfl

/-- A text that begins with no quote begins with a numeral, an operator or a name. -/
theorem lexeme?_of_not_quote {c : Char} (cs : List Char) (hsingle : c ≠ '\'') (hdouble : c ≠ '"') :
    lexeme? (c :: cs) =
      match Numeral.scan? (c :: cs) with
      | some (n, rest) => some (.number (Json.ofWhole (n.toBinary64 false)), rest)
      | none =>
        match operator? (c :: cs) with
        | some p => some p
        | none => (name? (c :: cs)).map fun p => (wordLexeme (String.ofList p.1), p.2) := by
  unfold lexeme?
  split
  · next h => exact absurd (List.cons.inj h).1 hsingle
  · next h => exact absurd (List.cons.inj h).1 hdouble
  · rfl

theorem spells_toDigits {n : Nat} (h : n ≤ 2 ^ 53) :
    Spells (Nat.toDigits 10 n) (.number (.int n)) := by
  have hdigit {c : Char} (hc : c ∈ Nat.toDigits 10 n) : Unicode.isDigit c = true :=
    Unicode.isDigit_of_isDigit (isDigit_of_mem_toDigits hc)
  obtain ⟨c, cs, hcs⟩ := List.exists_cons_of_ne_nil (Nat.toDigits_ne_nil (b := 10) (n := n))
  have hc : c.isDigit = true := isDigit_of_mem_toDigits (hcs ▸ List.mem_cons_self)
  refine ⟨⟨c, cs, hcs, Unicode.isBlank_of_isWord (Unicode.isWord_of_isDigit hc)⟩,
    fun rest ended => ?_⟩
  have hscan := scan?_digits Nat.toDigits_ne_nil (fun _ => hdigit) ended
  rw [hcs, List.cons_append] at hscan ⊢
  rw [lexeme?_of_not_quote _ (by rintro rfl; cases hc) (by rintro rfl; cases hc), hscan, ← hcs]
  simp only [Numeral.ofWhole_toDigits h]

theorem scan?_of_not_digit {c : Char} (hc : Unicode.isDigit c = false) (cs : List Char) :
    Numeral.scan? (c :: cs) = none := by
  simp [Numeral.scan?, hc]

theorem lexeme?_of_operator? {c : Char} {cs : List Char} {p : Lexeme × List Char}
    (hsingle : c ≠ '\'') (hdouble : c ≠ '"') (hdigit : Unicode.isDigit c = false)
    (h : operator? (c :: cs) = some p) : lexeme? (c :: cs) = some p := by
  rw [lexeme?_of_not_quote cs hsingle hdouble, scan?_of_not_digit hdigit, h]

/-- The characters that operators and signs begin with. -/
def signs : List Char := ['=', '!', '<', '>', '&', '|', '-', '(', ')', ',']

/-- A sign begins neither a text nor a number nor a name. -/
theorem of_mem_signs {c : Char} (hc : c ∈ signs) :
    c ≠ '\'' ∧ c ≠ '"' ∧ Unicode.isDigit c = false ∧ Unicode.isWord c = false ∧
      Unicode.isBlank c = false := by
  have hsigns : signs.all (fun c => c != '\'' && c != '"' && !Unicode.isDigit c &&
      !Unicode.isWord c && !Unicode.isBlank c) = true := by decide +kernel
  simpa [and_assoc] using List.all_eq_true.1 hsigns c hc

/-- A comparison is not read as a longer one. -/
theorem spells_spelling (op : Comparison) : Spells op.spelling.toList (.comparison op) := by
  refine ⟨by cases op <;> exact ⟨_, _, rfl, by decide⟩, fun rest ended => ?_⟩
  have read (c : Char) (hc : c ∈ signs) (cs : List Char)
      (h : operator? (c :: (cs ++ rest)) = some (.comparison op, rest)) :
      lexeme? (c :: (cs ++ rest)) = some (.comparison op, rest) := by
    obtain ⟨hsingle, hdouble, hdigit, -, -⟩ := of_mem_signs hc
    exact lexeme?_of_operator? hsingle hdouble hdigit h
  have next : rest = [] ∨ ∃ rest', rest = ' ' :: rest' := by
    cases rest with
    | nil => exact .inl rfl
    | cons c rest => exact .inr ⟨rest, by rw [ended c rfl]⟩
  cases op <;> refine read _ (by decide) _ ?_ <;> rcases next with rfl | ⟨rest, rfl⟩ <;> rfl

/-- A sign of one character that is a token whatever follows it. -/
def Lexeme.sign? : Lexeme → Option Char
  | .minus => some '-'
  | .opening => some '('
  | .closing => some ')'
  | .comma => some ','
  | _ => none

theorem lexeme?_of_sign? {l : Lexeme} {c : Char} (h : l.sign? = some c) (rest : List Char) :
    Unicode.isBlank c = false ∧ lexeme? (c :: rest) = some (l, rest) := by
  have hc : c ∈ signs ∧ operator? (c :: rest) = some (l, rest) := by
    cases l <;> cases h <;> exact ⟨by decide, rfl⟩
  obtain ⟨hsingle, hdouble, hdigit, -, hblank⟩ := of_mem_signs hc.1
  exact ⟨hblank, lexeme?_of_operator? hsingle hdouble hdigit hc.2⟩

/-! ## Names -/

theorem operator?_of_isWord {c : Char} (hc : Unicode.isWord c = true) (cs : List Char) :
    operator? (c :: cs) = none := by
  have hsigns {c : Char} (hmem : c ∈ signs) (hc : Unicode.isWord c = true) : False := by
    rw [(of_mem_signs hmem).2.2.2.1] at hc
    cases hc
  unfold operator?
  split <;> first | rfl | (next h => cases h; exact (hsigns (by decide) hc).elim)

/-- A row of word characters that is a part of a name. -/
def IsPart (part : List Char) : Prop := part ≠ [] ∧ ∀ c ∈ part, Unicode.isWord c = true

theorem takeWhile_isWord {part rest : List Char} (hpart : IsPart part)
    (hrest : rest.takeWhile Unicode.isWord = []) :
    (part ++ rest).takeWhile Unicode.isWord = part := by
  rw [List.takeWhile_append_of_pos hpart.2, hrest, List.append_nil]

theorem dropWhile_isWord {part rest : List Char} (hpart : IsPart part)
    (hrest : rest.takeWhile Unicode.isWord = []) :
    (part ++ rest).dropWhile Unicode.isWord = rest := by
  have := List.takeWhile_append_dropWhile (p := Unicode.isWord) (l := part ++ rest)
  rw [takeWhile_isWord hpart hrest] at this
  exact List.append_cancel_left this

/-- A part of a name ends where the next begins or the name ends. -/
theorem takeWhile_isWord_parts (parts : List (List Char)) {rest : List Char} (ended : Ended rest) :
    (parts.flatMap ('.' :: ·) ++ rest).takeWhile Unicode.isWord = [] := by
  cases parts with
  | nil => exact ended.takeWhile_eq_nil (by decide +kernel)
  | cons next parts =>
    have hpoint : Unicode.isWord '.' = false := by decide +kernel
    simp [hpoint]

/-- The parts of a name behind its first. -/
theorem nameTail_parts {parts : List (List Char)} (hparts : ∀ part ∈ parts, IsPart part)
    {rest : List Char} (ended : Ended rest) {fuel : Nat} (hfuel : parts.length ≤ fuel) :
    nameTail fuel (parts.flatMap ('.' :: ·) ++ rest) = (parts.flatMap ('.' :: ·), rest) := by
  induction parts generalizing fuel with
  | nil =>
    rw [List.flatMap_nil, List.nil_append]
    cases fuel with
    | zero => rfl
    | succ fuel =>
      unfold nameTail
      split
      · cases ended _ rfl
      · rfl
  | cons part parts ih =>
    obtain ⟨fuel, rfl⟩ := Nat.exists_eq_add_of_le' (show 1 ≤ fuel by simp at hfuel; omega)
    have hpart := hparts part List.mem_cons_self
    have hnext := takeWhile_isWord_parts parts ended
    have htail : nameTail fuel (parts.flatMap ('.' :: ·) ++ rest) =
        (parts.flatMap ('.' :: ·), rest) :=
      ih (fun next hnext => hparts next (List.mem_cons_of_mem _ hnext)) (by simpa using hfuel)
    rw [List.flatMap_cons, List.append_assoc, List.cons_append]
    unfold nameTail
    simp only [takeWhile_isWord hpart hnext, dropWhile_isWord hpart hnext, htail]
    rw [if_neg (by simpa using hpart.1)]

theorem intercalate_point (part : List Char) (parts : List (List Char)) :
    ['.'].intercalate (part :: parts) = part ++ parts.flatMap ('.' :: ·) := by
  induction parts generalizing part with
  | nil => simp
  | cons next parts ih =>
    rw [List.intercalate_cons_cons, ih]
    simp

/-- A name is its first part with the others behind it. -/
theorem exists_parts {written : String} (h : isIdentifier written = true) :
    ∃ (c : Char) (cs : List Char) (parts : List (List Char)),
      written.toList = c :: cs ++ parts.flatMap ('.' :: ·) ∧ IsPart (c :: cs) ∧
        (∀ part ∈ parts, IsPart part) ∧ Unicode.isDigit c = false := by
  obtain ⟨hparts, hdigit⟩ := Bool.and_eq_true_iff.1 h
  obtain ⟨first, parts, hsplit⟩ :=
    List.exists_cons_of_ne_nil (List.splitOn_ne_nil '.' written.toList)
  have hwritten : written.toList = first ++ parts.flatMap ('.' :: ·) := by
    rw [← intercalate_point, ← hsplit, List.intercalate_splitOn]
  have hall : ∀ part ∈ first :: parts, IsPart part := by
    intro part hpart
    simpa [IsPart] using List.all_eq_true.1 hparts part (hsplit ▸ hpart)
  have hfirst := hall first List.mem_cons_self
  obtain ⟨c, cs, rfl⟩ := List.exists_cons_of_ne_nil hfirst.1
  refine ⟨c, cs, parts, hwritten, hfirst,
    fun part hpart => hall part (List.mem_cons_of_mem _ hpart), ?_⟩
  simpa [hwritten] using hdigit

/-- A name consists of word characters and points. -/
theorem isWord_or_point {written : String} (h : isIdentifier written = true) {c : Char}
    (hc : c ∈ written.toList) : Unicode.isWord c = true ∨ c = '.' := by
  obtain ⟨d, ds, parts, hwritten, hfirst, hparts, -⟩ := exists_parts h
  rw [hwritten] at hc
  rcases List.mem_append.1 hc with hc | hc
  · exact .inl (hfirst.2 c hc)
  · obtain ⟨part, hpart, hc⟩ := List.mem_flatMap.1 hc
    rcases List.mem_cons.1 hc with rfl | hc
    · exact .inr rfl
    · exact .inl ((hparts part hpart).2 c hc)

theorem length_le_flatMap (parts : List (List Char)) :
    parts.length ≤ (parts.flatMap ('.' :: ·)).length := by
  induction parts with
  | nil => exact Nat.le_refl 0
  | cons part parts ih =>
    rw [List.flatMap_cons, List.length_append, List.length_cons, List.length_cons]
    omega

theorem name?_parts {c : Char} {cs rest : List Char} {parts : List (List Char)}
    (hfirst : IsPart (c :: cs)) (hparts : ∀ part ∈ parts, IsPart part)
    (hdigit : Unicode.isDigit c = false) (ended : Ended rest) :
    name? (c :: cs ++ parts.flatMap ('.' :: ·) ++ rest) =
      some (c :: cs ++ parts.flatMap ('.' :: ·), rest) := by
  have hnext := takeWhile_isWord_parts parts ended
  have hlength : parts.length ≤ (c :: cs ++ (parts.flatMap ('.' :: ·) ++ rest)).length := by
    simp only [List.length_append]
    have := length_le_flatMap parts
    omega
  rw [List.append_assoc]
  have htake := takeWhile_isWord hfirst hnext
  have hdrop := dropWhile_isWord hfirst hnext
  rw [List.cons_append] at htake hdrop hlength ⊢
  have hword : Unicode.isWord c = true := hfirst.2 c List.mem_cons_self
  simp only [name?, hword, hdigit, Bool.not_false, Bool.and_self, if_true, htake, hdrop,
    nameTail_parts hparts ended hlength, List.cons_append]

theorem spells_identifier {written : String} (h : isIdentifier written = true) :
    Spells written.toList (wordLexeme written) := by
  obtain ⟨c, cs, parts, hwritten, hfirst, hparts, hdigit⟩ := exists_parts h
  have hword : Unicode.isWord c = true := hfirst.2 c List.mem_cons_self
  have hquote {q : Char} (hq : Unicode.isWord q = false) : c ≠ q := by
    rintro rfl
    cases hword.symm.trans hq
  rw [hwritten]
  refine ⟨⟨c, _, rfl, Unicode.isBlank_of_isWord hword⟩, fun rest ended => ?_⟩
  have hname := name?_parts hfirst hparts hdigit ended
  rw [List.cons_append, List.cons_append] at hname ⊢
  rw [lexeme?_of_not_quote _ (hquote (by decide +kernel)) (hquote (by decide +kernel)),
    scan?_of_not_digit hdigit, operator?_of_isWord hword, hname, Option.map_some,
    ← List.cons_append, ← hwritten, String.ofList_toList]

/-! ## Pieces in a row -/

/-- A piece, in front of a space or the end, is read as some tokens. -/
def Scans (piece : List Char) (word : List Lexeme) : Prop :=
  ∀ (expression : String) (rest : List Char) (fuel position : Nat), Ended rest →
    (piece ++ rest).length < fuel →
    ∃ ts fuel' position', lexemes ts = word ∧ rest.length < fuel' ∧
      ∀ tail, scan expression fuel' position' rest = .ok tail →
        scan expression fuel position (piece ++ rest) = .ok (ts ++ tail)

/-- A token is put in front of those that are read behind it. -/
theorem scan_cons (text : String) (fuel position : Nat) {c : Char} {cs rest : List Char}
    {l : Lexeme} (hc : Unicode.isBlank c = false) (h : lexeme? (c :: cs) = some (l, rest)) :
    scan text (fuel + 1) position (c :: cs) = (⟨l, position⟩ :: ·) <$>
      scan text fuel (position + ((c :: cs).length - rest.length)) rest := by
  rw [scan, if_neg (Bool.eq_false_iff.1 hc), h]
  dsimp only
  cases scan text fuel (position + ((c :: cs).length - rest.length)) rest <;> rfl

/-- Blanks are skipped. -/
theorem scan_blank (text : String) (fuel position : Nat) {c : Char} (cs : List Char)
    (hc : Unicode.isBlank c = true) :
    scan text (fuel + 1) position (c :: cs) = scan text fuel (position + 1) cs := by
  rw [scan, if_pos hc]

theorem scan_of_lexeme? {expression : String} {fuel position : Nat} {c : Char}
    {cs rest : List Char} {l : Lexeme} {tail : List Token} (hc : Unicode.isBlank c = false)
    (h : lexeme? (c :: cs) = some (l, rest))
    (htail : scan expression fuel (position + ((c :: cs).length - rest.length)) rest = .ok tail) :
    scan expression (fuel + 1) position (c :: cs) = .ok (⟨l, position⟩ :: tail) := by
  rw [scan_cons expression fuel position hc h, htail]
  rfl

theorem Spells.scans {piece : List Char} {l : Lexeme} (spells : Spells piece l) :
    Scans piece [l] := by
  intro expression rest fuel position ended hfuel
  obtain ⟨c, cs, rfl, hc⟩ := spells.head
  obtain ⟨fuel, rfl⟩ := Nat.exists_eq_add_of_le' (show 1 ≤ fuel by omega)
  simp only [List.length_append, List.length_cons] at hfuel
  exact ⟨[⟨l, position⟩], fuel, _, rfl, by omega, fun tail htail =>
    scan_of_lexeme? hc (spells.lexeme ended) htail⟩

/-- A sign needs no space behind it. -/
theorem Scans.cons_sign {l : Lexeme} {c : Char} (h : l.sign? = some c) {piece : List Char}
    {word : List Lexeme} (scans : Scans piece word) : Scans (c :: piece) (l :: word) := by
  intro expression rest fuel position ended hfuel
  obtain ⟨hc, hread⟩ := lexeme?_of_sign? h (piece ++ rest)
  obtain ⟨fuel, rfl⟩ := Nat.exists_eq_add_of_le' (show 1 ≤ fuel by omega)
  rw [List.cons_append, List.length_cons] at hfuel
  obtain ⟨ts, fuel', position', rfl, hfuel', hscan⟩ :=
    scans expression rest fuel
      (position + ((c :: (piece ++ rest)).length - (piece ++ rest).length)) ended (by omega)
  exact ⟨⟨l, position⟩ :: ts, fuel', position', rfl, hfuel', fun tail htail =>
    scan_of_lexeme? hc hread (hscan tail htail)⟩

theorem scans_nil : Scans [] [] :=
  fun _ _ fuel position _ hfuel => ⟨[], fuel, position, rfl, hfuel, fun _ => id⟩

theorem Scans.append_space {piece piece' : List Char} {word word' : List Lexeme}
    (scans : Scans piece word) (scans' : Scans piece' word') :
    Scans (piece ++ ' ' :: piece') (word ++ word') := by
  intro expression rest fuel position ended hfuel
  rw [List.append_assoc, List.cons_append] at hfuel ⊢
  obtain ⟨ts, fuel₁, position₁, rfl, hfuel₁, hscan⟩ :=
    scans expression (' ' :: (piece' ++ rest)) fuel position (ended_space _) hfuel
  obtain ⟨fuel₁, rfl⟩ := Nat.exists_eq_add_of_le' (show 1 ≤ fuel₁ by omega)
  rw [List.length_cons] at hfuel₁
  obtain ⟨ts', fuel₂, position₂, rfl, hfuel₂, hscan'⟩ :=
    scans' expression rest fuel₁ (position₁ + 1) ended (by omega)
  refine ⟨ts ++ ts', fuel₂, position₂, by simp [lexemes], hfuel₂, fun tail htail => ?_⟩
  have hspace : scan expression (fuel₁ + 1) position₁ (' ' :: (piece' ++ rest)) =
      scan expression fuel₁ (position₁ + 1) (piece' ++ rest) := scan_blank _ _ _ _ (by decide)
  rw [hscan _ (hspace.trans (hscan' tail htail)), List.append_assoc]

/-- Pieces that are read as tokens, one after the other. -/
inductive Row : List String → List Lexeme → Prop where
  /-- No piece. -/
  | nil : Row [] []
  /-- One more piece in front. -/
  | cons {piece : String} {pieces : List String} {word more : List Lexeme}
    (first : Scans piece.toList word) (rest : Row pieces more) :
    Row (piece :: pieces) (word ++ more)

namespace Row

variable {pieces pieces' : List String} {word word' : List Lexeme}

theorem append (row : Row pieces word) (row' : Row pieces' word') :
    Row (pieces ++ pieces') (word ++ word') := by
  induction row with
  | nil => exact row'
  | cons first _ ih =>
    rw [List.cons_append, List.append_assoc]
    exact .cons first ih

theorem single {piece : String} (scans : Scans piece.toList word) : Row [piece] word := by
  simpa using cons scans nil

/-- With spaces between them the pieces are read in a row. -/
theorem intercalate (row : Row pieces word) :
    Scans (String.intercalate " " pieces).toList word := by
  rw [String.toList_intercalate]
  induction row with
  | nil => exact scans_nil
  | @cons piece pieces _ _ first rest ih =>
    cases pieces with
    | nil =>
      cases rest
      simpa using first
    | cons next pieces =>
      rw [List.map_cons, List.map_cons, List.intercalate_cons_cons, List.append_assoc]
      exact first.append_space ih

/-- The tokens of pieces with spaces between them. -/
theorem tokens_eq_ok (row : Row pieces word) :
    ∃ ts, tokens (String.intercalate " " pieces) = .ok ts ∧ lexemes ts = word := by
  have scans := row.intercalate
  generalize String.intercalate " " pieces = text at scans ⊢
  obtain ⟨ts, fuel', position', hword, -, hscan⟩ :=
    scans text [] (text.toList.length + 1) 0 ended_nil (by simp)
  refine ⟨ts, ?_, hword⟩
  have hend : scan text fuel' position' [] = .ok [] := by cases fuel' <;> rfl
  simpa [tokens] using hscan [] hend

end Row

end Condition

end Questionnaire
