import Questionnaire.Proofs.Condition.Lexing
import Questionnaire.Proofs.Number.Scanning

/-!
# Slices of a text

A token is written as a slice of the text: a text in quotes, a numeral, an operator or another sign,
or a name.  A slice may go on as a longer one, as `=` does in `==` and `1` in `1.5`, but not as one
of another kind, because the first character tells the kinds apart.  The reader takes the longest
slice at the start of a text, and finds none exactly if there is none.

## Main Definitions

* `Condition.IsSlice` - the rows of characters that write a token
* `Condition.Longest` - the longest slice at the start of a text
* `Condition.Reaches` - a reader takes a slice, or goes on beyond it

## Main Statements

* `Condition.lexeme?_eq_some_iff` - the token at the start of a text is that of the longest slice
* `Condition.lexeme?_eq_none_iff` - there is no token where no slice starts
-/

namespace Questionnaire

namespace Condition

/-- What stands between quotes, as it is written and as it is meant.  A backslash makes any
character but a line feed stand for itself. -/
inductive Body (q : Quote) : List Char → List Char → Prop where
  /-- Nothing. -/
  | nil : Body q [] []
  /-- One more character that stands for itself. -/
  | plain {c : Char} {body meant : List Char} (hquote : c ≠ q.char) (hslash : c ≠ '\\')
    (more : Body q body meant) : Body q (c :: body) (c :: meant)
  /-- One more character with a backslash in front. -/
  | escaped {c : Char} {body meant : List Char} (hfeed : c ≠ '\n') (more : Body q body meant) :
    Body q ('\\' :: c :: body) (c :: meant)

/-- The operators and the other signs, with their tokens. -/
def operators : List (List Char × Lexeme) := [
  (['=', '=', '='], .comparison .tripleEqual), (['!', '=', '='], .comparison .strictUnequal),
  (['=', '='], .comparison .doubleEqual), (['!', '='], .comparison .unequal),
  (['>', '='], .comparison .greaterEqual), (['<', '='], .comparison .lessEqual),
  (['&', '&'], .conj "&&"), (['|', '|'], .disj "||"), (['='], .comparison .equal),
  (['>'], .comparison .greater), (['<'], .comparison .less), (['!'], .neg "!"), (['-'], .minus),
  (['('], .opening), ([')'], .closing), ([','], .comma)]

/-- A row of characters is the slice of a token. -/
inductive IsSlice : List Char → Lexeme → Prop where
  /-- A text in quotes. -/
  | quoted (q : Quote) {body meant : List Char} (h : Body q body meant) :
    IsSlice (q.char :: (body ++ [q.char])) (.quoted (String.ofList meant))
  /-- Digits, and further digits behind a point. -/
  | number {whole fraction : List Char} (given : whole ≠ [])
    (hwhole : ∀ c ∈ whole, Unicode.isDigit c = true)
    (hfraction : ∀ c ∈ fraction, Unicode.isDigit c = true) :
    IsSlice (whole ++ pointed fraction)
      (.number (Json.ofWhole (Numeral.toBinary64 false ⟨whole, fraction⟩)))
  /-- An operator or another sign. -/
  | operator {sign : List Char} {l : Lexeme} (h : (sign, l) ∈ operators) : IsSlice sign l
  /-- A name or a word with a meaning: parts of word characters with points between them, the first
  of which does not begin with a digit. -/
  | word {c : Char} {cs : List Char} {parts : List (List Char)} (hfirst : IsPart (c :: cs))
    (hdigit : Unicode.isDigit c = false) (hparts : ∀ part ∈ parts, IsPart part) :
    IsSlice (c :: cs ++ parts.flatMap ('.' :: ·))
      (wordLexeme (String.ofList (c :: cs ++ parts.flatMap ('.' :: ·))))

/-- The longest slice at the start of a text, with what follows it. -/
structure Longest (slice rest : List Char) (l : Lexeme) : Prop where
  /-- It is the slice of a token. -/
  isSlice : IsSlice slice l
  /-- Every slice at the start of the text is as long at most. -/
  length_le {slice' rest' : List Char} {l' : Lexeme} (h : slice' ++ rest' = slice ++ rest)
    (hslice : IsSlice slice' l') : slice'.length ≤ slice.length

/-- A reader finds `a` in front of `rest`, or it goes on beyond the start of `rest`. -/
def Reaches {α : Type} (found : Option (α × List Char)) (a : α) (rest : List Char) : Prop :=
  ∃ a' rest', found = some (a', rest') ∧ (rest'.length < rest.length ∨ a' = a ∧ rest' = rest)

namespace Reaches

variable {α β : Type} {found : Option (α × List Char)} {a : α} {rest : List Char}

theorem of_eq (h : found = some (a, rest)) : Reaches found a rest :=
  ⟨a, rest, h, .inr ⟨rfl, rfl⟩⟩

theorem map (reaches : Reaches found a rest) (f : α → β) :
    Reaches (found.map fun p => (f p.1, p.2)) (f a) rest := by
  obtain ⟨a', rest', rfl, hlt | ⟨rfl, rfl⟩⟩ := reaches
  · exact ⟨f a', rest', rfl, .inl hlt⟩
  · exact ⟨f a', rest', rfl, .inr ⟨rfl, rfl⟩⟩

/-- Characters at the start of `rest` lead beyond it. -/
theorem of_append {front behind : List Char} (h : front ++ behind = rest) :
    Reaches (some (front, behind)) [] rest := by
  subst h
  cases front with
  | nil => exact .of_eq rfl
  | cons c cs =>
    refine ⟨_, _, rfl, .inl ?_⟩
    simp only [List.length_append, List.length_cons]
    omega

theorem exists_le (reaches : Reaches found a rest) :
    ∃ a' rest', found = some (a', rest') ∧ rest'.length ≤ rest.length := by
  obtain ⟨a', rest', h, hlt | ⟨-, rfl⟩⟩ := reaches
  · exact ⟨a', rest', h, hlt.le⟩
  · exact ⟨a', rest', h, le_rfl⟩

/-- A reader that looks at the next character stops or goes on behind it. -/
theorem of_next (read : List Char → Option (α × List Char)) (c : Char)
    (stops : (∀ more, rest = c :: more → False) → read rest = some (a, rest))
    (goes : ∀ more, ∃ a' rest', read (c :: more) = some (a', rest') ∧
      rest'.length ≤ more.length) : Reaches (read rest) a rest := by
  by_cases h : ∃ more, rest = c :: more
  · obtain ⟨more, rfl⟩ := h
    obtain ⟨a', rest', hfound, hle⟩ := goes more
    exact ⟨a', rest', hfound, .inl (Nat.lt_succ_of_le hle)⟩
  · exact .of_eq (stops fun more hmore => h ⟨more, hmore⟩)

end Reaches

/-! ## Texts in quotes -/

theorem quotedBody?_of_body {q : Quote} {body meant : List Char} (h : Body q body meant)
    (rest : List Char) : quotedBody? q.char (body ++ q.char :: rest) = some (meant, rest) := by
  have hslash : q.char ≠ '\\' := by cases q <;> decide
  induction h with
  | nil => rw [List.nil_append, quotedBody?.eq_4 _ _ _ hslash, if_pos rfl]
  | plain hquote hslash more ih =>
    rw [List.cons_append, quotedBody?.eq_4 _ _ _ hslash, if_neg hquote, ih]
    rfl
  | escaped hfeed more ih => simp [quotedBody?, hfeed, ih]

theorem exists_body_of_quotedBody? {q : Quote} {cs meant rest : List Char}
    (h : quotedBody? q.char cs = some (meant, rest)) :
    ∃ body, cs = body ++ q.char :: rest ∧ Body q body meant := by
  fun_induction quotedBody? q.char cs generalizing meant rest with
  | case1 => cases h
  | case2 => cases h
  | case3 => cases h
  | case4 c rest' hfeed ih =>
    obtain ⟨⟨meant', _⟩, hrest, ⟨⟩⟩ := Option.map_eq_some_iff.1 h
    obtain ⟨body, rfl, hbody⟩ := ih hrest
    exact ⟨'\\' :: c :: body, rfl, .escaped hfeed hbody⟩
  | case5 cs hslash =>
    cases h
    exact ⟨[], rfl, .nil⟩
  | case6 c cs hslash hquote ih =>
    obtain ⟨⟨meant', _⟩, hrest, ⟨⟩⟩ := Option.map_eq_some_iff.1 h
    obtain ⟨body, rfl, hbody⟩ := ih hrest
    exact ⟨c :: body, rfl, .plain hquote (fun hc => hslash hc) hbody⟩

/-! ## Numerals -/

section Numeral

variable {whole fraction : List Char}

theorem reaches_scan? (given : whole ≠ []) (hwhole : ∀ c ∈ whole, Unicode.isDigit c = true)
    (hfraction : ∀ c ∈ fraction, Unicode.isDigit c = true) (rest : List Char) :
    Reaches (Numeral.scan? (whole ++ pointed fraction ++ rest)) ⟨whole, fraction⟩ rest := by
  have hsplit : rest.takeWhile Unicode.isDigit ++ rest.dropWhile Unicode.isDigit = rest :=
    List.takeWhile_append_dropWhile
  cases fraction with
  | nil =>
    have hempty : (whole ++ rest.takeWhile Unicode.isDigit).isEmpty = false := by simp [given]
    have reaches := (Reaches.of_append hsplit).map fun ds => Numeral.mk (whole ++ ds) []
    rw [List.append_nil, Option.map_some] at reaches
    show Reaches (Numeral.scan? (whole ++ [] ++ rest)) _ _
    unfold Numeral.scan?
    rw [List.append_nil, List.takeWhile_append_of_pos hwhole, List.dropWhile_append_of_pos hwhole]
    simp only [hempty, Bool.false_eq_true, if_false]
    split
    · next behind hpoint =>
      split
      · rwa [hpoint] at reaches
      · -- the point and the digits behind it are taken as well
        refine ⟨_, _, rfl, .inl ?_⟩
        have hle := (List.dropWhile_suffix (l := behind) Unicode.isDigit).length_le
        have hlength := congrArg List.length hsplit
        simp only [hpoint, List.length_append, List.length_cons] at hlength
        omega
    · exact reaches
  | cons d ds =>
    have hpoint : ∀ c ∈ ('.' :: (d :: ds ++ rest)).head?, Unicode.isDigit c = false := by
      rintro c ⟨⟩
      decide +kernel
    obtain ⟨htake, hdrop⟩ := Numeral.takeWhile_digits hwhole hpoint
    have hempty : whole.isEmpty = false := by simpa using given
    have reaches := (Reaches.of_append hsplit).map fun more => Numeral.mk whole (d :: ds ++ more)
    rw [List.append_nil, Option.map_some] at reaches
    show Reaches (Numeral.scan? (whole ++ '.' :: (d :: ds) ++ rest)) _ _
    rw [List.append_assoc]
    unfold Numeral.scan?
    rw [List.cons_append, htake, hdrop]
    simp only [hempty, Bool.false_eq_true, if_false, List.takeWhile_append_of_pos hfraction,
      List.dropWhile_append_of_pos hfraction]
    simpa using reaches

theorem exists_slice_of_scan? {cs rest : List Char} {n : Numeral}
    (h : Numeral.scan? cs = some (n, rest)) :
    cs = n.whole ++ pointed n.fraction ++ rest ∧ n.whole ≠ [] ∧
      (∀ c ∈ n.whole, Unicode.isDigit c = true) ∧ ∀ c ∈ n.fraction, Unicode.isDigit c = true := by
  have hsplit : cs.takeWhile Unicode.isDigit ++ cs.dropWhile Unicode.isDigit = cs :=
    List.takeWhile_append_dropWhile
  have hdigits (cs : List Char) : ∀ c ∈ cs.takeWhile Unicode.isDigit, Unicode.isDigit c = true :=
    List.all_eq_true.1 List.all_takeWhile
  unfold Numeral.scan? at h
  simp only at h
  split at h
  · cases h
  next given =>
  have hne : cs.takeWhile Unicode.isDigit ≠ [] := by simpa using given
  split at h
  · next behind hpoint =>
    split at h
    · cases h
      refine ⟨?_, hne, hdigits cs, nofun⟩
      rw [← hpoint]
      simp [pointed]
    · next hfraction =>
      cases h
      refine ⟨?_, hne, hdigits cs, hdigits behind⟩
      rw [pointed, if_neg hfraction, List.append_assoc, List.cons_append,
        List.takeWhile_append_dropWhile, ← hpoint, hsplit]
  · cases h
    refine ⟨?_, hne, hdigits cs, nofun⟩
    simp [pointed]

end Numeral

/-! ## Operators and other signs -/

/-- Only an equality sign goes on with an operator. -/
theorem reaches_of_equality {l : Lexeme} (front : List Char) {rest : List Char}
    (stops : (∀ more, rest = '=' :: more → False) → operator? (front ++ rest) = some (l, rest))
    (goes : ∀ more, ∃ l' rest', operator? (front ++ '=' :: more) = some (l', rest') ∧
      rest'.length ≤ more.length) : Reaches (operator? (front ++ rest)) l rest :=
  Reaches.of_next (fun rest => operator? (front ++ rest)) '=' stops goes

theorem reaches_operator? {sign : List Char} {l : Lexeme} (h : (sign, l) ∈ operators)
    (rest : List Char) : Reaches (operator? (sign ++ rest)) l rest := by
  have double (rest : List Char) :
      Reaches (operator? (['=', '='] ++ rest)) (.comparison .doubleEqual) rest :=
    reaches_of_equality _ (operator?.eq_3 rest) fun more => ⟨_, more, rfl, le_rfl⟩
  have unequal (rest : List Char) :
      Reaches (operator? (['!', '='] ++ rest)) (.comparison .unequal) rest :=
    reaches_of_equality _ (operator?.eq_4 rest) fun more => ⟨_, more, rfl, le_rfl⟩
  simp only [operators, List.mem_cons, Prod.mk.injEq, List.not_mem_nil, or_false] at h
  rcases h with ⟨rfl, rfl⟩ | ⟨rfl, rfl⟩ | ⟨rfl, rfl⟩ | ⟨rfl, rfl⟩ | ⟨rfl, rfl⟩ | ⟨rfl, rfl⟩ |
    ⟨rfl, rfl⟩ | ⟨rfl, rfl⟩ | ⟨rfl, rfl⟩ | ⟨rfl, rfl⟩ | ⟨rfl, rfl⟩ | ⟨rfl, rfl⟩ | ⟨rfl, rfl⟩ |
    ⟨rfl, rfl⟩ | ⟨rfl, rfl⟩ | ⟨rfl, rfl⟩
  all_goals try exact .of_eq rfl
  · exact double rest
  · exact unequal rest
  · exact reaches_of_equality ['='] (fun h => operator?.eq_9 rest (fun _ => h _) h)
      fun more => (double more).exists_le
  · exact reaches_of_equality ['>'] (operator?.eq_10 rest) fun more => ⟨_, more, rfl, le_rfl⟩
  · exact reaches_of_equality ['<'] (operator?.eq_11 rest) fun more => ⟨_, more, rfl, le_rfl⟩
  · exact reaches_of_equality ['!'] (fun h => operator?.eq_12 rest (fun _ => h _) h)
      fun more => (unequal more).exists_le

/-- Operators begin with a sign. -/
theorem exists_sign_eq_cons {sign : List Char} {l : Lexeme} (h : (sign, l) ∈ operators) :
    ∃ c cs, sign = c :: cs ∧ c ∈ signs := by
  have heads : operators.all (fun e => e.1.head?.any fun c => signs.contains c) = true := by decide
  have hhead := List.all_eq_true.1 heads _ h
  cases sign with
  | nil => cases hhead
  | cons c cs => exact ⟨c, cs, rfl, by simpa using hhead⟩

theorem exists_sign_of_operator? {cs rest : List Char} {l : Lexeme}
    (h : operator? cs = some (l, rest)) : ∃ sign, (sign, l) ∈ operators ∧ cs = sign ++ rest := by
  unfold operator? at h
  split at h <;> cases h
  all_goals first
    | exact ⟨[_, _, _], by simp [operators], rfl⟩
    | exact ⟨[_, _], by simp [operators], rfl⟩
    | exact ⟨[_], by simp [operators], rfl⟩

/-! ## Names -/

theorem IsPart.takeWhile_append {part : List Char} (h : IsPart part) (rest : List Char) :
    (part ++ rest).takeWhile Unicode.isWord = part ++ rest.takeWhile Unicode.isWord :=
  List.takeWhile_append_of_pos h.2

theorem IsPart.dropWhile_append {part : List Char} (h : IsPart part) (rest : List Char) :
    (part ++ rest).dropWhile Unicode.isWord = rest.dropWhile Unicode.isWord :=
  List.dropWhile_append_of_pos h.2

theorem exists_parts_of_nameTail (fuel : Nat) (cs : List Char) :
    ∃ parts : List (List Char), (∀ part ∈ parts, IsPart part) ∧
      (nameTail fuel cs).1 = parts.flatMap ('.' :: ·) ∧
      (nameTail fuel cs).1 ++ (nameTail fuel cs).2 = cs := by
  fun_induction nameTail fuel cs with
  | case1 cs => exact ⟨[], nofun, rfl, rfl⟩
  | case2 fuel rest part hempty => exact ⟨[], nofun, rfl, rfl⟩
  | case3 fuel rest part given tail ih =>
    obtain ⟨parts, hparts, htail, happend⟩ := ih
    have hpart : IsPart part := ⟨by simpa using given, List.all_eq_true.1 List.all_takeWhile⟩
    refine ⟨part :: parts, List.forall_mem_cons.2 ⟨hpart, hparts⟩, ?_, ?_⟩
    · rw [List.flatMap_cons, ← htail]
    · show '.' :: part ++ tail.1 ++ tail.2 = '.' :: rest
      rw [List.append_assoc, happend, List.cons_append, List.takeWhile_append_dropWhile]
  | case4 fuel cs hpoint => exact ⟨[], nofun, rfl, rfl⟩

/-- Behind a part of a name the reader takes the word characters and the parts that follow. -/
theorem reaches_nameTail {parts : List (List Char)} (hparts : ∀ part ∈ parts, IsPart part)
    (rest : List Char) {fuel : Nat} (hfuel : parts.length ≤ fuel) {more : List Char}
    (hmore : parts.flatMap ('.' :: ·) ++ rest = more) :
    Reaches (some (more.takeWhile Unicode.isWord ++
      (nameTail fuel (more.dropWhile Unicode.isWord)).1,
      (nameTail fuel (more.dropWhile Unicode.isWord)).2)) (parts.flatMap ('.' :: ·)) rest := by
  induction parts generalizing fuel more with
  | nil =>
    obtain ⟨-, -, -, happend⟩ := exists_parts_of_nameTail fuel (more.dropWhile Unicode.isWord)
    refine .of_append ?_
    rw [List.append_assoc, happend, List.takeWhile_append_dropWhile]
    exact hmore.symm
  | cons part parts ih =>
    obtain ⟨hpart, hparts⟩ := List.forall_mem_cons.1 hparts
    obtain ⟨fuel, rfl⟩ := Nat.exists_eq_add_of_le' (show 1 ≤ fuel by simp at hfuel; omega)
    have hpoint : Unicode.isWord '.' = false := by decide +kernel
    have reaches := (ih hparts (by simpa using hfuel) rfl).map ('.' :: part ++ ·)
    subst hmore
    simpa [hpoint, nameTail, hpart.takeWhile_append, hpart.dropWhile_append, hpart.1] using reaches

theorem reaches_name? {c : Char} {cs : List Char} {parts : List (List Char)}
    (hfirst : IsPart (c :: cs)) (hdigit : Unicode.isDigit c = false)
    (hparts : ∀ part ∈ parts, IsPart part) (rest : List Char) :
    Reaches (name? (c :: cs ++ parts.flatMap ('.' :: ·) ++ rest))
      (c :: cs ++ parts.flatMap ('.' :: ·)) rest := by
  have hword : Unicode.isWord c = true := hfirst.2 c List.mem_cons_self
  have hlength : parts.length ≤ (c :: cs ++ (parts.flatMap ('.' :: ·) ++ rest)).length := by
    have := length_le_flatMap parts
    simp only [List.length_append]
    omega
  have reaches := (reaches_nameTail hparts rest hlength rfl).map (c :: cs ++ ·)
  have htake := hfirst.takeWhile_append (parts.flatMap ('.' :: ·) ++ rest)
  have hdrop := hfirst.dropWhile_append (parts.flatMap ('.' :: ·) ++ rest)
  rw [List.append_assoc]
  rw [List.cons_append] at htake hdrop reaches ⊢
  simpa only [name?, hword, hdigit, Bool.not_false, Bool.and_self, if_true, htake, hdrop,
    Option.map_some, List.append_assoc] using reaches

theorem exists_slice_of_name? {cs name rest : List Char} (h : name? cs = some (name, rest)) :
    IsSlice name (wordLexeme (String.ofList name)) ∧ cs = name ++ rest := by
  unfold name? at h
  split at h
  · cases h
  next c cs =>
  split at h
  · next hc =>
    obtain ⟨hword, hdigit⟩ := Bool.and_eq_true_iff.1 hc
    cases h
    obtain ⟨parts, hparts, htail, happend⟩ :=
      exists_parts_of_nameTail (c :: cs).length ((c :: cs).dropWhile Unicode.isWord)
    have hfirst : (c :: cs).takeWhile Unicode.isWord = c :: cs.takeWhile Unicode.isWord :=
      List.takeWhile_cons_of_pos hword
    refine ⟨?_, ?_⟩
    · rw [htail, hfirst]
      refine .word ⟨nofun, ?_⟩ (by simpa using hdigit) hparts
      rw [← hfirst]
      exact List.all_eq_true.1 List.all_takeWhile
    · rw [List.append_assoc, happend, List.takeWhile_append_dropWhile]
  · cases h

/-! ## The longest slice -/

/-- The reader takes at least a slice that the text begins with, and finds its token if it takes no
more. -/
theorem reaches_lexeme? {slice : List Char} {l : Lexeme} (h : IsSlice slice l) (rest : List Char) :
    Reaches (lexeme? (slice ++ rest)) l rest := by
  cases h with
  | quoted q h =>
    have hread := quotedBody?_of_body h rest
    refine .of_eq ?_
    rw [List.cons_append, List.append_assoc, List.singleton_append]
    cases q <;> simp only [Quote.char] at hread ⊢ <;> simp [lexeme?, hread]
  | @number whole fraction given hwhole hfraction =>
    obtain ⟨c, cs, rfl⟩ := List.exists_cons_of_ne_nil given
    have hc : Unicode.isDigit c = true := hwhole c List.mem_cons_self
    have hquote {q : Char} (hq : Unicode.isDigit q = false) : c ≠ q := by
      rintro rfl
      cases hc.symm.trans hq
    obtain ⟨n, rest', hscan, hreach⟩ := reaches_scan? given hwhole hfraction rest
    rw [List.cons_append, List.cons_append] at hscan ⊢
    rw [lexeme?_of_not_quote _ (hquote (by decide +kernel)) (hquote (by decide +kernel)), hscan]
    have reaches : Reaches (some (n, rest')) ⟨c :: cs, fraction⟩ rest := ⟨n, rest', rfl, hreach⟩
    exact reaches.map fun n => Lexeme.number (Json.ofWhole (n.toBinary64 false))
  | operator h =>
    obtain ⟨l', rest', hread, hreach⟩ := reaches_operator? h rest
    obtain ⟨c, cs, rfl, hc⟩ := exists_sign_eq_cons h
    obtain ⟨hsingle, hdouble, hdigit, -, -⟩ := of_mem_signs hc
    exact ⟨l', rest', lexeme?_of_operator? hsingle hdouble hdigit hread, hreach⟩
  | @word c cs parts hfirst hdigit hparts =>
    have hword : Unicode.isWord c = true := hfirst.2 c List.mem_cons_self
    have hquote {q : Char} (hq : Unicode.isWord q = false) : c ≠ q := by
      rintro rfl
      cases hword.symm.trans hq
    have reaches := (reaches_name? hfirst hdigit hparts rest).map fun name =>
      wordLexeme (String.ofList name)
    rw [List.cons_append, List.cons_append] at reaches ⊢
    rwa [lexeme?_of_not_quote _ (hquote (by decide +kernel)) (hquote (by decide +kernel)),
      scan?_of_not_digit hdigit, operator?_of_isWord hword]

/-- A slice begins with a character that is not blank. -/
theorem IsSlice.exists_cons {slice : List Char} {l : Lexeme} (h : IsSlice slice l) :
    ∃ c cs, slice = c :: cs ∧ Unicode.isBlank c = false := by
  cases h with
  | quoted q h => exact ⟨_, _, rfl, by cases q <;> decide⟩
  | @number whole fraction given hwhole hfraction =>
    obtain ⟨c, cs, rfl⟩ := List.exists_cons_of_ne_nil given
    exact ⟨c, _, rfl, Unicode.isBlank_of_digit (hwhole c List.mem_cons_self)⟩
  | operator h =>
    obtain ⟨c, cs, rfl, hc⟩ := exists_sign_eq_cons h
    exact ⟨c, cs, rfl, (of_mem_signs hc).2.2.2.2⟩
  | @word c cs parts hfirst hdigit hparts =>
    exact ⟨c, _, rfl, Unicode.isBlank_of_isWord (hfirst.2 c List.mem_cons_self)⟩

/-- What the reader takes is a slice. -/
theorem exists_slice_of_lexeme? {cs rest : List Char} {l : Lexeme}
    (h : lexeme? cs = some (l, rest)) : ∃ slice, IsSlice slice l ∧ cs = slice ++ rest := by
  have quoted (q : Quote) {body : List Char}
      (h : (quotedBody? q.char body).map (fun p => (Lexeme.quoted (String.ofList p.1), p.2)) =
        some (l, rest)) : ∃ slice, IsSlice slice l ∧ q.char :: body = slice ++ rest := by
    obtain ⟨⟨meant, _⟩, hbody, ⟨⟩⟩ := Option.map_eq_some_iff.1 h
    obtain ⟨written, rfl, hwritten⟩ := exists_body_of_quotedBody? hbody
    exact ⟨_, .quoted q hwritten, by simp⟩
  unfold lexeme? at h
  split at h
  · exact quoted .single h
  · exact quoted .double h
  · split at h
    · next n _ hscan =>
      cases h
      obtain ⟨hcs, given, hwhole, hfraction⟩ := exists_slice_of_scan? hscan
      exact ⟨_, .number given hwhole hfraction, hcs⟩
    · split at h
      · next hoperator =>
        cases h
        obtain ⟨sign, hsign, hcs⟩ := exists_sign_of_operator? hoperator
        exact ⟨sign, .operator hsign, hcs⟩
      · obtain ⟨⟨name, _⟩, hname, ⟨⟩⟩ := Option.map_eq_some_iff.1 h
        obtain ⟨hslice, hcs⟩ := exists_slice_of_name? hname
        exact ⟨name, hslice, hcs⟩

/-- The token at the start of a text is that of the longest slice there. -/
theorem lexeme?_eq_some_iff {cs rest : List Char} {l : Lexeme} :
    lexeme? cs = some (l, rest) ↔ ∃ slice, cs = slice ++ rest ∧ Longest slice rest l := by
  constructor
  · intro h
    obtain ⟨slice, hslice, rfl⟩ := exists_slice_of_lexeme? h
    refine ⟨slice, rfl, hslice, fun {slice' rest' l'} heq hslice' => ?_⟩
    obtain ⟨_, _, hread, hle⟩ := (reaches_lexeme? hslice' rest').exists_le
    rw [heq, h] at hread
    cases hread
    have hlength := congrArg List.length heq
    simp only [List.length_append] at hlength
    omega
  · rintro ⟨slice, rfl, longest⟩
    obtain ⟨l', rest', hread, hlt | ⟨rfl, rfl⟩⟩ := reaches_lexeme? longest.isSlice rest
    · -- a longer slice would have been read
      obtain ⟨slice', hslice', heq⟩ := exists_slice_of_lexeme? hread
      have hle := longest.length_le heq.symm hslice'
      have hlength := congrArg List.length heq
      simp only [List.length_append] at hlength
      omega
    · exact hread

/-- There is no token exactly where no slice starts. -/
theorem lexeme?_eq_none_iff {cs : List Char} :
    lexeme? cs = none ↔ ∀ slice rest l, cs = slice ++ rest → ¬ IsSlice slice l := by
  constructor
  · rintro h slice rest l rfl hslice
    obtain ⟨l', rest', hread, -⟩ := reaches_lexeme? hslice rest
    cases h.symm.trans hread
  · intro h
    cases hread : lexeme? cs with
    | none => rfl
    | some p =>
      obtain ⟨slice, hslice, hcs⟩ := exists_slice_of_lexeme? hread
      exact absurd hslice (h slice p.2 p.1 hcs)

end Condition

end Questionnaire
