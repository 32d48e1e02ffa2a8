import Mathlib.Data.List.Nodup
import Questionnaire.Proofs.Answer.Options

/-!
# Selections read back

An answer that lists options between separators, with blanks around them, chooses the options that
it lists, each once and in the order in which they are first named.  The options have to be apart:
different up to case, without separators, and not beginning with a word of assent.

## Main Definitions

* `Answer.IsMenu` - options that are apart
* `Answer.Mention` - an option with blanks around it
* `Answer.Listing` - options between separators

## Main Statements

* `Answer.Listing.trimmedPieces_chars` - the pieces of a listing are the options
* `Answer.chooseEach?_of_chosen` - parts that choose themselves are collected without repetition
* `Answer.chooseMany?_listing` - a listing of options is read back

## Design Notes

A whole answer that is equal to an option chooses that one before anything is split.  It cannot take
a listing away from its options: a separator is folded to itself and nothing else is folded to it,
so an answer that is equal to an option without separators has none either, and names that option
only.
-/

namespace Questionnaire.Answer

variable {options : List String}

/-- Options that are apart from each other and from the marks of a listing. -/
structure IsMenu (options : List String) : Prop where
  /-- No option is blank. -/
  filled : ∀ o ∈ options, o ≠ ""
  /-- There are no blanks around the options. -/
  trimmed : ∀ o ∈ options, Text.trim o = o
  /-- The options are different up to case. -/
  distinct : (options.map Unicode.fold).Nodup
  /-- No option holds a separator. -/
  undivided : ∀ o ∈ options, ∀ c ∈ o.toList, isSeparator c = false
  /-- No option begins with a word of assent and a mark. -/
  unassented : ∀ o ∈ options, afterAssent? o.toList = none

/-- An option with blanks around it. -/
structure Mention where
  /-- The blanks before it. -/
  lead : List Char
  /-- The option. -/
  option : String
  /-- The blanks after it. -/
  trail : List Char
  /-- Only blanks stand before it. -/
  blankLead : ∀ c ∈ lead, Unicode.isBlank c = true
  /-- Only blanks stand after it. -/
  blankTrail : ∀ c ∈ trail, Unicode.isBlank c = true

/-- The characters of an option and the blanks around it. -/
def Mention.chars (m : Mention) : List Char := m.lead ++ (m.option.toList ++ m.trail)

/-- Options between separators. -/
structure Listing where
  /-- The first option. -/
  first : Mention
  /-- The further options, each with the separator before it. -/
  further : List ({ c : Char // isSeparator c = true } × Mention)

namespace Listing

/-- The characters of an option and of those that follow it. -/
def charsFrom (m : Mention) : List ({ c : Char // isSeparator c = true } × Mention) → List Char
  | [] => m.chars
  | (c, m') :: rest => m.chars ++ c.1 :: charsFrom m' rest

/-- The characters of a listing. -/
def chars (l : Listing) : List Char := charsFrom l.first l.further

/-- The text of a listing. -/
def text (l : Listing) : String := String.ofList l.chars

/-- The options that are listed, repeated ones included. -/
def named (l : Listing) : List String := l.first.option :: l.further.map (·.2.option)

end Listing

/-! ## Options of a menu -/

theorem trimChars_of_trim {o : String} (h : Text.trim o = o) :
    Text.trimChars o.toList = o.toList := by
  conv_rhs => rw [← h, Text.trim, String.toList_ofList]

namespace IsMenu

variable {o p : String} (menu : IsMenu options)

include menu

theorem eq_of_fold_eq (ho : o ∈ options) (hp : p ∈ options)
    (h : Unicode.fold o = Unicode.fold p) : o = p :=
  List.inj_on_of_nodup_map menu.distinct ho hp h

/-- An option is the only one that is equal to it. -/
theorem sameOption?_self (ho : o ∈ options) : sameOption? o options = some o := by
  obtain ⟨p, hp, hsame⟩ := exists_sameOption? ho
  rw [hsame, menu.eq_of_fold_eq hp ho (fold_of_sameOption? hsame)]

theorem choose?_self (ho : o ∈ options) : choose? o options = some o := by
  rw [choose?_of_unassented (menu.trimmed o ho) (menu.filled o ho) ho
    (withoutAssent_eq_self (menu.unassented o ho)), menu.sameOption?_self ho]

theorem trimmedPieces_option (ho : o ∈ options) :
    Text.trimmedPieces isSeparator o.toList = [o.toList] := by
  refine Text.trimmedPieces_eq_singleton (menu.undivided o ho)
    (trimChars_of_trim (menu.trimmed o ho)) fun h => menu.filled o ho ?_
  exact String.toList_eq_nil_iff.1 h

end IsMenu

/-! ## Pieces of a listing -/

/-- The pieces of an option and of those that follow it. -/
theorem Listing.trimmedPieces_charsFrom (menu : IsMenu options) (m : Mention)
    (rest : List ({ c : Char // isSeparator c = true } × Mention))
    (known : ∀ o ∈ m.option :: rest.map (·.2.option), o ∈ options) :
    Text.trimmedPieces isSeparator (charsFrom m rest) =
      (m.option :: rest.map (·.2.option)).map String.toList := by
  have hfirst (m : Mention) (hm : m.option ∈ options) :
      Text.trimmedPieces isSeparator m.chars = [m.option.toList] := by
    rw [Mention.chars, Text.trimmedPieces_pad m.blankLead m.blankTrail,
      menu.trimmedPieces_option hm]
  induction rest generalizing m with
  | nil => exact hfirst m (known _ List.mem_cons_self)
  | cons entry rest ih =>
    obtain ⟨hm, hrest⟩ := List.forall_mem_cons.1 known
    rw [charsFrom, Text.trimmedPieces_append_cons entry.1.2, hfirst m hm, ih entry.2 hrest]
    rfl

/-- The pieces of a listing are the options that it lists. -/
theorem Listing.trimmedPieces_chars (menu : IsMenu options) (l : Listing)
    (known : ∀ o ∈ l.named, o ∈ options) :
    Text.trimmedPieces isSeparator l.chars = l.named.map String.toList :=
  trimmedPieces_charsFrom menu l.first l.further known

/-- The trimmed text of a listing falls into the options that it lists. -/
theorem Listing.splitTrimmed_text (menu : IsMenu options) (l : Listing)
    (known : ∀ o ∈ l.named, o ∈ options) :
    Text.splitTrimmed isSeparator (Text.trim l.text) = l.named := by
  rw [Text.splitTrimmed_eq, Text.trim, String.toList_ofList, Text.trimmedPieces_trimChars, text,
    String.toList_ofList, trimmedPieces_chars menu l known, List.map_map]
  simp [Function.comp_def]

/-! ## Separators and case -/

/-- A separator is folded to itself and nothing else is folded to it. -/
theorem mem_fold_of_isSeparator {c : Char} (hc : isSeparator c = true) (s : String) :
    c ∈ (Unicode.fold s).toList ↔ c ∈ s.toList := by
  simp only [isSeparator, Bool.or_eq_true, beq_iff_eq] at hc
  rcases hc with ((rfl | rfl) | rfl) | rfl
  · exact Unicode.mem_fold_iff (by decide +kernel) (by decide +kernel)
  · exact Unicode.mem_fold_iff (by decide +kernel) (by decide +kernel)
  · exact Unicode.mem_fold_iff (by decide +kernel) (by decide +kernel)
  · exact Unicode.mem_fold_iff (by decide +kernel) (by decide +kernel)

/-- A text without separators is equal only to texts without separators. -/
theorem undivided_of_fold_eq {s o : String} (h : Unicode.fold o = Unicode.fold s)
    (undivided : ∀ c ∈ o.toList, isSeparator c = false) :
    ∀ c ∈ s.toList, isSeparator c = false := by
  intro c hc
  refine Bool.eq_false_iff.2 fun hsep => ?_
  rw [← mem_fold_of_isSeparator hsep, ← h, mem_fold_of_isSeparator hsep] at hc
  rw [undivided c hc] at hsep
  cases hsep

/-! ## Collected options -/

/-- Parts that choose themselves are collected without those that were chosen before and without
repetition. -/
theorem chooseEach?_of_chosen {chosen parts : List String}
    (h : ∀ p ∈ parts, choose? p options = some p) :
    chooseEach? options chosen parts =
      some (chosen ++ (parts.filter fun p => !chosen.contains p).eraseDups) := by
  induction parts generalizing chosen with
  | nil => rw [chooseEach?, List.filter_nil, List.eraseDups_nil, List.append_nil]
  | cons p rest ih =>
    obtain ⟨hp, hrest⟩ := List.forall_mem_cons.1 h
    rw [chooseEach?, hp]
    dsimp only
    rw [ih hrest]
    cases hchosen : chosen.contains p with
    | true => rw [if_pos rfl, List.filter_cons_of_neg (by rw [hchosen]; decide)]
    | false =>
      have hkept : (rest.filter fun q => !(chosen ++ [p]).contains q) =
          (rest.filter fun q => !chosen.contains q).filter fun q => !q == p := by
        rw [List.filter_filter]
        refine List.filter_congr fun q _ => ?_
        rw [List.contains_append, List.contains_cons, List.contains_nil, Bool.or_false,
          Bool.not_or, Bool.and_comm]
      rw [if_neg Bool.false_ne_true, List.filter_cons_of_pos (by rw [hchosen]; decide),
        List.eraseDups_cons, hkept, List.append_assoc, List.singleton_append]

/-- If the trimmed text of a listing is equal to an option, it names only that one. -/
theorem options_of_sameOption? {p : String} (menu : IsMenu options) (l : Listing)
    (known : ∀ o ∈ l.named, o ∈ options) (h : sameOption? (Text.trim l.text) options = some p) :
    l.named = [p] := by
  have hmem : p ∈ options := List.mem_of_find?_eq_some h
  have hfold := fold_of_sameOption? h
  have hpieces := Listing.splitTrimmed_text menu l known
  have hne : (Text.trim l.text).toList ≠ [] := by
    intro hnil
    rw [Text.splitTrimmed_eq, hnil] at hpieces
    exact absurd hpieces.symm (List.cons_ne_nil _ _)
  have hone : l.named = [Text.trim l.text] := by
    rw [← hpieces, Text.splitTrimmed_eq, Text.trimmedPieces_eq_singleton
      (undivided_of_fold_eq hfold (menu.undivided p hmem))
      (trimChars_of_trim (Text.trim_trim l.text)) hne, List.map_singleton, String.ofList_toList]
  have hlisted : Text.trim l.text ∈ options :=
    known _ (by rw [hone]; exact List.mem_singleton_self _)
  rw [hone, menu.eq_of_fold_eq hmem hlisted hfold]

/-- Options that are listed between separators, with or without blanks around them, are read back,
each once and in the order in which they are first named. -/
theorem chooseMany?_listing (menu : IsMenu options) (l : Listing)
    (known : ∀ o ∈ l.named, o ∈ options) :
    chooseMany? l.text options = some l.named.eraseDups := by
  have hpieces := Listing.splitTrimmed_text menu l known
  have hne : ¬(Text.trim l.text = "" ∨ options = []) := by
    rintro (h | h)
    · rw [h] at hpieces
      exact absurd hpieces.symm (List.cons_ne_nil _ _)
    · exact List.ne_nil_of_mem (known _ List.mem_cons_self) h
  unfold chooseMany?
  dsimp only
  rw [if_neg hne]
  cases hsame : sameOption? (Text.trim l.text) options with
  | some p =>
    dsimp only
    rw [options_of_sameOption? menu l known hsame]
    rfl
  | none =>
    have hcollected : chooseEach? options [] l.named =
        some ([] ++ (l.named.filter fun p => !([] : List String).contains p).eraseDups) :=
      chooseEach?_of_chosen fun o ho => menu.choose?_self (known o ho)
    rw [List.filter_eq_self.2 (by simp), List.nil_append] at hcollected
    rw [hpieces]
    exact hcollected

/-- Four mentions of three options, with different separators and blanks between them. -/
def heatingListing : Listing where
  first := ⟨[' '], "Gas", [], Text.blank_space, Text.blank_nil⟩
  further := [
    (⟨';', by decide⟩, ⟨[], "oil", [' '], Text.blank_nil, Text.blank_space⟩),
    (⟨'|', by decide⟩,
      ⟨['\n', ' '], "wood", [' '], List.all_eq_true.1 (by decide +kernel), Text.blank_space⟩),
    (⟨',', by decide⟩, ⟨[' '], "oil", [], Text.blank_space, Text.blank_nil⟩)]

theorem chooseMany?_listing_heating : heatingListing.text = " Gas;oil |\n wood , oil" ∧
    chooseMany? heatingListing.text ["oil", "Gas", "wood", "gas oil"] =
      some ["Gas", "oil", "wood"] := by
  have menu : IsMenu ["oil", "Gas", "wood", "gas oil"] := by
    have hundivided : ∀ o ∈ ["oil", "Gas", "wood", "gas oil"],
        o.toList.all (!isSeparator ·) = true := by decide +kernel
    exact ⟨by decide +kernel, by decide +kernel, by decide +kernel,
      fun o ho c hc => by simpa using List.all_eq_true.1 (hundivided o ho) c hc,
      by decide +kernel⟩
  have hnamed : heatingListing.named.eraseDups = ["Gas", "oil", "wood"] := by decide +kernel
  refine ⟨by decide +kernel, ?_⟩
  rw [← hnamed]
  exact chooseMany?_listing menu heatingListing (by decide)

end Questionnaire.Answer
