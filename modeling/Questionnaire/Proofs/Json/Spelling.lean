import Questionnaire.Proofs.Json.Path
import Questionnaire.Proofs.Number.Digits
import Questionnaire.Proofs.Number.Scanning
import Questionnaire.Proofs.Text.Characters
import Questionnaire.Proofs.Text.Pieces

/-!
# The spelling of paths

Segments are spelled as a path: keys with points between them, positions in brackets.  Keys that are
plain and positions with few enough digits are read back as they are.  A path without brackets is
read as the keys between its points.

## Main Definitions

* `Path.IsPlain`, `Path.Segment.IsPlain` - the keys and segments that a path can hold
* `Path.spelled` - the path that segments are spelled as
* `Path.Segment.reread` - what a spelled segment is read as

## Main Statements

* `Path.parse_spelled` - a spelled path is read segment by segment
* `Path.parse_spelled_iff` - it is read back exactly if no position has too many digits
* `Path.parse_eq_keys` - a path without brackets is read as its keys
-/

namespace Questionnaire

namespace Path

/-- A key that a path can hold: it is not empty, has no delimiter in it and no blank at its ends. -/
structure IsPlain (name : String) : Prop where
  /-- It has a character. -/
  ne_nil : name.toList ≠ []
  /-- None of its characters ends a key. -/
  not_delimiter : ∀ c ∈ name.toList, isDelimiter c = false
  /-- Nothing is trimmed off. -/
  trimmed : Text.trimChars name.toList = name.toList

instance decidableIsPlain (name : String) : Decidable (IsPlain name) :=
  decidable_of_iff (name.toList ≠ [] ∧ name.toList.all (!isDelimiter ·) = true ∧
    Text.trimChars name.toList = name.toList)
    ⟨fun ⟨hne, hdelimiter, htrim⟩ => ⟨hne, fun c hc => by
        simpa using List.all_eq_true.1 hdelimiter c hc, htrim⟩,
      fun plain => ⟨plain.ne_nil, List.all_eq_true.2 fun c hc => by
        simpa using plain.not_delimiter c hc, plain.trimmed⟩⟩

namespace Segment

/-- A segment that a path can hold. -/
def IsPlain : Segment → Prop
  | .key name => Path.IsPlain name
  | .index _ => True

instance decidableIsPlain : (s : Segment) → Decidable s.IsPlain
  | .key name => inferInstanceAs (Decidable (Path.IsPlain name))
  | .index _ => isTrue trivial

/-- The spelling of a segment at the start of a path. -/
def spelling : Segment → List Char
  | .key name => name.toList
  | .index n => '[' :: (Nat.toDigits 10 n ++ [']'])

/-- The spelling of a segment behind another one. -/
def further : Segment → List Char
  | .key name => '.' :: name.toList
  | .index n => spelling (.index n)

/-- What the spelling of a segment is read as. -/
def reread : Segment → Except Fault Segment
  | .key name => .ok (.key name)
  | .index n => .index <$> positionOf (Nat.toDigits 10 n)

end Segment

/-- The path that segments are spelled as. -/
def spelled : List Segment → String
  | [] => ""
  | s :: rest => String.ofList (s.spelling ++ rest.flatMap Segment.further)

/-! ## Segment by segment -/

theorem position?_toDigits (n : Nat) (rest : List Char) :
    position? (Nat.toDigits 10 n ++ ']' :: rest) = some (Nat.toDigits 10 n, rest) := by
  have hdigits : ∀ c ∈ Nat.toDigits 10 n, Unicode.isDigit c = true :=
    fun c hc => Unicode.isDigit_of_isDigit (isDigit_of_mem_toDigits hc)
  have hbracket : ∀ c ∈ (']' :: rest).head?, Unicode.isDigit c = false := by
    rintro c ⟨⟩
    decide +kernel
  obtain ⟨htake, hdrop⟩ := Numeral.takeWhile_digits hdigits hbracket
  have given : (Nat.toDigits 10 n).isEmpty = false := by simp
  simp only [position?, htake, hdrop, given, Bool.false_eq_true, if_false]

theorem parseFrom_point (fuel : Nat) (rest : List Char) :
    parseFrom (fuel + 1) ('.' :: rest) = parseFrom fuel rest := rfl

/-- A key ends at a delimiter. -/
theorem parseFrom_key (fuel : Nat) {name : String} (plain : IsPlain name) {rest : List Char}
    (ends : ∀ c ∈ rest.head?, isDelimiter c = true) :
    parseFrom (fuel + 1) (name.toList ++ rest) = (.key name :: ·) <$> parseFrom fuel rest := by
  have hkeep : ∀ c ∈ name.toList, (!isDelimiter c) = true := by
    intro c hc
    rw [plain.not_delimiter c hc, Bool.not_false]
  have htake : rest.takeWhile (!isDelimiter ·) = [] := by
    cases rest with
    | nil => rfl
    | cons c rest => exact List.takeWhile_cons_of_neg (by simp [ends c rfl])
  have hdrop : rest.dropWhile (!isDelimiter ·) = rest :=
    Text.dropWhile_of_head fun c hc => by simp [ends c hc]
  have hkey : keySegment name.toList = [.key name] := by
    have given : name.toList.isEmpty = false := by simpa using plain.ne_nil
    simp only [keySegment, plain.trimmed, given, String.ofList_toList]
    rfl
  have hread : keySegment ((name.toList ++ rest).takeWhile (!isDelimiter ·)) = [.key name] := by
    rw [List.takeWhile_append_of_pos hkeep, htake, List.append_nil, hkey]
  have hbehind : (name.toList ++ rest).dropWhile (!isDelimiter ·) = rest := by
    rw [List.dropWhile_append_of_pos hkeep, hdrop]
  obtain ⟨c, cs, hname⟩ := List.exists_cons_of_ne_nil plain.ne_nil
  have hc : isDelimiter c = false := plain.not_delimiter c (by simp [hname])
  rw [hname, List.cons_append] at hread hbehind ⊢
  rw [parseFrom, if_neg (Bool.eq_false_iff.1 hc), hread, hbehind]
  cases parseFrom fuel rest <;> rfl

/-- The reader goes from one segment to the next. -/
theorem parseFrom_spelling (fuel : Nat) {s : Segment} (plain : s.IsPlain) {rest : List Char}
    (ends : ∀ c ∈ rest.head?, isDelimiter c = true) : parseFrom (fuel + 1) (s.spelling ++ rest) =
      (do let t ← s.reread; let ts ← parseFrom fuel rest; pure (t :: ts)) := by
  cases s with
  | key name =>
    refine (parseFrom_key fuel plain ends).trans ?_
    cases parseFrom fuel rest <;> rfl
  | index n =>
    have hread : (Nat.toDigits 10 n ++ [']']) ++ rest = Nat.toDigits 10 n ++ ']' :: rest := by simp
    rw [Segment.spelling, List.cons_append, hread, parseFrom, if_pos (by decide), if_pos rfl,
      position?_toDigits]
    cases h : positionOf (Nat.toDigits 10 n) <;> simp only [Segment.reread, h] <;> rfl

/-- A segment behind another one begins with a delimiter. -/
theorem isDelimiter_of_head_further (segments : List Segment) :
    ∀ c ∈ (segments.flatMap Segment.further).head?, isDelimiter c = true := by
  cases segments with
  | nil => nofun
  | cons s rest =>
    cases s <;> rintro c ⟨⟩ <;> decide

theorem parseFrom_further {segments : List Segment} (plain : ∀ s ∈ segments, s.IsPlain) {fuel : Nat}
    (hfuel : (segments.flatMap Segment.further).length < fuel) :
    parseFrom fuel (segments.flatMap Segment.further) = segments.mapM Segment.reread := by
  induction segments generalizing fuel with
  | nil =>
    obtain ⟨fuel, rfl⟩ := Nat.exists_eq_add_of_le' (show 1 ≤ fuel from hfuel)
    rfl
  | cons s rest ih =>
    obtain ⟨hs, hrest⟩ := List.forall_mem_cons.1 plain
    rw [List.flatMap_cons, List.length_append] at hfuel
    rw [List.mapM_cons, List.flatMap_cons]
    cases s with
    | key name =>
      have hlength : 0 < name.toList.length := List.length_pos_of_ne_nil hs.ne_nil
      simp only [Segment.further, List.length_cons] at hfuel
      obtain ⟨fuel, rfl⟩ := Nat.exists_eq_add_of_le' (show 2 ≤ fuel by omega)
      have hnext := parseFrom_spelling fuel hs (isDelimiter_of_head_further rest)
      rw [ih hrest (by omega)] at hnext
      exact hnext
    | index n =>
      simp only [Segment.further, Segment.spelling, List.length_cons] at hfuel
      obtain ⟨fuel, rfl⟩ := Nat.exists_eq_add_of_le' (show 1 ≤ fuel by omega)
      have hnext := parseFrom_spelling fuel hs (isDelimiter_of_head_further rest)
      rw [ih hrest (by omega)] at hnext
      exact hnext

/-- A spelled path is read segment by segment. -/
theorem parse_spelled {segments : List Segment} (plain : ∀ s ∈ segments, s.IsPlain) :
    parse (spelled segments) = segments.mapM Segment.reread := by
  cases segments with
  | nil => rfl
  | cons s rest =>
    obtain ⟨hs, hrest⟩ := List.forall_mem_cons.1 plain
    have hpos : 0 < s.spelling.length := by
      cases s with
      | key name => exact List.length_pos_of_ne_nil hs.ne_nil
      | index n => exact Nat.succ_pos _
    rw [List.mapM_cons, spelled, parse, String.toList_ofList,
      parseFrom_spelling _ hs (isDelimiter_of_head_further rest), parseFrom_further hrest]
    rw [List.length_append]
    omega

/-! ## Positions -/

theorem positionOf_toDigits_eq_ok_iff {n : Nat} :
    positionOf (Nat.toDigits 10 n) = .ok n ↔ n < 10 ^ maxDigits := by
  have hlength : (Nat.toDigits 10 n).length ≤ maxDigits ↔ n < 10 ^ maxDigits :=
    Nat.length_toDigits_le_iff (by decide) (by decide)
  rw [← hlength, positionOf, digitsValue_toDigits]
  split
  · next long => exact iff_of_false nofun (Nat.not_le_of_lt long)
  · next short => exact iff_of_true rfl (Nat.le_of_not_lt short)

theorem Segment.reread_eq_ok_iff {s : Segment} :
    s.reread = .ok s ↔ ∀ n, s = .index n → n < 10 ^ maxDigits := by
  cases s with
  | key name => exact iff_of_true rfl nofun
  | index n =>
    rw [reread, Outcome.map_eq_ok_iff]
    constructor
    · rintro ⟨m, hm, ⟨⟩⟩ _ ⟨⟩
      exact positionOf_toDigits_eq_ok_iff.1 hm
    · intro short
      exact ⟨n, positionOf_toDigits_eq_ok_iff.2 (short n rfl), rfl⟩

/-- Segments are read back from their spelling exactly if no position has too many digits. -/
theorem parse_spelled_iff {segments : List Segment} (plain : ∀ s ∈ segments, s.IsPlain) :
    parse (spelled segments) = .ok segments ↔ ∀ n, .index n ∈ segments → n < 10 ^ maxDigits := by
  rw [parse_spelled plain, Outcome.mapM_eq_ok_self_iff]
  constructor
  · intro reread n hn
    exact Segment.reread_eq_ok_iff.1 (reread _ hn) n rfl
  · intro short s hs
    apply Segment.reread_eq_ok_iff.2
    rintro n rfl
    exact short n hs

/-- Two keys, a position and a key are read back. -/
theorem parse_spelled_iff_addresses :
    let segments : List Segment := [.key "insured", .key "addresses", .index 0, .key "city"]
    (∀ s ∈ segments, s.IsPlain) ∧ spelled segments = "insured.addresses[0].city" ∧
      parse (spelled segments) = .ok segments := by
  have plain : ∀ s ∈ [Segment.key "insured", .key "addresses", .index 0, .key "city"],
      s.IsPlain := by decide +kernel
  refine ⟨plain, rfl, (parse_spelled_iff plain).2 ?_⟩
  intro n hn
  obtain rfl : n = 0 := by simpa using hn
  exact Nat.pow_pos (by decide)

/-- The least position with too many digits is refused. -/
theorem parse_spelled_long : (∀ s ∈ [Segment.index (10 ^ maxDigits)], s.IsPlain) ∧
    parse (spelled [.index (10 ^ maxDigits)]) ≠ .ok [.index (10 ^ maxDigits)] := by
  have plain : ∀ s ∈ [Segment.index (10 ^ maxDigits)], s.IsPlain :=
    List.forall_mem_singleton.2 trivial
  refine ⟨plain, ?_⟩
  rw [Ne, parse_spelled plain, Outcome.mapM_eq_ok_self_iff]
  intro reread
  exact Nat.lt_irrefl _ (Segment.reread_eq_ok_iff.1 (reread _ List.mem_cons_self) _ rfl)

/-! ## Paths without brackets -/

/-- Keys end at points only, where no bracket stands. -/
theorem parseFrom_eq_keys {cs : List Char} (h : ∀ c ∈ cs, isDelimiter c = (c == '.')) {fuel : Nat}
    (hfuel : cs.length < fuel) :
    parseFrom fuel cs = .ok ((Text.splitWhere (· == '.') cs).flatMap keySegment) := by
  induction hlength : cs.length using Nat.strongRecOn generalizing cs fuel with
  | _ n ih =>
  subst hlength
  obtain ⟨fuel, rfl⟩ := Nat.exists_eq_add_of_le' (show 1 ≤ fuel by omega)
  cases cs with
  | nil => rfl
  | cons c rest =>
    rw [List.length_cons] at hfuel ih
    by_cases hc : c = '.'
    · subst hc
      have hrest : rest.length < fuel := by omega
      rw [parseFrom_point, ih rest.length (Nat.lt_succ_self _) (List.forall_mem_cons.1 h).2 hrest rfl]
      rfl
    · have hkey : isDelimiter c = false := by
        rw [h c List.mem_cons_self]
        simpa using hc
      have hsplit := List.takeWhile_append_dropWhile (p := (!isDelimiter ·)) (l := c :: rest)
      have hpoint : ∀ d ∈ (c :: rest).takeWhile (!isDelimiter ·), (d == '.') = false := by
        intro d hd
        rw [← h d ((List.takeWhile_sublist _).subset hd)]
        simpa using List.mem_takeWhile_imp hd
      have hle : ((c :: rest).dropWhile (!isDelimiter ·)).length ≤ rest.length := by
        rw [List.dropWhile_cons_of_pos (by simp [hkey])]
        exact (List.dropWhile_sublist _).length_le
      have hend := List.head?_dropWhile_not (!isDelimiter ·) (c :: rest)
      rw [parseFrom, if_neg (Bool.eq_false_iff.1 hkey)]
      generalize (c :: rest).takeWhile (!isDelimiter ·) = piece at hsplit hpoint ⊢
      generalize (c :: rest).dropWhile (!isDelimiter ·) = behind at hsplit hle hend ⊢
      have hbehind := ih behind.length (Nat.lt_succ_of_le hle)
        (fun d hd => h d (hsplit ▸ List.mem_append_right piece hd))
        (by omega : behind.length < fuel) rfl
      rw [hbehind, ← hsplit]
      cases behind with
      | nil =>
        rw [List.append_nil, Text.splitWhere_eq_singleton hpoint]
        show Except.ok (keySegment piece ++ []) = .ok ([piece].flatMap keySegment)
        simp
      | cons d behind =>
        have hd : (d == '.') = true := by
          rw [← h d (hsplit ▸ List.mem_append_right piece List.mem_cons_self)]
          simpa using hend
        rw [Text.splitWhere_append_cons (p := (· == '.')) hd, Text.splitWhere_eq_singleton hpoint,
          Text.splitWhere, if_pos hd]
        rfl

/-- A path without brackets is read as the keys between its points. -/
theorem parse_eq_keys {path : String} (h : ∀ c ∈ path.toList, isDelimiter c = (c == '.')) :
    parse path = .ok (keys path) :=
  parseFrom_eq_keys h (Nat.lt_succ_self _)

end Path

end Questionnaire
