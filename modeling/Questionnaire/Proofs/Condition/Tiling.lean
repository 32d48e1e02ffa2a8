import Questionnaire.Proofs.Condition.Slices

/-!
# Texts taken apart into tokens

From the left, a text is taken apart into blanks and slices of tokens, each slice as long as it can
be.  This goes on to the end of the text, or to the first position where neither a blank nor a slice
starts, and there the text is refused.

## Main Definitions

* `Condition.Tiles` - a text is taken apart into blanks and slices up to some place
* `Condition.Stuck` - neither a blank nor a slice starts a text
* `Condition.marks` - the positions of tokens and of the end of their text
* `Condition.Tiled` - the tokens of a text stand in it one behind the other

## Main Statements

* `Condition.tiles_or_stuck` - a text is taken apart to its end, or refused where it is stuck
* `Condition.tokens_eq_ok_iff` - the tokens of a text are those that it is taken apart into
* `Condition.Tiles.tiled` - the tokens that a text is taken apart into stand in it in a row

## Design Notes

Every text is taken apart in this way, whatever the reader does, so what the reader gives follows
from what it does along the pieces.
-/

namespace Questionnaire.Condition

/-- A text that starts at a position is taken apart into blanks and the slices of tokens, up to where
`rest` begins. -/
inductive Tiles : Nat → List Char → List Token → List Char → Prop where
  /-- Nothing more is taken. -/
  | stop (position : Nat) (rest : List Char) : Tiles position rest [] rest
  /-- A blank, and what is taken behind it. -/
  | blank {position : Nat} {c : Char} {cs rest : List Char} {ts : List Token}
    (h : Unicode.isBlank c = true) (more : Tiles (position + 1) cs ts rest) :
    Tiles position (c :: cs) ts rest
  /-- The longest slice, and what is taken behind it. -/
  | token {position : Nat} {slice cs rest : List Char} {l : Lexeme} {ts : List Token}
    (longest : Longest slice cs l) (more : Tiles (position + slice.length) cs ts rest) :
    Tiles position (slice ++ cs) (⟨l, position⟩ :: ts) rest

/-- Neither a blank nor a slice starts the text that begins with `c`. -/
structure Stuck (c : Char) (cs : List Char) : Prop where
  /-- The first character is not blank. -/
  not_blank : Unicode.isBlank c = false
  /-- No slice starts with it. -/
  not_isSlice (slice rest : List Char) (l : Lexeme) (h : c :: cs = slice ++ rest) :
    ¬ IsSlice slice l

/-- The positions of tokens, and that of the end of their text, which counts as a last token. -/
def marks (text : String) (ts : List Token) : List Nat :=
  ts.map (·.position) ++ [text.toList.length]

/-- Every text is taken apart up to its end or to where it is stuck. -/
theorem exists_tiles (position : Nat) (cs : List Char) : ∃ ts rest, Tiles position cs ts rest ∧
    ∀ c cs', rest = c :: cs' → Stuck c cs' := by
  induction hlength : cs.length using Nat.strongRecOn generalizing position cs with
  | _ n ih =>
  subst hlength
  cases cs with
  | nil => exact ⟨[], [], .stop position [], nofun⟩
  | cons c cs =>
    by_cases hc : Unicode.isBlank c = true
    · obtain ⟨ts, rest, tiles, stuck⟩ := ih cs.length (Nat.lt_succ_self _) (position + 1) cs rfl
      exact ⟨ts, rest, .blank hc tiles, stuck⟩
    · cases hread : lexeme? (c :: cs) with
      | none =>
        refine ⟨[], c :: cs, .stop position _, ?_⟩
        rintro _ _ ⟨⟩
        exact ⟨by simpa using hc, lexeme?_eq_none_iff.1 hread⟩
      | some p =>
        obtain ⟨l, behind⟩ := p
        obtain ⟨slice, hcs, longest⟩ := lexeme?_eq_some_iff.1 hread
        obtain ⟨d, ds, rfl, -⟩ := longest.isSlice.exists_cons
        have hlt : behind.length < (c :: cs).length := by
          rw [hcs, List.length_append, List.length_cons]
          omega
        obtain ⟨ts, rest, tiles, stuck⟩ :=
          ih behind.length hlt (position + (d :: ds).length) behind rfl
        exact ⟨⟨l, position⟩ :: ts, rest, hcs ▸ .token longest tiles, stuck⟩

namespace Tiles

variable {position : Nat} {cs rest : List Char} {ts : List Token}

theorem length_le (tiles : Tiles position cs ts rest) : rest.length ≤ cs.length := by
  induction tiles with
  | stop => exact le_rfl
  | blank h more ih =>
    rw [List.length_cons]
    omega
  | token longest more ih =>
    rw [List.length_append]
    omega

/-- The reader goes along the pieces that a text is taken apart into. -/
theorem scan_eq (tiles : Tiles position cs ts rest) (text : String) {fuel : Nat}
    (hfuel : cs.length < fuel) : ∃ fuel', rest.length < fuel' ∧ scan text fuel position cs =
      (ts ++ ·) <$> scan text fuel' (position + (cs.length - rest.length)) rest := by
  induction tiles generalizing fuel with
  | stop position rest =>
    refine ⟨fuel, hfuel, ?_⟩
    rw [Nat.sub_self, Nat.add_zero]
    cases scan text fuel position rest <;> rfl
  | @blank position c cs rest ts h more ih =>
    obtain ⟨fuel, rfl⟩ := Nat.exists_eq_add_of_le' (show 1 ≤ fuel by omega)
    rw [List.length_cons] at hfuel
    obtain ⟨fuel', hfuel', hscan⟩ := ih (by omega : cs.length < fuel)
    have hle := more.length_le
    have hposition : position + ((c :: cs).length - rest.length) =
        position + 1 + (cs.length - rest.length) := by
      rw [List.length_cons]
      omega
    refine ⟨fuel', hfuel', ?_⟩
    rw [scan_blank text fuel position cs h, hscan, hposition]
  | @token position slice cs rest l ts longest more ih =>
    obtain ⟨fuel, rfl⟩ := Nat.exists_eq_add_of_le' (show 1 ≤ fuel by omega)
    obtain ⟨c, slice, rfl, hc⟩ := longest.isSlice.exists_cons
    have hread := lexeme?_eq_some_iff.2 ⟨_, rfl, longest⟩
    rw [List.cons_append] at hread hfuel ⊢
    rw [List.length_cons, List.length_append] at hfuel
    obtain ⟨fuel', hfuel', hscan⟩ := ih (by omega : cs.length < fuel)
    have hle := more.length_le
    have hlength : (c :: (slice ++ cs)).length = (c :: slice).length + cs.length := by
      simp only [List.length_cons, List.length_append]
      omega
    have hslice : (c :: (slice ++ cs)).length - cs.length = (c :: slice).length := by omega
    have hposition : position + ((c :: (slice ++ cs)).length - rest.length) =
        position + (c :: slice).length + (cs.length - rest.length) := by omega
    refine ⟨fuel', hfuel', ?_⟩
    rw [scan_cons text fuel position hc hread, hslice, hscan, hposition]
    cases scan text fuel' (position + (c :: slice).length + (cs.length - rest.length)) rest <;> rfl

/-- The positions of tokens increase, and none is behind the place up to which a text is taken
apart. -/
theorem increasing (tiles : Tiles position cs ts rest) :
    (ts.map (·.position) ++ [position + (cs.length - rest.length)]).Pairwise (· < ·) ∧
      ∀ p ∈ ts.map (·.position) ++ [position + (cs.length - rest.length)], position ≤ p := by
  induction tiles with
  | stop position rest => simp
  | @blank position c cs rest ts h more ih =>
    have hle := more.length_le
    have hposition : position + ((c :: cs).length - rest.length) =
        position + 1 + (cs.length - rest.length) := by
      rw [List.length_cons]
      omega
    rw [hposition]
    exact ⟨ih.1, fun p hp => Nat.le_of_succ_le (ih.2 p hp)⟩
  | @token position slice cs rest l ts longest more ih =>
    have hle := more.length_le
    have hposition : position + ((slice ++ cs).length - rest.length) =
        position + slice.length + (cs.length - rest.length) := by
      rw [List.length_append]
      omega
    have hpos : 0 < slice.length := by
      obtain ⟨c, slice, rfl, -⟩ := longest.isSlice.exists_cons
      exact Nat.succ_pos _
    rw [hposition, List.map_cons, List.cons_append, List.pairwise_cons, List.forall_mem_cons]
    have hbehind (p : Nat) (hp : p ∈ ts.map (·.position) ++
        [position + slice.length + (cs.length - rest.length)]) : position < p :=
      lt_of_lt_of_le (Nat.lt_add_of_pos_right hpos) (ih.2 p hp)
    exact ⟨⟨hbehind, ih.1⟩, le_rfl, fun p hp => (hbehind p hp).le⟩

/-- At the position of each token stands its slice. -/
theorem exists_slice (tiles : Tiles position cs ts rest) {t : Token} (ht : t ∈ ts) :
    ∃ slice behind, cs.drop (t.position - position) = slice ++ behind ∧
      Longest slice behind t.lexeme := by
  induction tiles with
  | stop => cases ht
  | @blank position c cs rest ts h more ih =>
    obtain ⟨slice, behind, hdrop, longest⟩ := ih ht
    have hle := more.increasing.2 t.position
      (List.mem_append_left _ (List.mem_map_of_mem ht))
    have hnext : t.position - position = t.position - (position + 1) + 1 := by omega
    exact ⟨slice, behind, by rw [hnext, List.drop_succ_cons, hdrop], longest⟩
  | @token position slice cs rest l ts longest more ih =>
    rcases List.mem_cons.1 ht with rfl | ht
    · exact ⟨slice, cs, by simp, longest⟩
    · obtain ⟨slice', behind, hdrop, longest'⟩ := ih ht
      have hle := more.increasing.2 t.position
        (List.mem_append_left _ (List.mem_map_of_mem ht))
      have hnext : t.position - position =
          slice.length + (t.position - (position + slice.length)) := by omega
      exact ⟨slice', behind, by rw [hnext, List.drop_length_add_append, hdrop], longest'⟩

end Tiles

/-- The tokens of a text stand in it one behind the other. -/
structure Tiled (text : String) (ts : List Token) : Prop where
  /-- The text consists of their slices and blanks. -/
  tiles : Tiles 0 text.toList ts []
  /-- Their positions increase, up to the end of the text. -/
  increasing : (marks text ts).Pairwise (· < ·)
  /-- Each is written at its position, by the longest slice there. -/
  exists_slice : ∀ t ∈ ts, ∃ slice behind, text.toList.drop t.position = slice ++ behind ∧
    slice ≠ [] ∧ Longest slice behind t.lexeme

theorem Tiles.tiled {text : String} {ts : List Token} (tiles : Tiles 0 text.toList ts []) :
    Tiled text ts := by
  refine ⟨tiles, ?_, ?_⟩
  · simpa [marks] using tiles.increasing.1
  · intro t ht
    obtain ⟨slice, behind, hdrop, longest⟩ := tiles.exists_slice ht
    refine ⟨slice, behind, hdrop, ?_, longest⟩
    obtain ⟨c, cs, rfl, -⟩ := longest.isSlice.exists_cons
    exact List.cons_ne_nil c cs

theorem Tiled.le_of_mem_marks {text : String} {ts : List Token} (tiled : Tiled text ts) {p : Nat}
    (hp : p ∈ marks text ts) : p ≤ text.toList.length := by
  have before := (List.pairwise_append.1 tiled.increasing).2.2
  rcases List.mem_append.1 hp with hp | hp
  · exact (before p hp _ List.mem_cons_self).le
  · exact (List.mem_singleton.1 hp).le

section Tokens

variable {text : String}

theorem scan_of_tiles {ts : List Token} (tiles : Tiles 0 text.toList ts []) {fuel : Nat}
    (hfuel : text.toList.length < fuel) : scan text fuel 0 text.toList = .ok ts := by
  obtain ⟨fuel, hfuel, hscan⟩ := tiles.scan_eq text hfuel
  obtain ⟨fuel, rfl⟩ := Nat.exists_eq_add_of_le' (show 1 ≤ fuel from hfuel)
  rw [hscan, scan]
  exact congrArg Except.ok (List.append_nil ts)

theorem scan_of_stuck {ts : List Token} {c : Char} {rest : List Char}
    (tiles : Tiles 0 text.toList ts (c :: rest)) (stuck : Stuck c rest) {fuel : Nat}
    (hfuel : text.toList.length < fuel) : scan text fuel 0 text.toList =
      .error ⟨text, .unexpectedCharacter c, text.toList.length - (c :: rest).length⟩ := by
  obtain ⟨fuel, hfuel, hscan⟩ := tiles.scan_eq text hfuel
  obtain ⟨fuel, rfl⟩ := Nat.exists_eq_add_of_le' (show 1 ≤ fuel by omega)
  rw [hscan, scan, if_neg (Bool.eq_false_iff.1 stuck.not_blank),
    lexeme?_eq_none_iff.2 stuck.not_isSlice, Nat.zero_add]
  rfl

/-- The number of characters is fuel enough. -/
theorem scan_eq_tokens {fuel : Nat} (hfuel : text.toList.length < fuel) :
    scan text fuel 0 text.toList = tokens text := by
  have enough := Nat.lt_succ_self text.toList.length
  obtain ⟨ts, rest, tiles, stuck⟩ := exists_tiles 0 text.toList
  cases rest with
  | nil => exact (scan_of_tiles tiles hfuel).trans (scan_of_tiles tiles enough).symm
  | cons c rest =>
    have stuck := stuck c rest rfl
    exact (scan_of_stuck tiles stuck hfuel).trans (scan_of_stuck tiles stuck enough).symm

/-- A text is taken apart to its end, or is stuck and refused there. -/
theorem tiles_or_stuck (text : String) :
    (∃ ts, Tiles 0 text.toList ts [] ∧ tokens text = .ok ts) ∨
      ∃ ts c rest, Tiles 0 text.toList ts (c :: rest) ∧ Stuck c rest ∧ tokens text =
        .error ⟨text, .unexpectedCharacter c, text.toList.length - (c :: rest).length⟩ := by
  have enough := Nat.lt_succ_self text.toList.length
  obtain ⟨ts, rest, tiles, stuck⟩ := exists_tiles 0 text.toList
  cases rest with
  | nil => exact .inl ⟨ts, tiles, scan_of_tiles tiles enough⟩
  | cons c rest =>
    have stuck := stuck c rest rfl
    exact .inr ⟨ts, c, rest, tiles, stuck, scan_of_stuck tiles stuck enough⟩

/-- The tokens of a text are those that all of it is taken apart into. -/
theorem tokens_eq_ok_iff {ts : List Token} :
    tokens text = .ok ts ↔ Tiles 0 text.toList ts [] := by
  refine ⟨fun h => ?_, fun tiles => scan_of_tiles tiles (Nat.lt_succ_self _)⟩
  obtain ⟨ts', tiles, htokens⟩ | ⟨ts', c, rest, -, -, htokens⟩ := tiles_or_stuck text
  · cases h.symm.trans htokens
    exact tiles
  · cases h.symm.trans htokens

end Tokens

end Questionnaire.Condition
