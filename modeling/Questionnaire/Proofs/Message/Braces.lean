import Questionnaire.Proofs.Message.Plain

/-!
# Braces in messages

Neither quoting nor laying out a text adds braces, except as the filling of a layout.  A layout with
a brace for its filling has to close or open it again, and there is no place for that after the
filling.

## Main Definitions

* `Pattern.BraceFree` - a text without braces
* `Pattern.net` - the opening braces of a text less its closing ones

## Main Statements

* `Text.braceFree_quote`, `Text.braceFree_escapeNonAscii` - quoting adds no braces
* `Layout.of_parse?` - where the filling comes from and where a brace may stand
* `Layout.braceFree_value` - a balanced layout adds no braces
-/

namespace Questionnaire

namespace Pattern

/-- An opening or a closing brace. -/
def IsBrace (c : Char) : Prop := c = '\x7b' ∨ c = '\x7d'

/-- A text without braces. -/
def BraceFree (cs : List Char) : Prop := ∀ c ∈ cs, ¬IsBrace c

/-- The opening braces of a text less its closing ones. -/
def net (cs : List Char) : ℤ := cs.count '\x7b' - cs.count '\x7d'

instance (c : Char) : Decidable (IsBrace c) := inferInstanceAs (Decidable (_ ∨ _))

instance (cs : List Char) : Decidable (BraceFree cs) := List.decidableBAll (¬IsBrace ·) cs

variable {c : Char} {cs : List Char}

@[simp] theorem net_nil : net [] = 0 := rfl

@[simp] theorem net_open (cs : List Char) : net ('\x7b' :: cs) = net cs + 1 := by
  simp [net]
  omega

@[simp] theorem net_close (cs : List Char) : net ('\x7d' :: cs) = net cs - 1 := by
  simp [net]
  omega

theorem net_cons (hc : ¬IsBrace c) (cs : List Char) : net (c :: cs) = net cs := by
  obtain ⟨hopen, hclose⟩ := not_or.1 hc
  rw [net, net, List.count_cons_of_ne hopen, List.count_cons_of_ne hclose]

@[simp] theorem net_append (cs ds : List Char) : net (cs ++ ds) = net cs + net ds := by
  simp [net]
  omega

theorem net_of_braceFree (h : BraceFree cs) : net cs = 0 := by
  induction cs with
  | nil => rfl
  | cons c cs ih =>
    obtain ⟨hc, hcs⟩ := List.forall_mem_cons.1 h
    rw [net_cons hc, ih hcs]

theorem BraceFree.append {ds : List Char} (hcs : BraceFree cs) (hds : BraceFree ds) :
    BraceFree (cs ++ ds) := List.forall_mem_append.2 ⟨hcs, hds⟩

theorem braceFree_replicate (hc : ¬IsBrace c) (n : Nat) : BraceFree (List.replicate n c) := by
  intro d hd
  rwa [List.eq_of_mem_replicate hd]

theorem not_isBrace_of_isDigit (h : Unicode.isDigit c = true) : ¬IsBrace c := by
  rintro (rfl | rfl) <;> exact absurd h (by decide)

end Pattern

/-! ## Quoted texts -/

namespace Text

open Pattern

variable {c : Char} {cs : List Char} {s : String}

theorem not_isBrace_digitChar : ∀ d < 16, ¬IsBrace (Nat.digitChar d) := by
  decide

theorem braceFree_toDigits (n : Nat) : BraceFree (Nat.toDigits 16 n) := by
  suffices hcore : ∀ fuel n ds, BraceFree ds → BraceFree (Nat.toDigitsCore 16 fuel n ds) from
    hcore _ _ _ (List.forall_mem_nil _)
  intro fuel
  induction fuel with
  | zero => exact fun _ _ hds => hds
  | succ fuel ih =>
    intro n ds hds
    have hdigit := not_isBrace_digitChar (n % 16) (Nat.mod_lt n (by decide))
    have hnext : BraceFree (Nat.digitChar (n % 16) :: ds) := List.forall_mem_cons.2 ⟨hdigit, hds⟩
    rw [Nat.toDigitsCore]
    split
    · exact hnext
    · exact ih _ _ hnext

theorem braceFree_escapeCode (c : Char) : BraceFree (escapeCode c) := by
  have hhex : ∀ width n, BraceFree (hex width n) := by
    intro width n
    exact (braceFree_replicate (by decide) _).append (braceFree_toDigits n)
  unfold escapeCode
  dsimp only
  split_ifs <;>
  · refine List.forall_mem_cons.2 ⟨by decide, List.forall_mem_cons.2 ⟨by decide, hhex _ _⟩⟩

theorem braceFree_quoteChar {q : Char} (hc : ¬IsBrace c) : BraceFree (quoteChar q c) := by
  unfold quoteChar
  split_ifs
  · exact List.forall_mem_cons.2 ⟨by decide, List.forall_mem_singleton.2 hc⟩
  · decide
  · decide
  · decide
  · exact List.forall_mem_singleton.2 hc
  · exact braceFree_escapeCode c

theorem braceFree_quote (h : BraceFree s.toList) : BraceFree (quote s).toList := by
  have hmark : ¬IsBrace (quoteMark s.toList) := by
    unfold quoteMark
    split_ifs <;> decide
  have hbody : BraceFree (s.toList.flatMap (quoteChar (quoteMark s.toList))) :=
    List.forall_mem_flatMap.2 fun c hc => braceFree_quoteChar (h c hc)
  rw [quote, String.toList_ofList]
  exact BraceFree.append (List.forall_mem_cons.2 ⟨hmark, hbody⟩) (List.forall_mem_singleton.2 hmark)

theorem braceFree_escapeNonAscii (h : BraceFree s.toList) :
    BraceFree (escapeNonAscii s).toList := by
  rw [escapeNonAscii, String.toList_ofList]
  refine List.forall_mem_flatMap.2 fun c hc => ?_
  split
  · exact List.forall_mem_singleton.2 (h c hc)
  · exact braceFree_escapeCode c

end Text

/-! ## Layouts -/

namespace Layout

open Pattern

variable {numeric : Bool} {c : Char} {cs rest : List Char} {l : Layout}

theorem mem_readOne (wanted : List Char) (hc : c ∈ cs) (hbrace : IsBrace c)
    (h : BraceFree wanted) : c ∈ (readOne wanted cs).2 := by
  cases cs with
  | nil => cases hc
  | cons d cs =>
    rw [readOne]
    split
    · next hd =>
      rcases List.mem_cons.1 hc with rfl | hc
      · exact absurd hbrace (h c (List.contains_iff_mem.1 hd))
      · exact hc
    · exact hc

theorem mem_readCount? {n : Option Nat} (hc : c ∈ cs) (hbrace : IsBrace c)
    (h : readCount? cs = some (n, rest)) : c ∈ rest := by
  unfold readCount? at h
  dsimp only at h
  split at h
  · cases h
    exact hc
  · split at h
    · cases h
    · cases h
      rw [← List.takeWhile_append_dropWhile (p := Unicode.isDigit) (l := cs)] at hc
      rcases List.mem_append.1 hc with hc | hc
      · exact absurd hbrace (not_isBrace_of_isDigit (List.mem_takeWhile_imp hc))
      · exact hc

theorem mem_readGrouping? {g : Option Char} (hc : c ∈ cs) (hbrace : IsBrace c)
    (h : readGrouping? cs = some (g, rest)) : c ∈ rest := by
  have hmarks : c ≠ ',' ∧ c ≠ '_' := by
    rcases hbrace with rfl | rfl <;> decide
  unfold readGrouping? at h
  split at h
  · cases h
  · cases h
  · cases h
    exact (List.mem_cons.1 hc).resolve_left hmarks.1
  · cases h
    exact (List.mem_cons.1 hc).resolve_left hmarks.2
  · cases h
    exact hc

theorem mem_readPrecision? {n : Option Nat} (hc : c ∈ cs) (hbrace : IsBrace c)
    (h : readPrecision? cs = some (n, rest)) : c ∈ rest := by
  have hpoint : c ≠ '.' := by
    rcases hbrace with rfl | rfl <;> decide
  unfold readPrecision? at h
  split at h
  · split at h
    · next hcount =>
      cases h
      exact mem_readCount? ((List.mem_cons.1 hc).resolve_left hpoint) hbrace hcount
    · cases h
  · cases h
    exact hc

theorem form_of_readForm? {form : Option Char} (hc : c ∈ cs) (h : readForm? cs = some form) :
    form = some c := by
  unfold readForm? at h
  split at h
  · cases hc
  · cases h
    rw [List.mem_singleton.1 hc]
  · cases h

/-- The filling comes from the alignment, and a brace after the alignment is the form. -/
theorem of_parse? (h : parse? numeric cs = some l) :
    (l.fill = '0' ∨ l.fill = ' ' ∨ (readAlignment cs).1 = some l.fill) ∧
      ∀ c ∈ (readAlignment cs).2.2, IsBrace c → l.form = some c := by
  unfold parse? at h
  dsimp only at h
  obtain ⟨⟨width, rest⟩, hwidth, h⟩ := Option.bind_eq_some_iff.1 h
  obtain ⟨⟨grouping, rest'⟩, hgrouping, h⟩ := Option.bind_eq_some_iff.1 h
  obtain ⟨⟨precision, rest''⟩, hprecision, h⟩ := Option.bind_eq_some_iff.1 h
  obtain ⟨form, hform, h⟩ := Option.bind_eq_some_iff.1 h
  split at h
  · cases h
    refine ⟨?_, fun c hc hbrace => ?_⟩
    · dsimp only
      cases (readAlignment cs).1 with
      | some f => exact .inr (.inr rfl)
      | none => exact (ite_eq_or_eq _ _ _).imp_right .inl
    · have hsign := mem_readOne ['+', '-', ' '] hc hbrace (by decide)
      have hzero := mem_readOne ['z'] hsign hbrace (by decide)
      have hvariant := mem_readOne ['#'] hzero hbrace (by decide)
      have hlead := mem_readOne ['0'] hvariant hbrace (by decide)
      have hwidth' := mem_readCount? (by split; exacts [hlead, hvariant]) hbrace hwidth
      have hprecision' := mem_readPrecision? (mem_readGrouping? hwidth' hbrace hgrouping) hbrace
        hprecision
      exact form_of_readForm? hprecision' hform
  · cases h

theorem fill_of_readAlignment {f : Char} (h : (readAlignment cs).1 = some f) :
    ∃ a, ¬IsBrace a ∧ cs = f :: a :: (readAlignment cs).2.2 := by
  unfold readAlignment at h ⊢
  split at h
  · split at h
    · next a rest x al halign =>
      cases h
      refine ⟨a, ?_, ?_⟩
      · rintro (rfl | rfl) <;> cases halign
      · rfl
    · split at h <;> cases h
  · split at h <;> cases h
  · cases h

/-- The filling of a layout with as many opening as closing braces is a brace only if the form is a
brace as well. -/
theorem fill_of_net (h : parse? numeric cs = some l) (hnet : net cs = 0)
    (hform : ∀ c, IsBrace c → l.form ≠ some c) : ¬IsBrace l.fill := by
  intro hfill
  obtain ⟨hsource, hrest⟩ := of_parse? h
  have hrest : BraceFree (readAlignment cs).2.2 :=
    fun c hc hbrace => hform c hbrace (hrest c hc hbrace)
  rcases hsource with hzero | hspace | hread
  · rw [hzero] at hfill
    exact absurd hfill (by decide)
  · rw [hspace] at hfill
    exact absurd hfill (by decide)
  · obtain ⟨a, ha, hcs⟩ := fill_of_readAlignment hread
    rw [hcs] at hnet
    rcases hfill with hopen | hclose
    · rw [hopen, net_open, net_cons ha, net_of_braceFree hrest] at hnet
      cases hnet
    · rw [hclose, net_close, net_cons ha, net_of_braceFree hrest] at hnet
      cases hnet

theorem braceFree_padded {n : Nat} {head body : List Char} (hfill : ¬IsBrace l.fill)
    (hhead : BraceFree head) (hbody : BraceFree body) : BraceFree (l.padded n head body) := by
  have hfilling := braceFree_replicate hfill
  unfold padded
  cases l.align with
  | left => exact ((hhead.append hbody).append (hfilling n))
  | right => exact (((hfilling n).append hhead).append hbody)
  | center => exact ((((hfilling _).append hhead).append hbody).append (hfilling _))
  | afterSign => exact ((hhead.append (hfilling n)).append hbody)

theorem braceFree_text {s t : String} (h : l.text s = .ok t) (hs : BraceFree s.toList)
    (hfill : (∀ c, IsBrace c → l.form ≠ some c) → ¬IsBrace l.fill) : BraceFree t.toList := by
  unfold text at h
  split at h
  · cases h
  · next hfit =>
    obtain ⟨width, -, h⟩ := Outcome.bind_eq_ok_iff.1 h
    cases h
    rw [String.toList_ofList]
    have hform : ∀ c, IsBrace c → l.form ≠ some c := by
      rintro c (rfl | rfl) hc <;> simp [hc] at hfit
    refine braceFree_padded (hfill hform) (List.forall_mem_nil _) ?_
    split
    · exact fun c hc => hs c (List.mem_of_mem_take hc)
    · exact hs

/-- A text without braces has none under a layout with as many opening as closing braces. -/
theorem braceFree_value {s t : String} (h : value cs (.str s) = .ok t) (hnet : net cs = 0)
    (hs : BraceFree s.toList) : BraceFree t.toList := by
  rw [value] at h
  split at h
  · cases h
    exact hs
  · split at h
    · next l hl => exact braceFree_text h hs (fill_of_net hl hnet)
    · cases h

end Layout

end Questionnaire
