import Questionnaire.Proofs.Catalog.Questions
import Questionnaire.Proofs.State.Applying

/-!
# Deriving once more

Derived rules are applied in one pass, in the order of the catalog, and computed variables are
brought up to date behind it.  A second pass finds nothing to do exactly if no rule has anything
left to do over the state that the first pass has reached.

A rule is left with something to do when a later rule, or a computed variable that follows from the
rules, makes its condition hold or takes its target.  In a catalog where neither happens one pass is
enough, whatever the state is.

## Main Definitions

* `State.Idle` - a rule has nothing to do over a state
* `Catalog.movedBy` - the computed variables that follow some fields
* `Catalog.DerivesInOrder` - no rule depends on what is written behind it

## Main Statements

* `State.applyDerived_eq_nil_iff` - a pass without updates is one over idle rules
* `State.idle_of_applyRules` - behind a pass in order all rules are idle
* `State.compute_steady` - computed variables that do not follow a change stay as they were
* `State.rederives_iff` - when a second pass finds nothing to do
-/

namespace Questionnaire

theorem Assoc.put_ne_nil {α : Type} (k : Json) (v : α) (m : Assoc Json α) : put k v m ≠ [] := by
  cases m with
  | nil => exact List.cons_ne_nil _ _
  | cons e m =>
    unfold put
    split <;> exact List.cons_ne_nil _ _

/-! ## Rules in order -/

namespace Catalog

/-- The targets of computed variables that follow a change of some fields.  A variable follows what
it looks at, and it follows itself and later variables in any case: it looks at their values from
before. -/
def movedBy (moving : List Json) : List ComputedVar → List Json
  | [] => []
  | u :: rest =>
    if u.reads.any fun key => (moving ++ (u :: rest).map (·.target)).any (· == key) then
      u.target :: movedBy (u.target :: moving) rest
    else movedBy moving rest

/-- A rule may stand before another one: its condition does not look at the target of the other, and
if they share the target they agree on the value. -/
def Precedes (r r' : DerivedRule) : Prop :=
  (∀ name ∈ Condition.reads r.setWhen, (r'.target == .str name) = false) ∧
    ((r'.target == r.target) = true → r'.value.equal r.value = true)

instance : DecidableRel Precedes := fun r r' => inferInstanceAs (Decidable
  ((∀ name ∈ Condition.reads r.setWhen, (r'.target == .str name) = false) ∧
    ((r'.target == r.target) = true → r'.value.equal r.value = true)))

/-- No rule depends on what is written behind it. -/
structure DerivesInOrder (c : Catalog) : Prop where
  /-- Neither its condition nor its target depends on a later rule. -/
  ordered : c.derivedRules.Pairwise Precedes
  /-- Its condition does not look at a computed variable that follows from the rules. -/
  steady : ∀ r ∈ c.derivedRules, ∀ name ∈ Condition.reads r.setWhen,
    ∀ key ∈ movedBy (c.derivedRules.map (·.target)) c.computedVars, (key == .str name) = false
  /-- Its target is not computed. -/
  uncomputed : ∀ r ∈ c.derivedRules, ∀ u ∈ c.computedVars, (u.target == r.target) = false
  /-- Its value equals itself, as not-a-number does not. -/
  reflexive : ∀ r ∈ c.derivedRules, r.value.equal r.value = true

instance (c : Catalog) : Decidable c.DerivesInOrder :=
  decidable_of_iff (c.derivedRules.Pairwise Precedes ∧
    (∀ r ∈ c.derivedRules, ∀ name ∈ Condition.reads r.setWhen,
      ∀ key ∈ movedBy (c.derivedRules.map (·.target)) c.computedVars, (key == .str name) = false) ∧
    (∀ r ∈ c.derivedRules, ∀ u ∈ c.computedVars, (u.target == r.target) = false) ∧
    ∀ r ∈ c.derivedRules, r.value.equal r.value = true)
    ⟨fun ⟨ordered, steady, uncomputed, reflexive⟩ => ⟨ordered, steady, uncomputed, reflexive⟩,
      fun ⟨ordered, steady, uncomputed, reflexive⟩ => ⟨ordered, steady, uncomputed, reflexive⟩⟩

end Catalog

namespace State

variable {c : Catalog} {s s' t : State} {r : DerivedRule} {todo : List DerivedRule}
  {updates updates' : Fields}

/-! ## Idle rules -/

/-- A rule has nothing to do: its condition fails, it maps to an unknown question, or its target was
given its value already. -/
def Idle (c : Catalog) (s : State) (r : DerivedRule) : Prop :=
  s.holds r.setWhen = true → rulePath? c r ≠ none →
    r.target.isKey = true ∧ s.hasAnswer r.target r.value = true

/-- A rule has nothing to do, or it writes its value. -/
theorem applyRule_cases (h : applyRule c r s updates = .ok (s', updates')) :
    (Idle c s r ∧ s' = s ∧ updates' = updates) ∨
      ∃ document, r.target.isKey = true ∧
        s' = { s.write r.target r.value with document := document } ∧
        updates' = Assoc.put r.target r.value updates := by
  unfold applyRule at h
  split at h
  · split at h
    · next hpath =>
      cases h
      exact .inl ⟨fun _ hknown => absurd hpath hknown, rfl, rfl⟩
    · obtain ⟨key, hkey, h⟩ := Outcome.bind_eq_ok_iff.1 h
      obtain ⟨isKey, rfl⟩ := (Json.asKey_eq_ok_iff _ _).1 hkey
      split at h
      · next hanswer =>
        cases h
        exact .inl ⟨fun _ _ => ⟨isKey, hanswer⟩, rfl, rfl⟩
      · obtain ⟨document, -, h⟩ := Outcome.bind_eq_ok_iff.1 h
        cases h
        exact .inr ⟨document, isKey, rfl, rfl⟩
  · next hfails =>
    cases h
    exact .inl ⟨fun hholds => absurd hholds hfails, rfl, rfl⟩

theorem applyRule_of_idle (idle : Idle c s r) (updates : Fields) :
    applyRule c r s updates = .ok (s, updates) := by
  unfold applyRule
  split
  · next hholds =>
    split
    · rfl
    · next hpath =>
      obtain ⟨isKey, hanswer⟩ := idle hholds (by rw [hpath]; simp)
      rw [(Json.asKey_eq_ok_iff _ _).2 ⟨isKey, rfl⟩, Outcome.ok_bind, if_pos hanswer]
      rfl
  · rfl

theorem applyRules_of_idle (idle : ∀ r ∈ todo, Idle c s r) (updates : Fields) :
    applyRules c todo s updates = .ok (s, updates) := by
  induction todo with
  | nil => rfl
  | cons r rest ih =>
    obtain ⟨hr, hrest⟩ := List.forall_mem_cons.1 idle
    rw [applyRules, applyRule_of_idle hr, Outcome.ok_bind]
    exact ih hrest

/-- Where nothing was written, no rule had anything to do. -/
theorem idle_of_applyRules_nil (h : applyRules c todo s updates = .ok (t, [])) :
    updates = [] ∧ ∀ r ∈ todo, Idle c s r := by
  induction todo generalizing s updates with
  | nil =>
    cases h
    exact ⟨rfl, nofun⟩
  | cons r rest ih =>
    obtain ⟨⟨s₁, updates₁⟩, hrule, h⟩ := Outcome.bind_eq_ok_iff.1 h
    obtain ⟨rfl, hrest⟩ := ih h
    rcases applyRule_cases hrule with ⟨idle, rfl, rfl⟩ | ⟨document, -, -, hput⟩
    · exact ⟨rfl, List.forall_mem_cons.2 ⟨idle, hrest⟩⟩
    · -- what was written is not lost
      exact absurd hput.symm (Assoc.put_ne_nil _ _ _)

/-- A pass without updates is one over idle rules. -/
theorem applyDerived_eq_nil_iff :
    s.applyDerived c = .ok (s, []) ↔ ∀ r ∈ c.derivedRules, Idle c s r := by
  constructor
  · intro h
    obtain ⟨t, hrules, -⟩ := applyDerived_cases h
    exact (idle_of_applyRules_nil hrules).2
  · intro idle
    rw [applyDerived, applyRules_of_idle idle, Outcome.ok_bind]
    rfl

/-! ## One pass -/

/-- A field keeps its value and status, or a rule gave it its value. -/
theorem applyRules_frame (h : applyRules c todo s updates = .ok (t, updates')) (key : Json) :
    (Assoc.valueAt? key t.values = Assoc.valueAt? key s.values ∧
        Assoc.valueAt? key t.status = Assoc.valueAt? key s.status) ∨
      ∃ r ∈ todo, (r.target == key) = true ∧ Assoc.valueAt? key t.values = some r.value ∧
        Assoc.valueAt? key t.status = some .answered := by
  induction todo generalizing s updates with
  | nil =>
    cases h
    exact .inl ⟨rfl, rfl⟩
  | cons r rest ih =>
    obtain ⟨⟨s₁, updates₁⟩, hrule, h⟩ := Outcome.bind_eq_ok_iff.1 h
    rcases ih h with ⟨hvalue, hstatus⟩ | ⟨r', hr', written⟩
    · rcases applyRule_cases hrule with ⟨-, rfl, -⟩ | ⟨document, isKey, rfl, -⟩
      · exact .inl ⟨hvalue, hstatus⟩
      · have name := Json.isName_of_isKey isKey
        rw [write, Assoc.valueAt?_put name] at hvalue hstatus
        by_cases htarget : (r.target == key) = true
        · rw [if_pos htarget] at hvalue hstatus
          exact .inr ⟨r, List.mem_cons_self, htarget, hvalue, hstatus⟩
        · rw [if_neg htarget] at hvalue hstatus
          exact .inl ⟨hvalue, hstatus⟩
    · exact .inr ⟨r', List.mem_cons_of_mem r hr', written⟩

/-- A rule stays idle where its condition looks at the same values and its target keeps its
value. -/
theorem Idle.congr (idle : Idle c s r)
    (reads : ∀ name ∈ Condition.reads r.setWhen,
      Assoc.valueAt? (.str name) t.values = Assoc.valueAt? (.str name) s.values)
    (answer : s.hasAnswer r.target r.value = true → t.hasAnswer r.target r.value = true) :
    Idle c t r := by
  intro hholds hpath
  have hholds' : s.holds r.setWhen = true := by
    rw [← hholds]
    exact (Condition.holds_congr reads).symm
  obtain ⟨isKey, hanswer⟩ := idle hholds' hpath
  exact ⟨isKey, answer hanswer⟩

theorem hasAnswer_congr {key v : Json}
    (hvalue : Assoc.valueAt? key t.values = Assoc.valueAt? key s.values)
    (hstatus : Assoc.valueAt? key t.status = Assoc.valueAt? key s.status) :
    t.hasAnswer key v = s.hasAnswer key v := by
  rw [hasAnswer, hasAnswer, valueOf, valueOf, statusOf, statusOf, hvalue, hstatus]

theorem hasAnswer_of_written {key v w : Json} (hvalue : Assoc.valueAt? key t.values = some v)
    (hstatus : Assoc.valueAt? key t.status = some .answered) (hequal : v.equal w = true) :
    t.hasAnswer key w = true := by
  rw [hasAnswer, valueOf, statusOf, hvalue, hstatus, Option.getD_some, Option.getD_some, hequal]
  rfl

/-- Behind a pass in order all rules are idle. -/
theorem idle_of_applyRules (ordered : todo.Pairwise Catalog.Precedes)
    (reflexive : ∀ r ∈ todo, r.value.equal r.value = true)
    (h : applyRules c todo s updates = .ok (t, updates')) : ∀ r ∈ todo, Idle c t r := by
  induction todo generalizing s updates with
  | nil => exact nofun
  | cons r rest ih =>
    obtain ⟨precedes, ordered⟩ := List.pairwise_cons.1 ordered
    obtain ⟨hr, hrest⟩ := List.forall_mem_cons.1 reflexive
    obtain ⟨⟨s₁, updates₁⟩, hrule, h⟩ := Outcome.bind_eq_ok_iff.1 h
    refine List.forall_mem_cons.2 ⟨?_, ih ordered hrest h⟩
    have idle : Idle c s₁ r := by
      rcases applyRule_cases hrule with ⟨idle, rfl, -⟩ | ⟨document, isKey, rfl, -⟩
      · exact idle
      · have name := Json.isName_of_isKey isKey
        refine fun _ _ => ⟨isKey, hasAnswer_of_written (v := r.value) ?_ ?_ hr⟩ <;>
          rw [write, Assoc.valueAt?_put name, if_pos name.self]
    refine idle.congr (fun name hname => ?_) fun hanswer => ?_
    · -- no later rule writes what the condition looks at
      rcases applyRules_frame h (.str name) with ⟨hvalue, -⟩ | ⟨r', hr', htarget, -⟩
      · exact hvalue
      · rw [(precedes r' hr').1 name hname] at htarget
        cases htarget
    · rcases applyRules_frame h r.target with ⟨hvalue, hstatus⟩ | ⟨r', hr', htarget, written⟩
      · rwa [hasAnswer_congr hvalue hstatus]
      · exact hasAnswer_of_written written.1 written.2 ((precedes r' hr').2 htarget)

/-! ## Computed variables -/

/-- Two computations that start from values which differ in some fields, and in what is computed
anyway, differ at most in these fields and in the variables that follow them. -/
theorem compute_steady {vars : List ComputedVar} (moving : List Json)
    {values values' computed computed' : Fields} (isKey : ∀ u ∈ vars, u.target.isKey = true)
    (h : compute values vars = .ok computed) (h' : compute values' vars = .ok computed')
    (agree : ∀ key, (∀ m ∈ moving, (m == key) = false) →
      (∀ u ∈ vars, (u.target == key) = false) →
      Assoc.valueAt? key values = Assoc.valueAt? key values')
    {key : Json} (hmoving : ∀ m ∈ moving, (m == key) = false)
    (hmoved : ∀ m ∈ Catalog.movedBy moving vars, (m == key) = false) :
    Assoc.valueAt? key computed = Assoc.valueAt? key computed' := by
  induction vars generalizing moving values values' with
  | nil =>
    cases h
    cases h'
    exact agree key hmoving nofun
  | cons u rest ih =>
    have hname := Json.isName_of_isKey (isKey u List.mem_cons_self)
    have hrest := fun v hv => isKey v (List.mem_cons_of_mem u hv)
    obtain ⟨products, hproducts, h⟩ := Outcome.bind_eq_ok_iff.1 h
    obtain ⟨products', hproducts', h'⟩ := Outcome.bind_eq_ok_iff.1 h'
    rw [Catalog.movedBy] at hmoved
    split at hmoved
    · -- the variable follows, and from now on it counts among the fields that differ
      obtain ⟨htarget, hmoved⟩ := List.forall_mem_cons.1 hmoved
      refine ih (u.target :: moving) hrest h h' (fun k hk hcomputed => ?_)
        (List.forall_mem_cons.2 ⟨htarget, hmoving⟩) hmoved
      obtain ⟨hku, hk⟩ := List.forall_mem_cons.1 hk
      rw [Assoc.valueAt?_put hname, Assoc.valueAt?_put hname, hku]
      exact agree k hk (List.forall_mem_cons.2 ⟨hku, hcomputed⟩)
    · next hsteady =>
      -- the variable looks at nothing that differs
      have hreads : ∀ k ∈ u.reads, Assoc.valueAt? k values = Assoc.valueAt? k values' := by
        intro k hk
        have apart : ∀ m ∈ moving ++ (u :: rest).map (·.target), (m == k) = false := by
          intro m hm
          refine Bool.eq_false_iff.2 fun hbeq => hsteady ?_
          exact List.any_eq_true.2 ⟨k, hk, List.any_eq_true.2 ⟨m, hm, hbeq⟩⟩
        exact agree k (fun m hm => apart m (List.mem_append_left _ hm)) fun v hv =>
          apart v.target (List.mem_append_right _ (List.mem_map_of_mem hv))
      cases hproducts.symm.trans ((termProducts_congr hreads).trans hproducts')
      refine ih moving hrest h h' (fun k hk hcomputed => ?_) hmoving hmoved
      rw [Assoc.valueAt?_put hname, Assoc.valueAt?_put hname]
      split
      · rfl
      · next hku =>
        exact agree k hk (List.forall_mem_cons.2 ⟨Bool.eq_false_iff.2 hku, hcomputed⟩)

/-! ## A second pass -/

/-- Bringing computed variables up to date leaves the rules of a pass in order idle. -/
theorem idle_of_refresh (isKey : ∀ u ∈ c.computedVars, u.target.isKey = true)
    (inOrder : c.DerivesInOrder) (produced : Produced c s)
    (hrules : applyRules c c.derivedRules s [] = .ok (t, updates))
    (hrefresh : refresh c t = .ok s') : ∀ r ∈ c.derivedRules, Idle c s' r := by
  obtain ⟨values, hvalues⟩ := produced.exists_computed
  obtain ⟨values', enabled, hvalues', -, rfl⟩ := refresh_eq_ok_iff.1 hrefresh
  -- only the targets of rules have moved since the values were computed
  have spared {key : Json} (hkey : ∀ r ∈ c.derivedRules, (r.target == key) = false) :
      Assoc.valueAt? key t.values = Assoc.valueAt? key s.values := by
    rcases applyRules_frame hrules key with ⟨hvalue, -⟩ | ⟨r, hr, htarget, -⟩
    · exact hvalue
    · cases htarget.symm.trans (hkey r hr)
  have uncomputed {key : Json} (hkey : ∀ u ∈ c.computedVars, (u.target == key) = false) :
      Assoc.valueAt? key values' = Assoc.valueAt? key t.values :=
    valueAt?_compute isKey hvalues' hkey
  have unread {r : DerivedRule} (hr : r ∈ c.derivedRules) {name : String}
      (hname : name ∈ Condition.reads r.setWhen) :
      Assoc.valueAt? (.str name) values' = Assoc.valueAt? (.str name) t.values := by
    by_cases htarget : ∃ r' ∈ c.derivedRules, r'.target = .str name
    · obtain ⟨r', hr', htarget⟩ := htarget
      exact uncomputed (htarget ▸ inOrder.uncomputed r' hr')
    · have apart : ∀ r' ∈ c.derivedRules, (r'.target == .str name) = false := by
        intro r' hr'
        exact Bool.eq_false_iff.2 fun h => htarget ⟨r', hr', (Json.beq_str _ _).1 h⟩
      have steady : Assoc.valueAt? (.str name) s.values = Assoc.valueAt? (.str name) values' := by
        refine compute_steady (c.derivedRules.map (·.target)) isKey hvalues hvalues'
          (fun key hkey hcomputed => ?_) (fun m hm => ?_) (inOrder.steady r hr name hname)
        · rw [spared fun r' hr' => hkey _ (List.mem_map_of_mem hr')]
          exact (valueAt?_compute isKey hvalues hcomputed).symm
        · obtain ⟨r', hr', rfl⟩ := List.mem_map.1 hm
          exact apart r' hr'
      rw [← steady, spared apart]
  intro r hr
  have idle := idle_of_applyRules inOrder.ordered inOrder.reflexive hrules r hr
  refine idle.congr (fun name hname => unread hr hname) fun hanswer => ?_
  rw [← hanswer]
  exact hasAnswer_congr (uncomputed (inOrder.uncomputed r hr)) rfl

/-- A second pass finds nothing to do exactly if the first has left all rules idle, as it does in
every catalog whose rules are in order. -/
theorem rederives_iff {c : Catalog} {s s' : State} {updates : Fields} (usable : c.usable = .ok ())
    (produced : Produced c s) (h : s.applyDerived c = .ok (s', updates)) :
    (s'.applyDerived c = .ok (s', []) ↔ ∀ r ∈ c.derivedRules, Idle c s' r) ∧
      (c.DerivesInOrder → s'.applyDerived c = .ok (s', [])) := by
  refine ⟨applyDerived_eq_nil_iff, fun inOrder => ?_⟩
  obtain ⟨t, hrules, ⟨rfl, rfl⟩ | ⟨-, hrefresh⟩⟩ := applyDerived_cases h
  · exact h
  · have isKey := Catalog.isKey_of_usable usable
    exact applyDerived_eq_nil_iff.2 (idle_of_refresh isKey inOrder produced hrules hrefresh)

/-- A catalog that asks for an amount, with some derived rules. -/
def asksAmount (rules : List Json) : Json :=
  .obj [
    ("questions", .arr [.obj [("qid", .str "Q1"), ("field_key", .str "amount"),
      ("data_type", .str "number")]]),
    ("stages", .arr [.obj [("stage_key", .str "s"), ("question_ids", .arr [.str "Q1"])]]),
    ("engine_contract", .obj [("derived_rules", .arr rules)])]

/-- A large amount earns a rank. -/
def ranking : Json :=
  .obj [("target_field", .str "vip"), ("set_when", .str "amount > 100"), ("value", .bool true)]

/-- The rank earns a discount. -/
def discounting : Json :=
  .obj [("target_field", .str "discount"), ("set_when", .str "vip = true"), ("value", .int 10)]

/-- Where the rank is derived before the discount, one pass derives both. -/
theorem rederives_iff_ranking : ∃ c s s' updates, c.Accepted ∧ c.usable = .ok () ∧ Produced c s ∧
    c.DerivesInOrder ∧ s.applyDerived c = .ok (s', updates) ∧ updates.length = 2 ∧
    s'.applyDerived c = .ok (s', []) := by
  have evaluated : Outcome.Gives
      (Catalog.ofJson (asksAmount [ranking, discounting]) "catalog.json") fun e =>
        Outcome.Gives e.1.usable (fun _ => True) ∧ e.1.DerivesInOrder ∧
        ∃ q ∈ e.1.question? (.str "Q1"), Outcome.Gives (ofFields e.1 [] none) fun s₀ =>
          Outcome.Gives (s₀.applyValue e.1 q (.int 150)) fun a =>
            Outcome.Gives (a.1.applyDerived e.1) fun d => d.2.length = 2 := by
    decide +kernel
  obtain ⟨⟨c, warnings⟩, hc, ⟨_, usable, -⟩, inOrder, q, -, s₀, hs₀, ⟨s, applied⟩, hvalue,
    ⟨s', updates⟩, hderived, hlength⟩ := evaluated
  have produced : Produced c s := .value (.stored hs₀) hvalue
  exact ⟨c, s, s', updates, ⟨_, "catalog.json", warnings, hc⟩, usable, produced, inOrder, hderived,
    hlength, (rederives_iff usable produced hderived).2 inOrder⟩

/-- Where the discount stands before the rank that it depends on, it is derived in a second pass
only. -/
theorem rederived_ranking : ∃ c s s' updates s'' updates', c.Accepted ∧ c.usable = .ok () ∧
    Produced c s ∧ s.applyDerived c = .ok (s', updates) ∧ updates.length = 1 ∧
    s'.applyDerived c = .ok (s'', updates') ∧ updates'.length = 1 := by
  have evaluated : Outcome.Gives
      (Catalog.ofJson (asksAmount [discounting, ranking]) "catalog.json") fun e =>
        Outcome.Gives e.1.usable (fun _ => True) ∧
        ∃ q ∈ e.1.question? (.str "Q1"), Outcome.Gives (ofFields e.1 [] none) fun s₀ =>
          Outcome.Gives (s₀.applyValue e.1 q (.int 150)) fun a =>
            Outcome.Gives (a.1.applyDerived e.1) fun d => d.2.length = 1 ∧
              Outcome.Gives (d.1.applyDerived e.1) fun d' => d'.2.length = 1 := by
    decide +kernel
  obtain ⟨⟨c, warnings⟩, hc, ⟨_, usable, -⟩, q, -, s₀, hs₀, ⟨s, applied⟩, hvalue, ⟨s', updates⟩,
    hderived, hlength, ⟨s'', updates'⟩, hderived', hlength'⟩ := evaluated
  exact ⟨c, s, s', updates, s'', updates', ⟨_, "catalog.json", warnings, hc⟩, usable,
    .value (.stored hs₀) hvalue, hderived, hlength, hderived', hlength'⟩

end State

end Questionnaire
