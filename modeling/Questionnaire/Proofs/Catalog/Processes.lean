import Questionnaire.Proofs.Catalog.Questions

/-!
# The sections of an accepted catalog

Loading refuses a catalog in which it has found a defect.  So the sections of an accepted catalog
stand under their own keys, and every section that routing may be sent to exists.

## Main Definitions

* `Catalog.Build.Keeps` - a step of loading that takes no defect back
* `Catalog.HasTrimmedKeys` - the keys of all sections are texts without blanks around them

## Main Statements

* `Catalog.filesSections_of_accepted` - the sections of an accepted catalog stand under their keys
* `Catalog.hasKey_of_mem_processOrder`, `Catalog.hasKey_of_forcedNext` - routing leads to sections
  that exist
-/

namespace Questionnaire

/-- A text without blanks around it. -/
def Json.isTrimmed : Json → Bool
  | .str s => Text.trim s == s
  | _ => false

namespace Catalog

namespace Build

variable {α β : Type}

/-- Where no defect is known after a step, none was known before. -/
def Keeps (x : Build α) : Prop :=
  ∀ s a s', x.run s = .ok (a, s') → s'.problems = [] → s.problems = []

namespace Keeps

theorem pure (a : α) : Keeps (Pure.pure a : Build α) := by
  intro s a' s' h hnone
  cases h
  exact hnone

theorem lift (x : Except Fault α) : Keeps (liftM x : Build α) := by
  intro s a s' h hnone
  rw [(run_lift_eq_ok_iff.1 h).2] at hnone
  exact hnone

theorem bind {x : Build α} {k : α → Build β} (hx : Keeps x) (hk : ∀ a, Keeps (k a)) :
    Keeps (x >>= k) := by
  intro s b s'' h hnone
  obtain ⟨a, s', hfirst, hrest⟩ := run_bind_eq_ok_iff.1 h
  exact hx s a s' hfirst (hk a s' b s'' hrest hnone)

theorem report (p : Problem) : Keeps (Build.report p) := by
  intro s a s' h hnone
  cases h
  exact absurd hnone (by simp)

theorem warn (x : Warning) : Keeps (Build.warn x) := by
  intro s a s' h hnone
  cases h
  exact hnone

theorem forM {xs : List α} {g : α → Build PUnit} (h : ∀ x ∈ xs, Keeps (g x)) :
    Keeps (xs.forM g) := by
  induction xs with
  | nil => exact pure _
  | cons x xs ih =>
    exact (h x List.mem_cons_self).bind fun _ => ih fun y hy => h y (List.mem_cons_of_mem x hy)

/-- A report that is made or not. -/
theorem orReport {c : Prop} [Decidable c] {p : Problem} {k : Unit → Build β}
    (h : ∀ u, Keeps (k u)) : Keeps (if c then Build.report p >>= k else k ()) := by
  split
  · exact (report p).bind h
  · exact h ()

end Keeps

/-- A step that knows of no defect in the end has come past every report. -/
theorem unreported {c : Prop} [Decidable c] {p : Problem} {k : Unit → Build β} {s s' : Findings}
    {b : β} (keeps : Keeps (k ()))
    (h : (if c then Build.report p >>= k else k ()).run s = .ok (b, s'))
    (hnone : s'.problems = []) : ¬ c ∧ (k ()).run s = .ok (b, s') := by
  split at h
  · obtain ⟨_, s₁, hreport, hrest⟩ := run_bind_eq_ok_iff.1 h
    have hfirst := keeps s₁ b s' hrest hnone
    cases hreport
    exact absurd hfirst (by simp)
  · rename_i hc
    exact ⟨hc, h⟩

end Build

open Build (Keeps)

variable {c : Catalog}

/-! ## Checks -/

theorem keeps_checkStageKeys (c : Catalog) (process : Json) (owners : Assoc Json Json)
    (stages : List Json) : Keeps (checkStageKeys c process owners stages) := by
  induction stages generalizing owners with
  | nil => exact .pure _
  | cons stage rest ih =>
    refine (Keeps.lift _).bind fun key => ?_
    split
    · exact (Keeps.report _).bind fun _ => ih owners
    · split
      · exact (Keeps.report _).bind fun _ => ih owners
      · exact ih _

theorem keeps_checkProcesses (c : Catalog) (owners : Assoc Json Json)
    (processes : List (Json × Section)) : Keeps (checkProcesses c owners processes) := by
  induction processes generalizing owners with
  | nil => exact .pure _
  | cons e rest ih =>
    obtain ⟨key, p⟩ := e
    refine (keeps_checkStageKeys c key owners _).bind fun owners' => ?_
    dsimp only
    split
    · exact (Keeps.lift _).bind fun next => .orReport fun _ => ih owners'
    · exact ih owners'

theorem keeps_checkOrder (c : Catalog) (seen order : List Json) :
    Keeps (checkOrder c seen order) := by
  induction order generalizing seen with
  | nil => exact .pure _
  | cons process rest ih =>
    exact (Keeps.lift _).bind fun key => .orReport fun _ => .orReport fun _ => ih _

theorem keeps_checkRules (c : Catalog) : Keeps (checkRules c) := by
  refine Keeps.forM fun r _ => ?_
  split
  · refine (Keeps.lift _).bind fun key => ?_
    split
    · exact .warn _
    · exact .pure _
  · exact .pure _

theorem keeps_checkConditions (c : Catalog) : Keeps (checkConditions c) := by
  refine Keeps.forM fun p _ => ?_
  split
  · exact .warn _
  · exact .pure _

/-- Where no defect is found, the stages of the first process have passed, its successor exists, and
the other processes have passed. -/
theorem checkProcesses_cons {owners : Assoc Json Json} {e : Json × Section}
    {rest : List (Json × Section)} {s s' : Findings}
    (h : (checkProcesses c owners (e :: rest)).run s = .ok ((), s')) (hnone : s'.problems = []) :
    ∃ owners' s₁, (checkStageKeys c e.1 owners e.2.stageKeys).run s = .ok (owners', s₁) ∧
      (e.2.forcedNext.isFilled = true →
        e.2.forcedNext.isKey = true ∧ Assoc.hasKey e.2.forcedNext c.processes = true) ∧
      (checkProcesses c owners' rest).run s₁ = .ok ((), s') := by
  obtain ⟨key, p⟩ := e
  obtain ⟨owners', s₁, howners, h⟩ := Build.run_bind_eq_ok_iff.1 h
  have keeps := keeps_checkProcesses c owners' rest
  dsimp only at h
  split at h
  · obtain ⟨next, s₂, hnext, h⟩ := Build.run_bind_eq_ok_iff.1 h
    obtain ⟨hlift, rfl⟩ := Build.run_lift_eq_ok_iff.1 hnext
    obtain ⟨hkey, rfl⟩ := (Json.asKey_eq_ok_iff _ _).1 hlift
    obtain ⟨hfound, h⟩ := Build.unreported keeps h hnone
    exact ⟨owners', s₂, howners, fun _ => ⟨hkey, by simpa using hfound⟩, h⟩
  · rename_i hfilled
    exact ⟨owners', s₁, howners, fun h => absurd h hfilled, h⟩

/-- A section that is forced after another one exists. -/
theorem hasKey_of_checkProcesses {owners : Assoc Json Json} {processes : List (Json × Section)}
    {s s' : Findings} (h : (checkProcesses c owners processes).run s = .ok ((), s'))
    (hnone : s'.problems = []) :
    ∀ e ∈ processes, e.2.forcedNext.isFilled = true →
      e.2.forcedNext.isKey = true ∧ Assoc.hasKey e.2.forcedNext c.processes = true := by
  induction processes generalizing owners s with
  | nil => simp
  | cons e rest ih =>
    obtain ⟨owners', s₁, -, hforced, hrest⟩ := checkProcesses_cons h hnone
    exact List.forall_mem_cons.2 ⟨hforced, ih hrest⟩

/-- A section in the order of routing exists. -/
theorem hasKey_of_checkOrder {seen order : List Json} {s s' : Findings}
    (h : (checkOrder c seen order).run s = .ok ((), s')) (hnone : s'.problems = []) :
    ∀ key ∈ order, key.isKey = true ∧ Assoc.hasKey key c.processes = true := by
  induction order generalizing seen s with
  | nil => simp
  | cons process rest ih =>
    obtain ⟨key, s₁, hkey, h⟩ := Build.run_bind_eq_ok_iff.1 h
    obtain ⟨hisKey, rfl⟩ := (Json.asKey_eq_ok_iff _ _).1 (Build.run_lift_eq_ok_iff.1 hkey).1
    have keeps := keeps_checkOrder c (seen ++ [process]) rest
    obtain ⟨hfound, h⟩ := Build.unreported (.orReport fun _ => keeps) h hnone
    obtain ⟨-, h⟩ := Build.unreported keeps h hnone
    exact List.forall_mem_cons.2 ⟨⟨hisKey, by simpa using hfound⟩, ih h⟩

/-! ## Reading -/

/-- A section that is read has a filled key that is not taken. -/
theorem readProcess_eq_some {before : Assoc Json Section} {index : Nat} {item : Json}
    {s s' : Findings} {p : Section}
    (h : (readProcess before index item).run s = .ok (some p, s')) :
    p.key.isFilled = true ∧ p.key.isKey = true ∧ Assoc.hasKey p.key before = false := by
  unfold readProcess at h
  obtain ⟨given, s₁, -, h⟩ := Build.run_bind_eq_ok_iff.1 h
  split at h
  · exact absurd h Build.run_reject_ne_some
  rename_i hfilled
  obtain ⟨key, s₂, hkey, h⟩ := Build.run_bind_eq_ok_iff.1 h
  obtain ⟨hisKey, rfl⟩ := (Json.asKey_eq_ok_iff _ _).1 (Build.run_lift_eq_ok_iff.1 hkey).1
  split at h
  · exact absurd h Build.run_reject_ne_some
  rename_i hfree
  repeat obtain ⟨_, _, -, h⟩ := Build.run_bind_eq_ok_iff.1 h
  cases h
  exact ⟨by simpa using hfilled, hisKey, Bool.eq_false_iff.2 hfree⟩

/-- Sections that stand under filled keys of their own. -/
def FilesSections (processes : Assoc Json Section) : Prop :=
  Assoc.FiledBy Section.key processes ∧ ∀ e ∈ processes, e.1.isFilled = true

theorem filesSections_readProcesses {before processes : Assoc Json Section} {index : Nat}
    {items : List Json} {s s' : Findings} (filed : FilesSections before)
    (h : (readProcesses before index items).run s = .ok (processes, s')) :
    FilesSections processes := by
  induction items generalizing before index s with
  | nil =>
    cases h
    exact filed
  | cons item rest ih =>
    obtain ⟨p?, s₁, hp, h⟩ := Build.run_bind_eq_ok_iff.1 h
    cases p? with
    | none => exact ih filed h
    | some p =>
      obtain ⟨hfilled, hkey, hfree⟩ := readProcess_eq_some hp
      refine ih ⟨filed.1.append_one hkey hfree, fun e he => ?_⟩ h
      rcases List.mem_append.1 he with he | he
      · exact filed.2 e he
      · rw [List.mem_singleton.1 he]
        exact hfilled

theorem filesSections_processesOf {data : Json} {name : String} {stages : List Stage}
    {processes : Assoc Json Section} {s s' : Findings}
    (h : (processesOf data name stages).run s = .ok (processes, s')) :
    FilesSections processes := by
  obtain ⟨items, s₁, -, h⟩ := Build.run_bind_eq_ok_iff.1 h
  have hnone : FilesSections ([] : Assoc Json Section) := ⟨.nil _, by simp⟩
  cases items with
  | nil =>
    cases h
    refine ⟨hnone.1.append_one (v := onlyProcess name stages) rfl rfl, fun e he => ?_⟩
    rw [List.mem_singleton.1 he]
    rfl
  | cons item rest => exact filesSections_readProcesses hnone h

/-- The sections of a catalog are read from its data once its stages are known. -/
theorem exists_processesOf {data : Json} {s s' : Findings}
    (h : (read data).run s = .ok (c, s')) :
    ∃ name stages s₁ s₂, (processesOf data name stages).run s₁ = .ok (c.processes, s₂) := by
  unfold read at h
  -- everything up to the attachments stands before the sections
  iterate 24 obtain ⟨_, _, -, h⟩ := Build.run_bind_eq_ok_iff.1 h
  obtain ⟨processes, s₁, hprocesses, h⟩ := Build.run_bind_eq_ok_iff.1 h
  obtain ⟨order, s₂, -, h⟩ := Build.run_bind_eq_ok_iff.1 h
  cases h
  exact ⟨_, _, _, _, hprocesses⟩

/-! ## Accepted catalogs -/

/-- A catalog that loading accepts was read, and no check has found a defect in it. -/
theorem exists_checked (accepted : c.Accepted) :
    ∃ data s s₁ s₂, (read data).run s = .ok (c, s₁) ∧ (check c).run s₁ = .ok ((), s₂) ∧
      s₂.problems = [] := by
  obtain ⟨data, source, warnings, h⟩ := accepted
  unfold ofJson at h
  split at h
  · split at h
    · cases h
    · rename_i c' findings hbuild
      split at h
      · rename_i hnone
        cases h
        obtain ⟨c', s₁, hread, hrest⟩ := Build.run_bind_eq_ok_iff.1 hbuild
        obtain ⟨_, s₂, hcheck, hrest⟩ := Build.run_bind_eq_ok_iff.1 hrest
        cases hrest
        exact ⟨_, _, s₁, _, hread, hcheck, hnone⟩
      · cases h
  · cases h

theorem filesSections_of_accepted (accepted : c.Accepted) : FilesSections c.processes := by
  obtain ⟨data, s, s₁, s₂, hread, -, -⟩ := exists_checked accepted
  obtain ⟨name, stages, s₃, s₄, hprocesses⟩ := exists_processesOf hread
  exact filesSections_processesOf hprocesses

/-- The stages, the sections and the order of routing have passed their checks. -/
theorem exists_checks (accepted : c.Accepted) :
    ∃ s₀ s₁ s₂ s₃, ((c.stages.forM (checkStage c)).run s₀ = .ok ((), s₁) ∧ s₁.problems = []) ∧
      ((checkProcesses c [] c.processes).run s₁ = .ok ((), s₂) ∧ s₂.problems = []) ∧
      (checkOrder c [] c.processOrder).run s₂ = .ok ((), s₃) ∧ s₃.problems = [] := by
  obtain ⟨data, s, s₁, s₂, -, hcheck, hnone⟩ := exists_checked accepted
  have hchecks : ∃ s₁, (c.stages.forM (checkStage c) >>= fun _ => checkProcesses c [] c.processes
      >>= fun _ => checkOrder c [] c.processOrder >>= fun _ => checkRules c >>= fun _ =>
      checkConditions c).run s₁ = .ok ((), s₂) := by
    unfold check at hcheck
    split at hcheck
    · obtain ⟨_, s', -, hrest⟩ := Build.run_bind_eq_ok_iff.1 hcheck
      exact ⟨s', hrest⟩
    · exact ⟨s₁, hcheck⟩
  obtain ⟨s', h⟩ := hchecks
  obtain ⟨_, s₃, hstages, h⟩ := Build.run_bind_eq_ok_iff.1 h
  obtain ⟨_, s₄, hprocesses, h⟩ := Build.run_bind_eq_ok_iff.1 h
  obtain ⟨_, s₅, horder, h⟩ := Build.run_bind_eq_ok_iff.1 h
  -- the later checks take no defect back
  have after_order : s₅.problems = [] :=
    ((keeps_checkRules c).bind fun _ => keeps_checkConditions c) s₅ _ s₂ h hnone
  have after_processes := keeps_checkOrder c [] _ s₄ _ s₅ horder after_order
  have after_stages := keeps_checkProcesses c [] _ s₃ _ s₄ hprocesses after_processes
  exact ⟨s', s₃, s₄, s₅, ⟨hstages, after_stages⟩, ⟨hprocesses, after_processes⟩, horder,
    after_order⟩

/-- The order of routing of an accepted catalog names sections that exist. -/
theorem hasKey_of_mem_processOrder (accepted : c.Accepted) {key : Json}
    (h : key ∈ c.processOrder) : key.isKey = true ∧ Assoc.hasKey key c.processes = true := by
  obtain ⟨s₀, s₁, s₂, s₃, -, -, horder, hnone⟩ := exists_checks accepted
  exact hasKey_of_checkOrder horder hnone key h

/-- The forced successor of a section of an accepted catalog exists. -/
theorem hasKey_of_forcedNext (accepted : c.Accepted) {e : Json × Section} (he : e ∈ c.processes)
    (h : e.2.forcedNext.isFilled = true) :
    e.2.forcedNext.isKey = true ∧ Assoc.hasKey e.2.forcedNext c.processes = true := by
  obtain ⟨s₀, s₁, s₂, s₃, -, ⟨hprocesses, hnone⟩, -⟩ := exists_checks accepted
  exact hasKey_of_checkProcesses hprocesses hnone e he h

/-- The keys of all sections are texts without blanks around them. -/
def HasTrimmedKeys (c : Catalog) : Prop := ∀ e ∈ c.processes, e.1.isTrimmed = true

end Catalog

end Questionnaire
