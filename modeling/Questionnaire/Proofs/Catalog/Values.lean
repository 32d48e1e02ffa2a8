import Questionnaire.Proofs.Catalog.Questions
import Questionnaire.Proofs.Json.WellFormed
import Questionnaire.Proofs.Regular

/-!
# The values in a loaded catalog

A catalog passes on values from the data that it was read from, so these are well formed when the
data is.

## Main Definitions

* `Catalog.Loaded` - a catalog that was read from well-formed data

## Main Statements

* `Catalog.Loaded.defaults`, `Catalog.Loaded.rules`, `Catalog.Loaded.constraints` - the values of a
  loaded catalog
* `Catalog.placed_of_placeAll` - placing a question changes only its stage
* `Catalog.loaded_of_ofText` - a catalog that is read from a text is loaded
-/

namespace Questionnaire

namespace Json

theorem WellFormed.filledOr {v default : Json} (hv : v.WellFormed) (hdefault : default.WellFormed) :
    (v.filledOr default).WellFormed := by
  unfold Json.filledOr
  split
  · exact hv
  · exact hdefault

theorem wellFormed_partOrNull {v w : Json} {name : String} (hv : v.WellFormed)
    (h : v.partOrNull name = .ok w) : w.WellFormed := by
  obtain ⟨part, hpart, h⟩ := Outcome.bind_eq_ok_iff.1 h
  cases h
  cases hv with
  | obj distinct members =>
    cases hpart
    cases hfound : Assoc.valueAt? name _ with
    | none => exact .null
    | some u =>
      obtain ⟨m, hm, -, rfl⟩ := Assoc.mem_of_valueAt? hfound
      exact members m hm
  | _ => cases hpart

theorem wellFormed_itemsOver {v : Json} {items : List Json} (hv : v.WellFormed)
    (h : v.itemsOver = .ok items) : ∀ w ∈ items, w.WellFormed := by
  intro w hw
  cases hv with
  | arr hitems =>
    cases h
    exact hitems w hw
  | obj distinct members =>
    cases h
    obtain ⟨m, -, rfl⟩ := List.mem_map.1 hw
    exact .str _
  | str s =>
    cases h
    obtain ⟨c, -, rfl⟩ := List.mem_map.1 hw
    exact .str _
  | _ => cases h

/-- A pair of a list has a scalar for its key. -/
theorem pairAt_spec {index : Nat} {v : Json} {p : Json × Json} (hv : v.WellFormed)
    (h : pairAt index v = .ok p) : p.1.isKey = true ∧ p.2.WellFormed := by
  unfold pairAt at h
  split at h
  · obtain ⟨key, hkey, h⟩ := Outcome.bind_eq_ok_iff.1 h
    cases h
    obtain ⟨hisKey, rfl⟩ := (asKey_eq_ok_iff _ _).1 hkey
    cases hv with
    | arr hitems => exact ⟨hisKey, hitems _ (by simp)⟩
  · cases h
  · cases h
    exact ⟨rfl, .str _⟩
  · cases h
  · split at h
    · cases h
      exact ⟨rfl, .str _⟩
    · cases h
  · cases h

theorem pairsFrom_spec {index : Nat} {items : List Json} {ps : List (Json × Json)}
    (hitems : ∀ v ∈ items, v.WellFormed) (h : pairsFrom index items = .ok ps) :
    ∀ p ∈ ps, p.1.isKey = true ∧ p.2.WellFormed := by
  induction items generalizing index ps with
  | nil =>
    cases h
    simp
  | cons v rest ih =>
    obtain ⟨p, hp, h⟩ := Outcome.bind_eq_ok_iff.1 h
    obtain ⟨ps', hps, h⟩ := Outcome.bind_eq_ok_iff.1 h
    cases h
    intro q hq
    rcases List.mem_cons.1 hq with rfl | hq
    · exact pairAt_spec (hitems v List.mem_cons_self) hp
    · exact ih (fun w hw => hitems w (List.mem_cons_of_mem v hw)) hps q hq

theorem entries_spec {v : Json} {es : List (Json × Json)} (hv : v.WellFormed)
    (h : v.entries = .ok es) : ∀ e ∈ es, e.1.isKey = true ∧ e.2.WellFormed := by
  cases hv with
  | obj distinct members =>
    cases h
    intro e he
    obtain ⟨m, hm, rfl⟩ := List.mem_map.1 he
    exact ⟨rfl, members m hm⟩
  | arr hitems => exact pairsFrom_spec hitems h
  | str s =>
    change (if s = "" then Except.ok [] else _) = _ at h
    split at h
    · cases h
      simp
    · cases h
  | _ => cases h

end Json

namespace Catalog

open Json (WellFormed)

/-- A catalog that was read from well-formed data. -/
def Loaded (c : Catalog) : Prop :=
  ∃ data source warnings, WellFormed data ∧ Catalog.ofJson data source = .ok (c, warnings)

theorem Loaded.accepted {c : Catalog} (loaded : c.Loaded) : c.Accepted := by
  obtain ⟨data, source, warnings, -, h⟩ := loaded
  exact ⟨data, source, warnings, h⟩

/-- A catalog that is read from a text is loaded. -/
theorem loaded_of_ofText {c : Catalog} {text : Option String} {source : String}
    {warnings : List Warning} (h : ofText text source = .ok (c, warnings)) : c.Loaded := by
  unfold ofText at h
  split at h
  · cases h
  · split at h
    · rename_i data hdata
      exact ⟨data, source, warnings, Json.wellFormed_of_read hdata, h⟩
    · cases h
    · cases h

theorem wellFormed_sectionAt {v w : Json} {name : String} (hv : v.WellFormed)
    (h : sectionAt v name = .ok w) : w.WellFormed := by
  obtain ⟨part, hpart, h⟩ := Outcome.bind_eq_ok_iff.1 h
  cases h
  exact (Json.wellFormed_partOrNull hv hpart).filledOr (.obj (by simp) (by simp))

theorem wellFormed_contractOf {data contract : Json} (hdata : data.WellFormed)
    (h : contractOf data = .ok contract) : contract.WellFormed := by
  obtain ⟨runtime, hruntime, h⟩ := Outcome.bind_eq_ok_iff.1 h
  obtain ⟨inner, hinner, h⟩ := Outcome.bind_eq_ok_iff.1 h
  obtain ⟨outer, houter, h⟩ := Outcome.bind_eq_ok_iff.1 h
  cases h
  have hinner' := Json.wellFormed_partOrNull (wellFormed_sectionAt hdata hruntime) hinner
  exact hinner'.filledOr
    ((Json.wellFormed_partOrNull hdata houter).filledOr (.obj (by simp) (by simp)))

theorem wellFormed_listAt {v : Json} {name : String} {items : List Json} (hv : v.WellFormed)
    (h : listAt v name = .ok items) : ∀ w ∈ items, w.WellFormed := by
  obtain ⟨part, hpart, h⟩ := Outcome.bind_eq_ok_iff.1 h
  split at h
  · exact Json.wellFormed_itemsOver (Json.wellFormed_partOrNull hv hpart) h
  · cases h
    simp

/-- Named values of a catalog are regular and well formed. -/
theorem namedAt_spec {v : Json} {name : String} {fields : Fields} (hv : v.WellFormed)
    (h : namedAt v name = .ok fields) :
    Assoc.Regular fields ∧ ∀ e ∈ fields, e.2.WellFormed := by
  obtain ⟨part, hpart, h⟩ := Outcome.bind_eq_ok_iff.1 h
  split at h
  · obtain ⟨es, hes, h⟩ := Outcome.bind_eq_ok_iff.1 h
    cases h
    have hspec := Json.entries_spec (Json.wellFormed_partOrNull hv hpart) hes
    exact ⟨Assoc.Regular.nil.overlay fun e he => (hspec e he).1,
      Assoc.mem_overlay_value (by simp) fun e he => (hspec e he).2⟩
  · cases h
    exact ⟨.nil, by simp⟩

theorem wellFormed_readRule {index : Nat} {item : Json} {s s' : Findings} {r : DerivedRule}
    (hitem : item.WellFormed) (h : (readRule index item).run s = .ok (some r, s')) :
    r.value.WellFormed := by
  unfold readRule at h
  obtain ⟨target, s₁, -, h⟩ := Build.run_bind_eq_ok_iff.1 h
  obtain ⟨setWhen, s₂, -, h⟩ := Build.run_bind_eq_ok_iff.1 h
  split at h
  · exact absurd h Build.run_reject_ne_some
  · obtain ⟨value, s₃, hvalue, h⟩ := Build.run_bind_eq_ok_iff.1 h
    obtain ⟨mapsTo, s₄, -, h⟩ := Build.run_bind_eq_ok_iff.1 h
    cases h
    exact Json.wellFormed_partOrNull hitem (Build.run_lift_eq_ok_iff.1 hvalue).1

theorem wellFormed_collect_readRule {index : Nat} {items : List Json} {s s' : Findings}
    {rules : List DerivedRule} (hitems : ∀ v ∈ items, v.WellFormed)
    (h : (Build.collect readRule index items).run s = .ok (rules, s')) :
    ∀ r ∈ rules, r.value.WellFormed := by
  induction items generalizing index s rules with
  | nil =>
    cases h
    simp
  | cons item rest ih =>
    obtain ⟨r?, s₁, hr, h⟩ := Build.run_bind_eq_ok_iff.1 h
    obtain ⟨rs, s₂, hrs, h⟩ := Build.run_bind_eq_ok_iff.1 h
    cases h
    intro r hmem
    rcases List.mem_append.1 hmem with hmem | hmem
    · cases r? with
      | none => cases hmem
      | some r' =>
        rw [Option.toList_some, List.mem_singleton] at hmem
        rw [hmem]
        exact wellFormed_readRule (hitems item List.mem_cons_self) hr
    · exact ih (fun v hv => hitems v (List.mem_cons_of_mem item hv)) hrs r hmem

/-- The limits of a question are taken from its entry as they are. -/
theorem constraints_of_readQuestion {before : Assoc Json Question} {index : Nat} {item : Json}
    {s s' : Findings} {q : Question}
    (h : (readQuestion before index item).run s = .ok (some q, s')) :
    item.partOrNull "constraints" = .ok q.constraints := by
  obtain ⟨qid, fieldKey, dataType, requirement, path, -, -, -, -, hq⟩ := exists_questionOf h
  unfold questionOf at hq
  -- audience, stage, prompt, kind and the two steps of the options are read before the limits
  iterate 6 obtain ⟨_, -, hq⟩ := Outcome.bind_eq_ok_iff.1 hq
  obtain ⟨constraints, hconstraints, hq⟩ := Outcome.bind_eq_ok_iff.1 hq
  repeat obtain ⟨_, -, hq⟩ := Outcome.bind_eq_ok_iff.1 hq
  cases hq
  exact hconstraints

theorem wellFormed_constraints_readQuestions {before questions : Assoc Json Question}
    {index : Nat} {items : List Json} {s s' : Findings}
    (hbefore : ∀ e ∈ before, e.2.constraints.WellFormed) (hitems : ∀ v ∈ items, v.WellFormed)
    (h : (readQuestions before index items).run s = .ok (questions, s')) :
    ∀ e ∈ questions, e.2.constraints.WellFormed := by
  induction items generalizing before index s with
  | nil =>
    cases h
    exact hbefore
  | cons item rest ih =>
    obtain ⟨hitem, hrest⟩ := List.forall_mem_cons.1 hitems
    obtain ⟨q?, s₁, hq, h⟩ := Build.run_bind_eq_ok_iff.1 h
    cases q? with
    | none => exact ih hbefore hrest h
    | some q =>
      have hconstraints := Json.wellFormed_partOrNull hitem (constraints_of_readQuestion hq)
      refine ih ?_ hrest h
      exact List.forall_mem_append.2 ⟨hbefore, List.forall_mem_singleton.2 hconstraints⟩

/-- Placing questions in a stage changes nothing else of them. -/
theorem placed_of_placeQuestions {stageKey : Json} {ids : List Json}
    {questions questions' : Assoc Json Question}
    (h : placeQuestions stageKey ids questions = .ok questions') :
    ∀ e ∈ questions', ∃ d ∈ questions, ∃ stage, e.2 = { d.2 with stageKey := stage } := by
  induction ids generalizing questions with
  | nil =>
    cases h
    exact fun e he => ⟨e, he, e.2.stageKey, rfl⟩
  | cons id rest ih =>
    obtain ⟨qid, -, h⟩ := Outcome.bind_eq_ok_iff.1 h
    cases hfound : Assoc.valueAt? qid questions with
    | none =>
      rw [hfound] at h
      exact ih h
    | some q =>
      rw [hfound] at h
      dsimp only at h
      split at h
      · exact ih h
      · intro e he
        obtain ⟨d, hd, stage, heq⟩ := ih h e he
        rcases Assoc.mem_put hfound hd with hd | ⟨hvalue, d', hd', -, hq⟩
        · exact ⟨d, hd, stage, heq⟩
        · exact ⟨d', hd', stage, by rw [heq, hvalue, hq]⟩

theorem placed_of_placeAll {stages : List Stage} {questions questions' : Assoc Json Question}
    (h : placeAll stages questions = .ok questions') :
    ∀ e ∈ questions', ∃ d ∈ questions, ∃ stage, e.2 = { d.2 with stageKey := stage } := by
  induction stages generalizing questions with
  | nil =>
    cases h
    exact fun e he => ⟨e, he, e.2.stageKey, rfl⟩
  | cons s rest ih =>
    obtain ⟨placed, hplaced, h⟩ := Outcome.bind_eq_ok_iff.1 h
    intro e he
    obtain ⟨d, hd, stage, heq⟩ := ih h e he
    obtain ⟨d', hd', stage', heq'⟩ := placed_of_placeQuestions hplaced d hd
    exact ⟨d', hd', stage, by rw [heq, heq']⟩

/-- What a catalog takes over from its data. -/
theorem values_of_read {data : Json} {c : Catalog} {s s' : Findings} (hdata : data.WellFormed)
    (h : (read data).run s = .ok (c, s')) :
    (Assoc.Regular c.defaults ∧ ∀ e ∈ c.defaults, e.2.WellFormed) ∧
      (∀ r ∈ c.derivedRules, r.value.WellFormed) ∧
      ∀ e ∈ c.questions, e.2.constraints.WellFormed := by
  unfold read at h
  obtain ⟨about, s₁, -, h⟩ := Build.run_bind_eq_ok_iff.1 h
  obtain ⟨name, s₂, -, h⟩ := Build.run_bind_eq_ok_iff.1 h
  obtain ⟨version, s₃, -, h⟩ := Build.run_bind_eq_ok_iff.1 h
  obtain ⟨contract, s₄, hcontract, h⟩ := Build.run_bind_eq_ok_iff.1 h
  -- defaults and rules are parts of the contract
  have contractWellFormed :=
    wellFormed_contractOf hdata (Build.run_lift_eq_ok_iff.1 hcontract).1
  obtain ⟨defaults, s₅, hdefaults, h⟩ := Build.run_bind_eq_ok_iff.1 h
  have defaultsSpec := namedAt_spec contractWellFormed (Build.run_lift_eq_ok_iff.1 hdefaults).1
  obtain ⟨messages, s₆, -, h⟩ := Build.run_bind_eq_ok_iff.1 h
  obtain ⟨exempt, s₇, -, h⟩ := Build.run_bind_eq_ok_iff.1 h
  obtain ⟨items, s₈, hitems, h⟩ := Build.run_bind_eq_ok_iff.1 h
  obtain ⟨questions, s₉, hquestions, h⟩ := Build.run_bind_eq_ok_iff.1 h
  have questionsSpec := wellFormed_constraints_readQuestions (by simp)
    (wellFormed_listAt hdata (Build.run_lift_eq_ok_iff.1 hitems).1) hquestions
  obtain ⟨items', s₁₀, -, h⟩ := Build.run_bind_eq_ok_iff.1 h
  obtain ⟨stages, s₁₁, -, h⟩ := Build.run_bind_eq_ok_iff.1 h
  obtain ⟨placed, s₁₂, hplaced, h⟩ := Build.run_bind_eq_ok_iff.1 h
  have placedSpec : ∀ e ∈ placed, e.2.constraints.WellFormed := by
    intro e he
    obtain ⟨d, hd, stage, heq⟩ := placed_of_placeAll (Build.run_lift_eq_ok_iff.1 hplaced).1 e he
    rw [heq]
    exact questionsSpec d hd
  obtain ⟨moduleItems, s₁₃, -, h⟩ := Build.run_bind_eq_ok_iff.1 h
  obtain ⟨modules, s₁₄, -, h⟩ := Build.run_bind_eq_ok_iff.1 h
  obtain ⟨ruleItems, s₁₅, hruleItems, h⟩ := Build.run_bind_eq_ok_iff.1 h
  obtain ⟨rules, s₁₆, hrules, h⟩ := Build.run_bind_eq_ok_iff.1 h
  have rulesSpec := wellFormed_collect_readRule
    (wellFormed_listAt contractWellFormed (Build.run_lift_eq_ok_iff.1 hruleItems).1) hrules
  -- what is read from here on is not looked at
  repeat obtain ⟨_, _, -, h⟩ := Build.run_bind_eq_ok_iff.1 h
  cases h
  exact ⟨defaultsSpec, rulesSpec, placedSpec⟩

/-- The provisional values of a loaded catalog. -/
theorem Loaded.defaults {c : Catalog} (loaded : c.Loaded) :
    Assoc.Regular c.defaults ∧ ∀ e ∈ c.defaults, e.2.WellFormed := by
  obtain ⟨data, source, warnings, hdata, h⟩ := loaded
  obtain ⟨s, s', hread⟩ := exists_read h
  exact (values_of_read hdata hread).1

/-- The values that the rules of a loaded catalog derive. -/
theorem Loaded.rules {c : Catalog} (loaded : c.Loaded) :
    ∀ r ∈ c.derivedRules, r.value.WellFormed := by
  obtain ⟨data, source, warnings, hdata, h⟩ := loaded
  obtain ⟨s, s', hread⟩ := exists_read h
  exact (values_of_read hdata hread).2.1

/-- The limits that the questions of a loaded catalog have. -/
theorem Loaded.constraints {c : Catalog} (loaded : c.Loaded) :
    ∀ e ∈ c.questions, e.2.constraints.WellFormed := by
  obtain ⟨data, source, warnings, hdata, h⟩ := loaded
  obtain ⟨s, s', hread⟩ := exists_read h
  exact (values_of_read hdata hread).2.2

end Catalog

end Questionnaire
