import Questionnaire.Condition.Evaluation

/-!
# The names in a condition

A condition looks at a field when one of its names is the field, or spells a path that starts there.
It holds over all named values alike that agree on these fields.

## Main Definitions

* `Condition.Expr.names` - the names in a tree
* `Condition.namesIn`, `Condition.reads` - the names in a condition and the fields that it looks at

## Main Statements

* `Condition.evaluate_congr` - a condition depends only on what its names stand for
* `Condition.holds_congr` - a condition depends only on the fields that it looks at
-/

namespace Questionnaire

/-- The fields that a name may stand for: the one that it names, and the one that a path of it
starts with. -/
def Fields.keysOf (name : String) : List String :=
  name :: if name.toList.contains '.' then
    match Path.keys name with
    | .key first :: _ => [first]
    | _ => []
  else []

theorem Fields.resolve_congr {fields fields' : Fields} {name : String}
    (h : ∀ k ∈ keysOf name, Assoc.valueAt? (.str k) fields = Assoc.valueAt? (.str k) fields') :
    fields.resolve name = fields'.resolve name := by
  unfold resolve
  rw [h name List.mem_cons_self]
  cases Assoc.valueAt? (.str name) fields' with
  | some v => rfl
  | none =>
    dsimp only
    unfold keysOf at h
    split at h
    · rename_i hdot
      rw [if_pos hdot, if_pos hdot]
      -- a path is followed from its first key only
      cases hkeys : Path.keys name with
      | nil => rfl
      | cons s rest =>
        cases s with
        | index n => rfl
        | key first =>
          rw [hkeys] at h
          dsimp only
          rw [h first (by simp)]
    · rename_i hdot
      rw [if_neg hdot, if_neg hdot]

namespace Condition

/-- The names in a tree. -/
def Expr.names : Expr → List String
  | .literal _ => []
  | .field name => [name]
  | .not x => x.names
  | .conj l r => l.names ++ r.names
  | .disj l r => l.names ++ r.names
  | .compare _ l r => l.names ++ r.names
  | .includes c n => c.names ++ n.names
  | .presentCall x => x.names
  | .includesCall c n => c.names ++ n.names

theorem Expr.eval_congr {lookup lookup' : Lookup} (tree : Expr)
    (h : ∀ name ∈ tree.names, lookup name = lookup' name) :
    tree.eval lookup = tree.eval lookup' := by
  have left {l r : Expr} (h : ∀ name ∈ l.names ++ r.names, lookup name = lookup' name) :
      ∀ name ∈ l.names, lookup name = lookup' name :=
    fun name hname => h name (List.mem_append_left _ hname)
  have right {l r : Expr} (h : ∀ name ∈ l.names ++ r.names, lookup name = lookup' name) :
      ∀ name ∈ r.names, lookup name = lookup' name :=
    fun name hname => h name (List.mem_append_right _ hname)
  induction tree with
  | literal v => rfl
  | field name => exact h name List.mem_cons_self
  | not x ih => rw [eval, eval, ih h]
  | conj l r ihl ihr => rw [eval, eval, ihl (left h), ihr (right h)]
  | disj l r ihl ihr => rw [eval, eval, ihl (left h), ihr (right h)]
  | compare op l r ihl ihr => rw [eval, eval, ihl (left h), ihr (right h)]
  | includes c n ihc ihn => rw [eval, eval, ihc (left h), ihn (right h)]
  | presentCall x ih => rw [eval, eval, ih h]
  | includesCall c n ihc ihn => rw [eval, eval, ihc (left h), ihn (right h)]

/-- The names in the text of a condition, none if it cannot be read. -/
def textNames (s : String) : List String :=
  match parse (Text.trim s) with
  | .ok tree => tree.names
  | .error _ => []

/-- The names in a condition. -/
def namesIn : Json → List String
  | .str s => textNames s
  | _ => []

/-- A condition depends only on what its names stand for. -/
theorem evaluate_congr {condition : Json} {lookup lookup' : Lookup}
    (h : ∀ name ∈ namesIn condition, lookup name = lookup' name) :
    evaluate condition lookup = evaluate condition lookup' := by
  cases condition with
  | str s =>
    show evaluateText s lookup = evaluateText s lookup'
    unfold evaluateText
    split
    · rfl
    · cases hparse : parse (Text.trim s) with
      | error e => rfl
      | ok tree =>
        have heval : tree.eval lookup = tree.eval lookup' := by
          refine tree.eval_congr fun name hname => h name ?_
          rw [namesIn, textNames, hparse]
          exact hname
        dsimp only
        rw [Expr.holds, Expr.holds, heval]
  | _ => rfl

/-- The fields that a condition looks at. -/
def reads : Json → List String
  | .str s => (textNames s).flatMap Fields.keysOf
  | _ => []

/-- A condition depends only on the fields that it looks at. -/
theorem holds_congr {condition : Json} {fields fields' : Fields}
    (h : ∀ k ∈ reads condition,
      Assoc.valueAt? (.str k) fields = Assoc.valueAt? (.str k) fields') :
    holds condition fields = holds condition fields' := by
  refine congrArg Prod.fst (evaluate_congr fun name hname => ?_)
  refine congrArg Except.ok (Fields.resolve_congr fun k hk => h k ?_)
  cases condition with
  | str s => exact List.mem_flatMap.2 ⟨name, hname, hk⟩
  | _ => cases hname

end Condition

end Questionnaire
