import Questionnaire.Proofs.Condition.Completeness
import Questionnaire.Proofs.Condition.Names
import Questionnaire.Proofs.Condition.Tiling
import Questionnaire.Proofs.Json.Spelling

/-!
# What a condition depends on

The names in a tree are among the tokens that it was read from, and a token that is a name consists
of parts with points between them.  Such a name stands for the field that it names, or for what the
path that it spells leads to, which starts at its first part.  So a condition depends on these two
fields only, for each of its names.

## Main Definitions

* `Fields.firstComponent` - the part of a name in front of its first point
* `Fields.AgreeOn` - named values that agree on a name and on its first component
* `Condition.Mentions` - the names in what a derivation stands for are among its tokens

## Main Statements

* `Condition.spelled_of_mem_names` - how the names in a tree are spelled
* `Condition.get_eq_resolve` - a dotted name that is no field is followed as a path
* `Condition.evaluateWith_depends_on_names` - a condition depends only on the fields that it names
-/

namespace Questionnaire

namespace Fields

/-- The part of a name in front of its first point, all of it if there is none. -/
def firstComponent (name : String) : String :=
  String.ofList (name.toList.takeWhile (· != '.'))

/-- Named values agree on a name: they hold the same under it, or both hold nothing, and if it is
dotted they do so under its first component too. -/
structure AgreeOn (name : String) (fields fields' : Fields) : Prop where
  /-- They agree on the name as a whole. -/
  whole : Assoc.valueAt? (.str name) fields = Assoc.valueAt? (.str name) fields'
  /-- They agree on the first component of a dotted name. -/
  first (dotted : '.' ∈ name.toList) : Assoc.valueAt? (.str (firstComponent name)) fields =
    Assoc.valueAt? (.str (firstComponent name)) fields'

end Fields

namespace Condition

/-! ## The names in a tree -/

/-- The names in what a derivation stands for are among its tokens, or in the tree to its left. -/
def Mentions : {s : Phrase} → Derivation s → Prop
  | .disjunction, d => ∀ name ∈ d.tree.names, .name name ∈ d.word
  | .disjuncts, d => ∀ left, ∀ name ∈ (d.tree left).names, name ∈ left.names ∨ .name name ∈ d.word
  | .conjunction, d => ∀ name ∈ d.tree.names, .name name ∈ d.word
  | .conjuncts, d => ∀ left, ∀ name ∈ (d.tree left).names, name ∈ left.names ∨ .name name ∈ d.word
  | .negation, d => ∀ name ∈ d.tree.names, .name name ∈ d.word
  | .relations, d => ∀ left, ∀ name ∈ (d.tree left).names, name ∈ left.names ∨ .name name ∈ d.word
  | .atom, d => ∀ name ∈ d.tree.names, .name name ∈ d.word

theorem Relation.names_apply (op : Relation) (l r : Expr) :
    (op.apply l r).names = l.names ++ r.names := by
  cases op <;> rfl

theorem mentions {s : Phrase} (d : Derivation s) : Mentions d := by
  -- an operator with its right operand, and what goes on behind it
  have behind {name : String} {left next : Expr} {sign : Lexeme} {word more : List Lexeme}
      (ih : ∀ name ∈ next.names, Lexeme.name name ∈ word)
      (h : name ∈ left.names ++ next.names ∨ Lexeme.name name ∈ more) :
      name ∈ left.names ∨ Lexeme.name name ∈ sign :: (word ++ more) := by
    rcases h with h | h
    · rcases List.mem_append.1 h with h | h
      · exact .inl h
      · exact .inr (List.mem_cons_of_mem _ (List.mem_append_left _ (ih name h)))
    · exact .inr (List.mem_cons_of_mem _ (List.mem_append_right _ h))
  induction d with
  | disjunction first more ihFirst ihMore | conjunction first more ihFirst ihMore
  | comparison first more ihFirst ihMore =>
    intro name hname
    rcases ihMore _ name hname with h | h
    · exact List.mem_append_left _ (ihFirst name h)
    · exact List.mem_append_right _ h
  | noDisjunct | noConjunct | noRelation =>
    intro left name hname
    exact .inl hname
  | disjunct w next more ihNext ihMore | conjunct w next more ihNext ihMore =>
    intro left name hname
    exact behind ihNext (ihMore _ name hname)
  | relation op next more ihNext ihMore =>
    intro left name hname
    have h := ihMore _ name hname
    rw [op.names_apply] at h
    exact behind ihNext h
  | lastNot op w operand ih =>
    intro left name hname
    have h : name ∈ left.names ++ (Expr.not operand.tree).names := op.names_apply left _ ▸ hname
    rcases List.mem_append.1 h with h | h
    · exact .inl h
    · exact .inr (List.mem_cons_of_mem _ (List.mem_cons_of_mem _ (ih name h)))
  | not w operand ih =>
    intro name hname
    exact List.mem_cons_of_mem _ (ih name hname)
  | constant | negative => nofun
  | field name =>
    intro name' hname
    cases List.mem_singleton.1 hname
    exact List.mem_cons_self
  | presentCall head h x ih =>
    intro name hname
    simp [Derivation.word, ih name hname]
  | includesCall head h c n ihContainer ihNeedle =>
    intro name hname
    rcases List.mem_append.1 hname with hname | hname
    · simp [Derivation.word, ihContainer name hname]
    · simp [Derivation.word, ihNeedle name hname]
  | group inner ih =>
    intro name hname
    simp [Derivation.word, ih name hname]

theorem eq_of_wordLexeme_eq_name {written name : String} (h : wordLexeme written = .name name) :
    written = name := by
  unfold wordLexeme keyword? at h
  split at h <;> cases h
  rfl

/-- No delimiter of a path is a word character. -/
theorem isDelimiter_of_isWord {c : Char} (h : Unicode.isWord c = true) :
    Path.isDelimiter c = false := by
  have apart {d : Char} (hd : Unicode.isWord d = false) : (c == d) = false := by
    rw [beq_eq_false_iff_ne]
    rintro rfl
    cases hd.symm.trans h
  simp only [Path.isDelimiter, apart (by decide +kernel : Unicode.isWord '[' = false),
    apart (by decide +kernel : Unicode.isWord '.' = false),
    apart (by decide +kernel : Unicode.isWord ']' = false), Bool.or_self]

theorem ne_point_of_isWord {c : Char} (h : Unicode.isWord c = true) : (c == '.') = false := by
  rw [beq_eq_false_iff_ne]
  rintro rfl
  cases isDelimiter_of_isWord h

/-- Parts with points between them have the form of a name. -/
theorem isIdentifier_of_parts {name : String} {c : Char} {cs : List Char} {parts : List (List Char)}
    (hname : name.toList = c :: cs ++ parts.flatMap ('.' :: ·)) (hfirst : IsPart (c :: cs))
    (hdigit : Unicode.isDigit c = false) (hparts : ∀ part ∈ parts, IsPart part) :
    isIdentifier name = true := by
  have hall : ∀ part ∈ (c :: cs) :: parts, IsPart part := List.forall_mem_cons.2 ⟨hfirst, hparts⟩
  have hpoint : ∀ part ∈ (c :: cs) :: parts, '.' ∉ part := by
    intro part hpart hmem
    cases ne_point_of_isWord ((hall part hpart).2 '.' hmem)
  have hsplit : name.toList.splitOn '.' = (c :: cs) :: parts := by
    rw [hname, ← intercalate_point, List.splitOn_intercalate '.' hpoint (List.cons_ne_nil _ _)]
  refine Bool.and_eq_true_iff.2 ⟨?_, ?_⟩
  · rw [hsplit, List.all_eq_true]
    intro part hpart
    simpa [IsPart] using hall part hpart
  · rw [hname]
    simpa using hdigit

theorem isIdentifier_of_isSlice {slice : List Char} {name : String}
    (h : IsSlice slice (.name name)) : isIdentifier name = true := by
  generalize hl : Lexeme.name name = l at h
  cases h with
  | quoted => cases hl
  | number => cases hl
  | operator h =>
    subst hl
    simp [operators] at h
  | word hfirst hdigit hparts =>
    rw [← eq_of_wordLexeme_eq_name hl.symm]
    exact isIdentifier_of_parts String.toList_ofList hfirst hdigit hparts

/-- The names in a tree that was read have the form of names. -/
theorem isIdentifier_of_mem_names {text name : String} {tree : Expr} (h : parse text = .ok tree)
    (hname : name ∈ tree.names) : isIdentifier name = true := by
  unfold parse at h
  cases htokens : tokens text with
  | error e =>
    rw [htokens] at h
    cases h
  | ok ts =>
    rw [htokens] at h
    obtain ⟨d, hword, rfl⟩ := treeOf_eq_ok_iff.1 h
    have hlexeme : Lexeme.name name ∈ lexemes ts := hword ▸ mentions d name hname
    obtain ⟨t, ht, hname⟩ := List.mem_map.1 hlexeme
    obtain ⟨slice, behind, -, longest⟩ := (tokens_eq_ok_iff.1 htokens).exists_slice ht
    exact isIdentifier_of_isSlice (hname ▸ longest.isSlice)

theorem isIdentifier_of_mem_namesIn {condition : Json} {name : String}
    (hname : name ∈ namesIn condition) : isIdentifier name = true := by
  cases condition with
  | str s =>
    rw [namesIn, textNames] at hname
    split at hname
    · next htree => exact isIdentifier_of_mem_names htree hname
    · cases hname
  | _ => cases hname

/-! ## The path that a name spells -/

theorem keySegment_of_isPart {part : List Char} (h : IsPart part) :
    Path.keySegment part = [.key (String.ofList part)] := by
  have htrim : Text.trimChars part = part :=
    Text.trimChars_eq_self fun c hc => Unicode.isBlank_of_isWord (h.2 c hc)
  have given : part.isEmpty = false := by simpa using h.1
  simp only [Path.keySegment, htrim, given]
  rfl

/-- The path that a name spells starts at its first component. -/
theorem exists_keys_of_isIdentifier {name : String} (h : isIdentifier name = true) :
    ∃ rest, Path.keys name = .key (Fields.firstComponent name) :: rest := by
  obtain ⟨c, cs, parts, hname, hfirst, -, -⟩ := exists_parts h
  have hcomponent : Fields.firstComponent name = String.ofList (c :: cs) := by
    have hkeep : ∀ d ∈ c :: cs, (d != '.') = true := by
      intro d hd
      rw [bne, ne_point_of_isWord (hfirst.2 d hd), Bool.not_false]
    rw [Fields.firstComponent, hname, List.takeWhile_append_of_pos hkeep]
    cases parts <;> simp
  have hsingle : Text.splitWhere (· == '.') (c :: cs) = [c :: cs] :=
    Text.splitWhere_eq_singleton fun d hd => ne_point_of_isWord (hfirst.2 d hd)
  rw [hcomponent, Path.keys, hname]
  cases parts with
  | nil =>
    rw [List.flatMap_nil, List.append_nil, hsingle, List.flatMap_singleton,
      keySegment_of_isPart hfirst]
    exact ⟨[], rfl⟩
  | cons part parts =>
    have hbehind : (part :: parts).flatMap ('.' :: ·) =
        '.' :: (part ++ parts.flatMap ('.' :: ·)) := rfl
    rw [hbehind, Text.splitWhere_append_cons (p := (· == '.')) rfl, hsingle, List.flatMap_append,
      List.flatMap_singleton, keySegment_of_isPart hfirst]
    exact ⟨_, rfl⟩

/-- A dotted name that is no member of an object is followed as a path into it. -/
theorem get_eq_resolve {ms : Object} {name : String} (h : isIdentifier name = true)
    (dotted : '.' ∈ name.toList) (absent : Assoc.valueAt? name ms = none) :
    Path.get (.obj ms) name = .ok ((Fields.ofObject ms).resolve name) := by
  have hpoint : ∀ c ∈ name.toList, Path.isDelimiter c = (c == '.') := by
    intro c hc
    rcases isWord_or_point h hc with hword | rfl
    · rw [isDelimiter_of_isWord hword, ne_point_of_isWord hword]
    · rfl
  obtain ⟨rest, hkeys⟩ := exists_keys_of_isIdentifier h
  have contains : name.toList.contains '.' = true := by simpa using dotted
  simp only [Path.get, Path.parse_eq_keys hpoint, hkeys, Fields.resolve, Fields.valueAt?_ofObject,
    absent, contains, if_true]
  rfl

/-! ## Agreement -/

section Agreement

variable {fields fields' : Fields}

theorem resolve_eq_of_agreeOn {name : String} (h : isIdentifier name = true)
    (agree : Fields.AgreeOn name fields fields') : fields.resolve name = fields'.resolve name := by
  obtain ⟨rest, hkeys⟩ := exists_keys_of_isIdentifier h
  apply Fields.resolve_congr
  intro k hk
  rcases List.mem_cons.1 hk with rfl | hk
  · exact agree.whole
  · split at hk
    · next contains =>
      rw [hkeys] at hk
      cases List.mem_singleton.1 hk
      exact agree.first (by simpa using contains)
    · cases hk

/-- A condition depends only on the fields that it names: where two collections of named values
agree on each of its names, it comes to the same and hands the same to the receiver of reports. -/
theorem evaluateWith_depends_on_names {ε σ : Type} (sink : Sink ε σ) (condition : Json)
    (agree : ∀ name ∈ namesIn condition, Fields.AgreeOn name fields fields') :
    evaluateWith sink condition (lookupIn fields) =
      evaluateWith sink condition (lookupIn fields') := by
  have same : evaluate condition (lookupIn fields) = evaluate condition (lookupIn fields') := by
    apply evaluate_congr
    intro name hname
    exact congrArg Except.ok
      (resolve_eq_of_agreeOn (isIdentifier_of_mem_namesIn hname) (agree name hname))
  rw [evaluateWith, evaluateWith, same]

/-- Where a field that is not named changes and another is added, nothing else is noticed. -/
theorem evaluateWith_depends_on_names_age :
    let condition : Json := .str "insured.age >= 40 and consent = true"
    let fields : Fields := [(.str "insured", .obj [("age", .int 45)]), (.str "consent", .bool true)]
    let fields' : Fields := [(.str "status", .str "draft"), (.str "consent", .bool true),
      (.str "insured", .obj [("age", .int 45)])]
    let sink : Sink Unit (List String) := fun report => modify (report.expression :: ·)
    namesIn condition = ["insured.age", "consent"] ∧
      evaluateWith sink condition (lookupIn fields) =
        evaluateWith sink condition (lookupIn fields') := by
  intro condition fields fields' sink
  have names : namesIn condition = ["insured.age", "consent"] := by decide +kernel
  refine ⟨names, evaluateWith_depends_on_names sink condition ?_⟩
  rw [names]
  intro name hname
  simp only [List.mem_cons, List.not_mem_nil, or_false] at hname
  rcases hname with rfl | rfl
  · exact ⟨rfl, fun _ => rfl⟩
  · exact ⟨rfl, fun _ => rfl⟩

end Agreement

end Condition

end Questionnaire
