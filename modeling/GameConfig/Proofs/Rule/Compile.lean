import GameConfig.Rule.RuleSet
import Mathlib.Data.List.Forall2

/-
  What compiled rules are made of.

  One lemma for each kind of rule says when a tag compiles and to what; those
  for lists of tags, types and fields put them together.  A rule about names is
  the only one that looks at the bean for which it is compiled, and all that it
  takes from there is the namespace.

  * `compileNames_eq_ok` and its siblings: one kind of rule for one type;
  * `compileTags_eq_ok`: a list of tags, as the list `asked` of what it asks for;
  * `RuleTree.ofField_eq_ok`: a field, from its type and its own tags.
-/

namespace GameConfig

/-! ## One kind after the other -/

namespace Rule

variable {site : Site} {ty : Ty} {argument : String} {rule : Rule}

/-- The rule that a text names a bean or one of its descendants. -/
def namesOf (s : Schema) (id : Nat) : Rule :=
  let base := s.bean id
  .names base.fullName (base.family.flatMap (spellings s base.space))
    (base.family.map fun i => (s.bean i).name)

/-- The values of the type are texts. -/
def isString : Ty → Bool
  | .scalar _ .string => true
  | _ => false

theorem compileNames_eq_ok : compileNames site ty argument = .ok rule ↔
    (Text.trimmed argument).isEmpty = false ∧ isString ty = true ∧
      ∃ id, site.schema.findType? (Text.trimmed argument) (some site.bean.space) =
        some (.bean id) ∧ namesOf site.schema id = rule := by
  unfold compileNames
  dsimp only
  split
  case isTrue hempty => simp [hempty]
  case isFalse hempty =>
    have hne : (Text.trimmed argument).isEmpty = false := by simpa using hempty
    split
    case h_1 hf => simp [hf]
    case h_2 hf => simp [hf]
    case h_3 id hf =>
      split
      case h_1 => simp [hne, hf, isString, namesOf]
      case h_2 hty =>
        have hns : isString ty = false := by
          unfold isString
          split
          · exact absurd rfl (hty _)
          · rfl
        simp [hns]

theorem compileRange_eq_ok : compileRange site ty argument = .ok rule ↔
    ∃ mark kind range, ty = .scalar mark kind ∧ ty.isNumeric = true ∧
      rangeFor? kind argument = some range ∧ within range = rule := by
  cases ty with
  | scalar mark kind =>
    unfold compileRange
    dsimp only
    split
    case isTrue hnum =>
      cases hr : rangeFor? kind argument with
      | none => simp [hr]
      | some range =>
        constructor
        · intro h
          cases h
          exact ⟨mark, kind, range, rfl, hnum, hr, rfl⟩
        · rintro ⟨_, _, _, hty, -, hr', rfl⟩
          cases hty
          cases hr.symm.trans hr'
          rfl
    case isFalse hnum => simp [hnum]
  | named mark ref => simp [compileRange]
  | seq mark kind elem => simp [compileRange]
  | map mark key value => simp [compileRange]

theorem compileSize_eq_ok : compileSize site ty argument = .ok rule ↔
    isSized ty = true ∧ ∃ i, sizes? argument = some i ∧ sized i = rule := by
  unfold compileSize
  split
  case isTrue hty => cases hi : sizes? argument <;> simp [hty]
  case isFalse hty => simp [hty]

theorem compileRegex_eq_ok : compileRegex site ty argument = .ok rule ↔
    isTextual ty = true ∧ ∃ regex, Pattern.Regex.read? argument = some regex ∧
      matching argument regex = rule := by
  unfold compileRegex
  split
  case isTrue hty => cases hr : Pattern.Regex.read? argument <;> simp [hty]
  case isFalse hty => simp [hty]

theorem compileSet_eq_ok : compileSet site ty argument = .ok rule ↔
    listed argument ≠ [] ∧ ∃ allowed,
      allowed? site.schema (listed argument) ty = some (.ok allowed) ∧
        oneOf allowed (", ".intercalate (listed argument)) = rule := by
  unfold compileSet
  cases hl : listed argument with
  | nil => simp
  | cons item items =>
    dsimp only
    split
    case h_1 ha => simp [ha]
    case h_2 bad ha => simp [ha]
    case h_3 allowed ha => simp [ha]

end Rule

theorem RuleKind.compile_constructor_eq_ok {site : Site} {ty : Ty} {argument : String}
    {rule : Rule} : RuleKind.constructor.compile site ty argument = .ok rule ↔
      (Text.trimmed argument).isEmpty = false ∧ Rule.isString ty = true ∧
        ∃ id, site.schema.findType? (Text.trimmed argument) (some site.bean.space) =
          some (.bean id) ∧ Rule.namesOf site.schema id = rule := by
  rw [compile, Rule.compileNames_eq_ok]

/-- A rule that is not about names does not look at the bean for which it is compiled. -/
theorem RuleKind.compile_of_ne_constructor {s : Schema} {a b : BeanDef} {f : Field} {ty : Ty}
    {argument : String} {kind : RuleKind} {rule : Rule} (hk : kind ≠ .constructor) :
    kind.compile ⟨s, a, f⟩ ty argument = .ok rule ↔
      kind.compile ⟨s, b, f⟩ ty argument = .ok rule := by
  cases kind with
  | constructor => exact absurd rfl hk
  | range => exact Rule.compileRange_eq_ok.trans Rule.compileRange_eq_ok.symm
  | size => exact Rule.compileSize_eq_ok.trans Rule.compileSize_eq_ok.symm
  | regex => exact Rule.compileRegex_eq_ok.trans Rule.compileRegex_eq_ok.symm
  | set =>
    show Rule.compileSet ⟨s, a, f⟩ ty argument = .ok rule ↔
      Rule.compileSet ⟨s, b, f⟩ ty argument = .ok rule
    rw [Rule.compileSet_eq_ok, Rule.compileSet_eq_ok]

/-! ## Tags -/

/-- What a list of tags asks for, in order: kinds of rules and their arguments. -/
def asked (registry : Registry) (tags : Tags) : List (RuleKind × String) :=
  tags.filterMap fun t => (Assoc.find? t.1 registry).map fun kind => (kind, t.2)

section

variable {site : Site} {registry : Registry}

theorem compileTags_eq_ok {ty : Ty} {tags : Tags} {rules : List Rule} :
    compileTags site registry ty tags = .ok rules ↔
      List.Forall₂ (fun ask rule => ask.1.compile site ty ask.2 = .ok rule)
        (asked registry tags) rules := by
  induction tags generalizing rules with
  | nil => cases rules <;> simp [compileTags, asked]
  | cons tag tags ih =>
    obtain ⟨key, argument⟩ := tag
    rw [compileTags]
    cases hk : Assoc.find? key registry with
    | none =>
      have hasked : asked registry ((key, argument) :: tags) = asked registry tags := by
        simp [asked, hk]
      rw [hasked]
      exact ih
    | some kind =>
      have hasked : asked registry ((key, argument) :: tags) =
          (kind, argument) :: asked registry tags := by
        simp [asked, hk]
      rw [hasked, List.forall₂_cons_left_iff]
      dsimp only
      cases hc : kind.compile site ty argument with
      | error e => simp
      | ok rule =>
        cases hrest : compileTags site registry ty tags with
        | error e =>
          refine iff_of_false (by simp) ?_
          rintro ⟨_, rest, -, hrules, -⟩
          rw [← ih, hrest] at hrules
          cases hrules
        | ok rest =>
          constructor
          · intro h
            cases h
            exact ⟨rule, rest, rfl, ih.1 hrest, rfl⟩
          · rintro ⟨rule', rest', hrule, hrules, rfl⟩
            rw [← ih, hrest] at hrules
            cases hrule
            cases hrules
            rfl

/-! ## Types and fields -/

namespace RuleTree

variable {mark : Mark} {tree : RuleTree}

theorem ofTy_scalar_eq_ok {kind : Scalar} :
    ofTy site registry (.scalar mark kind) = .ok tree ↔
      ∃ rules, compileTags site registry (.scalar mark kind) mark.tags = .ok rules ∧
        leaf rules = tree := by
  simp only [ofTy, Ty.tags, Ty.mark]
  cases compileTags site registry (.scalar mark kind) mark.tags <;> simp

theorem ofTy_enum_eq_ok {id : Nat} :
    ofTy site registry (.named mark (.enum id)) = .ok tree ↔
      ∃ rules, compileTags site registry (.named mark (.enum id)) mark.tags = .ok rules ∧
        leaf rules = tree := by
  simp only [ofTy, Ty.tags, Ty.mark]
  cases compileTags site registry (.named mark (.enum id)) mark.tags <;> simp

theorem ofTy_bean_eq_ok {id : Nat} :
    ofTy site registry (.named mark (.bean id)) = .ok tree ↔
      ∃ rules, compileTags site registry (.named mark (.bean id)) mark.tags = .ok rules ∧
        bean rules = tree := by
  simp only [ofTy, Ty.tags, Ty.mark]
  cases compileTags site registry (.named mark (.bean id)) mark.tags <;> simp

theorem ofTy_seq_eq_ok {kind : SeqKind} {elem : Ty} :
    ofTy site registry (.seq mark kind elem) = .ok tree ↔
      ∃ rules e, compileTags site registry (.seq mark kind elem) mark.tags = .ok rules ∧
        ofTy site registry elem = .ok e ∧ seq rules kind e = tree := by
  rw [ofTy]
  simp only [Ty.tags, Ty.mark]
  cases compileTags site registry (.seq mark kind elem) mark.tags with
  | error e => simp
  | ok rules => cases ofTy site registry elem <;> simp

theorem ofTy_map_eq_ok {key value : Ty} :
    ofTy site registry (.map mark key value) = .ok tree ↔
      ∃ rules k v, compileTags site registry (.map mark key value) mark.tags = .ok rules ∧
        ofTy site registry key = .ok k ∧ ofTy site registry value = .ok v ∧
          map rules k v = tree := by
  rw [ofTy]
  simp only [Ty.tags, Ty.mark]
  cases compileTags site registry (.map mark key value) mark.tags with
  | error e => simp
  | ok rules =>
    cases ofTy site registry key with
    | error e => simp
    | ok k => cases ofTy site registry value <;> simp

/-- The rules of a field are those of its type and those that its own tags ask for. -/
theorem ofField_eq_ok : ofField site registry = .ok tree ↔
    ∃ inner more, ofTy site registry site.field.ty = .ok inner ∧
      compileTags site registry site.field.ty site.field.tags = .ok more ∧
        inner.add more = tree := by
  unfold ofField
  cases ofTy site registry site.field.ty with
  | error e => simp
  | ok inner => cases compileTags site registry site.field.ty site.field.tags <;> simp

/-- As many more rules make the same tree only if they are the same. -/
theorem add_inj {t t' : RuleTree} {more more' : List Rule} (hlen : more.length = more'.length) :
    t.add more = t'.add more' ↔ t = t' ∧ more = more' := by
  constructor
  · intro h
    cases t <;> cases t' <;> simp only [add, reduceCtorEq, leaf.injEq, bean.injEq, seq.injEq,
      map.injEq] at h ⊢
    case leaf.leaf => exact List.append_inj' h hlen
    case bean.bean => exact List.append_inj' h hlen
    case seq.seq =>
      obtain ⟨h, rest⟩ := h
      obtain ⟨hrules, hmore⟩ := List.append_inj' h hlen
      exact ⟨⟨hrules, rest⟩, hmore⟩
    case map.map =>
      obtain ⟨h, rest⟩ := h
      obtain ⟨hrules, hmore⟩ := List.append_inj' h hlen
      exact ⟨⟨hrules, rest⟩, hmore⟩
  · rintro ⟨rfl, rfl⟩
    rfl

end RuleTree

end

end GameConfig
