import GameConfig.Proofs.Rule.Compile

/-
  Rules of tags on a field or on its type.

  A tag on the type of a field is about the whole value, and so is one of the
  field's own.  Rules come from the shape of a type and not from its mark, so
  both places ask for the same rules (`ofField_placement`).
-/

namespace GameConfig

/-- The field with these tags on its type and none of its own. -/
def Field.tagsOnType (f : Field) (tags : Tags) : Field :=
  { f with ty := f.ty.withMark ⟨f.ty.nullable, tags⟩, tags := [] }

/-- The field with these tags as its own and none on its type. -/
def Field.tagsOnField (f : Field) (tags : Tags) : Field :=
  { f with ty := f.ty.withMark ⟨f.ty.nullable, []⟩, tags := tags }

section
variable {s : Schema} {b : BeanDef} {f g : Field} {ty : Ty} {registry : Registry}

/-- A rule does not look at the mark of its type, nor at the field. -/
theorem RuleKind.compile_withMark (m : Mark) {kind : RuleKind} {argument : String} {rule : Rule} :
    kind.compile ⟨s, b, f⟩ (ty.withMark m) argument = .ok rule ↔
      kind.compile ⟨s, b, g⟩ ty argument = .ok rule := by
  cases kind with
  | constructor =>
    have hstring : Rule.isString (ty.withMark m) = Rule.isString ty := by
      cases ty with
      | scalar _ k => cases k <;> rfl
      | _ => rfl
    rw [compile_constructor_eq_ok, compile_constructor_eq_ok, hstring]
  | range =>
    refine Rule.compileRange_eq_ok.trans (Iff.trans ?_ Rule.compileRange_eq_ok.symm)
    cases ty with
    | scalar mark k =>
      have hnum : (Ty.scalar m k).isNumeric = (Ty.scalar mark k).isNumeric := by cases k <;> rfl
      simp [Ty.withMark, hnum]
    | _ => simp [Ty.withMark]
  | size =>
    have hsized : Rule.isSized (ty.withMark m) = Rule.isSized ty := by
      cases ty with
      | scalar _ k => cases k <;> rfl
      | _ => rfl
    exact Rule.compileSize_eq_ok.trans (hsized ▸ Rule.compileSize_eq_ok.symm)
  | regex =>
    have htextual : Rule.isTextual (ty.withMark m) = Rule.isTextual ty := by
      cases ty with
      | scalar _ k => cases k <;> rfl
      | seq _ _ e =>
        cases e with
        | scalar _ k => cases k <;> rfl
        | _ => rfl
      | _ => rfl
    exact Rule.compileRegex_eq_ok.trans (htextual ▸ Rule.compileRegex_eq_ok.symm)
  | set =>
    have hallowed : ∀ items, Rule.allowed? s items (ty.withMark m) = Rule.allowed? s items ty := by
      intro items
      cases ty with
      | scalar _ k => cases k <;> rfl
      | named _ ref => cases ref <;> rfl
      | _ => rfl
    refine Rule.compileSet_eq_ok.trans (Iff.trans ?_ Rule.compileSet_eq_ok.symm)
    simp only [hallowed]

theorem compileTags_withMark (m : Mark) {tags : Tags} {rules : List Rule} :
    compileTags ⟨s, b, f⟩ registry (ty.withMark m) tags = .ok rules ↔
      compileTags ⟨s, b, g⟩ registry ty tags = .ok rules := by
  simp only [compileTags_eq_ok, RuleKind.compile_withMark (g := g) m]

theorem compileTags_field {tags : Tags} {rules : List Rule} :
    compileTags ⟨s, b, f⟩ registry ty tags = .ok rules ↔
      compileTags ⟨s, b, g⟩ registry ty tags = .ok rules := by
  have hmark : ty.withMark ty.mark = ty := by cases ty <;> rfl
  have h : compileTags ⟨s, b, f⟩ registry (ty.withMark ty.mark) tags = .ok rules ↔
      compileTags ⟨s, b, g⟩ registry ty tags = .ok rules := compileTags_withMark ty.mark
  rwa [hmark] at h

namespace RuleTree

variable {tree : RuleTree}

theorem ofTy_field : ofTy ⟨s, b, f⟩ registry ty = .ok tree ↔
    ofTy ⟨s, b, g⟩ registry ty = .ok tree := by
  induction ty generalizing tree with
  | scalar mark kind => simp only [ofTy_scalar_eq_ok, compileTags_field (f := f) (g := g)]
  | named mark ref =>
    cases ref with
    | bean id => simp only [ofTy_bean_eq_ok, compileTags_field (f := f) (g := g)]
    | enum id => simp only [ofTy_enum_eq_ok, compileTags_field (f := f) (g := g)]
  | seq mark kind elem ih => simp only [ofTy_seq_eq_ok, compileTags_field (f := f) (g := g), ih]
  | map mark key value ihk ihv =>
    simp only [ofTy_map_eq_ok, compileTags_field (f := f) (g := g), ihk, ihv]

/-- The tags on a type add their rules to those of its parts. -/
theorem ofTy_withMark (m : Mark) : ofTy ⟨s, b, f⟩ registry (ty.withMark m) = .ok tree ↔
    ∃ inner more, ofTy ⟨s, b, g⟩ registry (ty.withMark ⟨m.nullable, []⟩) = .ok inner ∧
      compileTags ⟨s, b, g⟩ registry ty m.tags = .ok more ∧ inner.add more = tree := by
  have hnone : ∀ ty, compileTags ⟨s, b, g⟩ registry ty [] = .ok [] := fun _ => rfl
  have hown : ∀ rules, compileTags ⟨s, b, f⟩ registry (ty.withMark m) m.tags = .ok rules ↔
      compileTags ⟨s, b, g⟩ registry ty m.tags = .ok rules := fun _ => compileTags_withMark m
  cases ty with
  | scalar mark kind =>
    simp only [Ty.withMark] at hown ⊢
    simp [ofTy_scalar_eq_ok, hown, hnone, add]
  | named mark ref =>
    simp only [Ty.withMark] at hown ⊢
    cases ref with
    | bean id => simp [ofTy_bean_eq_ok, hown, hnone, add]
    | enum id => simp [ofTy_enum_eq_ok, hown, hnone, add]
  | seq mark kind elem =>
    simp only [Ty.withMark] at hown ⊢
    simp only [ofTy_seq_eq_ok, hown, hnone]
    constructor
    · rintro ⟨rules, e, hrules, he, rfl⟩
      exact ⟨_, rules, ⟨[], e, rfl, ofTy_field.1 he, rfl⟩, hrules, rfl⟩
    · rintro ⟨_, more, ⟨rules, e, hrules, he, rfl⟩, hmore, rfl⟩
      cases hrules
      exact ⟨more, e, hmore, ofTy_field.1 he, rfl⟩
  | map mark key value =>
    simp only [Ty.withMark] at hown ⊢
    simp only [ofTy_map_eq_ok, hown, hnone]
    constructor
    · rintro ⟨rules, k, v, hrules, hk, hv, rfl⟩
      exact ⟨_, rules, ⟨[], k, v, rfl, ofTy_field.1 hk, ofTy_field.1 hv, rfl⟩, hrules, rfl⟩
    · rintro ⟨_, more, ⟨rules, k, v, hrules, hk, hv, rfl⟩, hmore, rfl⟩
      cases hrules
      exact ⟨more, k, v, hmore, ofTy_field.1 hk, ofTy_field.1 hv, rfl⟩

/-- Both places ask for the same rules. -/
theorem ofField_placement (f : Field) (tags : Tags) :
    ofField ⟨s, b, f.tagsOnType tags⟩ registry = .ok tree ↔
      ofField ⟨s, b, f.tagsOnField tags⟩ registry = .ok tree := by
  have hbare : ∀ t : RuleTree, t.add [] = t := by
    intro t
    cases t <;> simp [add]
  constructor
  · intro h
    obtain ⟨whole, own, hwhole, hown, rfl⟩ := ofField_eq_ok.1 h
    obtain ⟨inner, more, hinner, hmore, rfl⟩ :=
      (ofTy_withMark (g := f.tagsOnField tags) ⟨f.ty.nullable, tags⟩).1 hwhole
    cases (show Except.ok [] = Except.ok own from hown)
    rw [hbare]
    exact ofField_eq_ok.2 ⟨inner, more, hinner,
      (compileTags_withMark (f := f.tagsOnField tags) ⟨f.ty.nullable, []⟩).2 hmore, rfl⟩
  · intro h
    obtain ⟨inner, more, hinner, hmore, rfl⟩ := ofField_eq_ok.1 h
    have hwhole := (ofTy_withMark (f := f.tagsOnType tags) ⟨f.ty.nullable, tags⟩).2
      ⟨inner, more, hinner, (compileTags_withMark ⟨f.ty.nullable, []⟩).1 hmore, rfl⟩
    exact ofField_eq_ok.2 ⟨_, [], hwhole, rfl, hbare _⟩

end RuleTree

end

end GameConfig
