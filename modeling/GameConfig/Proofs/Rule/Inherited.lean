import GameConfig.Proofs.Rule.Compile
import GameConfig.Proofs.Schema.Sound

/-
  The rules of inherited fields.

  The rules of a field are compiled again for every bean that has it: the one
  that declares it and all below.  Only the bases of rules about names depend
  on the bean, because they are looked up from its namespace.  So a descendant
  has the rules of its ancestor exactly if all these bases mean the same from
  both namespaces (`ofField_iff`), and it has rules at all exactly if all of
  them mean beans from its own (`exists_ofField_iff`).  A descendant in
  another namespace may have neither: `fitting` is a schema whose rules do not
  compile because of such a bean.
-/

namespace GameConfig

open Hierarchy

/-! ## Bases -/

/-- The names of the bases of the rules about names that a list of tags asks for. -/
def basesOfTags (registry : Registry) (tags : Tags) : List String :=
  (asked registry tags).filterMap fun ask =>
    if ask.1 = .constructor then some (Text.trimmed ask.2) else none

/-- Those that the tags inside a type ask for. -/
def basesOfTy (registry : Registry) : Ty → List String
  | .scalar m _ | .named m _ => basesOfTags registry m.tags
  | .seq m _ elem => basesOfTags registry m.tags ++ basesOfTy registry elem
  | .map m key value =>
    basesOfTags registry m.tags ++ basesOfTy registry key ++ basesOfTy registry value

/-- The names of the bases of all rules about names of a field. -/
def Field.bases (registry : Registry) (f : Field) : List String :=
  basesOfTy registry f.ty ++ basesOfTags registry f.tags

theorem mem_basesOfTags {registry : Registry} {tags : Tags} {name : String} :
    name ∈ basesOfTags registry tags ↔
      ∃ argument, (.constructor, argument) ∈ asked registry tags ∧ Text.trimmed argument = name := by
  rw [basesOfTags, List.mem_filterMap]
  constructor
  · rintro ⟨⟨kind, argument⟩, hask, h⟩
    split at h
    case isTrue hk =>
      cases (show kind = .constructor from hk)
      exact ⟨argument, hask, Option.some.inj h⟩
    case isFalse => cases h
  · rintro ⟨argument, hask, rfl⟩
    exact ⟨_, hask, if_pos rfl⟩

/-- The name of a base means a bean, looked up from a bean's namespace. -/
def BeanDef.Sees (s : Schema) (b : BeanDef) (name : String) : Prop :=
  ∃ id, s.findType? name (some b.space) = some (.bean id)

/-- A name means the same from the namespaces of two beans. -/
def BeanDef.Agree (s : Schema) (a b : BeanDef) (name : String) : Prop :=
  s.findType? name (some b.space) = s.findType? name (some a.space)

/-! ## One rule -/

section

variable {s : Schema} {a b : BeanDef} {f : Field} {ty : Ty} {registry : Registry}

theorem exists_compile_iff {kind : RuleKind} {argument : String} {rule : Rule}
    (h : kind.compile ⟨s, a, f⟩ ty argument = .ok rule) :
    (∃ r, kind.compile ⟨s, b, f⟩ ty argument = .ok r) ↔
      (kind = .constructor → b.Sees s (Text.trimmed argument)) := by
  by_cases hk : kind = .constructor
  · subst hk
    obtain ⟨hne, hty, -⟩ := RuleKind.compile_constructor_eq_ok.1 h
    constructor
    · rintro ⟨r, hr⟩ -
      obtain ⟨-, -, id, hid, -⟩ := RuleKind.compile_constructor_eq_ok.1 hr
      exact ⟨id, hid⟩
    · intro hsees
      obtain ⟨id, hid⟩ := hsees rfl
      exact ⟨_, RuleKind.compile_constructor_eq_ok.2 ⟨hne, hty, id, hid, rfl⟩⟩
  · exact iff_of_true ⟨rule, (RuleKind.compile_of_ne_constructor hk).1 h⟩ fun h => absurd h hk

theorem compile_iff (hs : s.Sound) {kind : RuleKind} {argument : String} {rule : Rule}
    (h : kind.compile ⟨s, a, f⟩ ty argument = .ok rule) :
    kind.compile ⟨s, b, f⟩ ty argument = .ok rule ↔
      (kind = .constructor → a.Agree s b (Text.trimmed argument)) := by
  by_cases hk : kind = .constructor
  · subst hk
    obtain ⟨hne, hty, id, hid, hrule⟩ := RuleKind.compile_constructor_eq_ok.1 h
    constructor
    · intro hb _
      obtain ⟨-, -, id', hid', hrule'⟩ := RuleKind.compile_constructor_eq_ok.1 hb
      -- the rule holds the full name of its base
      have hname : (s.bean id').fullName = (s.bean id).fullName := by
        have heq := hrule'.trans hrule.symm
        simp only [Rule.namesOf, Rule.names.injEq] at heq
        exact heq.1
      have hsame := hs.bean_inj (hs.lt_of_findType? hid') (hs.lt_of_findType? hid) hname
      rw [BeanDef.Agree, hid, ← hsame]
      exact hid'
    · intro hagree
      exact RuleKind.compile_constructor_eq_ok.2 ⟨hne, hty, id, (hagree rfl).trans hid, hrule⟩
  · exact iff_of_true ((RuleKind.compile_of_ne_constructor hk).1 h) fun h => absurd h hk

/-! ## Tags, types and fields -/

/-- What holds of all bases asked for holds of the first one, if it asks for one, and the others. -/
theorem forall_bases_cons {P : String → Prop} {ask : RuleKind × String}
    {asks : List (RuleKind × String)} :
    (∀ name, (∃ argument, (.constructor, argument) ∈ ask :: asks ∧
        Text.trimmed argument = name) → P name) ↔
      (ask.1 = .constructor → P (Text.trimmed ask.2)) ∧
        ∀ name, (∃ argument, (.constructor, argument) ∈ asks ∧ Text.trimmed argument = name) →
          P name := by
  obtain ⟨kind, argument⟩ := ask
  constructor
  · intro hall
    refine ⟨fun hk => hall _ ⟨argument, ?_, rfl⟩, fun name ⟨argument', hmem, hname⟩ =>
      hall name ⟨argument', List.mem_cons_of_mem _ hmem, hname⟩⟩
    simp only [← show kind = .constructor from hk, List.mem_cons_self]
  · rintro ⟨hfirst, hrest⟩ name ⟨argument', hmem, rfl⟩
    rcases List.mem_cons.1 hmem with heq | hmem
    · cases heq
      exact hfirst rfl
    · exact hrest _ ⟨argument', hmem, rfl⟩

theorem exists_compileTags_iff {tags : Tags} {rules : List Rule}
    (h : compileTags ⟨s, a, f⟩ registry ty tags = .ok rules) :
    (∃ rs, compileTags ⟨s, b, f⟩ registry ty tags = .ok rs) ↔
      ∀ name ∈ basesOfTags registry tags, b.Sees s name := by
  simp only [compileTags_eq_ok, mem_basesOfTags] at h ⊢
  generalize asked registry tags = asks at h ⊢
  induction h with
  | nil => simp
  | @cons ask rule asks rules hask _ ih =>
    rw [forall_bases_cons, ← ih, ← exists_compile_iff hask]
    constructor
    · rintro ⟨_, _ | ⟨hr, hrs⟩⟩
      exact ⟨⟨_, hr⟩, _, hrs⟩
    · rintro ⟨⟨r, hr⟩, rs, hrs⟩
      exact ⟨r :: rs, .cons hr hrs⟩

theorem compileTags_iff (hs : s.Sound) {tags : Tags} {rules : List Rule}
    (h : compileTags ⟨s, a, f⟩ registry ty tags = .ok rules) :
    compileTags ⟨s, b, f⟩ registry ty tags = .ok rules ↔
      ∀ name ∈ basesOfTags registry tags, a.Agree s b name := by
  simp only [compileTags_eq_ok, mem_basesOfTags] at h ⊢
  generalize asked registry tags = asks at h ⊢
  induction h with
  | nil => simp
  | cons hask _ ih => rw [List.forall₂_cons, ih, compile_iff hs hask, forall_bases_cons]

theorem exists_ofTy_iff {tree : RuleTree} (h : RuleTree.ofTy ⟨s, a, f⟩ registry ty = .ok tree) :
    (∃ t, RuleTree.ofTy ⟨s, b, f⟩ registry ty = .ok t) ↔
      ∀ name ∈ basesOfTy registry ty, b.Sees s name := by
  induction ty generalizing tree with
  | scalar mark kind =>
    obtain ⟨rules, hrules, -⟩ := RuleTree.ofTy_scalar_eq_ok.1 h
    rw [basesOfTy, ← exists_compileTags_iff hrules]
    simp [RuleTree.ofTy_scalar_eq_ok]
  | named mark ref =>
    cases ref with
    | bean id =>
      obtain ⟨rules, hrules, -⟩ := RuleTree.ofTy_bean_eq_ok.1 h
      rw [basesOfTy, ← exists_compileTags_iff hrules]
      simp [RuleTree.ofTy_bean_eq_ok]
    | enum id =>
      obtain ⟨rules, hrules, -⟩ := RuleTree.ofTy_enum_eq_ok.1 h
      rw [basesOfTy, ← exists_compileTags_iff hrules]
      simp [RuleTree.ofTy_enum_eq_ok]
  | seq mark kind elem ih =>
    obtain ⟨rules, e, hrules, he, -⟩ := RuleTree.ofTy_seq_eq_ok.1 h
    rw [basesOfTy, List.forall_mem_append, ← exists_compileTags_iff hrules, ← ih he]
    simp [RuleTree.ofTy_seq_eq_ok]
  | map mark key value ihk ihv =>
    obtain ⟨rules, k, v, hrules, hk, hv, -⟩ := RuleTree.ofTy_map_eq_ok.1 h
    rw [basesOfTy, List.forall_mem_append, List.forall_mem_append,
      ← exists_compileTags_iff hrules, ← ihk hk, ← ihv hv]
    simp [RuleTree.ofTy_map_eq_ok, and_assoc]

theorem ofTy_iff (hs : s.Sound) {tree : RuleTree}
    (h : RuleTree.ofTy ⟨s, a, f⟩ registry ty = .ok tree) :
    RuleTree.ofTy ⟨s, b, f⟩ registry ty = .ok tree ↔
      ∀ name ∈ basesOfTy registry ty, a.Agree s b name := by
  induction ty generalizing tree with
  | scalar mark kind =>
    obtain ⟨rules, hrules, rfl⟩ := RuleTree.ofTy_scalar_eq_ok.1 h
    rw [basesOfTy, ← compileTags_iff hs hrules]
    simp [RuleTree.ofTy_scalar_eq_ok]
  | named mark ref =>
    cases ref with
    | bean id =>
      obtain ⟨rules, hrules, rfl⟩ := RuleTree.ofTy_bean_eq_ok.1 h
      rw [basesOfTy, ← compileTags_iff hs hrules]
      simp [RuleTree.ofTy_bean_eq_ok]
    | enum id =>
      obtain ⟨rules, hrules, rfl⟩ := RuleTree.ofTy_enum_eq_ok.1 h
      rw [basesOfTy, ← compileTags_iff hs hrules]
      simp [RuleTree.ofTy_enum_eq_ok]
  | seq mark kind elem ih =>
    obtain ⟨rules, e, hrules, he, rfl⟩ := RuleTree.ofTy_seq_eq_ok.1 h
    rw [basesOfTy, List.forall_mem_append, ← compileTags_iff hs hrules, ← ih he]
    simp [RuleTree.ofTy_seq_eq_ok]
  | map mark key value ihk ihv =>
    obtain ⟨rules, k, v, hrules, hk, hv, rfl⟩ := RuleTree.ofTy_map_eq_ok.1 h
    rw [basesOfTy, List.forall_mem_append, List.forall_mem_append,
      ← compileTags_iff hs hrules, ← ihk hk, ← ihv hv]
    simp [RuleTree.ofTy_map_eq_ok, and_assoc]

/-- A field that has rules for one bean has rules for another exactly if the other sees all bases
    of the rules about names. -/
theorem exists_ofField_iff {tree : RuleTree}
    (h : RuleTree.ofField ⟨s, a, f⟩ registry = .ok tree) :
    (∃ t, RuleTree.ofField ⟨s, b, f⟩ registry = .ok t) ↔
      ∀ name ∈ f.bases registry, b.Sees s name := by
  obtain ⟨inner, more, hinner, hmore, -⟩ := RuleTree.ofField_eq_ok.1 h
  rw [Field.bases, List.forall_mem_append, ← exists_ofTy_iff hinner,
    ← exists_compileTags_iff hmore]
  constructor
  · rintro ⟨t, ht⟩
    obtain ⟨i, m, hi, hm, -⟩ := RuleTree.ofField_eq_ok.1 ht
    exact ⟨⟨i, hi⟩, m, hm⟩
  · rintro ⟨⟨i, hi⟩, m, hm⟩
    exact ⟨_, RuleTree.ofField_eq_ok.2 ⟨i, m, hi, hm, rfl⟩⟩

/-- It has the same rules exactly if all these bases mean the same to both. -/
theorem ofField_iff (hs : s.Sound) {tree : RuleTree}
    (h : RuleTree.ofField ⟨s, a, f⟩ registry = .ok tree) :
    RuleTree.ofField ⟨s, b, f⟩ registry = .ok tree ↔
      ∀ name ∈ f.bases registry, a.Agree s b name := by
  obtain ⟨inner, more, hinner, hmore, rfl⟩ := RuleTree.ofField_eq_ok.1 h
  rw [Field.bases, List.forall_mem_append, ← ofTy_iff hs hinner, ← compileTags_iff hs hmore]
  constructor
  · intro hb
    obtain ⟨i, m, hi, hm, heq⟩ := RuleTree.ofField_eq_ok.1 hb
    -- both lists answer the same tags
    have hlen : m.length = more.length :=
      (compileTags_eq_ok.1 hm).length_eq.symm.trans (compileTags_eq_ok.1 hmore).length_eq
    obtain ⟨rfl, rfl⟩ := (RuleTree.add_inj hlen).1 heq
    exact ⟨hi, hm⟩
  · rintro ⟨hi, hm⟩
    exact RuleTree.ofField_eq_ok.2 ⟨inner, more, hi, hm, rfl⟩

end

/-! ## Descendants -/

/-- **The rules of an inherited field.**  Where a field has rules for the bean that it comes from,
    it has rules for a descendant exactly if the bases of its rules about names are beans seen from
    the descendant's namespace, and the same rules exactly if they are the same beans. -/
theorem ofField_below_of_build {h : History} {s : Schema} (hb : (Builder.run h).build = .ok s)
    (registry : Registry) {a b : Nat} (hab : s.isAssignable a b = true) {f : Field}
    (hf : f ∈ (s.bean a).allFields) {tree : RuleTree}
    (ha : RuleTree.ofField ⟨s, s.bean a, f⟩ registry = .ok tree) :
    f ∈ (s.bean b).allFields ∧
      ((∃ t, RuleTree.ofField ⟨s, s.bean b, f⟩ registry = .ok t) ↔
        ∀ name ∈ f.bases registry, (s.bean b).Sees s name) ∧
      (RuleTree.ofField ⟨s, s.bean b, f⟩ registry = .ok tree ↔
        ∀ name ∈ f.bases registry, (s.bean a).Agree s (s.bean b) name) := by
  have hs := Schema.sound_of_build hb
  refine ⟨?_, exists_ofField_iff ha, ofField_iff hs ha⟩
  exact (hs.prefix_of_above (hs.isAssignable_iff.1 hab)).subset hf

/-- A text that names a bean of the schema `fitting`. -/
def shapeName : Field :=
  ⟨"kind", none, [], .scalar ⟨false, [("constructor", "Shape")]⟩ .string, [], none⟩

/-- A holder that names a shape of its namespace, and a box in another one that extends it. -/
def fitting : History :=
  [.addBean ⟨"a.Shape", none, none, [], none⟩,
    .addBean ⟨"a.Holder", none, none, [shapeName], none⟩,
    .addBean ⟨"b.Box", some "a.Holder", none, [], none⟩]

theorem ofField_below_fitting : ∃ s tree, (Builder.run fitting).build = .ok s ∧
    RuleTree.ofField ⟨s, s.bean 1, shapeName⟩ .standard = .ok tree ∧
      shapeName ∈ (s.bean 2).allFields ∧
      ((∃ t, RuleTree.ofField ⟨s, s.bean 2, shapeName⟩ .standard = .ok t) ↔
        ∀ name ∈ shapeName.bases .standard, (s.bean 2).Sees s name) ∧
      (RuleTree.ofField ⟨s, s.bean 2, shapeName⟩ .standard = .ok tree ↔
        ∀ name ∈ shapeName.bases .standard, (s.bean 1).Agree s (s.bean 2) name) :=
  ⟨_, _, rfl, rfl, ofField_below_of_build (h := fitting) rfl .standard (by decide) (by decide) rfl⟩

/-- The box has no rules, and with it the whole schema, though the holder has. -/
theorem not_compile_fitting : ∃ s, (Builder.run fitting).build = .ok s ∧
    s.isAssignable 1 2 = true ∧ shapeName ∈ (s.bean 1).allFields ∧
    (∃ tree, RuleTree.ofField ⟨s, s.bean 1, shapeName⟩ .standard = .ok tree) ∧
    RuleTree.ofField ⟨s, s.bean 2, shapeName⟩ .standard =
      .error (.unknownType "Shape" "b.Box.kind") ∧
    RuleSet.compile s .standard = .error (.unknownType "Shape" "b.Box.kind") :=
  ⟨_, rfl, by decide, by decide, ⟨_, rfl⟩, rfl, rfl⟩

end GameConfig
