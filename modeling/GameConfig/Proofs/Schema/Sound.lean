import GameConfig.Proofs.Builder.Acceptance

/-
  What holds of every accepted schema.

  The parents of the beans of a schema form a forest, and all that a bean holds
  about its place in it was computed from those parents.  `Sound` states this
  together with what names stand for; `sound_of_build` establishes it once, and
  all else about schemas follows from it.

  * `Sound.isAssignable_iff`: following parents decides ancestry;
  * `Sound.prefix_of_above`: the fields of an ancestor come first;
  * `Sound.exists_root`: the root of a bean is its ancestor without a parent;
  * `oneForest_of_build`: fields, children, families and concrete members
    describe one forest.
-/

namespace GameConfig

open Hierarchy Resolve

namespace Schema

/-- The parent of each bean. -/
def parents (s : Schema) : Parents := s.beans.map BeanDef.parent

@[simp]
theorem length_parents (s : Schema) : s.parents.length = s.beans.length := by
  simp [parents]

@[simp]
theorem parentOf_parents (s : Schema) (id : Nat) : parentOf s.parents id = (s.bean id).parent := by
  rw [parentOf, parents, List.getElem?_map, bean, List.getD_eq_getElem?_getD]
  cases s.beans[id]? <;> rfl

/-- The number of a bean. -/
theorem bean_of_lt {s : Schema} {id : Nat} (h : id < s.beans.length) :
    s.beans[id]? = some (s.bean id) := by
  simp [bean, List.getD_eq_getElem?_getD, h]

theorem enum_of_lt {s : Schema} {id : Nat} (h : id < s.enums.length) :
    s.enums[id]? = some (s.enum id) := by
  simp [enum, List.getD_eq_getElem?_getD, h]

theorem bean_of_not_lt {s : Schema} {id : Nat} (h : ¬ id < s.beans.length) :
    s.bean id = default := by
  rw [bean, List.getD_eq_getElem?_getD, List.getElem?_eq_none (Nat.le_of_not_lt h)]; rfl

theorem enum_of_not_lt {s : Schema} {id : Nat} (h : ¬ id < s.enums.length) :
    s.enum id = default := by
  rw [enum, List.getD_eq_getElem?_getD, List.getElem?_eq_none (Nat.le_of_not_lt h)]; rfl

/-- All that a schema holds about hierarchies comes from one forest, and names stand for what is
    called so. -/
structure Sound (s : Schema) : Prop where
  forest : Forest s.parents
  children : ∀ id < s.beans.length, (s.bean id).children = childrenOf s.parents id
  family : ∀ id < s.beans.length, (s.bean id).family = familyOf s.parents id
  concrete : ∀ id < s.beans.length, (s.bean id).concrete = concreteOf s.parents id
  rootFields : ∀ id, (s.bean id).parent = none → (s.bean id).allFields = (s.bean id).fields
  childFields : ∀ id p, (s.bean id).parent = some p →
    (s.bean id).allFields = (s.bean p).allFields ++ (s.bean id).fields
  fieldsNodup : ∀ id, ((s.bean id).allFields.map Field.name).Nodup
  beanNames : ∀ n id, Assoc.find? n s.names = some (.bean id) ↔
    id < s.beans.length ∧ (s.bean id).fullName = n
  enumNames : ∀ n id, Assoc.find? n s.names = some (.enum id) ↔
    id < s.enums.length ∧ (s.enum id).fullName = n
  items : ∀ id, ((s.enum id).items.map EnumItem.name).Nodup

end Schema

namespace Builder

variable {h : History} {ds : List BeanDecl} {ps : Parents} {s : Schema} (ha : Accepted h ds ps s)
include ha

namespace Accepted

theorem parents_eq : s.parents = ps := by
  refine List.ext_getElem? fun i => ?_
  have hlen : ds.length = s.beans.length := ha.resolved.length_beans.symm
  cases hi : ds[i]? with
  | none =>
    rw [List.getElem?_eq_none_iff] at hi
    rw [List.getElem?_eq_none (by simp; omega),
      List.getElem?_eq_none (by rw [ha.resolved.length_parents]; exact hi)]
  | some d =>
    obtain ⟨fs, -, hbean⟩ := ha.resolved.bean_fields hi
    have hlt := (List.getElem?_eq_some_iff.1 hi).1
    have hps : i < ps.length := ha.resolved.length_parents ▸ hlt
    rw [Schema.parents, List.getElem?_map, Schema.bean_of_lt (hlen ▸ hlt), hbean]
    simp [parentOf, hps]

/-- The declaration of a bean. -/
theorem exists_decl {id : Nat} (hid : id < s.beans.length) : ∃ d, ds[id]? = some d :=
  ⟨_, List.getElem?_eq_getElem (ha.resolved.length_beans ▸ hid)⟩

theorem lt_of_decl {id : Nat} {d : BeanDecl} (hd : ds[id]? = some d) : id < s.beans.length :=
  ha.resolved.length_beans ▸ (List.getElem?_eq_some_iff.1 hd).1

/-- The fields of a bean are those along its line. -/
theorem allFields_eq {id : Nat} {d : BeanDecl} (hd : ds[id]? = some d) :
    (s.bean id).allFields = (line ps ds id).flatMap BeanDecl.fields ∧
      ((s.bean id).allFields.map Field.name).Nodup := by
  obtain ⟨fs, hfs, hbean⟩ := ha.resolved.bean_fields hd
  rw [hbean]
  exact allFields_eq_ok.1 hfs

/-- A bean is its declaration with its place in the forest. -/
theorem exists_place {id : Nat} (hid : id < s.beans.length) : ∃ d fs, ds[id]? = some d ∧
    s.bean id =
      { fullName := d.fullName, altName := d.altName, parent := parentOf ps id,
        fields := d.fields, comment := d.comment, allFields := fs,
        children := childrenOf ps id, family := familyOf ps id, concrete := concreteOf ps id } := by
  obtain ⟨d, hd⟩ := ha.exists_decl hid
  obtain ⟨fs, -, hbean⟩ := ha.resolved.bean_fields hd
  exact ⟨d, fs, hd, hbean⟩

theorem allFields_of_root {id : Nat} (hp : (s.bean id).parent = none) :
    (s.bean id).allFields = (s.bean id).fields := by
  by_cases hid : id < s.beans.length
  · obtain ⟨d, fs, hd, hbean⟩ := ha.exists_place hid
    rw [(ha.allFields_eq hd).1, line_of_root (by rw [← ha.parents_eq]; simpa using hp) hd, hbean]
    simp
  · rw [Schema.bean_of_not_lt hid]; rfl

theorem allFields_of_parent {id p : Nat} (hp : (s.bean id).parent = some p) :
    (s.bean id).allFields = (s.bean p).allFields ++ (s.bean id).fields := by
  have hparents := ha.parents_eq
  have hp' : parentOf ps id = some p := by rw [← hparents]; simpa using hp
  have hid : id < s.beans.length := by
    have := lt_of_parentOf hp'
    rwa [← hparents, Schema.length_parents] at this
  obtain ⟨d, fs, hd, hbean⟩ := ha.exists_place hid
  have hin : p < s.beans.length := by
    have := ha.forest.inside hp'
    rwa [← hparents, Schema.length_parents] at this
  obtain ⟨d', hd'⟩ := ha.exists_decl hin
  rw [(ha.allFields_eq hd).1, (ha.allFields_eq hd').1, line_of_parent ha.forest hp' hd, hbean]
  simp

theorem find?_bean_iff {n : String} {id : Nat} : Assoc.find? n s.names = some (.bean id) ↔
    id < s.beans.length ∧ (s.bean id).fullName = n := by
  rw [ha.resolved.sameNames, ha.beans.index]
  constructor
  · rintro ⟨d, hd, rfl⟩
    obtain ⟨_, -, hbean⟩ := ha.resolved.bean_fields hd
    exact ⟨ha.lt_of_decl hd, by rw [hbean]⟩
  · rintro ⟨hid, rfl⟩
    obtain ⟨d, fs, hd, hbean⟩ := ha.exists_place hid
    exact ⟨d, hd, by rw [hbean]⟩

theorem find?_enum_iff {n : String} {id : Nat} : Assoc.find? n s.names = some (.enum id) ↔
    id < s.enums.length ∧ (s.enum id).fullName = n := by
  rw [ha.resolved.sameNames, ha.enums.index]
  constructor
  · rintro ⟨e, he, rfl⟩
    refine ⟨(List.getElem?_eq_some_iff.1 he).1, ?_⟩
    rw [Schema.enum, List.getD_eq_getElem?_getD, he]
    rfl
  · rintro ⟨hid, rfl⟩
    exact ⟨s.enum id, Schema.enum_of_lt hid, rfl⟩

theorem sound : s.Sound := by
  have hparents := ha.parents_eq
  constructor
  case forest => exact hparents ▸ ha.forest
  case children =>
    intro id hid
    obtain ⟨d, fs, -, hbean⟩ := ha.exists_place hid
    rw [hbean, hparents]
  case family =>
    intro id hid
    obtain ⟨d, fs, -, hbean⟩ := ha.exists_place hid
    rw [hbean, hparents]
  case concrete =>
    intro id hid
    obtain ⟨d, fs, -, hbean⟩ := ha.exists_place hid
    rw [hbean, hparents]
  case rootFields => exact fun _ => ha.allFields_of_root
  case childFields => exact fun _ _ => ha.allFields_of_parent
  case fieldsNodup =>
    intro id
    by_cases hid : id < s.beans.length
    · obtain ⟨d, hd⟩ := ha.exists_decl hid
      exact (ha.allFields_eq hd).2
    · rw [Schema.bean_of_not_lt hid]; exact List.nodup_nil
  case beanNames => exact fun _ _ => ha.find?_bean_iff
  case enumNames => exact fun _ _ => ha.find?_enum_iff
  case items =>
    intro id
    by_cases hid : id < s.enums.length
    · exact ha.items _ (List.mem_of_getElem? (Schema.enum_of_lt hid))
    · rw [Schema.enum_of_not_lt hid]
      exact List.nodup_nil

end Accepted

end Builder

namespace Schema

/-- **Every accepted schema is sound.** -/
theorem sound_of_build {h : History} {s : Schema} (hs : (Builder.run h).build = .ok s) :
    s.Sound := by
  obtain ⟨ds, ps, ha⟩ := Builder.exists_accepted hs
  exact ha.sound

theorem reaches_iff {s : Schema} {a n b : Nat} :
    s.reaches a n b = true ↔ ∃ k, k ≤ n ∧ climb s.parents k b = some a := by
  rw [← mem_chain_climb]
  induction n generalizing b with
  | zero => simpa [reaches, chain] using eq_comm
  | succ n ih =>
    simp only [reaches, chain, parentOf_parents, Bool.or_eq_true, beq_iff_eq]
    cases (s.bean b).parent with
    | none => simpa using eq_comm
    | some p => simp only [ih, List.mem_cons, eq_comm]

/-- A walk of parents ends at an ancestor without a parent, or when the steps are used up. -/
theorem rootFrom_eq (s : Schema) (n b : Nat) :
    ∃ r k, s.rootFrom n (s.bean b) = s.bean r ∧ climb s.parents k b = some r ∧
      ((s.bean r).parent = none ∨ k = n) := by
  induction n generalizing b with
  | zero => exact ⟨b, 0, rfl, rfl, Or.inr rfl⟩
  | succ n ih =>
    cases hp : (s.bean b).parent with
    | none => exact ⟨b, 0, by simp [rootFrom, hp], rfl, Or.inl hp⟩
    | some p =>
      obtain ⟨r, k, hr, hk, hend⟩ := ih p
      exact ⟨r, k + 1, by simpa [rootFrom, hp] using hr, by simpa [climb, hp] using hk,
        hend.imp_right fun h => by rw [h]⟩

/-- A word means a concrete member of the family, if anything. -/
theorem subtype?_mem {s : Schema} {base c : Nat} {word : String}
    (h : s.subtype? base word = some c) : c ∈ (s.bean base).concrete := by
  unfold subtype? at h
  dsimp only at h
  split at h
  · rename_i hf
    cases h
    exact List.mem_of_find?_eq_some hf
  split at h
  · rename_i hf
    cases h
    exact List.mem_of_find?_eq_some hf
  · exact List.mem_of_find?_eq_some h

namespace Sound

variable {s : Schema} (hs : s.Sound)
include hs

/-- **Following parents decides ancestry.** -/
theorem isAssignable_iff {a b : Nat} : s.isAssignable a b = true ↔ Above s.parents a b := by
  rw [isAssignable, reaches_iff]
  constructor
  · rintro ⟨k, -, hk⟩
    exact ⟨k, hk⟩
  · rintro ⟨k, hk⟩
    exact ⟨k, by simpa using hs.forest.climb_le hk, hk⟩

theorem lt_of_parent {a p : Nat} (hp : (s.bean a).parent = some p) : p < s.beans.length := by
  have h : parentOf s.parents a = some p := by simpa using hp
  simpa using hs.forest.inside h

/-- What is above a bean is a bean. -/
theorem lt_of_above {a b : Nat} (hb : b < s.beans.length) (h : Above s.parents a b) :
    a < s.beans.length := by
  rcases above_iff.1 h with rfl | ⟨p, hp, hap⟩
  · exact hb
  · have := hs.forest.lt_of_mem_chain (hs.forest.inside hp) (hs.forest.mem_chain.2 hap)
    simpa using this

omit hs in
/-- What is below a bean is a bean. -/
theorem lt_of_below {a b : Nat} (ha : a < s.beans.length) (h : Above s.parents a b) :
    b < s.beans.length := by
  rcases above_iff.1 h with rfl | ⟨p, hp, -⟩
  · exact ha
  · simpa using lt_of_parentOf hp

/-- **The fields of an ancestor come first.** -/
theorem prefix_of_above {a b : Nat} (h : Above s.parents a b) :
    (s.bean a).allFields <+: (s.bean b).allFields := by
  obtain ⟨k, hk⟩ := h
  induction k generalizing b with
  | zero => rw [Option.some.inj hk]
  | succ k ih =>
    obtain ⟨p, hp, hk⟩ := Option.bind_eq_some_iff.1 hk
    rw [hs.childFields b p (by simpa using hp)]
    exact (ih hk).trans (List.prefix_append _ _)

theorem mem_children {a b : Nat} (ha : a < s.beans.length) :
    b ∈ (s.bean a).children ↔ (s.bean b).parent = some a := by
  rw [hs.children a ha, mem_childrenOf, parentOf_parents]

theorem mem_family {a b : Nat} (ha : a < s.beans.length) :
    b ∈ (s.bean a).family ↔ Above s.parents a b := by
  rw [hs.family a ha, hs.forest.mem_familyOf]

/-- A child is a bean. -/
theorem lt_of_mem_children {a b : Nat} (ha : a < s.beans.length) (hb : b ∈ (s.bean a).children) :
    b < s.beans.length := by
  refine lt_of_below ha ((Above.refl a).parent ?_)
  rw [parentOf_parents]
  exact (hs.mem_children ha).1 hb

theorem lt_of_mem_family {a b : Nat} (ha : a < s.beans.length) (hb : b ∈ (s.bean a).family) :
    b < s.beans.length :=
  lt_of_below ha ((hs.mem_family ha).1 hb)

theorem children_nodup {a : Nat} (ha : a < s.beans.length) : (s.bean a).children.Nodup :=
  hs.children a ha ▸ childrenOf_nodup a

theorem family_nodup {a : Nat} (ha : a < s.beans.length) : (s.bean a).family.Nodup :=
  hs.family a ha ▸ hs.forest.familyOf_nodup a

/-- The concrete members are those of the family without children. -/
theorem concrete_eq {a : Nat} (ha : a < s.beans.length) :
    (s.bean a).concrete = (s.bean a).family.filter fun b => (s.bean b).children.isEmpty := by
  rw [hs.concrete a ha, concreteOf, ← hs.family a ha]
  refine List.filter_congr fun b hb => ?_
  rw [hs.children b (lt_of_below ha ((hs.mem_family ha).1 hb))]

theorem mem_concrete {a b : Nat} (ha : a < s.beans.length) :
    b ∈ (s.bean a).concrete ↔ Above s.parents a b ∧ (s.bean b).children = [] := by
  rw [hs.concrete_eq ha, List.mem_filter, hs.mem_family ha, List.isEmpty_iff]

/-- A concrete descendant of a bean with children is not that bean, so it has a parent. -/
theorem parent_isSome {a b : Nat} (ha : a < s.beans.length) (hne : (s.bean a).children ≠ [])
    (hb : b ∈ (s.bean a).concrete) : (s.bean b).parent.isSome = true := by
  obtain ⟨habove, hleaf⟩ := (hs.mem_concrete ha).1 hb
  rcases above_iff.1 habove with rfl | ⟨p, hp, -⟩
  · exact absurd hleaf hne
  · rw [parentOf_parents] at hp
    rw [hp]
    rfl

/-- The only concrete descendant of a bean without children is that bean. -/
theorem eq_of_mem_concrete {a b : Nat} (ha : a < s.beans.length) (hleaf : (s.bean a).children = [])
    (hb : b ∈ (s.bean a).concrete) : b = a := by
  obtain ⟨⟨k, hk⟩, -⟩ := (hs.mem_concrete ha).1 hb
  cases k with
  | zero => exact Option.some.inj hk
  | succ k =>
    -- the last step up to the bean comes from a child
    rw [climb_succ] at hk
    obtain ⟨d, -, hd⟩ := Option.bind_eq_some_iff.1 hk
    rw [parentOf_parents] at hd
    have hchild := (hs.mem_children ha).2 hd
    rw [hleaf] at hchild
    cases hchild

theorem exists_mem_concrete {a : Nat} (ha : a < s.beans.length) :
    ∃ b, b ∈ (s.bean a).concrete := by
  rw [hs.concrete a ha]
  exact hs.forest.exists_concrete a

/-- The root of a bean is its ancestor without a parent. -/
theorem exists_root {a : Nat} (ha : a < s.beans.length) :
    ∃ r, r < s.beans.length ∧ s.root (s.bean a) = s.bean r ∧ Above s.parents r a ∧
      (s.bean r).parent = none := by
  obtain ⟨r, k, hr, hk, hend⟩ := rootFrom_eq s s.beans.length a
  refine ⟨r, hs.lt_of_above ha ⟨k, hk⟩, hr, ⟨k, hk⟩, hend.elim id ?_⟩
  rintro rfl
  have h := hs.forest.climb_length a
  rw [length_parents, climb_succ, hk] at h
  simpa using h

/-- Two beans of one name are one. -/
theorem bean_inj {a b : Nat} (ha : a < s.beans.length) (hb : b < s.beans.length)
    (h : (s.bean a).fullName = (s.bean b).fullName) : a = b := by
  have h₁ := (hs.beanNames _ a).2 ⟨ha, h⟩
  have h₂ := (hs.beanNames _ b).2 ⟨hb, rfl⟩
  rw [h₁] at h₂
  cases h₂
  rfl

/-- Two enums of one name are one. -/
theorem enum_inj {a b : Nat} (ha : a < s.enums.length) (hb : b < s.enums.length)
    (h : (s.enum a).fullName = (s.enum b).fullName) : a = b := by
  have h₁ := (hs.enumNames _ a).2 ⟨ha, h⟩
  have h₂ := (hs.enumNames _ b).2 ⟨hb, rfl⟩
  rw [h₁] at h₂
  cases h₂
  rfl

/-- The bean that a name means is one of the schema. -/
theorem lt_of_findType? {name : String} {space : Option String} {id : Nat}
    (h : s.findType? name space = some (.bean id)) : id < s.beans.length := by
  unfold findType? Names.lookup at h
  split at h
  · rename_i href
    cases h
    exact ((hs.beanNames _ _).1 href).1
  · split at h
    · split at h
      · cases h
      · exact ((hs.beanNames _ _).1 h).1
    · cases h

/-- The concrete members of a bean below are members of every bean above. -/
theorem concrete_subset {a b : Nat} (ha : a < s.beans.length) (h : Above s.parents a b) :
    (s.bean b).concrete ⊆ (s.bean a).concrete := by
  rw [hs.concrete a ha, hs.concrete b (lt_of_below ha h)]
  exact hs.forest.concreteOf_subset h

end Sound

/-- A table has a bean of the schema as its value type, over which its index is without fault. -/
theorem table_of_build {h : History} {s : Schema} (hb : (Builder.run h).build = .ok s)
    {t : TableDef} (ht : t ∈ s.tables) : t.valueType < s.beans.length ∧
      ∃ d : TableDecl, d.mode = t.mode ∧ d.index = t.index ∧
        indexFault? (s.bean t.valueType) d = none := by
  obtain ⟨ds, ps, ha⟩ := Builder.exists_accepted hb
  have hmem : .ok t ∈ h.tables.map (Resolve.table s) := by
    rw [ha.tables]
    exact List.mem_map_of_mem ht
  obtain ⟨d, -, hd⟩ := List.mem_map.1 hmem
  obtain ⟨hfind, hfault, ht⟩ := table_eq_ok.1 hd
  rw [ht]
  exact ⟨(sound_of_build hb).lt_of_findType? hfind, d, rfl, rfl, hfault⟩

/-- The value type of a table is a bean of the schema. -/
theorem valueType_lt_of_build {h : History} {s : Schema} (hb : (Builder.run h).build = .ok s)
    {t : TableDef} (ht : t ∈ s.tables) : t.valueType < s.beans.length :=
  (table_of_build hb ht).1

/-! ## One forest -/

/-- The fields, children, families and concrete members of the beans and the test for ancestry
    describe one forest. -/
structure OneForest (s : Schema) : Prop where
  rootFields : ∀ a < s.beans.length, (s.bean a).parent = none →
    (s.bean a).allFields = (s.bean a).fields
  childFields : ∀ a < s.beans.length, ∀ p, (s.bean a).parent = some p →
    p < s.beans.length ∧ (s.bean a).allFields = (s.bean p).allFields ++ (s.bean a).fields
  ancestorFields : ∀ a < s.beans.length, ∀ b < s.beans.length, s.isAssignable a b = true →
    (s.bean a).allFields <+: (s.bean b).allFields
  fieldsNodup : ∀ a < s.beans.length, ((s.bean a).allFields.map Field.name).Nodup
  familyHead : ∀ a < s.beans.length, (s.bean a).family.head? = some a
  familyNodup : ∀ a < s.beans.length, (s.bean a).family.Nodup
  memFamily : ∀ a < s.beans.length, ∀ b, b ∈ (s.bean a).family ↔ s.isAssignable a b = true
  familyInside : ∀ a < s.beans.length, ∀ b ∈ (s.bean a).family, b < s.beans.length
  memChildren : ∀ a < s.beans.length, ∀ b, b ∈ (s.bean a).children ↔ (s.bean b).parent = some a
  concrete : ∀ a < s.beans.length,
    (s.bean a).concrete = (s.bean a).family.filter fun b => (s.bean b).children.isEmpty
  concreteNonempty : ∀ a < s.beans.length, (s.bean a).concrete ≠ []
  refl : ∀ a, s.isAssignable a a = true
  antisymm : ∀ a b, s.isAssignable a b = true → s.isAssignable b a = true → a = b
  trans : ∀ a b c, s.isAssignable a b = true → s.isAssignable b c = true →
    s.isAssignable a c = true

/-- **The hierarchy of every accepted schema is one forest.** -/
theorem oneForest_of_build {h : History} {s : Schema} (hb : (Builder.run h).build = .ok s) :
    s.OneForest := by
  have hs := sound_of_build hb
  constructor
  case rootFields => exact fun a _ => hs.rootFields a
  case childFields => exact fun a _ p hp => ⟨hs.lt_of_parent hp, hs.childFields a p hp⟩
  case ancestorFields =>
    exact fun a _ b _ hab => hs.prefix_of_above (hs.isAssignable_iff.1 hab)
  case fieldsNodup => exact fun a _ => hs.fieldsNodup a
  case familyHead =>
    intro a ha
    rw [hs.family a ha]; rfl
  case familyNodup => exact fun a => hs.family_nodup
  case memFamily =>
    intro a ha b
    rw [hs.mem_family ha, hs.isAssignable_iff]
  case familyInside => exact fun a ha b => hs.lt_of_mem_family ha
  case memChildren => exact fun a ha b => hs.mem_children ha
  case concrete => exact fun a ha => hs.concrete_eq ha
  case concreteNonempty =>
    intro a ha
    obtain ⟨b, hb⟩ := hs.exists_mem_concrete ha
    exact List.ne_nil_of_mem hb
  case refl => exact fun a => hs.isAssignable_iff.2 (.refl a)
  case antisymm =>
    intro a b hab hba
    exact hs.forest.above_antisymm (hs.isAssignable_iff.1 hab) (hs.isAssignable_iff.1 hba)
  case trans =>
    intro a b c hab hbc
    exact hs.isAssignable_iff.2 ((hs.isAssignable_iff.1 hab).trans (hs.isAssignable_iff.1 hbc))

/-- Two shapes, declared before the bean that they extend. -/
def shapes : History :=
  let int : Ty := .scalar .plain (.integer .int)
  let radius : Field := ⟨"radius", none, [], int, [], none⟩
  let color : Field := ⟨"color", none, [], int, [], none⟩
  [.addBean ⟨"art.Circle", some "Shape", none, [radius], none⟩,
    .addBean ⟨"art.Square", some "Shape", none, [], none⟩,
    .addBean ⟨"art.Shape", none, none, [color], none⟩]

theorem oneForest_shapes : ∃ s : Schema, (Builder.run shapes).build = .ok s ∧
    (s.bean 0).allFields.map Field.name = ["color", "radius"] ∧
    (s.bean 2).concrete = [0, 1] ∧ s.OneForest :=
  ⟨_, rfl, by decide, by decide, oneForest_of_build (h := shapes) rfl⟩

end Schema

end GameConfig
