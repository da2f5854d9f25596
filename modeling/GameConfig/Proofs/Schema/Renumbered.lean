import GameConfig.Proofs.Builder.Renumber
import GameConfig.Proofs.Schema.Sound
import Mathlib.Data.Set.Function

/-
  Schemas that agree up to the numbers.

  `Schema.Renumbered` relates two schemas with the same names: numbers are
  exchanged one to one, each for the number of the same name, and everything
  else agrees.  Children, families and concrete members are listed by number,
  so they agree as sets.

  * `Renumbering.Fits.bijOn`: names that fit give numbers one to one;
  * `Accepted.renumbered`: histories that declare the same under other numbers
    lead to schemas that agree.
-/

namespace GameConfig

open Hierarchy Resolve

variable {ρ : Renumbering}

/-- Two beans agree; what lists members of the hierarchy agrees as a set. -/
structure BeanDef.Renumbered (ρ : Renumbering) (a b : BeanDef) : Prop where
  fullName : b.fullName = a.fullName
  altName : b.altName = a.altName
  comment : b.comment = a.comment
  parent : b.parent = a.parent.map ρ.bean
  fields : b.fields = a.fields.map (·.renumber ρ)
  allFields : b.allFields = a.allFields.map (·.renumber ρ)
  children : b.children.Perm (a.children.map ρ.bean)
  family : b.family.Perm (a.family.map ρ.bean)
  concrete : b.concrete.Perm (a.concrete.map ρ.bean)

/-- Two schemas agree up to the numbers of beans and enums. -/
structure Schema.Renumbered (ρ : Renumbering) (s t : Schema) : Prop where
  names : ρ.Fits s.names t.names
  beanIds : Set.BijOn ρ.bean {id | id < s.beans.length} {id | id < t.beans.length}
  enumIds : Set.BijOn ρ.enum {id | id < s.enums.length} {id | id < t.enums.length}
  beans : ∀ id < s.beans.length, (s.bean id).Renumbered ρ (t.bean (ρ.bean id))
  enums : ∀ id < s.enums.length, t.enum (ρ.enum id) = s.enum id
  tables : t.tables = s.tables.map (·.renumber ρ)

/-! ## Numbers -/

section
variable {kind : Nat → TypeRef} {f : Nat → Nat} {a b : Names} {m n : Nat} {p q : Nat → String}
  (hf : ρ.Fits a b) (hkind : ∀ i, (kind i).renumber ρ = kind (f i))
  (ha : ∀ w i, Assoc.find? w a = some (kind i) ↔ i < m ∧ p i = w)
  (hb : ∀ w i, Assoc.find? w b = some (kind i) ↔ i < n ∧ q i = w)
include hf hkind ha hb

/-- A number goes to that of the same name. -/
theorem Renumbering.Fits.named {i : Nat} (hi : i < m) : f i < n ∧ q (f i) = p i := by
  have hfind := hf (p i)
  rw [(ha _ i).2 ⟨hi, rfl⟩, Option.map_some, hkind] at hfind
  exact (hb _ _).1 hfind

/-- **Numbers of one kind are exchanged one to one**, as names are. -/
theorem Renumbering.Fits.bijOn (hinj : Function.Injective kind)
    (honly : ∀ ref i, ref.renumber ρ = kind i → ∃ j, ref = kind j) :
    Set.BijOn f {i | i < m} {i | i < n} := by
  refine ⟨fun i hi => (hf.named hkind ha hb hi).1, fun i hi j hj h => ?_, fun j hj => ?_⟩
  · have hname : p i = p j := by
      rw [← (hf.named hkind ha hb hi).2, ← (hf.named hkind ha hb hj).2, h]
    have hfind := (ha _ i).2 ⟨hi, hname⟩
    rw [(ha _ j).2 ⟨hj, rfl⟩] at hfind
    exact (hinj (Option.some.inj hfind)).symm
  · have hfind := hf (q j)
    rw [(hb _ j).2 ⟨hj, rfl⟩] at hfind
    obtain ⟨ref, href, hj'⟩ := Option.map_eq_some_iff.1 hfind.symm
    obtain ⟨i, rfl⟩ := honly ref j hj'
    exact ⟨i, ((ha _ i).1 href).1, hinj ((hkind i).symm.trans hj')⟩

end

namespace Schema.Sound

variable {s t : Schema} (hs : s.Sound) (ht : t.Sound) (hf : ρ.Fits s.names t.names)
include hs ht hf

theorem enum_renumber {id : Nat} (hid : id < s.enums.length) :
    ρ.enum id < t.enums.length ∧ (t.enum (ρ.enum id)).fullName = (s.enum id).fullName :=
  hf.named (fun _ => rfl) hs.enumNames ht.enumNames hid

theorem bijOn_bean :
    Set.BijOn ρ.bean {id | id < s.beans.length} {id | id < t.beans.length} := by
  refine hf.bijOn (fun _ => rfl) hs.beanNames ht.beanNames Builder.bean_injective
    fun ref i h => ?_
  cases ref with
  | bean j => exact ⟨j, rfl⟩
  | enum j => cases h

theorem bijOn_enum :
    Set.BijOn ρ.enum {id | id < s.enums.length} {id | id < t.enums.length} := by
  refine hf.bijOn (fun _ => rfl) hs.enumNames ht.enumNames Builder.enum_injective
    fun ref i h => ?_
  cases ref with
  | bean j => cases h
  | enum j => exact ⟨j, rfl⟩

end Schema.Sound

/-! ## Places in the hierarchy -/

/-- Lists without repetition that hold the same numbers agree as sets. -/
theorem Renumbering.perm_map {f : Nat → Nat} {m n : Nat}
    (hf : Set.BijOn f {i | i < m} {i | i < n}) {l l' : List Nat} (hl : ∀ i ∈ l, i < m)
    (hl' : ∀ i ∈ l', i < n) (hn : l.Nodup) (hn' : l'.Nodup) (h : ∀ i < m, f i ∈ l' ↔ i ∈ l) :
    l'.Perm (l.map f) := by
  have hmap : (l.map f).Nodup :=
    hn.map_on fun a ha b hb => hf.injOn (hl a ha) (hl b hb)
  refine (List.perm_ext_iff_of_nodup hn' hmap).2 fun j => ?_
  rw [List.mem_map]
  constructor
  · intro hj
    obtain ⟨i, hi, rfl⟩ := hf.surjOn (hl' j hj)
    exact ⟨i, (h i hi).1 hj, rfl⟩
  · rintro ⟨i, hi, rfl⟩
    exact (h i (hl i hi)).2 hi

namespace Schema

/-- The parents of two schemas correspond. -/
structure SameParents (ρ : Renumbering) (s t : Schema) : Prop where
  ids : Set.BijOn ρ.bean {id | id < s.beans.length} {id | id < t.beans.length}
  parent : ∀ id < s.beans.length, (t.bean (ρ.bean id)).parent = (s.bean id).parent.map ρ.bean
  fields : ∀ id < s.beans.length,
    (t.bean (ρ.bean id)).fields = (s.bean id).fields.map (·.renumber ρ)

namespace SameParents

variable {s t : Schema} (hp : SameParents ρ s t) (hs : s.Sound) (ht : t.Sound)
include hp hs

omit hs in
theorem lt {id : Nat} (hid : id < s.beans.length) : ρ.bean id < t.beans.length :=
  hp.ids.mapsTo hid

omit hs in
theorem eq_iff {a b : Nat} (ha : a < s.beans.length) (hb : b < s.beans.length) :
    ρ.bean a = ρ.bean b ↔ a = b :=
  hp.ids.injOn.eq_iff ha hb

/-- **The ancestors of a bean correspond.** -/
theorem above_iff {a b : Nat} (ha : a < s.beans.length) (hb : b < s.beans.length) :
    Above t.parents (ρ.bean a) (ρ.bean b) ↔ Above s.parents a b := by
  refine hs.forest.induction (P := fun b => b < s.beans.length →
    (Above t.parents (ρ.bean a) (ρ.bean b) ↔ Above s.parents a b))
    (fun b hroot hb => ?_) (fun b p hbp ih hb => ?_) b hb
  · have hroot' := hp.parent b hb
    rw [parentOf_parents] at hroot
    rw [Hierarchy.above_iff, Hierarchy.above_iff (b := b), parentOf_parents, parentOf_parents,
      hroot', hroot, hp.eq_iff hb ha]
    simp
  · rw [parentOf_parents] at hbp
    have hparent := hp.parent b hb
    rw [Hierarchy.above_iff, Hierarchy.above_iff (b := b), parentOf_parents, parentOf_parents,
      hparent, hbp, hp.eq_iff hb ha]
    simpa using or_congr_right (ih (hs.lt_of_parent hbp))

include ht

/-- The children of a bean correspond. -/
theorem children {a : Nat} (ha : a < s.beans.length) :
    (t.bean (ρ.bean a)).children.Perm ((s.bean a).children.map ρ.bean) := by
  have ha' := hp.lt ha
  refine Renumbering.perm_map hp.ids (fun _ => hs.lt_of_mem_children ha)
    (fun _ => ht.lt_of_mem_children ha') (hs.children_nodup ha) (ht.children_nodup ha')
    fun b hb => ?_
  rw [ht.mem_children ha', hs.mem_children ha, hp.parent b hb]
  cases hbp : (s.bean b).parent with
  | none => simp
  | some p => simpa using hp.eq_iff (hs.lt_of_parent hbp) ha

/-- The descendants of a bean correspond. -/
theorem family {a : Nat} (ha : a < s.beans.length) :
    (t.bean (ρ.bean a)).family.Perm ((s.bean a).family.map ρ.bean) := by
  have ha' := hp.lt ha
  refine Renumbering.perm_map hp.ids (fun _ => hs.lt_of_mem_family ha)
    (fun _ => ht.lt_of_mem_family ha') (hs.family_nodup ha) (ht.family_nodup ha') fun b hb => ?_
  rw [ht.mem_family ha', hs.mem_family ha, hp.above_iff hs ha hb]

/-- So do those without children. -/
theorem concrete {a : Nat} (ha : a < s.beans.length) :
    (t.bean (ρ.bean a)).concrete.Perm ((s.bean a).concrete.map ρ.bean) := by
  have hleaf : ∀ b ∈ (s.bean a).family,
      (t.bean (ρ.bean b)).children.isEmpty = (s.bean b).children.isEmpty := fun b hb => by
    rw [(hp.children hs ht (hs.lt_of_mem_family ha hb)).isEmpty_eq, List.isEmpty_map]
  have hfilter := (hp.family hs ht ha).filter fun b => (t.bean b).children.isEmpty
  rw [ht.concrete_eq (hp.lt ha), hs.concrete_eq ha, ← List.filter_congr hleaf]
  rwa [List.filter_map] at hfilter

/-- **The fields of the hierarchy correspond.** -/
theorem allFields {id : Nat} (hid : id < s.beans.length) :
    (t.bean (ρ.bean id)).allFields = (s.bean id).allFields.map (·.renumber ρ) := by
  refine hs.forest.induction (P := fun b => b < s.beans.length →
    (t.bean (ρ.bean b)).allFields = (s.bean b).allFields.map (·.renumber ρ))
    (fun b hroot hb => ?_) (fun b p hbp ih hb => ?_) id hid
  · rw [parentOf_parents] at hroot
    rw [ht.rootFields _ (by rw [hp.parent b hb, hroot]; rfl), hs.rootFields b hroot,
      hp.fields b hb]
  · rw [parentOf_parents] at hbp
    rw [ht.childFields _ (ρ.bean p) (by rw [hp.parent b hb, hbp]; rfl), hs.childFields b p hbp,
      ih (hs.lt_of_parent hbp), hp.fields b hb, List.map_append]

end SameParents

end Schema

/-! ## Accepted histories -/

namespace Resolve

theorem parent_renumber {a b : Names} (hf : ρ.Fits a b) {d : BeanDecl} {p : Option Nat}
    (h : parent a d = .ok p) : parent b (d.renumber ρ) = .ok (p.map ρ.bean) := by
  cases p with
  | none => exact parent_eq_none.2 (parent_eq_none.1 h)
  | some p =>
    obtain ⟨w, hw, hfind⟩ := parent_eq_some.1 h
    exact parent_eq_some.2 ⟨w, hw, by rw [hf.lookup]; exact congrArg _ hfind⟩

/-- A table that resolves under both numberings resolves to the same. -/
theorem table_renumber {s t : Schema} (hf : ρ.Fits s.names t.names) {d : TableDecl}
    {a b : TableDef} (ha : table s d = .ok a) (hb : table t d = .ok b) : b = a.renumber ρ := by
  obtain ⟨hfind, -, ha⟩ := table_eq_ok.1 ha
  obtain ⟨hfind', -, hb⟩ := table_eq_ok.1 hb
  rw [hf.lookup, hfind] at hfind'
  rw [hb, ha]
  exact congrArg (TableDef.mk _ · _ _ _ _) (TypeRef.bean.inj (Option.some.inj hfind')).symm

/-- So do all of them. -/
theorem tables_renumber {s t : Schema} (hf : ρ.Fits s.names t.names) {ds : List TableDecl}
    {as bs : List TableDef} (ha : ds.map (table s) = as.map .ok)
    (hb : ds.map (table t) = bs.map .ok) : bs = as.map (·.renumber ρ) := by
  induction ds generalizing as bs with
  | nil => cases as <;> cases bs <;> simp_all
  | cons d ds ih =>
    cases as with
    | nil => cases ha
    | cons a as =>
      cases bs with
      | nil => cases hb
      | cons b bs =>
        rw [List.map_cons, List.map_cons, List.cons.injEq] at ha hb
        rw [List.map_cons, table_renumber hf ha.1 hb.1, ih ha.2 hb.2]

end Resolve

namespace Builder

variable {h k : History} {ds ds' : List BeanDecl} {ps ps' : Parents} {s t : Schema}

namespace Accepted

variable (hs : Accepted h ds ps s) (ht : Accepted k ds' ps' t) (hr : h.Renumbered ρ k)
  (hf : ρ.Fits s.names t.names)
include hs ht hr hf

/-- **The declarations of a bean correspond.** -/
theorem decl_renumber {id : Nat} {d : BeanDecl} (hd : ds[id]? = some d) :
    ds'[ρ.bean id]? = some (d.renumber ρ) := by
  have hmem := hr.mem_beans_of_mem ((hs.beans.mem d).1 (List.mem_of_getElem? hd))
  obtain ⟨j, hj⟩ := List.getElem?_of_mem ((ht.beans.mem _).2 hmem)
  -- both are called the same, and the name decides the number
  have hfind := hf d.fullName
  have hj' : Assoc.find? d.fullName (run k).names = some (.bean j) :=
    (ht.beans.index _ j).2 ⟨_, hj, rfl⟩
  rw [hs.resolved.sameNames, ht.resolved.sameNames, (hs.beans.index _ id).2 ⟨d, hd, rfl⟩,
    hj'] at hfind
  cases hfind
  exact hj

theorem sameParents : Schema.SameParents ρ s t where
  ids := hs.sound.bijOn_bean ht.sound hf
  parent id hid := by
    obtain ⟨d, fs, hd, hbean⟩ := hs.exists_place hid
    have hd' := hs.decl_renumber ht hr hf hd
    obtain ⟨fs', -, hbean'⟩ := ht.resolved.bean_fields hd'
    have hparent := parent_renumber (hs.resolved.sameNames ▸ ht.resolved.sameNames ▸ hf)
      (hs.resolved.parent_eq hd)
    rw [ht.resolved.parent_eq hd'] at hparent
    rw [hbean, hbean']
    exact Except.ok.inj hparent
  fields id hid := by
    obtain ⟨d, fs, hd, hbean⟩ := hs.exists_place hid
    obtain ⟨fs', -, hbean'⟩ := ht.resolved.bean_fields (hs.decl_renumber ht hr hf hd)
    rw [hbean, hbean']
    rfl

/-- **Histories that declare the same under other numbers lead to schemas that agree.** -/
theorem renumbered : s.Renumbered ρ t where
  names := hf
  beanIds := hs.sound.bijOn_bean ht.sound hf
  enumIds := hs.sound.bijOn_enum ht.sound hf
  beans id hid := by
    have hp := hs.sameParents ht hr hf
    obtain ⟨d, fs, hd, hbean⟩ := hs.exists_place hid
    obtain ⟨fs', -, hbean'⟩ := ht.resolved.bean_fields (hs.decl_renumber ht hr hf hd)
    exact {
      fullName := by rw [hbean, hbean']; rfl
      altName := by rw [hbean, hbean']; rfl
      comment := by rw [hbean, hbean']; rfl
      parent := hp.parent id hid
      fields := hp.fields id hid
      allFields := hp.allFields hs.sound ht.sound hid
      children := hp.children hs.sound ht.sound hid
      family := hp.family hs.sound ht.sound hid
      concrete := hp.concrete hs.sound ht.sound hid }
  enums id hid := by
    have hmem := (hs.enums.mem _).1 (List.mem_of_getElem? (Schema.enum_of_lt hid))
    obtain ⟨j, hj⟩ := List.getElem?_of_mem ((ht.enums.mem _).2 (hr.enums.mem_iff.2 hmem))
    obtain ⟨hlt, hname⟩ := hs.sound.enum_renumber ht.sound hf hid
    have hjlt := (List.getElem?_eq_some_iff.1 hj).1
    rw [Schema.enum_of_lt hjlt, Option.some.injEq] at hj
    rw [ht.sound.enum_inj hlt hjlt (by rw [hname, hj]), hj]
  tables := by
    have htables := ht.tables
    rw [hr.tables] at htables
    exact tables_renumber hf hs.tables htables

end Accepted

end Builder

end GameConfig
