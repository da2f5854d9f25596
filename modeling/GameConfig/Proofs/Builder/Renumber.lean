import GameConfig.Proofs.Builder.Acceptance
import GameConfig.Proofs.Builder.Numbers
import GameConfig.Proofs.Ty.Renumber

/-
  Histories that declare the same under other numbers.

  The order in which names are first mentioned decides the numbers, and nothing
  else.  `History.Renumbered` relates two histories that mention the same names
  and declare the same, in any order and with the numbers in types exchanged:
  words mean the same in both, so parents and lines correspond (`line_iff`) and
  what is well formed stays so (`wellFormed`).

  * `Renumbering.Fits`: two tables of names differ by the numbers only;
  * `exists_fits`: such a renumbering exists if the same names are known;
  * `run_append_names`: mentioning known names changes no number.
-/

namespace GameConfig

variable {ρ : Renumbering}

/-- The names of both stand for the same under the two numberings. -/
def Renumbering.Fits (ρ : Renumbering) (a b : Names) : Prop :=
  ∀ n, Assoc.find? n b = (Assoc.find? n a).map (TypeRef.renumber ρ)

/-- Names fit themselves. -/
theorem Renumbering.fits_id (names : Names) : Renumbering.id.Fits names names := fun n => by
  cases Assoc.find? n names <;> simp

/-- Where names fit, words are looked up alike. -/
theorem Renumbering.Fits.lookup {a b : Names} (hf : ρ.Fits a b) (word : String)
    (space : Option String) : b.lookup word space = (a.lookup word space).map (.renumber ρ) := by
  unfold Names.lookup
  rw [hf word]
  cases Assoc.find? word a with
  | some ref => rfl
  | none =>
    cases space with
    | none => rfl
    | some s =>
      by_cases hs : s.isEmpty = true
      · simp [hs]
      · simp [hs, hf (s ++ "." ++ word)]

namespace History

/-- Two histories mention the same names and declare the same, with other numbers in types. -/
structure Renumbered (ρ : Renumbering) (h k : History) : Prop where
  beanNames : ∀ n, n ∈ k.beanNames ↔ n ∈ h.beanNames
  enumNames : ∀ n, n ∈ k.enumNames ↔ n ∈ h.enumNames
  beans : k.beans.Perm (h.beans.map (·.renumber ρ))
  enums : k.enums.Perm h.enums
  tables : k.tables = h.tables

namespace Renumbered

variable {h k : History} (hr : Renumbered ρ h k)
include hr

/-! ## What words mean -/

theorem knows_iff {n : String} : k.Knows n ↔ h.Knows n :=
  or_congr (hr.beanNames n) (hr.enumNames n)

theorem fullNameOf?_eq (space word : String) :
    k.fullNameOf? space word = h.fullNameOf? space word := by
  simp only [fullNameOf?, hr.knows_iff]

theorem mem_beans {d' : BeanDecl} : d' ∈ k.beans ↔ ∃ d ∈ h.beans, d.renumber ρ = d' := by
  rw [hr.beans.mem_iff, List.mem_map]

theorem mem_beans_of_mem {d : BeanDecl} (hd : d ∈ h.beans) : d.renumber ρ ∈ k.beans :=
  hr.mem_beans.2 ⟨d, hd, rfl⟩

theorem map_fullName : (k.beans.map BeanDecl.fullName).Perm (h.beans.map BeanDecl.fullName) := by
  have hmap := hr.beans.map BeanDecl.fullName
  rwa [List.map_map] at hmap

theorem finds_iff {space word : String} {d' : BeanDecl} :
    k.Finds space word d' ↔ ∃ d, h.Finds space word d ∧ d.renumber ρ = d' := by
  constructor
  · rintro ⟨hmem, hnamed⟩
    obtain ⟨d, hd, rfl⟩ := hr.mem_beans.1 hmem
    exact ⟨d, ⟨hd, hr.fullNameOf?_eq space word ▸ hnamed⟩, rfl⟩
  · rintro ⟨d, ⟨hd, hnamed⟩, rfl⟩
    exact ⟨hr.mem_beans_of_mem hd, (hr.fullNameOf?_eq space word).trans hnamed⟩

/-- The parents of a bean correspond. -/
theorem isParent_iff {d p' : BeanDecl} :
    k.IsParent p' (d.renumber ρ) ↔ ∃ p, h.IsParent p d ∧ p.renumber ρ = p' := by
  constructor
  · rintro ⟨w, hw, hfind⟩
    obtain ⟨p, hp, rfl⟩ := hr.finds_iff.1 hfind
    exact ⟨p, ⟨w, hw, hp⟩, rfl⟩
  · rintro ⟨p, ⟨w, hw, hp⟩, rfl⟩
    exact ⟨w, hw, hr.finds_iff.2 ⟨p, hp, rfl⟩⟩

/-- **The lines of a bean correspond.** -/
theorem line_iff {d : BeanDecl} {l' : List BeanDecl} :
    k.Line (d.renumber ρ) l' ↔ ∃ l, h.Line d l ∧ l.map (·.renumber ρ) = l' := by
  constructor
  · intro hl
    generalize hd : d.renumber ρ = d' at hl
    induction hl generalizing d with
    | root hroot =>
      subst hd
      exact ⟨[d], .root hroot, rfl⟩
    | child hip _ ih =>
      subst hd
      obtain ⟨p, hp, hp'⟩ := hr.isParent_iff.1 hip
      obtain ⟨l, hl, rfl⟩ := ih hp'
      exact ⟨l ++ [d], .child hp hl, by simp⟩
  · rintro ⟨l, hl, rfl⟩
    induction hl with
    | root hroot => exact .root hroot
    | child hip _ ih =>
      rw [List.map_append]
      exact .child (hr.isParent_iff.2 ⟨_, hip, rfl⟩) ih

/-! ## What is well formed -/

theorem unambiguous (hu : h.Unambiguous) : k.Unambiguous where
  kinds n hb he := hu.kinds n ((hr.beanNames n).1 hb) ((hr.enumNames n).1 he)
  beansOnce := hr.map_fullName.nodup_iff.2 hu.beansOnce
  enumsOnce := (hr.enums.map EnumDef.fullName).nodup_iff.2 hu.enumsOnce

omit hr in
/-- Fields along a line keep their names. -/
theorem names_flatMap (l : List BeanDecl) :
    ((l.map (·.renumber ρ)).flatMap BeanDecl.fields).map Field.name =
      (l.flatMap BeanDecl.fields).map Field.name := by
  simp [List.flatMap_map, List.map_flatMap, BeanDecl.renumber, Function.comp_def, Field.renumber]

theorem indexes {t : TableDecl} {d : BeanDecl} (hi : h.Indexes t d) :
    k.Indexes t (d.renumber ρ) where
  given := hi.given
  names i htable := by
    obtain ⟨l, f, hl, hf, hname, htype⟩ := hi.names i htable
    refine ⟨_, f.renumber ρ, hr.line_iff.2 ⟨l, hl, rfl⟩, ?_, hname, fun hmode => ?_⟩
    · rw [List.flatMap_map]
      obtain ⟨c, hc, hfc⟩ := List.mem_flatMap.1 hf
      exact List.mem_flatMap.2 ⟨c, hc, List.mem_map_of_mem hfc⟩
    · obtain ⟨hcoll, hbean⟩ := htype hmode
      exact ⟨by rw [← hcoll]; exact Ty.isCollection_renumber ρ f.ty, fun m id e =>
        have ⟨m, i, hi⟩ := (Ty.exists_renumber_eq_bean ρ).1 ⟨m, id, e⟩
        hbean m i hi⟩

/-- **What is well formed under one numbering is so under the other.** -/
theorem wellFormed (hw : h.WellFormed) : k.WellFormed where
  unambiguous := hr.unambiguous hw.unambiguous
  beansDeclared n hn := hr.map_fullName.mem_iff.2 (hw.beansDeclared n ((hr.beanNames n).1 hn))
  enumsDeclared n hn :=
    (hr.enums.map EnumDef.fullName).mem_iff.2 (hw.enumsDeclared n ((hr.enumNames n).1 hn))
  items e he := hw.items e (hr.enums.mem_iff.1 he)
  parents d' hd' hne := by
    obtain ⟨d, hd, rfl⟩ := hr.mem_beans.1 hd'
    obtain ⟨p, hp⟩ := hw.parents d hd hne
    exact ⟨_, hr.isParent_iff.2 ⟨p, hp, rfl⟩⟩
  ends d' hd' := by
    obtain ⟨d, hd, rfl⟩ := hr.mem_beans.1 hd'
    obtain ⟨l, hl⟩ := hw.ends d hd
    exact ⟨_, hr.line_iff.2 ⟨l, hl, rfl⟩⟩
  fields d' hd' l' hl' := by
    obtain ⟨d, hd, rfl⟩ := hr.mem_beans.1 hd'
    obtain ⟨l, hl, rfl⟩ := hr.line_iff.1 hl'
    rw [names_flatMap]
    exact hw.fields d hd l hl
  tables t ht := by
    obtain ⟨d, hd, hi⟩ := hw.tables t (hr.tables ▸ ht)
    exact ⟨_, hr.finds_iff.2 ⟨d, hd, rfl⟩, hr.indexes hi⟩

end Renumbered

end History

namespace Builder

/-! ## Numbers -/

/-- Each number of `b` goes to that of the same name in `c`. -/
def renumbering (b c : Builder) : Renumbering where
  bean i := match (slotName? b.beans i).bind fun n => Assoc.find? n c.names with
    | some (.bean j) => j
    | _ => 0
  enum i := match (slotName? b.enums i).bind fun n => Assoc.find? n c.names with
    | some (.enum j) => j
    | _ => 0

/-- **Where the same names are known, they differ by the numbers only.** -/
theorem renumbering_fits {h k : History} {b c : Builder} (hb : Follows h b) (hc : Follows k c)
    (hbeans : ∀ n, n ∈ k.beanNames ↔ n ∈ h.beanNames)
    (henums : ∀ n, n ∈ k.enumNames ↔ n ∈ h.enumNames) :
    (renumbering b c).Fits b.names c.names := by
  intro n
  cases hn : Assoc.find? n b.names with
  | none =>
    rw [Option.map_none]
    refine hc.find?_of_not_knows fun hk => ?_
    obtain ⟨ref, href⟩ := hb.knows_iff.1 (hk.imp (hbeans n).1 (henums n).1)
    rw [hn] at href
    cases href
  | some ref =>
    cases ref with
    | bean i =>
      obtain ⟨j, hj⟩ := hc.beans.mem_mentioned.1
        ((hbeans n).2 (hb.beans.mem_mentioned.2 ⟨i, hn⟩))
      simp [TypeRef.renumber, renumbering, (hb.beans.index n i).1 hn, hj]
    | enum i =>
      obtain ⟨j, hj⟩ := hc.enums.mem_mentioned.1
        ((henums n).2 (hb.enums.mem_mentioned.2 ⟨i, hn⟩))
      simp [TypeRef.renumber, renumbering, (hb.enums.index n i).1 hn, hj]

section
variable {h : History} {b : Builder} (hb : Follows h b)
include hb

theorem beanId_names {n : String} (hn : n ∈ h.beanNames) : (b.beanId n).2.names = b.names := by
  obtain ⟨i, hi⟩ := hb.beans.mem_mentioned.1 hn
  simp [beanId, hi]

theorem enumId_names {n : String} (hn : n ∈ h.enumNames) : (b.enumId n).2.names = b.names := by
  obtain ⟨i, hi⟩ := hb.enums.mem_mentioned.1 hn
  simp [enumId, hi]

/-- A call that mentions a known name gives no number. -/
theorem apply_names {c : Call} (hbean : ∀ n, c.beanName? = some n → n ∈ h.beanNames)
    (henum : ∀ n, c.enumName? = some n → n ∈ h.enumNames) : (b.apply c).names = b.names := by
  cases c with
  | beanId n => exact beanId_names hb (hbean n rfl)
  | enumId n => exact enumId_names hb (henum n rfl)
  | addBean d => exact (addBean_eq b d).1.trans (beanId_names hb (hbean _ rfl))
  | addEnum e => exact (addEnum_eq b e).1.trans (enumId_names hb (henum _ rfl))
  | addTable t => rfl

end

/-- **Mentioning known names changes no number.** -/
theorem run_append_names {g h : History} (hu : (g ++ h).Unambiguous)
    (hbeans : ∀ n ∈ h.beanNames, n ∈ g.beanNames) (henums : ∀ n ∈ h.enumNames, n ∈ g.enumNames) :
    (run (g ++ h)).names = (run g).names := by
  induction h using List.reverseRecOn with
  | nil => rw [List.append_nil]
  | append_singleton h c ih =>
    rw [← List.append_assoc] at hu ⊢
    rw [History.beanNames_append, List.forall_mem_append] at hbeans
    rw [History.enumNames_append, List.forall_mem_append] at henums
    rw [run_concat, apply_names (run_follows hu.of_append) (fun n hn => ?_) fun n hn => ?_,
      ih hu.of_append hbeans.1 henums.1]
    · rw [History.beanNames_append, List.mem_append]
      exact .inl (hbeans.2 n (by rw [History.beanNames_singleton, hn]; exact .head _))
    · rw [History.enumNames_append, List.mem_append]
      exact .inl (henums.2 n (by rw [History.enumNames_singleton, hn]; exact .head _))

end Builder

end GameConfig
