import GameConfig.Proofs.Emit.Beans

/-
  What the references of a document point to.

  A definition stands under the full name of an enum or a bean, or under that of
  a bean with `dataFileSuffix` behind it.  Full names differ, so unless one of
  them ends with the suffix no definition takes the place of another
  (`target?_of_entries`), and each reference points to what it was made for
  (`knows_document`, `knowsFiles_document`).
-/

namespace GameConfig

open Notation

/-! ## Names -/

namespace Schema

/-- The names of enums and beans are full names. -/
structure NamesProper (s : Schema) : Prop where
  enum : ∀ id < s.enums.length, isFullName (s.enum id).fullName.toList = true
  bean : ∀ id < s.beans.length, isFullName (s.bean id).fullName.toList = true

theorem namesProper_of_build {h : History} (hp : h.Proper) {s : Schema}
    (hs : (Builder.run h).build = .ok s) : s.NamesProper := by
  obtain ⟨ds, ps, ha⟩ := Builder.exists_accepted hs
  constructor
  case enum =>
    intro id hid
    have hmem : s.enum id ∈ s.enums := List.mem_of_getElem? (enum_of_lt hid)
    exact (hp.enums _ ((ha.enums.mem _).1 hmem)).fullName
  case bean =>
    intro id hid
    obtain ⟨d, fs, hd, hbean⟩ := ha.exists_place hid
    rw [hbean]
    exact (hp.beans d ((ha.beans.mem d).1 (List.mem_of_getElem? hd))).fullName

/-- No full name ends like the name of a definition for files. -/
structure SuffixFree (s : Schema) : Prop where
  enums : ∀ e ∈ s.enums, ¬ dataFileSuffix.toList <:+ e.fullName.toList
  beans : ∀ b ∈ s.beans, ¬ dataFileSuffix.toList <:+ b.fullName.toList

theorem SuffixFree.enum {s : Schema} (hfree : s.SuffixFree) {e : EnumDef} (he : e ∈ s.enums)
    (n : String) : e.fullName ≠ n ++ dataFileSuffix := by
  intro h
  refine hfree.enums e he ⟨n.toList, ?_⟩
  rw [h, String.toList_append]

theorem SuffixFree.bean {s : Schema} (hfree : s.SuffixFree) {id : Nat} (hid : id < s.beans.length)
    (n : String) : (s.bean id).fullName ≠ n ++ dataFileSuffix := by
  intro h
  refine hfree.beans _ (List.mem_of_getElem? (bean_of_lt hid)) ⟨n.toList, ?_⟩
  rw [h, String.toList_append]

theorem mem_enums {s : Schema} {e : EnumDef} (h : e ∈ s.enums) :
    ∃ id < s.enums.length, s.enum id = e := by
  obtain ⟨id, hid, rfl⟩ := List.getElem_of_mem h
  refine ⟨id, hid, ?_⟩
  simp [enum, List.getD_eq_getElem?_getD, hid]

namespace Sound

variable {s : Schema} (hs : s.Sound)
include hs

/-- Enums and beans have different names. -/
theorem enum_ne_bean {a b : Nat} (ha : a < s.enums.length) (hb : b < s.beans.length) :
    (s.enum a).fullName ≠ (s.bean b).fullName := by
  intro h
  have h₁ := (hs.enumNames _ a).2 ⟨ha, h⟩
  have h₂ := (hs.beanNames _ b).2 ⟨hb, rfl⟩
  rw [h₁] at h₂
  cases h₂

end Sound

end Schema

/-! ## Entries -/

section

variable {s : Schema} {variants : Bool}

/-- The choice among the definitions for files of the concrete descendants of a bean. -/
def BeanDef.choiceSchema (s : Schema) (b : BeanDef) : Json :=
  .object [("anyOf", .array (b.concrete.map fun c => definitionRef (s.bean c).dataFileName))]

/-- The definitions for files that a bean brings along, and the choice among them. -/
def fileEntries (s : Schema) (id : Nat) (b : BeanDef) : List (String × Json) :=
  (fileVariants s id b).map (fun v => ((s.bean v).dataFileName, (s.bean v).fileSchema s)) ++
    if b.isAbstract && s.hasTableOf id then [(b.dataFileName, b.choiceSchema s)] else []

/-- An entry is the definition of an enum, of a bean, or for files. -/
theorem mem_definitions {key : String} {o : Json} : (key, o) ∈ definitions s variants ↔
    (∃ e ∈ s.enums, key = e.fullName ∧ o = e.schemaOf) ∨
      ∃ id < s.beans.length, (key = (s.bean id).fullName ∧ o = (s.bean id).schemaOf s) ∨
        variants = true ∧ (key, o) ∈ fileEntries s id (s.bean id) := by
  simp only [definitions, List.mem_append, List.mem_map, List.mem_flatMap, List.mem_range,
    beanDefinitions, List.mem_cons, Prod.mk.injEq]
  refine or_congr ?_ (exists_congr fun id => and_congr_right fun _ => or_congr_right ?_)
  · exact exists_congr fun e => and_congr_right fun _ => by simp [eq_comm]
  · cases variants with
    | true => simp [fileEntries, BeanDef.choiceSchema]
    | false => simp

/-- The names of definitions for files end with the suffix. -/
theorem eq_append_of_mem_fileEntries {id : Nat} {key : String} {o : Json}
    (h : (key, o) ∈ fileEntries s id (s.bean id)) : ∃ n, key = n ++ dataFileSuffix := by
  rcases List.mem_append.1 h with h | h
  · obtain ⟨v, -, heq⟩ := List.mem_map.1 h
    cases heq
    exact ⟨_, rfl⟩
  · split at h
    · cases List.mem_singleton.1 h
      exact ⟨_, rfl⟩
    · cases h

end

/-! ## References -/

/-- References to enums and beans point to their definitions. -/
structure Validator.Knows (j : Validator) (s : Schema) : Prop where
  enum : ∀ id < s.enums.length,
    j.target? ("#/definitions/" ++ (s.enum id).fullName) = some (s.enum id).schemaOf
  bean : ∀ id < s.beans.length,
    j.target? ("#/definitions/" ++ (s.bean id).fullName) = some ((s.bean id).schemaOf s)

/-- A reference points to the definition all of whose entries are the same. -/
theorem target?_of_entries {j : Validator} {s : Schema} {o : JsonSchemaOptions} {name : String}
    {schema : Json} (hdoc : j.document = o.document s)
    (hname : ∀ c ∈ name.toList, c = '.' ∨ isNameChar c = true)
    (hmem : (name, schema) ∈ definitions s o.fileVariants)
    (huniq : ∀ y, (name, y) ∈ definitions s o.fileVariants → y = schema) :
    j.target? ("#/definitions/" ++ name) = some schema := by
  have hplain : name.toList.any (fun c => ['/', '~', '%'].contains c) = false := by
    refine List.any_eq_false.2 fun c hc hescaped => ?_
    have hc' : c = '/' ∨ c = '~' ∨ c = '%' := by simpa using hescaped
    have hnot : ∀ c, c = '/' ∨ c = '~' ∨ c = '%' → c ≠ '.' ∧ isNameChar c = false := by
      rintro c (rfl | rfl | rfl) <;> decide
    obtain ⟨hdot, hchar⟩ := hnot c hc'
    rcases hname c hc with h | h
    · exact hdot h
    · rw [hchar] at h
      cases h
  have hfind := Assoc.find?_ofEntries (List.mem_map.2 ⟨_, hmem, rfl⟩) huniq
  rw [Validator.target?, String.toList_append, Text.dropFront?_append, hdoc]
  dsimp only
  rw [if_neg (by rw [hplain]; decide), String.ofList_toList]
  simp [JsonSchemaOptions.document, Json.member?, Assoc.find?, hfind]

variable {j : Validator} {s : Schema} {o : JsonSchemaOptions}

/-- **The document defines every enum and every bean under its full name.** -/
theorem knows_document (hs : s.Sound) (hn : s.NamesProper)
    (hfree : o.fileVariants = true → s.SuffixFree) (hdoc : j.document = o.document s) :
    j.Knows s := by
  -- an entry under the name of an enum or a bean is not one for files
  have hfile : ∀ {id : Nat} {key : String} {y : Json}, o.fileVariants = true →
      (key, y) ∈ fileEntries s id (s.bean id) → (∃ n, key = n ++ dataFileSuffix) :=
    fun _ hy => eq_append_of_mem_fileEntries hy
  constructor
  case enum =>
    intro id hid
    refine target?_of_entries hdoc (fun c hc => isNameChar_of_isFullName (hn.enum id hid) hc)
      (mem_definitions.2 (.inl ⟨_, List.mem_of_getElem? (Schema.enum_of_lt hid), rfl, rfl⟩)) ?_
    intro y hy
    rcases mem_definitions.1 hy with ⟨e, he, hname, rfl⟩ | ⟨b, hb, ⟨hname, -⟩ | ⟨hv, hy⟩⟩
    · obtain ⟨id', hid', rfl⟩ := Schema.mem_enums he
      rw [hs.enum_inj hid hid' hname]
    · exact absurd hname (hs.enum_ne_bean hid hb)
    · obtain ⟨n, hn⟩ := hfile hv hy
      exact absurd hn ((hfree hv).enum (List.mem_of_getElem? (Schema.enum_of_lt hid)) n)
  case bean =>
    intro id hid
    refine target?_of_entries hdoc (fun c hc => isNameChar_of_isFullName (hn.bean id hid) hc)
      (mem_definitions.2 (.inr ⟨id, hid, .inl ⟨rfl, rfl⟩⟩)) ?_
    intro y hy
    rcases mem_definitions.1 hy with ⟨e, he, hname, -⟩ | ⟨b, hb, ⟨hname, rfl⟩ | ⟨hv, hy⟩⟩
    · obtain ⟨id', hid', rfl⟩ := Schema.mem_enums he
      exact absurd hname.symm (hs.enum_ne_bean hid' hid)
    · rw [hs.bean_inj hid hb hname]
    · obtain ⟨n, hn⟩ := hfile hv hy
      exact absurd hn ((hfree hv).bean hid n)

/-- The name of a definition for files says whose it is. -/
theorem dataFileName_inj (hs : s.Sound) {a b : Nat} (ha : a < s.beans.length)
    (hb : b < s.beans.length) (h : (s.bean a).dataFileName = (s.bean b).dataFileName) : a = b := by
  refine hs.bean_inj ha hb ?_
  unfold BeanDef.dataFileName at h
  rw [← String.toList_inj, String.toList_append, String.toList_append] at h
  exact String.toList_inj.1 (List.append_cancel_right h)

end GameConfig
