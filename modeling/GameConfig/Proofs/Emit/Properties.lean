import GameConfig.Proofs.Emit.Beans
import Mathlib

/-
  Which schema a bean has for a key of its data.

  The keys of all fields are put into one dictionary, field by field, the name of
  a field behind its other keys.  Names of fields differ, and no name is a key of
  a variant; but the alias of a field may be the name of another one, or the key
  of the discriminator, and then the field that comes last has the key.

  * `find?_properties`: a key has the schema of the last field that stands under it;
  * `properties_of_build`: what has the name of a field and the key of the
    discriminator;
  * `not_properties_emblems`: a field and a discriminator that lose their key.
-/

namespace GameConfig

open Notation

/-- The schema that an object schema has for a member. -/
def Json.property? (o : Json) (key : String) : Option Json :=
  (o.member? "properties").bind (member? key)

/-- The last field with an alias. -/
def lastAliased? (name : String) (fields : List Field) : Option Field :=
  fields.reverse.find? fun f => f.altName == some name

section
variable {s : Schema} {key : String} {properties : Assoc Json} {fields : List Field}

/-- **A key has the schema of the last field that stands under it**, and what it had before if
    there is none. -/
theorem find?_properties :
    Assoc.find? key (fields.foldl (addProperty s) properties) =
      ((fields.reverse.find? fun f => key ∈ f.keys).map (Field.schemaOf s)).or
        (Assoc.find? key properties) := by
  induction fields generalizing properties with
  | nil => rfl
  | cons f fields ih =>
    rw [List.foldl_cons, ih, find?_addProperty, List.reverse_cons, List.find?_append]
    cases fields.reverse.find? fun f => key ∈ f.keys with
    | some g => rfl
    | none => by_cases h : key ∈ f.keys <;> simp [h]

/-- Fields that may stand under a key by their alias only. -/
theorem find?_properties_aliased (h : ∀ f ∈ fields, key ∈ f.keys ↔ f.altName = some key) :
    Assoc.find? key (fields.foldl (addProperty s) properties) =
      ((lastAliased? key fields).map (Field.schemaOf s)).or (Assoc.find? key properties) := by
  have hfind : (fields.reverse.find? fun f => key ∈ f.keys) = lastAliased? key fields := by
    refine List.find?_congr fun f hf => ?_
    simp only [h f (List.mem_reverse.1 hf), beq_eq_decide]
  rw [find?_properties, hfind]

theorem property?_objectSchema {required : List String} {comment : Option String} :
    (objectSchema s properties required fields comment).property? key =
      Assoc.find? key (fields.foldl (addProperty s) properties) := by
  rw [Validator.objectSchema_eq, Json.property?, Json.member?,
    Validator.find?_properties_objectMembers]
  rfl

variable (hs : s.Sound) (hn : s.Named) {c : Nat}
include hn

theorem find?_typeKey_properties :
    Assoc.find? typeKey ((s.bean c).allFields.foldl (addProperty s) properties) =
      ((lastAliased? typeKey (s.bean c).allFields).map (Field.schemaOf s)).or
        (Assoc.find? typeKey properties) :=
  find?_properties_aliased fun _ hf => typeKey_mem_keys_iff hn hf

include hs

/-- The name of a field has the schema of the last of the later fields that have it as their alias,
    and that of the field if there is none. -/
theorem find?_name_properties_eq {before after : List Field} {f : Field}
    (hsplit : (s.bean c).allFields = before ++ f :: after) :
    Assoc.find? f.name ((s.bean c).allFields.foldl (addProperty s) properties) =
      some (((lastAliased? f.name after).getD f).schemaOf s) := by
  have hf : f ∈ (s.bean c).allFields := by simp [hsplit]
  have hnodup := hs.fieldsNodup c
  rw [hsplit, List.map_append, List.map_cons, List.nodup_append, List.nodup_cons] at hnodup
  have hafter : ∀ g ∈ after, f.name ∈ g.keys ↔ g.altName = some f.name := fun g hg =>
    name_mem_keys_iff hn hf fun h => hnodup.2.1.1 (List.mem_map.2 ⟨g, hg, h.symm⟩)
  rw [hsplit, List.foldl_append, List.foldl_cons, find?_properties_aliased hafter,
    find?_addProperty, if_pos (mem_keys.2 (.inl rfl))]
  cases lastAliased? f.name after <;> rfl

end

/-- **Which schema the object of a bean has under the name of a field and under the key of the
    discriminator**: that of the field unless later fields have its name as their alias, then that
    of the last of them; and the text of the discriminator unless fields have that alias. -/
theorem properties_of_build {d : Descriptor} {s : Schema} (hb : d.build = .ok s) {c : Nat}
    (hleaf : (s.bean c).children = []) :
    (∀ before f after, (s.bean c).allFields = before ++ f :: after →
      ((s.bean c).schemaOf s).property? f.name =
        some (((lastAliased? f.name after).getD f).schemaOf s)) ∧
    ((s.bean c).parent.isSome = true →
      ((s.bean c).schemaOf s).property? typeKey =
        some (((lastAliased? typeKey (s.bean c).allFields).map (Field.schemaOf s)).getD
          (constSchema (s.discriminator (s.bean c))))) := by
  obtain ⟨g, hg, hp⟩ := Descriptor.exists_history_of_build hb
  have hs := Schema.sound_of_build hg
  have hn := Schema.named_of_build hp hg
  have hconcrete : (s.bean c).schemaOf s = (s.bean c).concreteSchema s :=
    if_neg fun h => BeanDef.isAbstract_iff.1 h hleaf
  rw [hconcrete, BeanDef.concreteSchema]
  constructor
  · intro before f after hsplit
    split
    all_goals exact property?_objectSchema.trans (find?_name_properties_eq hs hn hsplit)
  · intro hparent
    rw [if_pos hparent, property?_objectSchema, find?_typeKey_properties hn]
    cases lastAliased? typeKey (s.bean c).allFields <;> rfl

/-- The text of an emblem may be read from its number, and the kind of a crest from the name of its
    bean. -/
def emblems : Descriptor where
  enums := []
  beans := [
    ⟨"Emblem", none, none, none, [⟨"id", "int", none, [], [], none⟩,
      ⟨"text", "string", some "id", [], [], none⟩]⟩,
    ⟨"Crest", some "Emblem", none, none, [⟨"kind", "int", some "$type", [], [], none⟩]⟩]
  tables := []

def emblemsSchema : Schema :=
  let id : Field := ⟨"id", none, [], .scalar .plain (.integer .int), [], none⟩
  let text : Field := ⟨"text", some "id", [], .scalar .plain .string, [], none⟩
  let kind : Field := ⟨"kind", some "$type", [], .scalar .plain (.integer .int), [], none⟩
  { beans := [
      ⟨"Emblem", none, none, [id, text], none, [id, text], [1], [0, 1], [1]⟩,
      ⟨"Crest", none, some 0, [kind], none, [id, text, kind], [], [1], [1]⟩]
    enums := []
    tables := []
    names := [("Emblem", .bean 0), ("Crest", .bean 1)] }

theorem properties_emblems : emblems.build = .ok emblemsSchema ∧
    (emblemsSchema.bean 1).children = [] ∧
    (∀ before f after, (emblemsSchema.bean 1).allFields = before ++ f :: after →
      ((emblemsSchema.bean 1).schemaOf emblemsSchema).property? f.name =
        some (((lastAliased? f.name after).getD f).schemaOf emblemsSchema)) ∧
    ((emblemsSchema.bean 1).parent.isSome = true →
      ((emblemsSchema.bean 1).schemaOf emblemsSchema).property? typeKey =
        some (((lastAliased? typeKey (emblemsSchema.bean 1).allFields).map
          (Field.schemaOf emblemsSchema)).getD
            (constSchema (emblemsSchema.discriminator (emblemsSchema.bean 1))))) := by
  have hbuild : emblems.build = .ok emblemsSchema := by cbv
  exact ⟨hbuild, rfl, properties_of_build hbuild rfl⟩

/-- The number of a crest is described as a text, and its discriminator as a number. -/
theorem not_properties_emblems : emblems.build = .ok emblemsSchema ∧
    ∃ b ∈ emblemsSchema.beans, b.children = [] ∧ b.parent.isSome = true ∧
      (∃ f ∈ b.allFields,
        (b.schemaOf emblemsSchema).property? f.name ≠ some (f.schemaOf emblemsSchema)) ∧
      (b.schemaOf emblemsSchema).property? typeKey ≠
        some (constSchema (emblemsSchema.discriminator b)) := by
  refine ⟨by cbv, emblemsSchema.bean 1, .tail _ (.head _), rfl, rfl,
    ⟨_, .head _, fun h => ?_⟩, fun h => ?_⟩
  · have htype : some (Json.string "string") = some (Json.string "integer") :=
      congrArg (Option.bind · (Json.member? "type")) h
    simp at htype
  · cases congrArg (Option.bind · (Json.member? "const")) h

end GameConfig
