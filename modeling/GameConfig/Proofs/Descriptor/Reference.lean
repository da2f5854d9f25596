import GameConfig.Proofs.Descriptor.Order
import GameConfig.Proofs.Emit.Definitions
import GameConfig.Proofs.Ty.Name

/-
  References to declared types.

  A descriptor admits every full name that it does not mention twice.  A type
  expression takes the words for scalar types and containers for those types,
  whatever else they name; every other full name stands for what it names, in
  every namespace, since names are looked up as they stand first.

  * `Descriptor.resolve_refName`: full names resolve to what they name;
  * `Descriptor.parse_refName_iff`: so a bean or enum is referred to by its full
    name if and only if that is no word for a type (`not_parse_refName`);
  * `Descriptor.parse_name_iff`: over a schema without such names, the name of a
    type is read back if and only if the type is legible.
-/

namespace GameConfig

open Notation

/-- What a type within bounds refers to is within them. -/
theorem Ty.Within.of_mem_refs {beans enums : Nat} {ty : Ty} (h : ty.Within beans enums) :
    ∀ r ∈ ty.refs, r.Within beans enums := by
  induction ty with
  | scalar m k => simp [Ty.refs]
  | named m r => exact List.forall_mem_singleton.2 h
  | seq m k e ih => exact ih h
  | map m k v ihk ihv => exact List.forall_mem_append.2 ⟨ihk h.1, ihv h.2⟩

namespace Notation

/-- A word for a type stands for no bean or enum. -/
theorem read_typeWord_ne_named {scope : Scope} {word : String} (h : word ∈ typeWords) (m : Mark)
    (ref : TypeRef) : read scope word.toList ≠ .ok (.named m ref) := by
  rcases List.mem_append.1 h with h | h
  · obtain ⟨k, -, rfl⟩ := List.mem_map.1 h
    have hplain : headText k.name .plain = k.name.toList := headText_plain k.name
    rw [← hplain, read_headText (isWord_scalar k) (Mark.tidy_of_tags rfl) (container?_scalar k),
      leaf_scalar]
    intro heq
    cases heq
  · obtain ⟨hw, hc⟩ : IsWord word.toList ∧ (container? word.toList).isSome = true := by
      simp only [List.mem_cons, List.not_mem_nil, or_false] at h
      rcases h with rfl | rfl | rfl | rfl <;> exact ⟨isWord_of_all (by decide) rfl, rfl⟩
    exact read_container_ne_ok hw hc

end Notation

namespace Schema

variable {s : Schema}

/-- A full name stands for what it names, in every namespace. -/
theorem Sound.findType?_refName (hs : s.Sound) {ref : TypeRef}
    (href : ref.Within s.beans.length s.enums.length) (space : Option String) :
    s.findType? (s.refName ref) space = some ref := by
  have hfind : Assoc.find? (s.refName ref) s.names = some ref := by
    cases ref with
    | bean id => exact (hs.beanNames _ id).2 ⟨href, rfl⟩
    | enum id => exact (hs.enumNames _ id).2 ⟨href, rfl⟩
  unfold findType? Names.lookup
  rw [hfind]

theorem NamesProper.refName (hn : s.NamesProper) {ref : TypeRef}
    (href : ref.Within s.beans.length s.enums.length) :
    isFullName (s.refName ref).toList = true := by
  cases ref with
  | bean id => exact hn.bean id href
  | enum id => exact hn.enum id href

end Schema

namespace Descriptor

section
variable {d : Descriptor} {s : Schema} (hb : d.build = .ok s)
include hb

/-- Names resolve as they did when they were reserved. -/
theorem scope_reservations (space context : String) :
    (Builder.run d.reservations).scope space context = s.scope space context := by
  obtain ⟨es, ds, hl, hs⟩ := build_eq_ok.1 hb
  obtain ⟨ds', ps, ha⟩ := Builder.exists_accepted hs
  have hu := (Builder.duplicates_eq_nil_iff _).1 (Builder.duplicates_of_build hs)
  have hnames : s.names = (Builder.run d.reservations).names :=
    ha.resolved.sameNames.trans (hl.names hu)
  unfold Builder.scope Schema.scope Builder.findType? Schema.findType?
  rw [hnames]

/-- Full names are admitted as names and resolve to what they name. -/
theorem resolve_refName {ref : TypeRef} (href : ref.Within s.beans.length s.enums.length) :
    isFullName (s.refName ref).toList = true ∧
      ∀ space context, (s.scope space context).resolve (s.refName ref) = some ref := by
  obtain ⟨g, hg, hp⟩ := exists_history_of_build hb
  exact ⟨(Schema.namesProper_of_build hp hg).refName href,
    fun space _ => (Schema.sound_of_build hg).findType?_refName href (some space)⟩

/-- **A bean or enum is referred to by its full name**, in every namespace, if and only if the name
    is no word for a type. -/
theorem parse_refName_iff {ref : TypeRef} (href : ref.Within s.beans.length s.enums.length)
    (space context : String) :
    Ty.parse ((Builder.run d.reservations).scope space context) (s.refName ref) =
      .ok (.named .plain ref) ↔ s.refName ref ∉ typeWords := by
  rw [scope_reservations hb]
  obtain ⟨hfull, hresolve⟩ := resolve_refName hb href
  constructor
  · intro h hword
    exact read_typeWord_ne_named hword .plain ref h
  · intro hword
    have hname : IsTypeName (s.refName ref) := ⟨hfull, hword⟩
    have hplain : headText (s.refName ref) .plain = (s.refName ref).toList := headText_plain _
    rw [Ty.parse, ← hplain, read_headText hname.isWord (Mark.tidy_of_tags rfl) hname.container?,
      leaf_named hname (hresolve space context)]

end

/-- Words for types as parts of names. -/
def parts : Descriptor where
  enums := [⟨"game.list", false, none, [⟨"first", none, none, none⟩]⟩]
  beans := [⟨"list.int", none, none, none, []⟩]
  tables := []

def partsSchema : Schema where
  beans := [⟨"list.int", none, none, [], none, [], [], [0], [0]⟩]
  enums := [⟨"game.list", [⟨"first", .int 0, none, none⟩], false, none⟩]
  tables := []
  names := [("game.list", .enum 0), ("list.int", .bean 0)]

theorem parse_refName_parts : parts.build = .ok partsSchema ∧
    (TypeRef.enum 0).Within partsSchema.beans.length partsSchema.enums.length ∧
    Ty.parse ((Builder.run parts.reservations).scope "list" "") "game.list" =
      .ok (.named .plain (.enum 0)) := by
  have hbuild : parts.build = .ok partsSchema := by cbv
  have href : (TypeRef.enum 0).Within partsSchema.beans.length partsSchema.enums.length := by
    decide
  exact ⟨hbuild, href, (parse_refName_iff hbuild href "list" "").2 (by decide)⟩

/-- Words for types as names. -/
def words : Descriptor where
  enums := []
  beans := [⟨"int", none, none, none, []⟩]
  tables := []

def wordsSchema : Schema where
  beans := [⟨"int", none, none, [], none, [], [], [0], [0]⟩]
  enums := []
  tables := []
  names := [("int", .bean 0)]

/-- A bean that is called like a scalar type cannot be referred to. -/
theorem not_parse_refName : words.build = .ok wordsSchema ∧
    (TypeRef.bean 0).Within wordsSchema.beans.length wordsSchema.enums.length ∧
    wordsSchema.refName (.bean 0) = "int" ∧
    Ty.parse ((Builder.run words.reservations).scope "" "") "int" =
      .ok (.scalar .plain (.integer .int)) ∧
    Ty.parse ((Builder.run words.reservations).scope "" "") "int" ≠
      .ok (.named .plain (.bean 0)) := by
  have hread : Ty.parse ((Builder.run words.reservations).scope "" "") "int" =
      .ok (.scalar .plain (.integer .int)) := by cbv
  refine ⟨by cbv, by decide, rfl, hread, ?_⟩
  rw [hread]
  intro h
  cases h

/-- **The name of a type is read back if and only if the type is legible**, in every namespace, over
    every schema in which no name is a word for a type. -/
theorem parse_name_iff {d : Descriptor} {s : Schema} (hb : d.build = .ok s)
    (henums : ∀ e ∈ s.enums, e.fullName ∉ typeWords)
    (hbeans : ∀ b ∈ s.beans, b.fullName ∉ typeWords) {ty : Ty}
    (hty : ty.Within s.beans.length s.enums.length) (hu : ty.Untagged) (space context : String) :
    Ty.parse (s.scope space context) (ty.name s) = .ok ty ↔ ty.Legible := by
  have hword : ∀ ref : TypeRef, ref.Within s.beans.length s.enums.length →
      s.refName ref ∉ typeWords := by
    intro ref href
    cases ref with
    | bean id => exact hbeans _ (List.mem_of_getElem? (Schema.bean_of_lt href))
    | enum id => exact henums _ (List.mem_of_getElem? (Schema.enum_of_lt href))
  refine read_typeName_iff (fun r hr => ?_) (fun r hr => ?_) hu
  · exact ⟨(resolve_refName hb (hty.of_mem_refs r hr)).1, hword r (hty.of_mem_refs r hr)⟩
  · exact (resolve_refName hb (hty.of_mem_refs r hr)).2 space context

/-- A map with a nullable key, and a list that allows null. -/
theorem parse_name_parts :
    let entries : Ty := .map .plain (.named ⟨true, []⟩ (.enum 0))
      (.seq .plain .list (.seq .plain .set (.named ⟨true, []⟩ (.bean 0))))
    let nullable : Ty := .seq ⟨true, []⟩ .list (.scalar .plain .string)
    parts.build = .ok partsSchema ∧ (∀ e ∈ partsSchema.enums, e.fullName ∉ typeWords) ∧
      (∀ b ∈ partsSchema.beans, b.fullName ∉ typeWords) ∧
      entries.Within partsSchema.beans.length partsSchema.enums.length ∧ entries.Untagged ∧
      entries.name partsSchema = "map,game.list?,list,set,list.int?" ∧
      Ty.parse (partsSchema.scope "list" "") "map,game.list?,list,set,list.int?" = .ok entries ∧
      nullable.name partsSchema = "list,string?" ∧
      Ty.parse (partsSchema.scope "list" "") "list,string?" ≠ .ok nullable := by
  intro entries nullable
  have hbuild : parts.build = .ok partsSchema := by cbv
  have henums : ∀ e ∈ partsSchema.enums, e.fullName ∉ typeWords := by decide
  have hbeans : ∀ b ∈ partsSchema.beans, b.fullName ∉ typeWords := by decide
  have hwithin : entries.Within partsSchema.beans.length partsSchema.enums.length := by decide
  have hname : entries.name partsSchema = "map,game.list?,list,set,list.int?" := by decide
  have hname' : nullable.name partsSchema = "list,string?" := by decide
  have hread := (parse_name_iff hbuild henums hbeans hwithin (by decide) "list" "").2 (by decide)
  have hwithin' : nullable.Within partsSchema.beans.length partsSchema.enums.length := trivial
  have hread' := parse_name_iff hbuild henums hbeans hwithin' (by decide) "list" ""
  rw [hname] at hread
  rw [hname'] at hread'
  exact ⟨hbuild, henums, hbeans, hwithin, by decide, hname, hread, hname',
    fun h => absurd (hread'.1 h) (by decide)⟩

end Descriptor

end GameConfig
