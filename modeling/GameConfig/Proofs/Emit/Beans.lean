import GameConfig.Emit.JsonSchema
import GameConfig.Proofs.Datum.Members
import GameConfig.Proofs.Emit.Types
import GameConfig.Proofs.Schema.Discriminator

/-
  What the definitions of enums and beans accept.

  The definition of a bean without children closes its keys, so the members that
  a value is written as have to be among its properties: fields are found under
  their names there, and the discriminator where there is one.  The definition of
  a bean with children sends a value on to the definition of the bean that its
  discriminator names, and to no other.

  * `accepts_objectSchema`, `rejects_objectSchema`: objects with closed keys;
  * `accepts_concreteSchema`, `accepts_abstractSchema`: values of beans;
  * `rejects_null_enum`, `rejects_null_bean`: no definition accepts null.
-/

namespace GameConfig

open Hierarchy Notation

theorem BeanDef.isAbstract_iff {b : BeanDef} : b.isAbstract = true ↔ b.children ≠ [] := by
  simp [isAbstract]

/-! ## Schemas of the fragment -/

namespace Schema

/-- No field has tags, and the types of fields are bare. -/
def Bare (s : Schema) : Prop :=
  ∀ b ∈ s.beans, ∀ f ∈ b.allFields, f.tags = [] ∧ f.ty.isBare = true

/-- No alias of a field is the key of the discriminator or the name of another field of the
    hierarchy. -/
def AliasesApart (s : Schema) : Prop :=
  ∀ b ∈ s.beans, ∀ f ∈ b.allFields, ∀ a ∈ f.altName,
    a ≠ typeKey ∧ ∀ g ∈ b.allFields, g.name = a → g = f

/-- A bean that has fields is one of the schema. -/
theorem mem_beans {s : Schema} {id : Nat} {f : Field} (hf : f ∈ (s.bean id).allFields) :
    s.bean id ∈ s.beans := by
  by_cases h : id < s.beans.length
  · exact List.mem_of_getElem? (bean_of_lt h)
  · rw [bean_of_not_lt h] at hf
    cases hf

end Schema

/-! ## Properties -/

section

variable {s : Schema} {key : String} {properties : Assoc Json}

/-- A field puts its schema under its keys and nowhere else. -/
theorem find?_addProperty (f : Field) :
    Assoc.find? key (addProperty s properties f) =
      if key ∈ f.keys then some (f.schemaOf s) else Assoc.find? key properties := by
  have hother : ∀ (keys : List String) (ps : Assoc Json),
      Assoc.find? key (keys.foldl (fun ps k => Assoc.insert k (f.schemaOf s) ps) ps) =
        if key ∈ keys then some (f.schemaOf s) else Assoc.find? key ps := by
    intro keys
    induction keys with
    | nil => simp
    | cons k keys ih =>
      intro ps
      rw [List.foldl_cons, ih]
      by_cases hk : key = k
      · simp [hk, Assoc.find?_insert_self]
      · simp [hk, Assoc.find?_insert_of_ne hk]
  rw [addProperty]
  by_cases hname : key = f.name
  · simp [hname, Field.keys, Assoc.find?_insert_self]
  · rw [Assoc.find?_insert_of_ne hname, hother]
    simp [Field.keys, hname]

/-- Fields without a key leave it as it is. -/
theorem find?_foldl_addProperty {fields : List Field} (h : ∀ f ∈ fields, key ∉ f.keys) :
    Assoc.find? key (fields.foldl (addProperty s) properties) = Assoc.find? key properties := by
  induction fields generalizing properties with
  | nil => rfl
  | cons f fields ih =>
    rw [List.forall_mem_cons] at h
    rw [List.foldl_cons, ih h.2, find?_addProperty, if_neg h.1]

theorem mem_keys {f : Field} : key ∈ f.keys ↔
    key = f.name ∨ (∃ w ∈ f.variants, key = f.storedAs w) ∨ f.altName = some key := by
  simp [Field.keys, Field.otherKeys, eq_comm]

theorem typeKey_ne_storedAs (f : Field) (w : String) : typeKey ≠ f.storedAs w := by
  intro h
  have hat : '@' ∈ typeKey.toList := by
    rw [h]
    simp [Field.storedAs]
  revert hat
  decide

variable (hs : s.Sound) (hn : s.Named) (ha : s.AliasesApart) {c : Nat}
include hn

/-- A field stands under the key of the discriminator by its alias only. -/
theorem typeKey_mem_keys_iff {f : Field} (hf : f ∈ (s.bean c).allFields) :
    typeKey ∈ f.keys ↔ f.altName = some typeKey := by
  rw [mem_keys]
  constructor
  · rintro (hname | ⟨w, -, hw⟩ | halias)
    · exact absurd hname.symm (ne_typeKey_of_isName (hn c f hf))
    · exact absurd hw (typeKey_ne_storedAs f w)
    · exact halias
  · exact fun halias => .inr (.inr halias)

/-- A field stands under the name of another one by its alias only. -/
theorem name_mem_keys_iff {f g : Field} (hf : f ∈ (s.bean c).allFields) (h : f.name ≠ g.name) :
    f.name ∈ g.keys ↔ g.altName = some f.name := by
  rw [mem_keys]
  constructor
  · rintro (hname | ⟨w, -, hw⟩ | halias)
    · exact absurd hname h
    · exact absurd hw (ne_storedAs_of_isName (hn c f hf) g w)
    · exact halias
  · exact fun halias => .inr (.inr halias)

include ha

/-- No field stands under the key of the discriminator. -/
theorem typeKey_not_mem_keys {f : Field} (hf : f ∈ (s.bean c).allFields) : typeKey ∉ f.keys :=
  fun h => (ha _ (Schema.mem_beans hf) f hf _ ((typeKey_mem_keys_iff hn hf).1 h)).1 rfl

include hs

/-- The properties of a bean have the schema of each field under its name. -/
theorem find?_name_properties {f : Field} (hf : f ∈ (s.bean c).allFields) :
    Assoc.find? f.name ((s.bean c).allFields.foldl (addProperty s) properties) =
      some (f.schemaOf s) := by
  obtain ⟨before, after, hsplit⟩ := List.append_of_mem hf
  have hnodup := hs.fieldsNodup c
  rw [hsplit, List.map_append, List.map_cons, List.nodup_append, List.nodup_cons] at hnodup
  have hafter : ∀ g ∈ after, f.name ∉ g.keys := by
    intro g hg h
    have hgmem : g ∈ (s.bean c).allFields := by
      rw [hsplit]
      simp [hg]
    have hname : f.name ≠ g.name := fun h => hnodup.2.1.1 (List.mem_map.2 ⟨g, hg, h.symm⟩)
    have halias := (name_mem_keys_iff hn hf hname).1 h
    exact hname (by rw [(ha _ (Schema.mem_beans hgmem) g hgmem _ halias).2 f hf rfl])
  rw [hsplit, List.foldl_append, List.foldl_cons, find?_foldl_addProperty hafter,
    find?_addProperty, if_pos (mem_keys.2 (.inl rfl))]

end

namespace Validator

variable {j : Validator} {v : Json}

/-! ## Objects with closed keys -/

/-- A list of members for what may be there. -/
def optional (key : String) (value : Option Json) : List (String × Json) :=
  value.toList.map fun v => (key, v)

/-- The members of an object schema. -/
def objectMembers (s : Schema) (properties : Assoc Json) (required : List String)
    (fields : List Field) (comment : Option String) : List (String × Json) :=
  ("type", .string "object") ::
    ("properties", .object (fields.foldl (addProperty s) properties)) ::
    (optional "required" (arrayUnlessEmpty ((required ++ requiredNames fields).map Json.string)) ++
      (optional "allOf" (arrayUnlessEmpty (requiredChoices fields)) ++
        ("additionalProperties", .bool false) ::
          optional "description" ((shownText comment).map .string)))

variable {s : Schema} {properties : Assoc Json} {required : List String} {fields : List Field}
  {comment : Option String} {ms : List (String × Json)}

theorem objectSchema_eq : objectSchema s properties required fields comment =
    .object (objectMembers s properties required fields comment) := by
  unfold objectSchema describe objectMembers
  dsimp only
  generalize arrayUnlessEmpty ((required ++ requiredNames fields).map Json.string) = names
  generalize arrayUnlessEmpty (requiredChoices fields) = choices
  generalize (shownText comment).map Json.string = text
  cases names <;> cases choices <;> cases text <;>
    simp [optional, Json.set?, Json.set, Assoc.insert]

theorem find?_ref_objectMembers :
    Assoc.find? "$ref" (objectMembers s properties required fields comment) = none := by
  unfold objectMembers
  generalize arrayUnlessEmpty ((required ++ requiredNames fields).map Json.string) = names
  generalize arrayUnlessEmpty (requiredChoices fields) = choices
  generalize (shownText comment).map Json.string = text
  cases names <;> cases choices <;> cases text <;> simp [optional, Assoc.find?]

theorem find?_properties_objectMembers :
    Assoc.find? "properties" (objectMembers s properties required fields comment) =
      some (.object (fields.foldl (addProperty s) properties)) := by
  simp [objectMembers, Assoc.find?]

theorem meetsAll_optional {ms : Assoc Json} {key : String} {value : Option Json} :
    j.MeetsAll ms (optional key value) v ↔
      ∀ arg, value = some arg → ∃ x, j.demand? ms v key arg = some x ∧ j.Meets x := by
  cases value <;> simp [optional]

theorem arrayUnlessEmpty_eq_some {items : List Json} {o : Json} :
    arrayUnlessEmpty items = some o → o = .array items := by
  unfold arrayUnlessEmpty
  split <;> simp +contextual [eq_comm]

theorem strings?_map (keys : List String) :
    (Json.array (keys.map .string)).strings? = some keys := by
  rw [Json.strings?]
  induction keys with
  | nil => rfl
  | cons k keys ih => simp [ih, Json.string?]

theorem demand?_required (all : Assoc Json) (keys : List String) :
    j.demand? all (.object ms) "required" (.array (keys.map .string)) =
      some (.plain (keys.all fun k => Assoc.has k ms)) := by
  simp only [demand?, strings?_map, Option.map_some]
  rfl

theorem accepts_required (keys : List String) :
    j.Accepts (.object [("required", .array (keys.map .string))]) (.object ms) ↔
      ∀ k ∈ keys, Assoc.has k ms = true := by
  rw [accepts_object (by simp [Assoc.find?])]
  simp [demand?_required]

theorem meets_properties {schemas : Assoc Json} :
    j.Meets (Keyword.properties (.object ms) schemas) ↔
      ∀ m ∈ ms, ∀ o, Assoc.find? m.1 schemas = some o → j.Accepts o m.2 := by
  rw [Keyword.properties, meets_all]
  constructor
  · intro h m hm o ho
    exact h (o, m.2) (List.mem_filterMap.2 ⟨m, hm, by rw [ho, Option.map_some]⟩)
  · intro h p hp
    obtain ⟨m, hm, hpart⟩ := List.mem_filterMap.1 hp
    obtain ⟨o, ho, rfl⟩ := Option.map_eq_some_iff.1 hpart
    exact h m hm o ho

theorem fails_properties {schemas : Assoc Json} {m : String × Json} {o : Json} (hm : m ∈ ms)
    (ho : Assoc.find? m.1 schemas = some o) (h : j.Rejects o m.2) :
    j.Fails (Keyword.properties (.object ms) schemas) := by
  rw [Keyword.properties, fails_all]
  exact ⟨(o, m.2), List.mem_filterMap.2 ⟨m, hm, by rw [ho, Option.map_some]⟩, h⟩

/-- **What an object with closed keys accepts**: every key is a property whose schema accepts the
    member, and what is required is there. -/
theorem accepts_objectSchema
    (hkeys : ∀ m ∈ ms, ∃ o,
      Assoc.find? m.1 (fields.foldl (addProperty s) properties) = some o ∧ j.Accepts o m.2)
    (hrequired : ∀ k ∈ required, Assoc.has k ms = true)
    (hfields : ∀ f ∈ fields, f.ty.nullable = false → Assoc.has f.name ms = true) :
    j.Accepts (objectSchema s properties required fields comment) (.object ms) := by
  have hnames : ∀ k ∈ required ++ requiredNames fields, Assoc.has k ms = true := by
    intro k hk
    rcases List.mem_append.1 hk with hk | hk
    · exact hrequired k hk
    · obtain ⟨f, hf, rfl⟩ := List.mem_map.1 hk
      simp only [List.mem_filter, Bool.and_eq_true, Bool.not_eq_true'] at hf
      exact hfields f hf.1 hf.2.1
  have hchoices : ∀ o ∈ requiredChoices fields, j.Accepts o (.object ms) := by
    intro o ho
    obtain ⟨f, hf, rfl⟩ := List.mem_map.1 ho
    simp only [List.mem_filter, Bool.and_eq_true, Bool.not_eq_true'] at hf
    rw [accepts_object (by simp [Assoc.find?])]
    -- the value stands under the name of the field, the first of its keys
    have hname : j.Accepts (.object [("required", .array [.string f.name])]) (.object ms) := by
      refine (accepts_required [f.name]).2 ?_
      simpa using hfields f hf.1 hf.2.1
    simp only [meetsAll_cons, meetsAll_nil, and_true]
    refine ⟨_, rfl, meets_any.2 ⟨(_, .object ms), ?_, hname⟩⟩
    simp [Field.keys]
  rw [objectSchema_eq, accepts_object find?_ref_objectMembers]
  -- the members are taken one by one, beside all of them
  suffices hmeets : ∀ all, Assoc.find? "properties" all =
      some (.object (fields.foldl (addProperty s) properties)) →
      j.MeetsAll all (objectMembers s properties required fields comment) (.object ms) from
    hmeets _ find?_properties_objectMembers
  intro all hall
  unfold objectMembers
  simp only [meetsAll_cons, meetsAll_append, meetsAll_optional]
  refine ⟨⟨_, rfl, ?type⟩, ⟨_, rfl, ?properties⟩, ?required, ?choices, ⟨_, rfl, ?additional⟩,
    fun _ _ => ⟨_, rfl, meets_nothing⟩⟩
  case type => simp [Json.hasType]
  case properties =>
    refine meets_properties.2 fun m hm o ho => ?_
    obtain ⟨o', ho', haccepts⟩ := hkeys m hm
    rw [Option.some.inj (ho.symm.trans ho')]
    exact haccepts
  case required =>
    intro arg harg
    rw [arrayUnlessEmpty_eq_some harg]
    exact ⟨_, demand?_required _ _, meets_plain.2 (List.all_eq_true.2 hnames)⟩
  case choices =>
    intro arg harg
    rw [arrayUnlessEmpty_eq_some harg]
    refine ⟨_, rfl, ?_⟩
    simpa using hchoices
  case additional =>
    have hnone : ms.filter (fun m => !Assoc.has m.1 (fields.foldl (addProperty s) properties)) =
        [] := by
      refine List.filter_eq_nil_iff.2 fun m hm => ?_
      obtain ⟨o, ho, -⟩ := hkeys m hm
      simp [Assoc.has, ho]
    simp [Keyword.additional, hall, hnone]

/-- A description is a member that demands nothing. -/
theorem judges_insert_description {text : String} :
    (j.Accepts (.object ms) v →
        j.Accepts (.object (Assoc.insert "description" (.string text) ms)) v) ∧
      (j.Rejects (.object ms) v →
        j.Rejects (.object (Assoc.insert "description" (.string text) ms)) v) := by
  have hfind : ∀ k, k ≠ "description" →
      Assoc.find? k (Assoc.insert "description" (.string text) ms) = Assoc.find? k ms :=
    fun k hk => Assoc.find?_insert_of_ne hk _ _
  have href := hfind "$ref" (by decide)
  have hdemand : ∀ key arg, j.demand? (Assoc.insert "description" (.string text) ms) v key arg =
      j.demand? ms v key arg :=
    demand?_congr fun k hk => hfind k (by rintro rfl; simp at hk)
  cases hr : Assoc.find? "$ref" ms with
  | none =>
    rw [accepts_object hr, rejects_object hr, accepts_object (href.trans hr),
      rejects_object (href.trans hr)]
    constructor
    · intro h m hm
      rcases Assoc.mem_of_mem_insert hm with rfl | hm
      · exact ⟨_, rfl, meets_nothing⟩
      · rw [hdemand]
        exact h m hm
    · rintro ⟨m, hm, x, hx, hfails⟩
      refine ⟨m, Assoc.mem_insert_of_mem hm ?_, x, by rw [hdemand, hx], hfails⟩
      rintro hkey
      rw [hkey] at hx
      cases hx
      simp [Demand.nothing] at hfails
  | some ref =>
    have hcheck : ∀ n, j.check n (.object (Assoc.insert "description" (.string text) ms)) v =
        j.check n (.object ms) v := by
      rintro (_ | n)
      · rfl
      · rw [check, check]
        simp only [href, hr]
    simp only [Accepts, Rejects, hcheck]
    exact ⟨id, id⟩

/-- A description changes no verdict. -/
theorem judges_describe {o : Json} :
    (j.Accepts o v → j.Accepts (describe comment o) v) ∧
      (j.Rejects o v → j.Rejects (describe comment o) v) := by
  unfold describe
  cases shownText comment with
  | none => exact ⟨id, id⟩
  | some text =>
    cases o with
    | object ms => exact judges_insert_description
    | _ => exact ⟨id, id⟩

/-- What is of another type is rejected. -/
theorem rejects_of_type {t : String} (hr : Assoc.find? "$ref" ms = none)
    (hm : ("type", .string t) ∈ ms) (h : v.hasType t = false) : j.Rejects (.object ms) v :=
  (rejects_object hr).2 ⟨_, hm, _, rfl, fails_plain.2 h⟩

/-! ## Enums -/

/-- The definition of an enum accepts the names of its items. -/
theorem accepts_enum {e : EnumDef} {i : EnumItem} (hi : i ∈ e.items) :
    j.Accepts e.schemaOf (.string i.name) := by
  have hname : (e.items.flatMap fun i => (i.name :: i.altName.toList).map Json.string).any
      (Json.string i.name).alike = true := by
    refine List.any_eq_true.2 ⟨.string i.name, List.mem_flatMap.2 ⟨i, hi, by simp⟩, ?_⟩
    simp [Json.alike]
  unfold EnumDef.schemaOf
  refine judges_describe.1 ?_
  cases e.isFlags
  all_goals
    simp only [Bool.false_eq_true, if_true, if_false, Json.set, Assoc.insert]
    rw [accepts_object (by simp [Assoc.find?])]
    simpa [demand?, Keyword.type, Keyword.others, Json.hasType, Json.array?] using hname

theorem rejects_null_enum (e : EnumDef) : j.Rejects e.schemaOf .null := by
  unfold EnumDef.schemaOf
  refine judges_describe.2 ?_
  cases e.isFlags
  all_goals
    exact rejects_of_type (t := "string") (by simp [Assoc.insert, Assoc.find?])
      (by simp [Assoc.insert]) rfl

/-! ## Beans -/

theorem rejects_null_objectSchema :
    j.Rejects (objectSchema s properties required fields comment) .null := by
  rw [objectSchema_eq]
  exact rejects_of_type (t := "object") find?_ref_objectMembers (by simp [objectMembers]) rfl

/-- The definition of a bean rejects null. -/
theorem rejects_null_bean (b : BeanDef) : j.Rejects (b.schemaOf s) .null := by
  unfold BeanDef.schemaOf
  split
  · unfold BeanDef.abstractSchema
    exact judges_describe.2 (rejects_of_type (t := "object") (by simp [Assoc.find?]) (by simp) rfl)
  · unfold BeanDef.concreteSchema
    split <;> exact rejects_null_objectSchema

theorem accepts_const {text word : String} :
    j.Accepts (constSchema text) (.string word) ↔ word = text := by
  rw [constSchema, accepts_object (by simp [Assoc.find?])]
  simp [demand?, Json.alike]

theorem rejects_const {text word : String} :
    j.Rejects (constSchema text) (.string word) ↔ word ≠ text := by
  rw [constSchema, rejects_object (by simp [Assoc.find?])]
  simp only [List.mem_singleton, exists_eq_left]
  simp [demand?, Json.alike]

section

variable (hs : s.Sound) (hn : s.Named) (ha : s.AliasesApart) {c : Nat} {vs : List (Option Datum)}

/-- What a value of a bean is written as: the discriminator and the fields. -/
theorem mem_members {m : String × Json} : m ∈ Datum.members s c vs ↔
    m ∈ Datum.tagMember s c ∨
      ∃ f v, (f, v) ∈ (s.bean c).allFields.zip vs ∧ m = (f.name, Datum.fieldJson s v) := by
  rw [Datum.members, List.mem_append, Datum.fieldsJson_eq, List.mem_map]
  simp [eq_comm]

/-- Every field has its value, or its place without one. -/
theorem exists_mem_zip (hlen : (s.bean c).allFields.length = vs.length) {f : Field}
    (hf : f ∈ (s.bean c).allFields) : ∃ v, (f, v) ∈ (s.bean c).allFields.zip vs := by
  obtain ⟨i, hi, rfl⟩ := List.getElem_of_mem hf
  exact ⟨vs[i], List.mem_iff_getElem.2 ⟨i, by simp; omega, by simp⟩⟩

theorem has_name (hs : s.Sound) (hn : s.Named) (hlen : (s.bean c).allFields.length = vs.length)
    {f : Field} (hf : f ∈ (s.bean c).allFields) :
    Assoc.has f.name (Datum.members s c vs) = true := by
  obtain ⟨v, hfv⟩ := exists_mem_zip hlen hf
  rw [Assoc.has, Datum.find?_name hs hn hfv]
  rfl

/-- **The definition of a bean without children accepts its values**, if the schemas of its fields
    accept theirs. -/
theorem accepts_concreteSchema (hs : s.Sound) (hn : s.Named) (ha : s.AliasesApart)
    (hlen : (s.bean c).allFields.length = vs.length)
    (hvs : ∀ f v, (f, v) ∈ (s.bean c).allFields.zip vs →
      j.Accepts (f.schemaOf s) (Datum.fieldJson s v)) :
    j.Accepts ((s.bean c).concreteSchema s) (.object (Datum.members s c vs)) := by
  have hfields : ∀ f ∈ (s.bean c).allFields, f.ty.nullable = false →
      Assoc.has f.name (Datum.members s c vs) = true := fun f hf _ => has_name hs hn hlen hf
  have hmember : ∀ properties : Assoc Json, ∀ f v, (f, v) ∈ (s.bean c).allFields.zip vs →
      ∃ o, Assoc.find? f.name ((s.bean c).allFields.foldl (addProperty s) properties) = some o ∧
        j.Accepts o (Datum.fieldJson s v) := fun properties f v hfv =>
    ⟨_, find?_name_properties hs hn ha (List.of_mem_zip hfv).1, hvs f v hfv⟩
  unfold BeanDef.concreteSchema
  split
  case isTrue hp =>
    have htag : Datum.tagMember s c = [(typeKey, .string (s.discriminator (s.bean c)))] := by
      rw [Datum.tagMember, if_pos hp]
    refine accepts_objectSchema (fun m hm => ?_) (fun k hk => ?_) hfields
    · rcases mem_members.1 hm with hm | ⟨f, v, hfv, rfl⟩
      · rw [htag, List.mem_singleton] at hm
        refine ⟨constSchema (s.discriminator (s.bean c)), ?_, ?_⟩
        · rw [hm, find?_foldl_addProperty fun f hf => typeKey_not_mem_keys hn ha hf]
          simp [Assoc.find?]
        · rw [hm]
          exact accepts_const.2 rfl
      · exact hmember _ f v hfv
    · rw [List.mem_singleton.1 hk, Datum.members, htag]
      simp [Assoc.has, Assoc.find?]
  case isFalse hp =>
    refine accepts_objectSchema (fun m hm => ?_) (by simp) hfields
    rcases mem_members.1 hm with hm | ⟨f, v, hfv, rfl⟩
    · rw [Datum.tagMember, if_neg hp] at hm
      cases hm
    · exact hmember _ f v hfv

/-- The member under the key of the discriminator is the discriminator. -/
theorem mem_members_typeKey (hn : s.Named) {x : Json}
    (h : (typeKey, x) ∈ Datum.members s c vs) : x = .string (s.discriminator (s.bean c)) := by
  rcases mem_members.1 h with h | ⟨f, v, hfv, heq⟩
  · unfold Datum.tagMember at h
    split at h
    · simpa using h
    · cases h
  · have hname : typeKey = f.name := congrArg Prod.fst heq
    exact absurd hname.symm (ne_typeKey_of_isName (hn c f (List.of_mem_zip hfv).1))

theorem typeKey_mem_members (hp : (s.bean c).parent.isSome = true) :
    (typeKey, .string (s.discriminator (s.bean c))) ∈ Datum.members s c vs :=
  mem_members.2 (.inl (by simp [Datum.tagMember, hp]))

/-- A schema for the discriminator alone accepts what it accepts as the discriminator. -/
theorem meets_properties_typeKey (hn : s.Named) {o : Json}
    (h : j.Accepts o (.string (s.discriminator (s.bean c)))) :
    j.Meets (Keyword.properties (.object (Datum.members s c vs)) [(typeKey, o)]) := by
  refine meets_properties.2 fun m hm o' ho' => ?_
  obtain ⟨key, x⟩ := m
  by_cases hkey : key = typeKey
  · subst hkey
    rw [mem_members_typeKey hn hm]
    simp only [Assoc.find?, if_true, Option.some.injEq] at ho'
    rw [← ho']
    exact h
  · simp [Assoc.find?, Ne.symm hkey] at ho'

theorem fails_properties_typeKey (hp : (s.bean c).parent.isSome = true) {o : Json}
    (h : j.Rejects o (.string (s.discriminator (s.bean c)))) :
    j.Fails (Keyword.properties (.object (Datum.members s c vs)) [(typeKey, o)]) := by
  exact fails_properties (typeKey_mem_members hp) (by simp [Assoc.find?]) h

/-- The arm of a bean sends on the values whose discriminator it is. -/
theorem accepts_armSchema (hn : s.Named) (hp : (s.bean c).parent.isSome = true) {e : BeanDef}
    (h : s.discriminator (s.bean c) = s.discriminator e →
      j.Accepts (definitionRef e.fullName) (.object (Datum.members s c vs))) :
    j.Accepts (e.armSchema s) (.object (Datum.members s c vs)) := by
  have hrequired : ∀ all, j.demand? all (.object (Datum.members s c vs)) "required"
      (.array [.string typeKey]) = some (.plain true) := by
    intro all
    refine (demand?_required all [typeKey]).trans ?_
    simp [Assoc.has, Datum.members, Datum.tagMember, hp, Assoc.find?]
  rw [BeanDef.armSchema, accepts_object (by simp [Assoc.find?])]
  simp only [meetsAll_cons, meetsAll_nil, and_true]
  refine ⟨⟨_, rfl, ?_⟩, _, rfl, meets_nothing⟩
  by_cases hword : s.discriminator (s.bean c) = s.discriminator e
  · refine meets_then ?_ (h hword)
    rw [accepts_object (by simp [Assoc.find?])]
    simp only [meetsAll_cons, meetsAll_nil, and_true]
    exact ⟨⟨_, rfl, meets_properties_typeKey hn (accepts_const.2 hword)⟩, _, hrequired _, by simp⟩
  · refine meets_else ?_ (accepts_bool.2 rfl)
    rw [rejects_object (by simp [Assoc.find?])]
    exact ⟨_, List.mem_cons_self .., _, rfl,
      fails_properties_typeKey hp (rejects_const.2 hword)⟩

/-- **The definition of a bean with children accepts the values of its descendants**, if the
    definition of the bean that a value names does. -/
theorem accepts_abstractSchema (hs : s.Sound) (hn : s.Named) {b : Nat} (hb : b < s.beans.length)
    (hc : c ∈ (s.bean b).concrete) (hp : (s.bean c).parent.isSome = true)
    (h : j.Accepts (definitionRef (s.bean c).fullName) (.object (Datum.members s c vs))) :
    j.Accepts ((s.bean b).abstractSchema s) (.object (Datum.members s c vs)) := by
  unfold BeanDef.abstractSchema
  refine judges_describe.1 ?_
  rw [accepts_object (by simp [Assoc.find?])]
  simp only [meetsAll_cons, meetsAll_nil, and_true]
  refine ⟨⟨_, rfl, ?type⟩, ⟨_, rfl, ?properties⟩, ⟨_, demand?_required _ [typeKey], ?required⟩,
    ⟨_, rfl, ?arms⟩, _, rfl, meets_nothing⟩
  case type => simp [Json.hasType]
  case properties =>
    refine meets_properties_typeKey hn ?_
    have hword : ((s.bean b).concrete.map s.bean).any (fun e =>
        (Json.string (s.discriminator (s.bean c))).alike (.string (s.discriminator e))) = true :=
      List.any_eq_true.2 ⟨s.bean c, List.mem_map_of_mem hc, by simp [Json.alike]⟩
    rw [accepts_object (by simp [Assoc.find?])]
    simpa [demand?, Keyword.type, Keyword.others, Json.hasType, Json.array?] using hword
  case required => simp [Assoc.has, Datum.members, Datum.tagMember, hp, Assoc.find?]
  case arms =>
    rw [meets_all]
    intro p hmem
    obtain ⟨o, ho, rfl⟩ := List.mem_map.1 hmem
    obtain ⟨e, he, rfl⟩ := List.mem_map.1 ho
    obtain ⟨d, hd, rfl⟩ := List.mem_map.1 he
    refine accepts_armSchema hn hp fun hword => ?_
    rw [← hs.discriminator_inj hb hc hd hword]
    exact h

end

end Validator

end GameConfig
