import GameConfig.Proofs.Emit.Document
import GameConfig.Proofs.Emit.Placement
import GameConfig.Proofs.Json.Text

/-
  No reference of the generated schemas is left dangling.

  A reference may stand at any depth of a document (`Json.Refers`).  Only
  definitions of enums, of beans and of beans for files are referred to, and
  each of them is put in somewhere: a later definition may take its place under
  its name, but the name stays.

  * `refsIn_schemaOf`, `Field.refsIn_schemaOf`, `refsIn_definition`: what the
    schemas of types, fields and declarations refer to;
  * `defines_enum`, `defines_bean`, `defines_variant`,
    `defines_table`: the names that a document defines;
  * `references_closed_of_build`: the two together, for the document and for the
    schemas of the data files of the tables.
-/

namespace GameConfig

namespace Json

/-! ## References in a value -/

/-- A reference that stands in a value, at any depth. -/
inductive Refers : Json → String → Prop
  | here {ms : List (String × Json)} {ref : String} (h : ("$ref", .string ref) ∈ ms) :
      Refers (.object ms) ref
  | member {ms : List (String × Json)} {m : String × Json} {ref : String} (hm : m ∈ ms)
      (h : Refers m.2 ref) : Refers (.object ms) ref
  | item {xs : List Json} {v : Json} {ref : String} (hv : v ∈ xs) (h : Refers v ref) :
      Refers (.array xs) ref

/-- All references in a value are of one sort. -/
def RefsIn (p : String → Prop) (v : Json) : Prop := ∀ ref, v.Refers ref → p ref

/-- All references in a member are of one sort, the member itself among them. -/
def MemberRefsIn (p : String → Prop) (m : String × Json) : Prop :=
  (m.1 = "$ref" → ∀ ref, m.2 = .string ref → p ref) ∧ m.2.RefsIn p

variable {p : String → Prop} {o v : Json} {key : String}

theorem refsIn_object {ms : List (String × Json)} :
    (Json.object ms).RefsIn p ↔ ∀ m ∈ ms, MemberRefsIn p m := by
  constructor
  · intro h m hm
    refine ⟨fun hkey ref hvalue => h ref (.here ?_), fun ref hm' => h ref (.member hm hm')⟩
    rw [← hkey, ← hvalue]
    exact hm
  · intro h ref hr
    cases hr with
    | here hm => exact (h _ hm).1 rfl ref rfl
    | member hm hr => exact (h _ hm).2 ref hr

theorem refsIn_array {xs : List Json} : (Json.array xs).RefsIn p ↔ ∀ x ∈ xs, x.RefsIn p := by
  constructor
  · exact fun h x hx ref hr => h ref (.item hx hr)
  · intro h ref hr
    cases hr with
    | item hx hr => exact h _ hx ref hr

theorem refsIn_null : Json.null.RefsIn p := nofun

theorem refsIn_bool (b : Bool) : (Json.bool b).RefsIn p := nofun

theorem refsIn_number (n : Number) : (Json.number n).RefsIn p := nofun

theorem refsIn_string (t : String) : (Json.string t).RefsIn p := nofun

/-- A value that is no text may stand under any key. -/
theorem memberRefsIn_of_isObject (ho : o.IsObject) (h : o.RefsIn p) (key : String) :
    MemberRefsIn p (key, o) := by
  obtain ⟨ms, rfl⟩ := ho
  exact ⟨fun _ => nofun, h⟩

theorem memberRefsIn_of_ne (hkey : key ≠ "$ref") (h : v.RefsIn p) : MemberRefsIn p (key, v) :=
  ⟨fun h => absurd h hkey, h⟩

theorem refsIn_set (ho : o.RefsIn p) (h : MemberRefsIn p (key, v)) : (o.set key v).RefsIn p := by
  cases o with
  | object ms =>
    refine refsIn_object.2 fun m hm => ?_
    rcases Assoc.mem_of_mem_insert hm with rfl | hm
    · exact h
    · exact refsIn_object.1 ho m hm
  | _ => exact ho

theorem refsIn_setAll {es : List (String × Json)} (ho : o.RefsIn p)
    (h : ∀ e ∈ es, MemberRefsIn p e) : (o.setAll es).RefsIn p := by
  induction es generalizing o with
  | nil => exact ho
  | cons e es ih =>
    rw [List.forall_mem_cons] at h
    exact ih (refsIn_set ho h.1) h.2

theorem refsIn_update {f : Json → Json} (hkey : key ≠ "$ref") (ho : o.RefsIn p)
    (hf : ∀ v, v.RefsIn p → (f v).RefsIn p) : (o.update key f).RefsIn p := by
  cases o with
  | object ms =>
    refine refsIn_object.2 fun m hm => ?_
    obtain ⟨n, hn, rfl⟩ := List.mem_map.1 hm
    have hmember := refsIn_object.1 ho n hn
    dsimp only
    split
    · rename_i hk
      exact memberRefsIn_of_ne (hk ▸ hkey) (hf _ hmember.2)
    · exact hmember
  | _ => exact ho

/-- What is left of several entries under one key is one of them. -/
theorem refsIn_ofEntries {es : List (String × Json)} (h : ∀ e ∈ es, MemberRefsIn p e) :
    (Json.object (Assoc.ofEntries es)).RefsIn p := by
  have hfold : Json.object (Assoc.ofEntries es) = (Json.object []).setAll es :=
    (setAll_object [] es).symm
  rw [hfold]
  exact refsIn_setAll (refsIn_object.2 (by simp)) h

end Json

/-! ## What schemas refer to -/

section
variable {p : String → Prop} {s : Schema}

open Json

theorem refsIn_definitionRef {name : String} :
    (definitionRef name).RefsIn p ↔ p ("#/definitions/" ++ name) := by
  simp [definitionRef, refsIn_object, MemberRefsIn, refsIn_string]

theorem refsIn_ofDouble (x : Double) : (Json.ofDouble x).RefsIn p := by
  unfold Json.ofDouble
  split
  · exact refsIn_number _
  · exact refsIn_null

theorem refsIn_strings (ts : List String) : (Json.array (ts.map Json.string)).RefsIn p := by
  refine refsIn_array.2 fun x hx => ?_
  obtain ⟨t, -, rfl⟩ := List.mem_map.1 hx
  exact refsIn_string t

theorem mem_of_mapM_eq_some {α β : Type} {f : α → Option β} {xs : List α} {ys : List β}
    (h : xs.mapM f = some ys) {y : β} (hy : y ∈ ys) : ∃ x ∈ xs, f x = some y := by
  induction xs generalizing ys with
  | nil =>
    cases h
    cases hy
  | cons x xs ih =>
    simp only [List.mapM_cons, Option.bind_eq_bind, Option.bind_eq_some_iff, Option.pure_def,
      Option.some.injEq] at h
    obtain ⟨z, hz, zs, hzs, rfl⟩ := h
    rcases List.mem_cons.1 hy with rfl | hy
    · exact ⟨x, List.mem_cons_self .., hz⟩
    · obtain ⟨w, hw, hwy⟩ := ih hzs hy
      exact ⟨w, List.mem_cons_of_mem _ hw, hwy⟩

/-- The values of a list are texts and numbers. -/
theorem refsIn_listValues {ty : Ty} {argument : String} {vs : List Json}
    (h : listValues? ty argument = some vs) : (Json.array vs).RefsIn p := by
  have hread : ∀ {α : Type} {read : String → Option α} {write : α → Json},
      (∀ a, (write a).RefsIn p) →
      ((Rule.listed argument).mapM fun i => (read i).map write) = some vs →
      (Json.array vs).RefsIn p := by
    intro α read write hwrite h
    refine refsIn_array.2 fun v hv => ?_
    obtain ⟨i, -, hi⟩ := mem_of_mapM_eq_some h hv
    obtain ⟨a, -, rfl⟩ := Option.map_eq_some_iff.1 hi
    exact hwrite a
  unfold listValues? at h
  dsimp only at h
  split at h
  case h_1 =>
    rw [← Option.some.inj h]
    exact refsIn_strings _
  case h_2 => exact hread (fun i => refsIn_number _) h
  case h_3 => exact hread refsIn_ofDouble h
  case h_4 => exact hread refsIn_ofDouble h
  case h_5 => cases h

theorem memberRefsIn_optional {key : String} (hkey : key ≠ "$ref") {value : Option Json}
    (h : ∀ v, value = some v → v.RefsIn p) {e : String × Json}
    (he : e ∈ Validator.optional key value) : MemberRefsIn p e := by
  obtain ⟨rfl, hvalue⟩ := mem_optional.1 he
  exact memberRefsIn_of_ne hkey (h _ hvalue)

theorem memberRefsIn_optional_string {key : String} (hkey : key ≠ "$ref") {text : Option String}
    {e : String × Json} (he : e ∈ Validator.optional key (text.map .string)) :
    MemberRefsIn p e := by
  refine memberRefsIn_optional hkey (fun v hv => ?_) he
  obtain ⟨t, -, rfl⟩ := Option.map_eq_some_iff.1 hv
  exact refsIn_string t

theorem memberRefsIn_optional_array {key : String} (hkey : key ≠ "$ref") {items : List Json}
    (h : (Json.array items).RefsIn p) {e : String × Json}
    (he : e ∈ Validator.optional key (arrayUnlessEmpty items)) : MemberRefsIn p e := by
  refine memberRefsIn_optional hkey (fun v hv => ?_) he
  rw [Validator.arrayUnlessEmpty_eq_some hv]
  exact h

/-- What a tag sets are texts, numbers and lists of them. -/
theorem refsIn_keyword {ty : Ty} {sizes : Option (String × String)} {key argument : String}
    {e : String × Json} (h : e ∈ ty.keywords sizes key argument) : e.2.RefsIn p := by
  have hoptional : ∀ {α : Type} {name : String} {write : α → Json} {a : Option α},
      (∀ a, (write a).RefsIn p) → e ∈ Validator.optional name (a.map write) → e.2.RefsIn p := by
    intro α name write a hwrite he
    obtain ⟨b, -, hb⟩ := Option.map_eq_some_iff.1 (mem_optional.1 he).2
    exact hb ▸ hwrite b
  unfold Ty.keywords at h
  split at h
  case h_1 =>
    split at h
    · cases h
    · rcases List.mem_append.1 h with h | h <;> exact hoptional refsIn_ofDouble h
  case h_2 =>
    split at h
    · rcases List.mem_append.1 h with h | h <;> exact hoptional (fun n => refsIn_number _) h
    · cases h
  case h_3 =>
    split at h
    · rw [List.mem_singleton.1 h]
      exact refsIn_string _
    · cases h
  case h_4 =>
    obtain ⟨vs, hvs, hvalue⟩ := Option.map_eq_some_iff.1 (mem_optional.1 h).2
    exact hvalue ▸ refsIn_listValues hvs
  case h_5 =>
    rw [List.mem_singleton.1 h]
    exact refsIn_string _
  case h_6 =>
    rw [List.mem_singleton.1 h]
    exact refsIn_string _
  case h_7 => cases h

theorem refsIn_applyTag {ty : Ty} {key argument : String} {o : Json} (ho : o.RefsIn p) :
    (applyTag ty key argument o).RefsIn p := by
  have hitems : (ty.changeItems key argument o).RefsIn p := by
    unfold Ty.changeItems
    split
    · refine refsIn_update (by decide) ho fun v hv => ?_
      exact refsIn_set hv (memberRefsIn_of_ne (by decide) (refsIn_string _))
    · exact ho
  rw [applyTag_eq]
  refine refsIn_setAll hitems fun e he => memberRefsIn_of_ne ?_ (refsIn_keyword he)
  -- no keyword of a tag is a reference
  rintro href
  rcases mem_keywords he with h | ⟨-, h, -⟩ | ⟨names, hnames, h⟩
  · rw [href] at h
    exact absurd h (by decide)
  · rw [href] at h
    exact absurd h (by decide)
  · rw [href] at h
    rcases sizeKeys?_eq_some hnames with rfl | rfl | rfl <;> exact absurd h (by decide)

theorem refsIn_applyTags {ty : Ty} {tags : Tags} {o : Json} (ho : o.RefsIn p) :
    (applyTags ty tags o).RefsIn p := by
  induction tags generalizing o with
  | nil => exact ho
  | cons t tags ih => exact ih (refsIn_applyTag ho)

theorem refsIn_wrapNull {o : Json} (ho : o.RefsIn p) : (wrapNull o).RefsIn p := by
  unfold wrapNull
  split
  · rename_i t ht
    have htypes : (Json.array [.string t, .string "null"]).RefsIn p := by
      simp [refsIn_array, refsIn_string]
    refine refsIn_update (by decide)
      (refsIn_set ho (memberRefsIn_of_ne (by decide) htypes)) fun v hv => ?_
    split
    · rw [refsIn_array] at hv ⊢
      intro x hx
      rcases List.mem_append.1 hx with hx | hx
      · exact hv x hx
      · rw [List.mem_singleton.1 hx]
        exact refsIn_null
    · exact hv
  · have hnull : (Json.object [("type", .string "null")]).RefsIn p := by
      simp [refsIn_object, MemberRefsIn, refsIn_string]
    simp [refsIn_object, MemberRefsIn, refsIn_array, ho, hnull]

theorem refsIn_finish {ty : Ty} {o : Json} (ho : o.RefsIn p) : (ty.finish o).RefsIn p := by
  unfold Ty.finish
  dsimp only
  split
  · exact refsIn_wrapNull (refsIn_applyTags ho)
  · exact refsIn_applyTags ho

theorem refsIn_scalar (k : Scalar) : k.schemaOf.RefsIn p := by
  unfold Scalar.schemaOf
  split <;> simp [refsIn_object, MemberRefsIn, refsIn_string, refsIn_number, Json.ofInt]

/-- References to the enums and beans of a schema are of one sort. -/
structure Schema.DeclarationsIn (s : Schema) (p : String → Prop) : Prop where
  enum : ∀ id < s.enums.length, p ("#/definitions/" ++ (s.enum id).fullName)
  bean : ∀ id < s.beans.length, p ("#/definitions/" ++ (s.bean id).fullName)

/-- **The schema of a type refers to enums and beans.** -/
theorem refsIn_schemaOf (hp : s.DeclarationsIn p) {ty : Ty} (hty : s.Has ty) :
    (ty.schemaOf s).RefsIn p := by
  induction ty with
  | scalar m k => exact refsIn_finish (refsIn_scalar k)
  | named m ref =>
    cases ref with
    | enum id => exact refsIn_finish (refsIn_definitionRef.2 (hp.enum id hty))
    | bean id => exact refsIn_finish (refsIn_definitionRef.2 (hp.bean id hty))
  | seq m k e ih =>
    have helem := ih hty
    refine refsIn_finish ?_
    cases k <;> simp [seqSchema, Json.set, Assoc.insert, refsIn_object, MemberRefsIn,
      refsIn_string, refsIn_bool, helem]
  | map m k v ihk ihv =>
    have hkey := ihk hty.1
    have hvalue := ihv hty.2
    refine refsIn_finish ?_
    split
    · unfold objectMapSchema
      dsimp only
      split <;> simp [Json.set, Assoc.insert, refsIn_object, MemberRefsIn, refsIn_string, hvalue]
    · simp [pairMapSchema, refsIn_object, refsIn_array, MemberRefsIn, refsIn_string,
        refsIn_number, Json.ofInt, hkey, hvalue]

/-! ## What definitions refer to -/

theorem refsIn_describe {comment : Option String} {o : Json} (ho : o.RefsIn p) :
    (describe comment o).RefsIn p := by
  unfold describe
  cases shownText comment with
  | none => exact ho
  | some text => exact refsIn_set ho (memberRefsIn_of_ne (by decide) (refsIn_string _))

theorem isObject_describe {comment : Option String} {o : Json} (ho : o.IsObject) :
    (describe comment o).IsObject := by
  rw [describe, set?_eq_setAll]
  exact ho.setAll _

theorem isObject_applyTags {ty : Ty} {tags : Tags} {o : Json} (ho : o.IsObject) :
    (applyTags ty tags o).IsObject := by
  induction tags generalizing o with
  | nil => exact ho
  | cons t tags ih => exact ih (isObject_applyTag ho)

theorem isObject_finish {ty : Ty} {o : Json} (ho : o.IsObject) : (ty.finish o).IsObject := by
  unfold Ty.finish wrapNull
  dsimp only
  split
  · split
    · exact ((isObject_applyTags ho).setAll [(_, _)]).update _
    · exact ⟨_, rfl⟩
  · exact isObject_applyTags ho

theorem isObject_schemaOf (ty : Ty) : (ty.schemaOf s).IsObject := by
  cases ty with
  | scalar m k =>
    refine isObject_finish ?_
    unfold Scalar.schemaOf
    split <;> exact ⟨_, rfl⟩
  | named m ref => cases ref <;> exact isObject_finish ⟨_, rfl⟩
  | seq m k e => cases k <;> exact isObject_finish ⟨_, rfl⟩
  | map m k v =>
    refine isObject_finish ?_
    split
    · unfold objectMapSchema
      dsimp only
      split <;> exact ⟨_, rfl⟩
    · exact ⟨_, rfl⟩

theorem Field.refsIn_schemaOf (hp : s.DeclarationsIn p) {f : Field} (hf : s.Has f.ty) :
    (f.schemaOf s).RefsIn p :=
  refsIn_describe (refsIn_applyTags (GameConfig.refsIn_schemaOf hp hf))

/-- A field may stand under any key. -/
theorem Field.memberRefsIn (hp : s.DeclarationsIn p) {f : Field} (hf : s.Has f.ty)
    (key : String) : MemberRefsIn p (key, f.schemaOf s) :=
  memberRefsIn_of_isObject (isObject_describe (isObject_applyTags (isObject_schemaOf f.ty)))
    (f.refsIn_schemaOf hp hf) key

theorem refsIn_properties (hp : s.DeclarationsIn p) {fields : List Field}
    (hfields : ∀ f ∈ fields, s.Has f.ty) {properties : Assoc Json}
    (h : (Json.object properties).RefsIn p) :
    (Json.object (fields.foldl (addProperty s) properties)).RefsIn p := by
  induction fields generalizing properties with
  | nil => exact h
  | cons f fields ih =>
    rw [List.forall_mem_cons] at hfields
    refine ih hfields.2 ?_
    have hmember := fun key => f.memberRefsIn hp hfields.1 key
    -- under its other keys first, then under its name
    refine refsIn_set (o := .object (f.otherKeys.foldl
      (fun ps key => Assoc.insert key (f.schemaOf s) ps) properties)) ?_ (hmember f.name)
    generalize f.otherKeys = keys
    induction keys generalizing properties with
    | nil => exact h
    | cons key keys ihk => exact ihk (refsIn_set h (hmember key))

theorem refsIn_objectSchema (hp : s.DeclarationsIn p) {fields : List Field}
    (hfields : ∀ f ∈ fields, s.Has f.ty) {properties : Assoc Json}
    (h : (Json.object properties).RefsIn p) (required : List String) (comment : Option String) :
    (objectSchema s properties required fields comment).RefsIn p := by
  rw [Validator.objectSchema_eq, refsIn_object]
  intro e he
  simp only [Validator.objectMembers, List.mem_cons, List.mem_append] at he
  rcases he with rfl | rfl | he | he | rfl | he
  · exact memberRefsIn_of_ne (by decide) (refsIn_string _)
  · exact memberRefsIn_of_ne (by decide) (refsIn_properties hp hfields h)
  · exact memberRefsIn_optional_array (by decide) (refsIn_strings _) he
  · refine memberRefsIn_optional_array (by decide) (refsIn_array.2 fun x hx => ?_) he
    obtain ⟨f, -, rfl⟩ := List.mem_map.1 hx
    have hkey : ∀ k, (Json.object [("required", .array [.string k])]).RefsIn p := by
      intro k
      simp [refsIn_object, refsIn_array, MemberRefsIn, refsIn_string]
    simp [refsIn_object, refsIn_array, MemberRefsIn, hkey]
  · exact memberRefsIn_of_ne (by decide) (refsIn_bool _)
  · exact memberRefsIn_optional_string (by decide) he

theorem refsIn_itemValue (v : ItemValue) : v.toJson.RefsIn p := by
  cases v with
  | int i => exact refsIn_number _
  | text t => exact refsIn_string t

/-- The definition of an enum refers to nothing. -/
theorem refsIn_enum (e : EnumDef) : e.schemaOf.RefsIn p := by
  have hitem : ∀ i : EnumItem, i.schemaOf.RefsIn p := by
    intro i
    unfold EnumItem.schemaOf
    rw [set?_eq_setAll, set?_eq_setAll, ← setAll_append]
    refine refsIn_setAll ?_ fun m hm => ?_
    · simp [refsIn_object, MemberRefsIn, refsIn_string, refsIn_itemValue]
    · rcases List.mem_append.1 hm with hm | hm <;>
        exact memberRefsIn_optional_string (by decide) hm
  have hbase : (Json.object [
      ("type", .string "string"),
      ("enum", .array (e.items.flatMap fun i => (i.name :: i.altName.toList).map .string)),
      ("x-enum", .string e.fullName),
      ("x-enum-values", .array (e.items.map fun i => i.value.toJson)),
      ("x-enum-items", .array (e.items.map EnumItem.schemaOf))]).RefsIn p := by
    simp only [refsIn_object, List.forall_mem_cons, MemberRefsIn, refsIn_array,
      List.forall_mem_flatMap, List.forall_mem_map]
    simp [refsIn_string, refsIn_itemValue, hitem]
  unfold EnumDef.schemaOf
  dsimp only
  refine refsIn_describe ?_
  split
  · exact refsIn_set hbase (memberRefsIn_of_ne (by decide) (refsIn_bool _))
  · exact hbase

/-- References to the definitions for files of some beans are of one sort. -/
def Schema.FilesIn (s : Schema) (p : String → Prop) (ids : List Nat) : Prop :=
  ∀ id ∈ ids, p ("#/definitions/" ++ (s.bean id).dataFileName)

/-- The definition of a bean refers to enums and beans. -/
theorem refsIn_bean (hs : s.Sound) (hc : s.Closed) (hp : s.DeclarationsIn p) {id : Nat}
    (hid : id < s.beans.length) : ((s.bean id).schemaOf s).RefsIn p := by
  unfold BeanDef.schemaOf
  split
  case isTrue =>
    have harm : ∀ c ∈ (s.bean id).concrete, ((s.bean c).armSchema s).RefsIn p := by
      intro c hmem
      have hthen := hp.bean c (Schema.Sound.lt_of_below hid ((hs.mem_concrete hid).1 hmem).1)
      simp [BeanDef.armSchema, constSchema, refsIn_object, refsIn_array, MemberRefsIn,
        refsIn_string, refsIn_definitionRef, hthen, typeKey]
    refine refsIn_describe ?_
    simpa [refsIn_object, refsIn_array, MemberRefsIn, refsIn_string, typeKey] using harm
  case isFalse =>
    unfold BeanDef.concreteSchema
    split
    · refine refsIn_objectSchema hp (hc id) ?_ _ _
      simp [constSchema, refsIn_object, MemberRefsIn, refsIn_string, typeKey]
    · exact refsIn_objectSchema hp (hc id) (refsIn_object.2 (by simp)) _ _

/-- The definition of a bean for files refers to enums and beans. -/
theorem refsIn_fileSchema (hc : s.Closed) (hp : s.DeclarationsIn p) (id : Nat) :
    ((s.bean id).fileSchema s).RefsIn p := by
  refine refsIn_objectSchema hp (hc id) ?_ _ _
  simp [refsIn_object, MemberRefsIn, refsIn_string]

theorem refsIn_choiceSchema {b : BeanDef} (h : s.FilesIn p b.concrete) :
    (b.choiceSchema s).RefsIn p := by
  have harm : ∀ c ∈ b.concrete, (definitionRef (s.bean c).dataFileName).RefsIn p :=
    fun c hmem => refsIn_definitionRef.2 (h c hmem)
  simpa [BeanDef.choiceSchema, refsIn_object, refsIn_array, MemberRefsIn] using harm

/-- What a document says about a table refers to nothing. -/
theorem refsIn_table (t : TableDef) : (t.schemaOf s).RefsIn p := by
  unfold TableDef.schemaOf
  dsimp only
  rw [set?_eq_setAll, set?_eq_setAll, set?_eq_setAll]
  refine refsIn_setAll (refsIn_setAll (refsIn_setAll ?_ fun m hm => ?_) fun m hm => ?_)
    fun m hm => ?_
  · simp [refsIn_object, MemberRefsIn, refsIn_string]
  · exact memberRefsIn_optional_string (by decide) hm
  · exact memberRefsIn_optional_array (by decide) (refsIn_strings _) hm
  · exact memberRefsIn_optional_string (by decide) hm

/-! ## Documents -/

theorem isObject_objectSchema (properties : Assoc Json) (required : List String)
    (fields : List Field) (comment : Option String) :
    (objectSchema s properties required fields comment).IsObject :=
  ⟨_, Validator.objectSchema_eq⟩

theorem isObject_definition {variants : Bool} {key : String} {o : Json}
    (h : (key, o) ∈ definitions s variants) : o.IsObject := by
  rcases mem_definitions.1 h with ⟨e, -, -, rfl⟩ | ⟨id, -, ⟨-, rfl⟩ | ⟨-, h⟩⟩
  · refine isObject_describe ?_
    split <;> exact ⟨_, rfl⟩
  · unfold BeanDef.schemaOf BeanDef.concreteSchema
    split
    · exact isObject_describe ⟨_, rfl⟩
    · split <;> exact isObject_objectSchema ..
  · rcases List.mem_append.1 h with h | h
    · obtain ⟨v, -, heq⟩ := List.mem_map.1 h
      rw [← (Prod.mk.inj heq).2]
      exact isObject_objectSchema ..
    · split at h
      · rw [(Prod.mk.inj (List.mem_singleton.1 h)).2]
        exact ⟨_, rfl⟩
      · cases h

/-- A definition refers to enums and beans, or it is a choice among definitions for files. -/
theorem refsIn_definition (hs : s.Sound) (hc : s.Closed) {variants : Bool}
    (hp : s.DeclarationsIn p)
    (hfiles : variants = true → ∀ id < s.beans.length,
      s.FilesIn p (fileVariants s id (s.bean id)))
    {key : String} {o : Json} (h : (key, o) ∈ definitions s variants) : o.RefsIn p := by
  rcases mem_definitions.1 h with ⟨e, -, -, rfl⟩ | ⟨id, hid, ⟨-, rfl⟩ | ⟨hv, h⟩⟩
  · exact refsIn_enum e
  · exact refsIn_bean hs hc hp hid
  · rcases List.mem_append.1 h with h | h
    · obtain ⟨v, -, heq⟩ := List.mem_map.1 h
      rw [← (Prod.mk.inj heq).2]
      exact refsIn_fileSchema hc hp v
    · split at h
      · rename_i habstract
        rw [Bool.and_eq_true] at habstract
        rw [(Prod.mk.inj (List.mem_singleton.1 h)).2]
        -- the definitions for files of its choices are those that the bean brings along
        have hvariants := hfiles hv id hid
        rw [fileVariants, if_pos habstract.1] at hvariants
        exact refsIn_choiceSchema hvariants
      · cases h

variable {o : JsonSchemaOptions}

/-- The document has a definition under the name. -/
def JsonSchemaOptions.Defines (o : JsonSchemaOptions) (s : Schema) (name : String) : Prop :=
  (o.definition? s name).isSome = true

theorem defines_iff {name : String} :
    o.Defines s name ↔ ∃ y, (name, y) ∈ definitions s o.fileVariants := by
  rw [JsonSchemaOptions.Defines, definition?_eq, Assoc.find?_isSome, Assoc.keys, List.map_reverse,
    List.mem_reverse, List.mem_map]
  simp

theorem defines_enum {id : Nat} (hid : id < s.enums.length) :
    o.Defines s (s.enum id).fullName :=
  defines_iff.2 ⟨_, mem_definitions.2
    (.inl ⟨_, List.mem_of_getElem? (Schema.enum_of_lt hid), rfl, rfl⟩)⟩

theorem defines_bean {id : Nat} (hid : id < s.beans.length) : o.Defines s (s.bean id).fullName :=
  defines_iff.2 ⟨_, mem_definitions.2 (.inr ⟨id, hid, .inl ⟨rfl, rfl⟩⟩)⟩

theorem defines_variant (hv : o.fileVariants = true) {id v : Nat} (hid : id < s.beans.length)
    (h : v ∈ fileVariants s id (s.bean id)) : o.Defines s (s.bean v).dataFileName :=
  defines_iff.2 ⟨_, mem_definitions.2 (.inr ⟨id, hid, .inr ⟨hv,
    List.mem_append_left _ (List.mem_map.2 ⟨v, h, rfl⟩)⟩⟩)⟩

/-- A bean that a table is of has a definition for files: its own, or the choice among those of its
    descendants. -/
theorem defines_table (hv : o.fileVariants = true) {id : Nat} (hid : id < s.beans.length)
    (ht : s.hasTableOf id = true) : o.Defines s (s.bean id).dataFileName := by
  by_cases habstract : (s.bean id).isAbstract = true
  · refine defines_iff.2 ⟨(s.bean id).choiceSchema s, mem_definitions.2 (.inr ⟨id, hid, .inr ⟨hv,
      List.mem_append_right _ ?_⟩⟩)⟩
    rw [if_pos (by rw [habstract, ht]; rfl)]
    exact List.mem_singleton.2 rfl
  · refine defines_variant hv hid ?_
    rw [fileVariants, if_neg habstract, if_pos (by rw [ht, Bool.or_true])]
    exact List.mem_singleton.2 rfl

/-- A reference to a definition that the document has. -/
def JsonSchemaOptions.Resolves (o : JsonSchemaOptions) (s : Schema) (ref : String) : Prop :=
  ∃ name, ref = "#/definitions/" ++ name ∧ o.Defines s name

/-- **All references in the document resolve.** -/
theorem refsIn_document (hs : s.Sound) (hc : s.Closed) :
    (o.document s).RefsIn (o.Resolves s) := by
  have hp : s.DeclarationsIn (o.Resolves s) :=
    ⟨fun id hid => ⟨_, rfl, defines_enum hid⟩, fun id hid => ⟨_, rfl, defines_bean hid⟩⟩
  have hfiles : o.fileVariants = true → ∀ id < s.beans.length,
      s.FilesIn (o.Resolves s) (fileVariants s id (s.bean id)) :=
    fun hv id hid v h => ⟨_, rfl, defines_variant hv hid h⟩
  have hdefinitions : (Json.object (Assoc.ofEntries (definitions s o.fileVariants))).RefsIn
      (o.Resolves s) :=
    refsIn_ofEntries fun e he =>
      memberRefsIn_of_isObject (isObject_definition he) (refsIn_definition hs hc hp hfiles he) e.1
  have htables : (Json.object (Assoc.ofEntries
      (s.tables.map fun t => (t.fullName, t.schemaOf s)))).RefsIn (o.Resolves s) := by
    refine refsIn_ofEntries fun e he => ?_
    obtain ⟨t, -, rfl⟩ := List.mem_map.1 he
    refine memberRefsIn_of_isObject ?_ (refsIn_table t) t.fullName
    unfold TableDef.schemaOf
    rw [set?_eq_setAll, set?_eq_setAll, set?_eq_setAll]
    exact ((IsObject.setAll ⟨_, rfl⟩ _).setAll _).setAll _
  refine refsIn_object.2 ?_
  simp only [List.forall_mem_cons]
  exact ⟨memberRefsIn_of_ne (by decide) (refsIn_string _),
    memberRefsIn_of_ne (by decide) (refsIn_string _),
    memberRefsIn_of_ne (by decide) hdefinitions, memberRefsIn_of_ne (by decide) htables,
    List.forall_mem_nil _⟩

/-- The schema for the data files of a table is read back from its file. -/
theorem read?_tableFile (t : TableDef) :
    Json.read? (o.tableFile s t).content = .ok (o.tableSchema s t) := by
  have hreadable : (o.tableSchema s t).Readable Document.maxDepth := by
    have hkeys : ["$schema", "$ref"].Nodup := by decide
    refine .object hkeys fun m hm => ?_
    simp only [List.mem_cons, List.not_mem_nil, or_false] at hm
    rcases hm with rfl | rfl <;> exact .string
  exact read?_pretty hreadable

end

/-- **References are closed**: every reference in the document is to one of its definitions, and
    the schema in every other file refers, from one directory below, to a definition of the
    document. -/
theorem references_closed_of_build {d : Descriptor} {s : Schema} (hb : d.build = .ok s)
    (o : JsonSchemaOptions) :
    (∀ ref, (o.document s).Refers ref →
      ∃ name, ref = "#/definitions/" ++ name ∧ o.Defines s name) ∧
    ∀ f ∈ (o.files s).tail, ∃ j name, Json.read? f.content = .ok j ∧
      j.member? "$ref" = some (.string ("../" ++ o.outputFile ++ "#/definitions/" ++ name)) ∧
      o.Defines s name := by
  obtain ⟨g, hg, hproper⟩ := Descriptor.exists_history_of_build hb
  refine ⟨refsIn_document (Schema.sound_of_build hg)
    (Schema.closed_of_build hproper.closed hg), fun f hf => ?_⟩
  unfold JsonSchemaOptions.files at hf
  split at hf
  case isTrue hv =>
    obtain ⟨t, ht, rfl⟩ := List.mem_map.1 hf
    refine ⟨_, (s.bean t.valueType).dataFileName, read?_tableFile t, ?_, ?_⟩
    · simp [JsonSchemaOptions.tableSchema, Json.member?, Assoc.find?, String.append_assoc]
    · refine defines_table hv (Schema.valueType_lt_of_build hg ht) ?_
      exact List.any_eq_true.2 ⟨t, ht, beq_self_eq_true _⟩
  case isFalse => cases hf

/-- Things with a rarity, and bags of them. -/
def vault : Descriptor where
  enums := [⟨"Rarity", false, none, [⟨"Common", some (.int 1), none, none⟩]⟩]
  beans := [
    ⟨"Thing", none, none, none, [⟨"rarity", "Rarity?", none, [], [], none⟩]⟩,
    ⟨"Bag", some "Thing", none, none, [⟨"content", "list,Thing", none, [], [], none⟩]⟩]
  tables := [⟨"TbThing", "Thing", .list, none, [], none⟩]

def vaultSchema : Schema :=
  let rarity : Field := ⟨"rarity", none, [], .named ⟨true, []⟩ (.enum 0), [], none⟩
  let content : Field :=
    ⟨"content", none, [], .seq .plain .list (.named .plain (.bean 0)), [], none⟩
  { beans := [
      ⟨"Thing", none, none, [rarity], none, [rarity], [1], [0, 1], [1]⟩,
      ⟨"Bag", none, some 0, [content], none, [rarity, content], [], [1], [1]⟩]
    enums := [⟨"Rarity", [⟨"Common", .int 1, none, none⟩], false, none⟩]
    tables := [⟨"TbThing", 0, .list, none, [], none⟩]
    names := [("Rarity", .enum 0), ("Thing", .bean 0), ("Bag", .bean 1)] }

theorem references_closed_vault : vault.build = .ok vaultSchema ∧
    (∀ ref, (JsonSchemaOptions.standard.document vaultSchema).Refers ref →
      ∃ name, ref = "#/definitions/" ++ name ∧
        JsonSchemaOptions.standard.Defines vaultSchema name) ∧
    ∀ f ∈ (JsonSchemaOptions.standard.files vaultSchema).tail, ∃ j name,
      Json.read? f.content = .ok j ∧
      j.member? "$ref" = some (.string ("../" ++ JsonSchemaOptions.standard.outputFile ++
        "#/definitions/" ++ name)) ∧
      JsonSchemaOptions.standard.Defines vaultSchema name := by
  have hbuild : vault.build = .ok vaultSchema := by cbv
  exact ⟨hbuild, references_closed_of_build hbuild .standard⟩

end GameConfig
