import GameConfig.Proofs.Emit.Definitions
import GameConfig.Proofs.Emit.Nullable
import GameConfig.Proofs.Load.RoundTrip
import GameConfig.Proofs.Number.Written

/-
  Exports of loaded values meet their schemas.

  The export of a value and the schema of its type are two recursions over
  types.  They agree at every node of a loaded value, since loading has bounded
  integers, left doubles finite and found a concrete bean for every bean: a
  double that is not finite would be written as null, and a schema of numbers
  rejects that.

  * `accepts_scalar`, `accepts_item`, `accepts_bean`: one kind of type each;
  * `accepts_toJson`: all types, from the parts of a raw tree to the tree;
  * `accepts_export_of_build`: records, over the document of a descriptor.
-/

namespace GameConfig

open Hierarchy

/-- The definitions of the document are those of a schema without tags, whose values the
    definitions can accept. -/
structure Validator.Describes (j : Validator) (s : Schema) : Prop where
  sound : s.Sound
  closed : s.Closed
  named : s.Named
  bare : s.Bare
  aliases : s.AliasesApart
  knows : j.Knows s

theorem describes_of_build {d : Descriptor} {s : Schema} (hb : d.build = .ok s) (hbare : s.Bare)
    (ha : s.AliasesApart) {o : JsonSchemaOptions} (hfree : o.fileVariants = true → s.SuffixFree)
    (search : String → String → Bool) : Validator.Describes ⟨o.document s, search⟩ s := by
  obtain ⟨g, hg, hp⟩ := Descriptor.exists_history_of_build hb
  have hs := Schema.sound_of_build hg
  exact {
    sound := hs
    closed := Schema.closed_of_build hp.closed hg
    named := Schema.named_of_build hp hg
    bare := hbare
    aliases := ha
    knows := knows_document hs (Schema.namesProper_of_build hp hg) hfree rfl }

namespace Loader

variable {l : Loader} {j : Validator}

/-! ## Scalars and enums -/

/-- Between its bounds an integer is accepted. -/
theorem accepts_between {lo hi i : Int} (hlo : lo ≤ i) (hhi : i ≤ hi) :
    j.Accepts (.object [("type", .string "integer"), ("minimum", .ofInt lo), ("maximum", .ofInt hi)])
      (.ofInt i) := by
  rw [Validator.accepts_object (by simp [Assoc.find?])]
  simp [Validator.demand?, Keyword.type, Keyword.bound, Json.hasType, Json.ofInt, Json.Number.le,
    Json.Number.isWhole, Json.Number.fraction, hlo, hhi]

/-- A finite double is written as a number. -/
theorem accepts_ofDouble {x : Double} (hx : x.isFinite = true) :
    j.Accepts (.object [("type", .string "number")]) (.ofDouble x) := by
  rw [Json.ofDouble, if_pos hx]
  exact Validator.accepts_type.2 rfl

/-- **What loads as a scalar is accepted by its schema.** -/
theorem accepts_scalar (s : Schema) {k : Scalar} {x : Json} (hx : x.Fits) {d : Datum}
    (h : scalar k x = .ok d) : j.Accepts k.schemaOf (d.toJson s) := by
  cases k with
  | bool =>
    obtain ⟨b, -, rfl⟩ := bool_eq_ok.1 h
    rw [Datum.toJson]
    exact Validator.accepts_type.2 rfl
  | integer w =>
    obtain ⟨i, -, hw, rfl⟩ := integer_eq_ok.1 h
    rw [IntWidth.holds, Bool.and_eq_true, decide_eq_true_eq, decide_eq_true_eq] at hw
    have hwhole : (Json.ofInt i).hasType "integer" = true := by
      simp [Json.hasType, Json.ofInt, Json.Number.isWhole, Json.Number.fraction]
    rw [Datum.toJson]
    cases w with
    | byte => exact accepts_between hw.1 hw.2
    | short => exact accepts_between hw.1 hw.2
    | int => exact Validator.accepts_type.2 hwhole
    | long => exact Validator.accepts_type.2 hwhole
  | float =>
    obtain ⟨y, -, ⟨hfin, hle⟩, rfl⟩ := single_eq_ok.1 h
    rw [Datum.toJson]
    exact accepts_ofDouble (Single.isFinite_exported (Binary.isFinite_narrow hfin hle))
  | double =>
    obtain ⟨n, rfl, rfl⟩ := double_eq_ok.1 h
    cases hx with
    | number hn =>
      rw [Datum.toJson]
      exact accepts_ofDouble hn.toDouble
  | string =>
    obtain ⟨text, -, rfl⟩ := string_eq_ok.1 h
    rw [Datum.toJson]
    exact Validator.accepts_type.2 rfl
  | datetime =>
    obtain ⟨text, t, -, -, rfl⟩ := datetime_eq_ok.1 h
    rw [Datum.toJson, Scalar.schemaOf, Validator.accepts_object (by simp [Assoc.find?])]
    simp [Validator.demand?, Keyword.type, Keyword.others, Json.hasType]

/-- **What loads as an item is accepted by the definition of its enum.** -/
theorem accepts_item {id : Nat} {x : Json} {d : Datum}
    (h : item id (l.schema.enum id) x = .ok d) :
    j.Accepts (l.schema.enum id).schemaOf (d.toJson l.schema) := by
  obtain ⟨word, i, -, hi, rfl⟩ := item_eq_ok.1 h
  have hlt := findItem?_lt hi
  have hname : (l.schema.enum id).itemName i = (l.schema.enum id).items[i].name := by
    simp [EnumDef.itemName, hlt]
  rw [Datum.toJson, hname]
  exact Validator.accepts_enum (List.getElem_mem hlt)

/-- No name is a key of a type whose keys are no texts. -/
theorem loadKey_ne_ok {key : Ty} (h : key.isTextKey = false) {n : String} {d : Datum} :
    l.loadKey key n ≠ .ok d := by
  intro hload
  rw [(loadKey_eq_ok.1 hload).1] at h
  cases h

/-! ## Null -/

theorem baseSchema_eq {s : Schema} {ty : Ty} (hb : ty.isBare = true) :
    ty.baseSchema s = ty.unmarked s := by
  cases ty with
  | scalar m k => rfl
  | named m ref => cases ref <;> rfl
  | seq m k e =>
    cases k with
    | set => simp [Ty.isBare] at hb
    | _ => rfl
  | map m k v =>
    have hkey : ¬ k.isTextKey = true := by
      simp only [Ty.isBare, Bool.and_eq_true, Bool.not_eq_true'] at hb
      simp [hb.1.1.2]
    rw [Ty.baseSchema, Ty.unmarked, if_neg hkey]

/-- The schema of a bare type lets null through. -/
theorem lets_null {s : Schema} (hk : j.Knows s) {ty : Ty} (hty : s.Has ty)
    (hb : ty.isBare = true) : j.LetsNull (ty.baseSchema s) := by
  by_cases hnamed : ∃ m ref, ty = .named m ref
  · obtain ⟨m, ref, rfl⟩ := hnamed
    cases ref with
    | enum id => exact Validator.lets_null_ref (hk.enum id hty) (Validator.rejects_null_enum _)
    | bean id => exact Validator.lets_null_ref (hk.bean id hty) (Validator.rejects_null_bean _)
  · have hne : ∀ m ref, ty ≠ .named m ref := fun m ref heq => hnamed ⟨m, ref, heq⟩
    obtain ⟨t, hshapes⟩ := shapes_unmarked (s := s) hne
    have hnull : ∀ v, j.Accepts (wrapNull (ty.unmarked s)) v ↔
        v = .null ∨ j.Accepts (ty.unmarked s) v :=
      fun v => (Validator.nullReady_unmarked hne).accepts_wrapNull_iff hshapes.type
    rw [baseSchema_eq hb]
    exact ⟨fun v hv => (hnull v).2 (.inr hv), (hnull .null).2 (.inl rfl)⟩

/-- What the schema of a type accepts without its mark it accepts with it. -/
theorem accepts_of_base {s : Schema} (hk : j.Knows s) {ty : Ty} (hty : s.Has ty)
    (hb : ty.isBare = true) {v : Json} (h : j.Accepts (ty.baseSchema s) v) :
    j.Accepts (ty.schemaOf s) v := by
  rw [Ty.schemaOf_bare s hb]
  split
  · exact (lets_null hk hty hb).1 v h
  · exact h

theorem accepts_null {s : Schema} (hk : j.Knows s) {ty : Ty} (hty : s.Has ty)
    (hb : ty.isBare = true) (hnull : ty.nullable = true) : j.Accepts (ty.schemaOf s) .null := by
  rw [Ty.schemaOf_bare s hb, if_pos hnull]
  exact (lets_null hk hty hb).2

/-! ## Beans -/

/-- A bean without children is meant itself. -/
theorem eq_of_resolve {id c : Nat} {w : Option String}
    (hself : ¬ (l.schema.bean id).isAbstract = true) (h : l.resolve id w = .ok c) : c = id := by
  rcases resolve_eq_ok.1 h with ⟨-, heq⟩ | ⟨hne, -⟩
  · exact heq
  · exact absurd (BeanDef.isAbstract_iff.2 hne) hself

section

variable (hj : j.Describes l.schema)
include hj

/-- The schema of a field accepts what stands for it in the export: its value, or null where there
    is none. -/
theorem accepts_field {c : Nat} {f : Field} (hf : f ∈ (l.schema.bean c).allFields)
    {ms : List (String × Json)} {v : Option Datum} (h : l.FieldLoads ms f v)
    (hload : ∀ y d, y.Inside (.object ms) → l.load f.ty y = .ok d →
      j.Accepts (f.ty.schemaOf l.schema) (d.toJson l.schema)) :
    j.Accepts (f.schemaOf l.schema) (Datum.fieldJson l.schema v) := by
  obtain ⟨htags, hb⟩ := hj.bare _ (Schema.mem_beans hf) f hf
  rw [Field.schemaOf, htags]
  refine Validator.judges_describe.1 ?_
  cases v with
  | none => exact accepts_null hj.knows (hj.closed c f hf) hb h.1
  | some d =>
    obtain ⟨y, hy, hd⟩ := h
    obtain ⟨k, hk⟩ := value?_mem hy
    exact hload y d (.member hk) hd

/-- **The definition of a bean accepts a value of it**, if the schemas of the fields accept
    theirs. -/
theorem accepts_bean {id c : Nat} (hid : id < l.schema.beans.length) {w : Option String}
    (hres : l.resolve id w = .ok c) {vs : List (Option Datum)}
    (hlen : (l.schema.bean c).allFields.length = vs.length)
    (hvs : ∀ f v, (f, v) ∈ (l.schema.bean c).allFields.zip vs →
      j.Accepts (f.schemaOf l.schema) (Datum.fieldJson l.schema v)) :
    j.Accepts ((l.schema.bean id).schemaOf l.schema)
      (.object (Datum.members l.schema c vs)) := by
  have hs := hj.sound
  have hmem := resolve_mem hs hid hres
  obtain ⟨habove, hleaf⟩ := (hs.mem_concrete hid).1 hmem
  have hconcrete := Validator.accepts_concreteSchema hs hj.named hj.aliases hlen hvs
  unfold BeanDef.schemaOf
  split
  case isTrue habstract =>
    have hparent := hs.parent_isSome hid (BeanDef.isAbstract_iff.1 habstract) hmem
    refine Validator.accepts_abstractSchema hs hj.named hid hmem hparent ?_
    have hlt := Schema.Sound.lt_of_below hid habove
    refine (Validator.accepts_ref rfl (hj.knows.bean c hlt)).2 ?_
    rw [BeanDef.schemaOf, if_neg fun h => BeanDef.isAbstract_iff.1 h hleaf]
    exact hconcrete
  case isFalse hself =>
    obtain rfl := eq_of_resolve hself hres
    exact hconcrete

/-! ## Values -/

/-- **The schema of a type accepts the export of what loads as it.** -/
theorem accepts_toJson {ty : Ty} {x : Json} {d : Datum} (hty : l.schema.Has ty)
    (hb : ty.isBare = true) (hx : x.Fits) (h : l.load ty x = .ok d) :
    j.Accepts (ty.schemaOf l.schema) (d.toJson l.schema) := by
  have hk := hj.knows
  induction x using Json.induction generalizing ty d with
  | step x ih =>
  refine accepts_of_base hk hty hb ?_
  match ty with
  | .scalar m k =>
    rw [load_scalar] at h
    exact accepts_scalar _ hx h
  | .named m (.enum id) =>
    rw [load_enum] at h
    exact (Validator.accepts_ref rfl (hk.enum id hty)).2 (accepts_item h)
  | .named m (.bean id) =>
    obtain ⟨ms, c, vs, rfl, hres, hvs, rfl⟩ := load_bean_eq_ok.1 h
    obtain ⟨hlen, hvs⟩ := List.forall₂_iff_zip.1 hvs
    rw [Datum.toJson_bean hj.sound hj.named]
    refine (Validator.accepts_ref rfl (hk.bean id hty)).2 ?_
    refine accepts_bean hj hty hres hlen fun f v hfv => ?_
    have hin := (List.of_mem_zip hfv).1
    refine accepts_field hj hin (hvs hfv) fun y e hy he => ?_
    exact ih y hy (hj.closed c f hin) (hj.bare _ (Schema.mem_beans hin) f hin).2 (hx.inside hy) he
  | .seq m k e =>
    obtain ⟨xs, ds, rfl, hds, rfl⟩ := load_seq_eq_ok.1 h
    simp only [Ty.isBare, Bool.and_eq_true] at hb
    rw [Datum.toJson, Datum.itemsJson_eq]
    refine Validator.accepts_array fun v hv => ?_
    obtain ⟨d, hd, rfl⟩ := List.mem_map.1 hv
    obtain ⟨y, hy, hload⟩ := exists_of_mem_right hds hd
    exact ih y (.item hy) hty hb.2 (hx.inside (.item hy)) hload
  | .map m k v =>
    simp only [Ty.isBare, Bool.and_eq_true, Bool.not_eq_true'] at hb
    obtain ⟨⟨⟨-, hkey⟩, hkb⟩, hvb⟩ := hb
    obtain ⟨es, -, rfl, -⟩ := load_map_eq_ok.1 h
    have hpairs : (Datum.map es).toJson l.schema = .array
        ((es.map fun e => (e.1.toJson l.schema, e.2.toJson l.schema)).map
          fun e => .array [e.1, e.2]) := by
      rw [Datum.toJson, Datum.entriesJson_eq, List.map_map]
      rfl
    rw [hpairs]
    refine Validator.accepts_pairs ?_ ?_
    · intro p hp
      obtain ⟨e, he, rfl⟩ := List.mem_map.1 hp
      rcases (load_map_entry h he).1 with ⟨y, hy, hload⟩ | ⟨n, hload⟩
      · exact ih y hy hty.1 hkb (hx.inside hy) hload
      · exact absurd hload (loadKey_ne_ok hkey)
    · intro p hp
      obtain ⟨e, he, rfl⟩ := List.mem_map.1 hp
      obtain ⟨y, hy, hload⟩ := (load_map_entry h he).2
      exact ih y hy hty.2 hvb (hx.inside hy) hload

end

end Loader

/-- **Exported records satisfy the schema**: over a descriptor without tags, without sets and
    without maps that may be objects, whose aliases are no other keys, what loads as a record of a
    bean is written as the definition of that bean in the document accepts it.  Searches for
    patterns may be whatever they are, as there are no patterns. -/
theorem accepts_export_of_build {d : Descriptor} {s : Schema} (hb : d.build = .ok s)
    (hbare : s.Bare) (ha : s.AliasesApart) {o : JsonSchemaOptions} (ho : o.fileVariants = false)
    (search : String → String → Bool) {b : Nat} (hlt : b < s.beans.length) {v : Option String}
    {raw : Json} (hraw : raw.Fits) {r : Record} (hr : Loader.loadBean ⟨s, v⟩ b raw = .ok r) :
    ∃ schema, Validator.target? ⟨o.document s, search⟩ ("#/definitions/" ++ (s.bean b).fullName) =
        some schema ∧
      Validator.Accepts ⟨o.document s, search⟩ schema (r.toJson s) := by
  have hj := describes_of_build hb hbare ha (fun hv => absurd hv (by rw [ho]; decide)) search
  have hty : s.Has (.named .plain (.bean b)) := hlt
  have haccepts := Loader.accepts_toJson (l := ⟨s, v⟩) hj hty rfl hraw (Loader.load_of_loadBean hr)
  exact ⟨_, hj.knows.bean b hlt, (Validator.accepts_ref rfl (hj.knows.bean b hlt)).1 haccepts⟩

/-- The options for a document without definitions for files. -/
def plainOptions : JsonSchemaOptions := { JsonSchemaOptions.standard with fileVariants := false }

/-- A sword that is called by its alias and has no color. -/
def blade : Json :=
  .object [("__type__", .string "blade"), ("damage", .ofInt 3), ("damage@hard", .ofInt 7)]

theorem accepts_export_blade :
    armory.build = .ok armorySchema ∧ armorySchema.Bare ∧ armorySchema.AliasesApart ∧
    Loader.loadBean ⟨armorySchema, some "hard"⟩ 0 blade =
      .ok ⟨1, [none, some (.integer .int 7)]⟩ ∧
    ∃ schema, Validator.target? ⟨plainOptions.document armorySchema, fun _ _ => true⟩
        "#/definitions/Item" = some schema ∧
      Validator.Accepts ⟨plainOptions.document armorySchema, fun _ _ => true⟩ schema
        (.object [("$type", .string "Sword"), ("color", .null), ("damage", .ofInt 7)]) := by
  have hbuild : armory.build = .ok armorySchema := by cbv
  have hbare : armorySchema.Bare := by unfold Schema.Bare; decide
  have haliases : armorySchema.AliasesApart := by unfold Schema.AliasesApart; decide
  have hfits : blade.Fits := by
    refine .object ?_
    simp only [List.forall_mem_cons]
    refine ⟨.string, .number ?_, .number ?_, by simp⟩
    all_goals simp [Json.Number.Fits, Numeral.minInt64, Numeral.maxNat64]
  have hload : Loader.loadBean ⟨armorySchema, some "hard"⟩ 0 blade =
    .ok ⟨1, [none, some (.integer .int 7)]⟩ := rfl
  exact ⟨hbuild, hbare, haliases, hload,
    accepts_export_of_build hbuild hbare haliases rfl _ (by decide) hfits hload⟩

end GameConfig
