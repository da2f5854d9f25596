import GameConfig.Proofs.DateTime.RoundTrip
import GameConfig.Proofs.Datum.Members
import GameConfig.Proofs.Json.Fits
import GameConfig.Proofs.Load.Typing
import GameConfig.Proofs.Schema.Discriminator
import Mathlib

/-
  What was loaded loads again from its export.

  The export is written in one of the forms that raw data may have: enum items
  by name, maps as pairs, every field under its name, absent fields as null and
  beans that have a parent with their discriminator.  So the value that is
  loaded from it takes the same way through the loader, whatever form the first
  one came in.

  * `load_toJson`: the export loads as the same value;
  * `load_toJson_of_build`: over the schema of a descriptor, under any variant.

  Singles are left out, since what is written for them is a decimal that is
  rounded once more.
-/

namespace GameConfig

open Hierarchy

/-! ## Reachable types -/

namespace Schema

/-- The types inside a type: those of elements, of keys and values, and of the fields of the
    concrete beans that a value may name. -/
inductive Reaches (s : Schema) (ty : Ty) : Ty → Prop
  | refl : s.Reaches ty ty
  | elem {m k e} : s.Reaches ty (.seq m k e) → s.Reaches ty e
  | key {m k v} : s.Reaches ty (.map m k v) → s.Reaches ty k
  | value {m k v} : s.Reaches ty (.map m k v) → s.Reaches ty v
  | field {m id c f} : s.Reaches ty (.named m (.bean id)) → c ∈ (s.bean id).concrete →
      f ∈ (s.bean c).allFields → s.Reaches ty f.ty

theorem Reaches.trans {s : Schema} {a b c : Ty} (hab : s.Reaches a b) (hbc : s.Reaches b c) :
    s.Reaches a c := by
  induction hbc with
  | refl => exact hab
  | elem _ ih => exact ih.elem
  | key _ ih => exact ih.key
  | value _ ih => exact ih.value
  | field _ hc hf ih => exact ih.field hc hf

/-- No single is inside the type. -/
def FloatFree (s : Schema) (ty : Ty) : Prop := ∀ m, ¬ s.Reaches ty (.scalar m .float)

theorem FloatFree.of_reaches {s : Schema} {a b : Ty} (h : s.FloatFree a) (hab : s.Reaches a b) :
    s.FloatFree b :=
  fun m hb => h m (hab.trans hb)

end Schema

/-- Parts of what fits fit. -/
theorem Json.Fits.inside {x y : Json} (hx : x.Fits) (h : y.Inside x) : y.Fits := by
  induction h with
  | item hy =>
    cases hx with
    | array hxs => exact hxs _ hy
  | member hy =>
    cases hx with
    | object hms => exact hms _ hy
  | trans _ _ ih₁ ih₂ => exact ih₁ (ih₂ hx)

namespace Loader

variable {l : Loader}

/-! ## Scalars and enums -/

/-- An integer that was read is read again from its number. -/
theorem int64?_ofInt {x : Json} {i : Int} (h : x.int64? = some i) :
    (Json.ofInt i).int64? = some i := by
  cases x with
  | number n =>
    cases n with
    | int j =>
      simp only [Json.int64?] at h
      split at h
      · rename_i hfits
        cases h
        simp [Json.ofInt, Json.int64?, hfits]
      · cases h
    | double y => cases h
  | _ => cases h

theorem scalar_toJson (s : Schema) {k : Scalar} (hk : k ≠ .float) {x : Json} (hx : x.Fits)
    {d : Datum} (h : scalar k x = .ok d) : scalar k (d.toJson s) = .ok d := by
  cases k with
  | float => exact absurd rfl hk
  | bool =>
    obtain ⟨b, -, rfl⟩ := bool_eq_ok.1 h
    exact bool_eq_ok.2 ⟨b, by rw [Datum.toJson], rfl⟩
  | integer w =>
    obtain ⟨i, hi, hw, rfl⟩ := integer_eq_ok.1 h
    exact integer_eq_ok.2 ⟨i, by simpa [Datum.toJson] using int64?_ofInt hi, hw, rfl⟩
  | double =>
    obtain ⟨n, rfl, rfl⟩ := double_eq_ok.1 h
    cases hx with
    | number hn =>
      have hnum : (Datum.double n.toDouble).toJson s = .number (.double n.toDouble) := by
        simp [Datum.toJson, Json.ofDouble, hn.toDouble]
      exact double_eq_ok.2 ⟨.double n.toDouble, hnum, rfl⟩
  | string =>
    obtain ⟨text, -, rfl⟩ := string_eq_ok.1 h
    exact string_eq_ok.2 ⟨text, by rw [Datum.toJson], rfl⟩
  | datetime =>
    obtain ⟨text, t, -, ht, rfl⟩ := datetime_eq_ok.1 h
    have hread := DateTime.read?_toText (DateTime.isValid_of_read? ht)
    exact datetime_eq_ok.2 ⟨t.toText, t, by rw [Datum.toJson], hread, rfl⟩

/-- An item is found under its name. -/
theorem findItem?_itemName {e : EnumDef} (he : (e.items.map EnumItem.name).Nodup) {i : Nat}
    (hi : i < e.items.length) : e.findItem? (e.itemName i) = some i := by
  have hname : e.itemName i = e.items[i].name := by
    simp [EnumDef.itemName, hi]
  have hfirst : e.items.findIdx? (fun item => item.name == e.itemName i) = some i := by
    refine List.findIdx?_eq_some_iff_getElem.2 ⟨hi, by simp [hname], fun j hj => ?_⟩
    have hlt : j < (e.items.map EnumItem.name).length := by simp; omega
    have hlt' : i < (e.items.map EnumItem.name).length := by simpa using hi
    have hne : (e.items.map EnumItem.name)[j] ≠ (e.items.map EnumItem.name)[i] := by
      intro h
      have := he.getElem_inj_iff.1 h
      omega
    simpa [hname] using hne
  simp [EnumDef.findItem?, hfirst]

theorem item_toJson (hs : l.schema.Sound) {id : Nat} {x : Json} {d : Datum}
    (h : item id (l.schema.enum id) x = .ok d) :
    item id (l.schema.enum id) (d.toJson l.schema) = .ok d := by
  obtain ⟨word, i, -, hi, rfl⟩ := item_eq_ok.1 h
  refine item_eq_ok.2 ⟨(l.schema.enum id).itemName i, i, by simp [Datum.toJson], ?_, rfl⟩
  exact findItem?_itemName (hs.items id) (findItem?_lt hi)

/-- The node that a name stands for fits. -/
theorem keyNode?_fits {key : Ty} {n : String} {k : Json} (h : keyNode? key n = some k) :
    k.Fits := by
  unfold keyNode? at h
  split at h
  · split at h
    · rename_i hread
      cases h
      exact Json.read?_fits hread
    · cases h
  · cases h
    exact .string

/-- A key that was a name loads again as a node. -/
theorem loadKey_toJson (hs : l.schema.Sound) {key : Ty} (hf : l.schema.FloatFree key) {n : String}
    {d : Datum} (h : l.loadKey key n = .ok d) : l.load key (d.toJson l.schema) = .ok d := by
  obtain ⟨htext, k, hnode, hload⟩ := loadKey_eq_ok.1 h
  rcases eq_of_isTextKey htext with ⟨m, kind, rfl⟩ | ⟨m, id, rfl⟩
  · rw [load_scalar] at hload ⊢
    refine scalar_toJson _ ?_ (keyNode?_fits hnode) hload
    rintro rfl
    exact hf m .refl
  · rw [load_enum] at hload ⊢
    exact item_toJson hs hload

/-! ## Beans -/

theorem fieldNode?_members (hs : l.schema.Sound) (hn : l.schema.Named) {c : Nat}
    {vs : List (Option Datum)} {f : Field} {v : Option Datum}
    (h : (f, v) ∈ (l.schema.bean c).allFields.zip vs) :
    l.fieldNode? (Datum.members l.schema c vs) f = some (Datum.fieldJson l.schema v) := by
  have hvariant : ((l.variant.bind f.variantKey?).bind fun key =>
      Assoc.find? key (Datum.members l.schema c vs)) = none := by
    refine Option.bind_eq_none_iff.2 fun key hkey => ?_
    obtain ⟨w, -, hw⟩ := Option.bind_eq_some_iff.1 hkey
    unfold Field.variantKey? at hw
    split at hw
    · cases hw
      exact Datum.find?_storedAs hn c vs f w
    · cases hw
  rw [fieldNode?, hvariant]
  simp [Datum.find?_name hs hn h]

/-- A field loads from its member as it loaded before. -/
theorem fieldLoads_members (hs : l.schema.Sound) (hn : l.schema.Named) {c : Nat}
    {vs : List (Option Datum)} {f : Field} {v : Option Datum}
    (h : (f, v) ∈ (l.schema.bean c).allFields.zip vs) (hnull : v = none → f.ty.nullable = true)
    (hload : ∀ d, v = some d → l.load f.ty (d.toJson l.schema) = .ok d) :
    l.FieldLoads (Datum.members l.schema c vs) f v := by
  have hnode := fieldNode?_members hs hn h
  cases v with
  | none => exact ⟨hnull rfl, by simp [value?, hnode, Datum.fieldJson]⟩
  | some d =>
    have hd := hload d rfl
    refine ⟨d.toJson l.schema, ?_, hd⟩
    rw [value?, hnode, Datum.fieldJson]
    -- null would not have loaded
    split
    · rename_i hx
      rw [Option.some.inj hx] at hd
      exact absurd hd (load_null_ne_ok f.ty d)
    · rfl

/-- The members name the concrete bean, where it has to be named. -/
theorem resolve_members (hs : l.schema.Sound) {id c : Nat} (hid : id < l.schema.beans.length)
    {w : Option String} (h : l.resolve id w = .ok c) (vs : List (Option Datum)) :
    l.resolve id (word? (Datum.members l.schema c vs)) = .ok c := by
  rcases resolve_eq_ok.1 h with hleaf | ⟨hne, -⟩
  · exact resolve_eq_ok.2 (Or.inl hleaf)
  have hmem := resolve_mem hs hid h
  have hparent := hs.parent_isSome hid hne hmem
  refine resolve_eq_ok.2 (Or.inr ⟨hne, _, ?_, hs.subtype?_discriminator hid hmem⟩)
  simp [word?, tagNode?, Datum.members, Datum.tagMember, hparent, Assoc.find?, Json.string?]

/-- A bean loads from its export if its fields do. -/
theorem load_bean_toJson (hs : l.schema.Sound) (hn : l.schema.Named) {m : Mark} {id c : Nat}
    {vs : List (Option Datum)} (hid : id < l.schema.beans.length) {w : Option String}
    (hres : l.resolve id w = .ok c) (hlen : (l.schema.bean c).allFields.length = vs.length)
    (hnull : ∀ f, (f, none) ∈ (l.schema.bean c).allFields.zip vs → f.ty.nullable = true)
    (hload : ∀ f d, (f, some d) ∈ (l.schema.bean c).allFields.zip vs →
      l.load f.ty (d.toJson l.schema) = .ok d) :
    l.load (.named m (.bean id)) ((Datum.bean c vs).toJson l.schema) = .ok (.bean c vs) := by
  rw [Datum.toJson_bean hs hn]
  refine load_bean_eq_ok.2 ⟨_, c, vs, rfl, resolve_members hs hid hres vs, ?_, rfl⟩
  refine List.forall₂_iff_zip.2 ⟨hlen, fun {f v} hfv => fieldLoads_members hs hn hfv ?_ ?_⟩
  · rintro rfl
    exact hnull f hfv
  · rintro d rfl
    exact hload f d hfv

/-! ## Sequences and maps -/

/-- A sequence loads from its export if its items do. -/
theorem load_seq_toJson {m : Mark} {k : SeqKind} {elem : Ty} {ds : List Datum}
    (h : ∀ d ∈ ds, l.load elem (d.toJson l.schema) = .ok d) :
    l.load (.seq m k elem) ((Datum.seq k ds).toJson l.schema) = .ok (.seq k ds) := by
  have hitems : (Datum.seq k ds).toJson l.schema = .array (ds.map (Datum.toJson l.schema)) := by
    rw [Datum.toJson, Datum.itemsJson_eq]
  refine load_seq_eq_ok.2 ⟨_, ds, hitems, ?_, rfl⟩
  exact List.forall₂_map_left_iff.2 (List.forall₂_same.2 h)

/-- A map loads from its export if its keys and values do. -/
theorem load_map_toJson {m : Mark} {key value : Ty} {es : Entries} (hfresh : es.Fresh)
    (hk : ∀ e ∈ es, l.load key (e.1.toJson l.schema) = .ok e.1)
    (hv : ∀ e ∈ es, l.load value (e.2.toJson l.schema) = .ok e.2) :
    l.load (.map m key value) ((Datum.map es).toJson l.schema) = .ok (.map es) := by
  have hpairs : (Datum.map es).toJson l.schema =
      .array (es.map fun e => .array [e.1.toJson l.schema, e.2.toJson l.schema]) := by
    rw [Datum.toJson, Datum.entriesJson_eq]
  rw [hpairs]
  refine load_pairs_eq_ok.2 ⟨es, hfresh, rfl, ?_⟩
  refine List.forall₂_map_left_iff.2 (List.forall₂_same.2 fun e he => ?_)
  exact ⟨_, _, rfl, hk e he, hv e he⟩

/-! ## Values -/

/-- **The export of what was loaded loads as the same value.** -/
theorem load_toJson (hs : l.schema.Sound) (hc : l.schema.Closed) (hn : l.schema.Named) {ty : Ty}
    {x : Json} {d : Datum} (hty : l.schema.Has ty) (hf : l.schema.FloatFree ty) (hx : x.Fits)
    (h : l.load ty x = .ok d) : l.load ty (d.toJson l.schema) = .ok d := by
  induction x using Json.induction generalizing ty d with
  | step x ih =>
  match ty with
  | .scalar m k =>
    rw [load_scalar] at h ⊢
    refine scalar_toJson _ ?_ hx h
    rintro rfl
    exact hf m .refl
  | .named m (.enum id) =>
    rw [load_enum] at h ⊢
    exact item_toJson hs h
  | .named m (.bean id) =>
    obtain ⟨ms, c, vs, rfl, hres, hvs, rfl⟩ := load_bean_eq_ok.1 h
    obtain ⟨hlen, hvs⟩ := List.forall₂_iff_zip.1 hvs
    refine load_bean_toJson hs hn hty hres hlen (fun f hfv => (hvs hfv).1) fun f e hfv => ?_
    have hin := (List.of_mem_zip hfv).1
    obtain ⟨y, hy, he⟩ := hvs hfv
    obtain ⟨k, hk⟩ := value?_mem hy
    exact ih y (.member hk) (hc c f hin)
      (hf.of_reaches (.field .refl (resolve_mem hs hty hres) hin)) (hx.inside (.member hk)) he
  | .seq m k e =>
    obtain ⟨xs, ds, rfl, hds, rfl⟩ := load_seq_eq_ok.1 h
    refine load_seq_toJson fun d hd => ?_
    obtain ⟨y, hy, hload⟩ := exists_of_mem_right hds hd
    exact ih y (.item hy) hty (hf.of_reaches (.elem .refl)) (hx.inside (.item hy)) hload
  | .map m k v =>
    obtain ⟨es, hfresh, rfl, -⟩ := load_map_eq_ok.1 h
    refine load_map_toJson hfresh (fun e he => ?_) fun e he => ?_
    · have hkf := hf.of_reaches (.key .refl)
      rcases (load_map_entry h he).1 with ⟨y, hy, hk⟩ | ⟨n, hk⟩
      · exact ih y hy hty.1 hkf (hx.inside hy) hk
      · exact loadKey_toJson hs hkf hk
    · obtain ⟨y, hy, hv⟩ := (load_map_entry h he).2
      exact ih y hy hty.2 (hf.of_reaches (.value .refl)) (hx.inside hy) hv

end Loader

/-- **What was loaded over the schema of a descriptor loads again from its export**, as an equal
    value, under whatever variant.  The numbers of the raw tree are such as JSON has, and no
    single is inside the type. -/
theorem load_toJson_of_build {d : Descriptor} {s : Schema} (hb : d.build = .ok s)
    {v : Option String} {ty : Ty} (hty : s.Has ty) (hf : s.FloatFree ty) {raw : Json}
    (hraw : raw.Fits) {x : Datum} (hx : Loader.load ⟨s, v⟩ ty raw = .ok x) :
    Loader.load ⟨s, v⟩ ty (x.toJson s) = .ok x ∧ x.same x = true := by
  obtain ⟨g, hg, hp⟩ := Descriptor.exists_history_of_build hb
  have hs := Schema.sound_of_build hg
  have hc := Schema.closed_of_build hp.closed hg
  refine ⟨Loader.load_toJson (l := ⟨s, v⟩) hs hc (Schema.named_of_build hp hg) hty hf hraw hx, ?_⟩
  exact Datum.same_refl (Loader.load_conforms (l := ⟨s, v⟩) hs hc hty hx).distinct

/-- Items, among them swords, which hit harder in one variant. -/
def armory : Descriptor where
  enums := [⟨"Color", false, none, [⟨"Red", none, some "red", none⟩]⟩]
  beans := [
    ⟨"Item", none, none, none, [⟨"color", "Color?", some "paint", [], [], none⟩]⟩,
    ⟨"Sword", some "Item", some "blade", none, [⟨"damage", "int", none, ["hard"], [], none⟩]⟩]
  tables := []

def armorySchema : Schema :=
  let color : Field := ⟨"color", some "paint", [], .named ⟨true, []⟩ (.enum 0), [], none⟩
  let damage : Field := ⟨"damage", none, ["hard"], .scalar .plain (.integer .int), [], none⟩
  { beans := [
      ⟨"Item", none, none, [color], none, [color], [1], [0, 1], [1]⟩,
      ⟨"Sword", some "blade", some 0, [damage], none, [color, damage], [], [1], [1]⟩]
    enums := [⟨"Color", [⟨"Red", .int 0, some "red", none⟩], false, none⟩]
    tables := []
    names := [("Color", .enum 0), ("Item", .bean 0), ("Sword", .bean 1)] }

/-- A sword that is called by its alias and has its color under one. -/
def hoard : Json :=
  .object [("first", .object [("__type__", .string "blade"), ("damage", .ofInt 3),
    ("damage@hard", .ofInt 7), ("paint", .string "red")])]

def hoarded : Datum :=
  .map [(.string "first", .bean 1 [some (.enum 0 0), some (.integer .int 7)])]

theorem floatFree_itemsByName : armorySchema.FloatFree itemsByName := by
  have hall : ∀ ty, armorySchema.Reaches itemsByName ty →
      ty ∈ [itemsByName, .scalar .plain .string, .named .plain (.bean 0),
        .named ⟨true, []⟩ (.enum 0), .scalar .plain (.integer .int)] := by
    intro ty h
    induction h with
    | refl => simp
    | elem _ ih => simp [itemsByName] at ih
    | key _ ih =>
      obtain ⟨-, rfl, -⟩ := by simpa [itemsByName] using ih
      simp
    | value _ ih =>
      obtain ⟨-, -, rfl⟩ := by simpa [itemsByName] using ih
      simp
    | @field m id c f _ hc hf ih =>
      obtain ⟨-, rfl⟩ : m = .plain ∧ id = 0 := by simpa [itemsByName] using ih
      obtain rfl : c = 1 := List.mem_singleton.1 hc
      revert f
      decide
  intro m hm
  have hmem := hall _ hm
  revert hmem
  simp [itemsByName]

theorem load_toJson_hoard : armory.build = .ok armorySchema ∧
    Loader.load ⟨armorySchema, some "hard"⟩ itemsByName hoard = .ok hoarded ∧
    Loader.load ⟨armorySchema, some "hard"⟩ itemsByName (hoarded.toJson armorySchema) =
      .ok hoarded := by
  have hbuild : armory.build = .ok armorySchema := by cbv
  have hload : Loader.load ⟨armorySchema, some "hard"⟩ itemsByName hoard = .ok hoarded := rfl
  refine ⟨hbuild, hload, (load_toJson_of_build hbuild ?_ floatFree_itemsByName ?_ hload).1⟩
  · unfold Schema.Has
    decide
  · refine .object (List.forall_mem_singleton.2 (.object ?_))
    simp only [List.forall_mem_cons]
    refine ⟨.string, .number ?_, .number ?_, .string, by simp⟩
    all_goals simp [Json.Number.Fits, Numeral.minInt64, Numeral.maxNat64]

end GameConfig
