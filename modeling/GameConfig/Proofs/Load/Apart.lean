import GameConfig.Proofs.Json.Delimited
import GameConfig.Proofs.Load.RoundTrip
import GameConfig.Proofs.Load.Single
import Mathlib

/-
  Different values are exported differently.

  A loaded value has finite numbers and times that exist (`Datum.Expressible`),
  and such values of one type have the same export only if they are the same:
  the numbers, texts and items are told apart by what is written for them, and
  the concrete beans by their discriminators.

  * `toJson_fits`: their exports hold numbers that JSON has;
  * `toJson_inj`: values of one type with the same export are the same;
  * `keysApart_of_conforms`: so the keys of a map are exported differently;
  * `load_expressible`: what loads can be expressed.
-/

namespace GameConfig

/-- Lists with the same images are the same, if no two of their members have one image. -/
theorem eq_of_map_eq {α β : Type} {f : α → β} {as bs : List α}
    (hf : ∀ a ∈ as, ∀ b ∈ bs, f a = f b → a = b) (h : as.map f = bs.map f) : as = bs := by
  induction as generalizing bs with
  | nil => exact (List.map_eq_nil_iff.1 h.symm).symm
  | cons a as ih =>
    cases bs with
    | nil => cases h
    | cons b bs =>
      obtain ⟨hab, hrest⟩ := List.cons.inj h
      rw [hf a List.mem_cons_self b List.mem_cons_self hab,
        ih (fun a ha b hb => hf a (.tail _ ha) b (.tail _ hb)) hrest]

namespace Datum

/-! ## What can be expressed -/

/-- The value and all values inside it have a property. -/
inductive Throughout (p : Datum → Prop) : Datum → Prop
  | intro {d : Datum} : p d → (∀ q ∈ d.parts, Throughout p q) → Throughout p d

namespace Throughout

variable {p : Datum → Prop}

theorem whole {d : Datum} (h : d.Throughout p) : p d := by
  cases h with
  | intro hd _ => exact hd

theorem part {d q : Datum} (h : d.Throughout p) (hq : q ∈ d.parts) : q.Throughout p := by
  cases h with
  | intro _ hparts => exact hparts q hq

theorem key {es : Entries} (h : (map es).Throughout p) {e : Datum × Datum} (he : e ∈ es) :
    e.1.Throughout p :=
  h.part (List.mem_append_left _ (List.mem_map_of_mem he))

theorem value {es : Entries} (h : (map es).Throughout p) {e : Datum × Datum} (he : e ∈ es) :
    e.2.Throughout p :=
  h.part (List.mem_append_right _ (List.mem_map_of_mem he))

theorem field {id : Nat} {vs : List (Option Datum)} (h : (bean id vs).Throughout p) {x : Datum}
    (hx : some x ∈ vs) : x.Throughout p :=
  h.part (List.mem_filterMap.2 ⟨some x, hx, rfl⟩)

end Throughout

/-- The value itself can be told in JSON: a number is finite, and a time exists. -/
def IsExpressible : Datum → Prop
  | float x => x.isFinite = true
  | double x => x.isFinite = true
  | datetime t => t.isValid = true
  | _ => True

/-- All of the value can be told in JSON. -/
abbrev Expressible (d : Datum) : Prop := d.Throughout IsExpressible

variable {s : Schema}

/-- A bean value is exported as its members, each of them fitting. -/
theorem members_fit {c : Nat} {vs : List (Option Datum)}
    (h : ∀ d, some d ∈ vs → (d.toJson s).Fits) : ∀ m ∈ members s c vs, m.2.Fits := by
  intro m hm
  rcases List.mem_append.1 hm with hm | hm
  · unfold tagMember at hm
    split at hm
    · rw [List.mem_singleton.1 hm]
      exact .string
    · cases hm
  · rw [fieldsJson_eq] at hm
    obtain ⟨⟨f, v⟩, hfv, rfl⟩ := List.mem_map.1 hm
    cases v with
    | none => exact .null
    | some d => exact h d (List.of_mem_zip hfv).2

/-- **The export of a value holds numbers that JSON has.** -/
theorem toJson_fits (hs : s.Sound) (hn : s.Named) {ty : Ty} {d : Datum} (h : Conforms s ty d)
    (hd : d.Expressible) : (d.toJson s).Fits := by
  induction h with
  | bool =>
    rw [toJson]
    exact .bool
  | @integer _ w i hw =>
    rw [toJson]
    refine .number ?_
    simp only [IntWidth.holds, Bool.and_eq_true, decide_eq_true_eq] at hw
    show Numeral.minInt64 ≤ i ∧ i ≤ Numeral.maxNat64
    simp only [Numeral.minInt64, Numeral.maxNat64]
    cases w <;> simp only [IntWidth.least, IntWidth.greatest] at hw <;> omega
  | float =>
    have hfin := Single.isFinite_exported hd.whole
    rw [toJson, Json.ofDouble, if_pos hfin]
    exact .number hfin
  | double =>
    have hfin : Binary.isFinite _ = true := hd.whole
    rw [toJson, Json.ofDouble, if_pos hfin]
    exact .number hfin
  | string | datetime | enum =>
    rw [toJson]
    exact .string
  | @bean m id c vs _ _ _ hlen _ _ ih =>
    rw [toJson_bean hs hn]
    refine .object (members_fit fun d hin => ?_)
    obtain ⟨f, hf⟩ := exists_mem_zip_right hlen hin
    exact ih f d hf (hd.field hin)
  | seq _ ih =>
    rw [toJson, itemsJson_eq]
    refine .array (List.forall_mem_map.2 fun x hx => ih x hx (hd.part hx))
  | map _ _ _ ihk ihv =>
    rw [toJson, entriesJson_eq]
    refine .array (List.forall_mem_map.2 fun e he => .array ?_)
    rw [List.forall_mem_cons, List.forall_mem_singleton]
    exact ⟨ihk e he (hd.key he), ihv e he (hd.value he)⟩

/-! ## Exports of values of one type -/

/-- Items are told apart by their names. -/
theorem itemName_inj {e : EnumDef} (he : (e.items.map EnumItem.name).Nodup) {i j : Nat}
    (hi : i < e.items.length) (hj : j < e.items.length) (h : e.itemName i = e.itemName j) :
    i = j := by
  have hfound := Loader.findItem?_itemName he hi
  rw [h, Loader.findItem?_itemName he hj] at hfound
  exact (Option.some.inj hfound).symm

/-- Times are told apart by how they are written. -/
theorem toText_inj {t u : DateTime} (ht : t.isValid = true)
    (hu : u.isValid = true) (h : t.toText = u.toText) : t = u := by
  have hread := DateTime.read?_toText ht
  rw [h, DateTime.read?_toText hu] at hread
  exact (Option.some.inj hread).symm

/-- What can be told is not told as null. -/
theorem toJson_ne_null {d : Datum} (h : d.IsExpressible) : d.toJson s ≠ .null := by
  cases d with
  | float x =>
    have hfin := Single.isFinite_exported (x := x) h
    simp [toJson, Json.ofDouble, hfin]
  | double x =>
    have hfin : x.isFinite = true := h
    simp [toJson, Json.ofDouble, hfin]
  | _ => simp [toJson, Json.ofInt]

/-- The concrete beans of a family are told apart by their discriminators. -/
theorem eq_of_members (hs : s.Sound) {id c c' : Nat} (hid : id < s.beans.length)
    (hc : c ∈ (s.bean id).concrete) (hc' : c' ∈ (s.bean id).concrete) {vs vs' : List (Option Datum)}
    (h : members s c vs = members s c' vs') : c = c' := by
  by_cases hleaf : (s.bean id).children = []
  · rw [hs.eq_of_mem_concrete hid hleaf hc, hs.eq_of_mem_concrete hid hleaf hc']
  · have hp := hs.parent_isSome hid hleaf hc
    have hp' := hs.parent_isSome hid hleaf hc'
    simp only [members, tagMember, hp, hp', if_true, List.singleton_append, List.cons.injEq,
      Prod.mk.injEq, Json.string.injEq, true_and] at h
    exact hs.discriminator_inj hid hc hc' h.1

/-- The fields of a bean have the same values if they are written as the same members. -/
theorem fields_eq_of_members {c : Nat} {vs vs' : List (Option Datum)}
    (hlen : vs.length = (s.bean c).allFields.length)
    (hlen' : vs'.length = (s.bean c).allFields.length) (h : members s c vs = members s c vs')
    (hinj : ∀ f d e, (f, some d) ∈ (s.bean c).allFields.zip vs →
      (f, some e) ∈ (s.bean c).allFields.zip vs' → d.toJson s = e.toJson s → d = e)
    (hnull : ∀ d, some d ∈ vs ∨ some d ∈ vs' → d.toJson s ≠ .null) : vs = vs' := by
  have hfields := List.append_cancel_left h
  rw [fieldsJson_eq, fieldsJson_eq] at hfields
  refine List.ext_getElem (hlen.trans hlen'.symm) fun i hi hi' => ?_
  have hif : i < (s.bean c).allFields.length := hlen ▸ hi
  have hjson : fieldJson s vs[i] = fieldJson s vs'[i] := by
    have hpair := congrArg (fun ms => (ms[i]?).map Prod.snd) hfields
    simpa [List.getElem?_eq_getElem, hi, hi', hif] using hpair
  have hmem : ((s.bean c).allFields[i], vs[i]) ∈ (s.bean c).allFields.zip vs :=
    List.mem_iff_getElem.2 ⟨i, by simp [hif, hi], by simp⟩
  have hmem' : ((s.bean c).allFields[i], vs'[i]) ∈ (s.bean c).allFields.zip vs' :=
    List.mem_iff_getElem.2 ⟨i, by simp [hif, hi'], by simp⟩
  have hin := List.getElem_mem hi
  have hin' := List.getElem_mem hi'
  generalize vs[i] = v at hjson hmem hin ⊢
  generalize vs'[i] = v' at hjson hmem' hin' ⊢
  cases v with
  | none =>
    cases v' with
    | none => rfl
    | some e => exact absurd hjson.symm (hnull e (.inr hin'))
  | some d =>
    cases v' with
    | none => exact absurd hjson (hnull d (.inl hin))
    | some e => rw [hinj _ d e hmem hmem' hjson]

/-- **Values of one type with the same export are the same.** -/
theorem toJson_inj (hs : s.Sound) (hn : s.Named) {ty : Ty} {d e : Datum} (h : Conforms s ty d)
    (he : Conforms s ty e) (hd : d.Expressible) (hed : e.Expressible)
    (hjson : d.toJson s = e.toJson s) : d = e := by
  induction h generalizing e with
  | bool =>
    cases he
    simpa [toJson] using hjson
  | integer =>
    cases he
    simpa [toJson, Json.ofInt] using hjson
  | @float _ x =>
    cases he with
    | @float _ y =>
      have hx := Single.isFinite_exported hd.whole
      have hy := Single.isFinite_exported hed.whole
      simp only [toJson, Json.ofDouble, hx, hy, if_true, Json.number.injEq,
        Json.Number.double.injEq] at hjson
      rw [Single.exported_inj hd.whole hed.whole hjson]
  | @double _ x =>
    cases he with
    | @double _ y =>
      have hx : x.isFinite = true := hd.whole
      have hy : y.isFinite = true := hed.whole
      simpa [toJson, Json.ofDouble, hx, hy] using hjson
  | string =>
    cases he
    simpa [toJson] using hjson
  | @datetime _ t =>
    cases he with
    | @datetime _ u =>
      simp only [toJson, Json.string.injEq] at hjson
      rw [toText_inj hd.whole hed.whole hjson]
  | @enum _ id i hid hi =>
    cases he with
    | @enum _ _ j _ hj =>
      simp only [toJson, Json.string.injEq] at hjson
      rw [itemName_inj (hs.items id) hi hj hjson]
  | @bean m id c vs hc hleaf hbase hlen _ _ ih =>
    cases he with
    | @bean _ _ c' vs' hc' hleaf' hbase' hlen' _ hfields' =>
      rw [toJson_bean hs hn, toJson_bean hs hn, Json.object.injEq] at hjson
      have habove := hs.isAssignable_iff.1 hbase
      have hid := hs.lt_of_above hc habove
      obtain rfl := eq_of_members hs hid ((hs.mem_concrete hid).2 ⟨habove, hleaf⟩)
        ((hs.mem_concrete hid).2 ⟨hs.isAssignable_iff.1 hbase', hleaf'⟩) hjson
      refine congrArg (Datum.bean c) (fields_eq_of_members hlen hlen' hjson ?_ ?_)
      · intro f x y hx hy
        exact ih f x hx (hfields' f y hy) (hd.field (List.of_mem_zip hx).2)
          (hed.field (List.of_mem_zip hy).2)
      · rintro x (hx | hx)
        · exact toJson_ne_null (hd.field hx).whole
        · exact toJson_ne_null (hed.field hx).whole
  | @seq m k elem xs _ ih =>
    cases he with
    | @seq _ _ _ ys hys =>
      rw [toJson, toJson, itemsJson_eq, itemsJson_eq, Json.array.injEq] at hjson
      rw [eq_of_map_eq (fun x hx y hy => ih x hx (hys y hy) (hd.part hx) (hed.part hy)) hjson]
  | @map m k v es _ _ _ ihk ihv =>
    cases he with
    | @map _ _ _ fs _ hks hvs =>
      rw [toJson, toJson, entriesJson_eq, entriesJson_eq, Json.array.injEq] at hjson
      refine congrArg Datum.map (eq_of_map_eq (fun e he f hf hef => ?_) hjson)
      simp only [Json.array.injEq, List.cons.injEq, and_true] at hef
      exact Prod.ext (ihk e he (hks f hf) (hd.key he) (hed.key hf) hef.1)
        (ihv e he (hvs f hf) (hd.value he) (hed.value hf) hef.2)

/-! ## Keys -/

/-- The keys of a map are exported differently, and hold numbers that JSON has. -/
def KeysApart (s : Schema) : Datum → Prop
  | map es => (∀ e ∈ es, (e.1.toJson s).Fits) ∧ es.Pairwise fun e f => e.1.toJson s ≠ f.1.toJson s
  | _ => True

/-- **The keys of every map inside a value are exported differently.** -/
theorem keysApart_of_conforms (hs : s.Sound) (hn : s.Named) {ty : Ty} {d : Datum}
    (h : Conforms s ty d) (hd : d.Expressible) : d.Throughout (KeysApart s) := by
  induction h with
  | bean _ _ _ hlen _ _ ih =>
    refine .intro trivial fun p hp => ?_
    obtain ⟨v, hv, hpv⟩ := List.mem_filterMap.1 hp
    obtain rfl : v = some p := hpv
    obtain ⟨f, hf⟩ := exists_mem_zip_right hlen hv
    exact ih f p hf (hd.field hv)
  | seq _ ih => exact .intro trivial fun x hx => ih x hx (hd.part hx)
  | @map m k v es hdiffer hks hvs ihk ihv =>
    refine .intro ⟨fun e he => toJson_fits hs hn (hks e he) (hd.key he), ?_⟩ fun p hp => ?_
    · refine hdiffer.imp_of_mem fun {e f} he hf hef hjson => ?_
      have hsame := toJson_inj hs hn (hks e he) (hks f hf) (hd.key he) (hd.key hf) hjson
      rw [hsame, same_refl (hks f hf).distinct] at hef
      cases hef.1
    · rcases List.mem_append.1 hp with hp | hp
      · obtain ⟨e, he, rfl⟩ := List.mem_map.1 hp
        exact ihk e he (hd.key he)
      · obtain ⟨e, he, rfl⟩ := List.mem_map.1 hp
        exact ihv e he (hd.value he)
  | _ => exact .intro trivial (List.forall_mem_nil _)

end Datum

/-! ## Loaded values -/

namespace Loader

variable {l : Loader}

theorem scalar_expressible {k : Scalar} {x : Json} (hx : x.Fits) {d : Datum}
    (h : scalar k x = .ok d) : d.Expressible := by
  cases k with
  | bool =>
    obtain ⟨b, -, rfl⟩ := bool_eq_ok.1 h
    exact .intro trivial (List.forall_mem_nil _)
  | integer w =>
    obtain ⟨i, -, -, rfl⟩ := integer_eq_ok.1 h
    exact .intro trivial (List.forall_mem_nil _)
  | float =>
    obtain ⟨y, -, ⟨hfin, hle⟩, rfl⟩ := single_eq_ok.1 h
    exact .intro (Binary.isFinite_narrow hfin hle) (List.forall_mem_nil _)
  | double =>
    obtain ⟨n, rfl, rfl⟩ := double_eq_ok.1 h
    cases hx with
    | number hn => exact .intro hn.toDouble (List.forall_mem_nil _)
  | string =>
    obtain ⟨text, -, rfl⟩ := string_eq_ok.1 h
    exact .intro trivial (List.forall_mem_nil _)
  | datetime =>
    obtain ⟨text, t, -, ht, rfl⟩ := datetime_eq_ok.1 h
    exact .intro (DateTime.isValid_of_read? ht) (List.forall_mem_nil _)

theorem item_expressible {id : Nat} {x : Json} {d : Datum} (h : item id (l.schema.enum id) x = .ok d) :
    d.Expressible := by
  obtain ⟨word, i, -, -, rfl⟩ := item_eq_ok.1 h
  exact .intro trivial (List.forall_mem_nil _)

theorem loadKey_expressible {key : Ty} {n : String} {d : Datum} (h : l.loadKey key n = .ok d) :
    d.Expressible := by
  obtain ⟨htext, k, hnode, hload⟩ := loadKey_eq_ok.1 h
  rcases eq_of_isTextKey htext with ⟨m, kind, rfl⟩ | ⟨m, id, rfl⟩
  · rw [load_scalar] at hload
    exact scalar_expressible (keyNode?_fits hnode) hload
  · rw [load_enum] at hload
    exact item_expressible hload

/-- **What loads can be told in JSON.** -/
theorem load_expressible {ty : Ty} {x : Json} {d : Datum} (hx : x.Fits) (h : l.load ty x = .ok d) :
    d.Expressible := by
  induction x using Json.induction generalizing ty d with
  | step x ih =>
  match ty with
  | .scalar m k =>
    rw [load_scalar] at h
    exact scalar_expressible hx h
  | .named m (.enum id) =>
    rw [load_enum] at h
    exact item_expressible h
  | .named m (.bean id) =>
    obtain ⟨ms, c, vs, rfl, -, hvs, rfl⟩ := load_bean_eq_ok.1 h
    refine .intro trivial fun p hp => ?_
    obtain ⟨v, hv, hpv⟩ := List.mem_filterMap.1 hp
    obtain rfl : v = some p := hpv
    obtain ⟨f, -, y, hy, hload⟩ := exists_of_mem_right hvs hv
    obtain ⟨k, hk⟩ := value?_mem hy
    exact ih y (.member hk) (hx.inside (.member hk)) hload
  | .seq m k e =>
    obtain ⟨xs, ds, rfl, hds, rfl⟩ := load_seq_eq_ok.1 h
    refine .intro trivial fun p hp => ?_
    obtain ⟨y, hy, hload⟩ := exists_of_mem_right hds hp
    exact ih y (.item hy) (hx.inside (.item hy)) hload
  | .map m k v =>
    obtain ⟨es, -, rfl, -⟩ := load_map_eq_ok.1 h
    refine .intro trivial fun p hp => ?_
    rcases List.mem_append.1 hp with hp | hp
    · obtain ⟨e, he, rfl⟩ := List.mem_map.1 hp
      rcases (load_map_entry h he).1 with ⟨y, hy, hk⟩ | ⟨n, hk⟩
      · exact ih y hy (hx.inside hy) hk
      · exact loadKey_expressible hk
    · obtain ⟨e, he, rfl⟩ := List.mem_map.1 hp
      obtain ⟨y, hy, hv⟩ := (load_map_entry h he).2
      exact ih y hy (hx.inside hy) hv

end Loader

end GameConfig
