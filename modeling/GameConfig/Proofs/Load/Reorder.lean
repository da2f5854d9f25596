import GameConfig.Descriptor.Lower
import GameConfig.Proofs.Load.Typing
import Mathlib

/-
  Loading reordered data.

  The members of an object may stand in any order, and so may the entries of a
  map in pair notation.  Whether an array is such a map is not for the array to
  say but for what reads it, and one node may be read more than once: the alias
  of a field may be the name of another.  So a raw tree is reordered along with
  all `Reading`s of each of its nodes.

  * `Reordered`: the left tree is the right one in another order;
  * `load_distinct`: in a loaded value the keys of every map differ;
  * `Reordered.follows`: whatever the left tree loads as, the right one loads as
    something equal, by induction on how it was reordered;
  * `load_reordered`: so both load or neither, with equal values, as long as an
    array is reordered only if every reading of it is as a map;
  * `not_load_reordered_replay`: where one of them is not, the values may differ.
-/

namespace GameConfig

/-- What a raw node is read as: a value of a type, or an entry of a map in pair notation. -/
inductive Reading where
  | value (ty : Ty)
  | entry (key value : Ty)

/-- A reading as a map; an array is then a map in pair notation. -/
def Reading.isMap : Reading → Bool
  | value (.map _ _ _) => true
  | _ => false

namespace Loader

/-! ## Readings of parts -/

/-- The keys that the node of a field is looked for under, in order. -/
def fieldKeys (l : Loader) (f : Field) : List String :=
  (l.variant.bind f.variantKey?).toList ++ f.name :: f.altName.toList

/-- The key that it is found under. -/
def fieldKey? {α : Type} (l : Loader) (ms : List (String × α)) (f : Field) : Option String :=
  (l.fieldKeys f).find? fun k => Assoc.has k ms

/-- How the items of an array are read, by their position, when the array is read in some way. -/
inductive ReadsItem : Reading → Nat → Reading → Prop
  | elem {m k e i} : ReadsItem (.value (.seq m k e)) i (.value e)
  | entry {m k v i} : ReadsItem (.value (.map m k v)) i (.entry k v)
  | key {k v} : ReadsItem (.entry k v) 0 (.value k)
  | value {k v} : ReadsItem (.entry k v) 1 (.value v)

/-- How the members of an object are read, by their key, when the object is read in some way. -/
inductive ReadsMember (l : Loader) (ms : List (String × Json)) : Reading → String → Reading → Prop
  | value {m k v name} : k.isTextKey = true →
      ReadsMember l ms (.value (.map m k v)) name (.value v)
  | field {m id c f name} : l.resolve id (word? ms) = .ok c → f ∈ (l.schema.bean c).allFields →
      l.fieldKey? ms f = some name →
      ReadsMember l ms (.value (.named m (.bean id))) name (.value f.ty)

/-- All readings of an item, from those of the array. -/
def itemReadings (rs : Set Reading) (i : Nat) : Set Reading := {q | ∃ r ∈ rs, ReadsItem r i q}

/-- All readings of a member, from those of the object. -/
def memberReadings (l : Loader) (ms : List (String × Json)) (rs : Set Reading) (name : String) :
    Set Reading :=
  {q | ∃ r ∈ rs, ReadsMember l ms r name q}

/-- The right tree is the left one with its parts in another order, where `rs` are the readings of
    the root and `may` tells of which readings arrays may be reordered. -/
inductive Reordered (l : Loader) (may : Set Reading → Prop) :
    Set Reading → Json → Json → Prop
  | refl {rs x} : Reordered l may rs x x
  | trans {rs x y z} : Reordered l may rs x y → Reordered l may rs y z → Reordered l may rs x z
  | items {rs} {xs ys : List Json} (length : xs.length = ys.length)
      (each : ∀ i (hx : i < xs.length) (hy : i < ys.length),
        Reordered l may (itemReadings rs i) xs[i] ys[i]) :
      Reordered l may rs (.array xs) (.array ys)
  | members {rs} {ms ns : List (String × Json)} (keys : Assoc.keys ms = Assoc.keys ns)
      (each : ∀ i (hx : i < ms.length) (hy : i < ns.length),
        Reordered l may (l.memberReadings ms rs ms[i].1) ms[i].2 ns[i].2) :
      Reordered l may rs (.object ms) (.object ns)
  | pairs {rs xs ys} (allowed : may rs) (perm : xs.Perm ys) :
      Reordered l may rs (.array xs) (.array ys)
  | object {rs ms ns} (nodup : (Assoc.keys ms).Nodup) (perm : ms.Perm ns) :
      Reordered l may rs (.object ms) (.object ns)

variable {l : Loader} {may : Set Reading → Prop} {rs : Set Reading} {x y : Json}

theorem fieldNode?_eq {α : Type} (ms : List (String × α)) (f : Field) :
    l.fieldNode? ms f = (l.fieldKey? ms f).bind fun k => Assoc.find? k ms := by
  have hfind : ∀ keys : List String, (keys.find? fun k => Assoc.has k ms).bind
      (fun k => Assoc.find? k ms) = keys.findSome? fun k => Assoc.find? k ms := by
    intro keys
    induction keys with
    | nil => rfl
    | cons k keys ih =>
      rw [List.find?_cons, List.findSome?_cons]
      unfold Assoc.has
      cases hk : Assoc.find? k ms with
      | none => exact ih
      | some x => exact hk
  rw [fieldKey?, hfind, fieldKeys, fieldNode?, List.findSome?_append, List.findSome?_cons]
  have hone : ∀ key : Option String, key.toList.findSome? (fun k => Assoc.find? k ms) =
      key.bind fun k => Assoc.find? k ms := by
    intro key
    cases key with
    | none => rfl
    | some k => cases h : Assoc.find? k ms <;> simp [h]
  rw [hone, hone]
  cases (l.variant.bind f.variantKey?).bind fun k => Assoc.find? k ms with
  | some n => rfl
  | none => cases Assoc.find? f.name ms <;> rfl

/-! ## Distinct keys -/

theorem item_distinct {id : Nat} {e : EnumDef} {d : Datum} (h : item id e x = .ok d) :
    d.Distinct := by
  obtain ⟨word, i, -, -, rfl⟩ := item_eq_ok.1 h
  exact .intro trivial (by simp [Datum.parts])

theorem loadKey_distinct {key : Ty} {n : String} {d : Datum} (h : l.loadKey key n = .ok d) :
    d.Distinct := by
  obtain ⟨htext, k, -, hload⟩ := loadKey_eq_ok.1 h
  rcases eq_of_isTextKey htext with ⟨m, kind, rfl⟩ | ⟨m, id, rfl⟩
  · rw [load_scalar] at hload
    exact (scalar_conforms (l := l) (m := m) hload).distinct
  · rw [load_enum] at hload
    exact item_distinct hload

/-- In whatever loads, over any schema, the keys of every map differ. -/
theorem load_distinct {ty : Ty} {d : Datum} (h : l.load ty x = .ok d) : d.Distinct := by
  induction x using Json.induction generalizing ty d with
  | step x ih =>
  match ty with
  | .scalar m k =>
    rw [load_scalar] at h
    exact (scalar_conforms (l := l) (m := m) h).distinct
  | .named m (.enum id) =>
    rw [load_enum] at h
    exact item_distinct h
  | .named m (.bean id) =>
    obtain ⟨ms, c, vs, rfl, -, hvs, rfl⟩ := load_bean_eq_ok.1 h
    refine .intro trivial fun p hp => ?_
    obtain ⟨v, hv, hpv⟩ := List.mem_filterMap.1 hp
    obtain rfl : v = some p := hpv
    obtain ⟨f, -, y, hy, hload⟩ := exists_of_mem_right hvs hv
    obtain ⟨k, hk⟩ := value?_mem hy
    exact ih y (.member hk) hload
  | .seq m k e =>
    obtain ⟨xs, ds, rfl, hds, rfl⟩ := load_seq_eq_ok.1 h
    refine .intro trivial fun p hp => ?_
    obtain ⟨y, hy, hload⟩ := exists_of_mem_right hds hp
    exact ih y (.item hy) hload
  | .map m k v =>
    obtain ⟨es, hfresh, rfl, -⟩ := load_map_eq_ok.1 h
    have hkeys : ∀ e ∈ es, e.1.Distinct := by
      intro e he
      rcases (load_map_entry h he).1 with ⟨y, hy, hk⟩ | ⟨n, hk⟩
      · exact ih y hy hk
      · exact loadKey_distinct hk
    refine .intro (hfresh.keysDiffer hkeys) fun p hp => ?_
    rcases List.mem_append.1 hp with hp | hp
    · obtain ⟨e, he, rfl⟩ := List.mem_map.1 hp
      exact hkeys e he
    · obtain ⟨e, he, rfl⟩ := List.mem_map.1 hp
      obtain ⟨y, hy, hv⟩ := (load_map_entry h he).2
      exact ih y hy hv

/-! ## What stays -/

/-- Texts stay as they are, and so does null. -/
theorem Reordered.string?_eq (h : Reordered l may rs x y) : x.string? = y.string? := by
  induction h with
  | trans _ _ ihx ihy => exact ihx.trans ihy
  | _ => rfl

theorem Reordered.eq_null_iff (h : Reordered l may rs x y) : x = .null ↔ y = .null := by
  induction h with
  | refl => rfl
  | trans _ _ ihx ihy => exact ihx.trans ihy
  | _ => simp

theorem key_of_keys {α : Type} {ms ns : List (String × α)} (hkeys : Assoc.keys ms = Assoc.keys ns)
    (i : Nat) (hx : i < ms.length) (hy : i < ns.length) : ms[i].1 = ns[i].1 := by
  have h := congrArg (fun ks => ks[i]?) hkeys
  simpa [Assoc.keys, hx, hy] using h

/-- Under each key there are members that correspond, if there is any. -/
theorem find?_of_keys {α : Type} {P : String → α → α → Prop} {ms ns : List (String × α)}
    (hkeys : Assoc.keys ms = Assoc.keys ns)
    (hP : ∀ i (hx : i < ms.length) (hy : i < ns.length), P ms[i].1 ms[i].2 ns[i].2)
    (key : String) :
    (Assoc.find? key ms = none ∧ Assoc.find? key ns = none) ∨
      ∃ x y, Assoc.find? key ms = some x ∧ Assoc.find? key ns = some y ∧ P key x y := by
  induction ms generalizing ns with
  | nil =>
    cases ns with
    | nil => exact .inl ⟨rfl, rfl⟩
    | cons n ns => cases hkeys
  | cons m ms ih =>
    cases ns with
    | nil => cases hkeys
    | cons n ns =>
      rw [Assoc.keys, Assoc.keys, List.map_cons, List.map_cons, List.cons.injEq] at hkeys
      by_cases hm : m.1 = key
      · subst hm
        refine .inr ⟨m.2, n.2, if_pos rfl, if_pos hkeys.1.symm, ?_⟩
        exact hP 0 (Nat.zero_lt_succ _) (Nat.zero_lt_succ _)
      · have hrest := ih hkeys.2 fun i hx hy =>
          hP (i + 1) (Nat.succ_lt_succ hx) (Nat.succ_lt_succ hy)
        have hn : n.1 ≠ key := fun hn => hm (hkeys.1.trans hn)
        simpa [Assoc.find?, hm, hn] using hrest

/-- The members name the same type. -/
theorem word?_of_keys {ms ns : List (String × Json)} (hkeys : Assoc.keys ms = Assoc.keys ns)
    (hstring : ∀ i (hx : i < ms.length) (hy : i < ns.length),
      ms[i].2.string? = ns[i].2.string?) : word? ms = word? ns := by
  have hfind := find?_of_keys (P := fun _ x y => x.string? = y.string?) hkeys hstring
  unfold word? tagNode?
  rcases hfind typeKey with ⟨hx, hy⟩ | ⟨x, y, hx, hy, hxy⟩
  · rw [hx, hy]
    rcases hfind fallbackTypeKey with ⟨hx, hy⟩ | ⟨x, y, hx, hy, hxy⟩
    · rw [hx, hy]
    · rw [hx, hy]
      exact hxy
  · rw [hx, hy]
    exact hxy

theorem fieldKey?_of_keys {α : Type} {ms ns : List (String × α)}
    (hkeys : Assoc.keys ms = Assoc.keys ns) (f : Field) : l.fieldKey? ms f = l.fieldKey? ns f := by
  have hhas : ∀ k, Assoc.has k ms = Assoc.has k ns := by
    intro k
    rw [Bool.eq_iff_iff, Assoc.has, Assoc.has, Assoc.find?_isSome, Assoc.find?_isSome, hkeys]
  simp only [fieldKey?, hhas]

/-- What members correspond are read alike. -/
theorem memberReadings_of_keys {ms ns : List (String × Json)}
    (hkeys : Assoc.keys ms = Assoc.keys ns) (hword : word? ms = word? ns) (name : String) :
    l.memberReadings ms rs name = l.memberReadings ns rs name := by
  have hreads : ∀ {ms ns : List (String × Json)}, Assoc.keys ms = Assoc.keys ns →
      word? ms = word? ns → ∀ {r q}, ReadsMember l ms r name q → ReadsMember l ns r name q := by
    intro ms ns hkeys hword r q h
    cases h with
    | value hk => exact .value hk
    | field hc hf hname =>
      rw [hword] at hc
      rw [fieldKey?_of_keys hkeys] at hname
      exact .field hc hf hname
  ext q
  constructor
  · rintro ⟨r, hr, h⟩
    exact ⟨r, hr, hreads hkeys hword h⟩
  · rintro ⟨r, hr, h⟩
    exact ⟨r, hr, hreads hkeys.symm hword.symm h⟩

theorem Reordered.symm (h : Reordered l may rs x y) : Reordered l may rs y x := by
  induction h with
  | refl => exact .refl
  | trans _ _ ihx ihy => exact .trans ihy ihx
  | items hlen _ ih => exact .items hlen.symm fun i hx hy => ih i hy hx
  | @members rs ms ns hkeys each ih =>
    have hword := word?_of_keys hkeys fun i hx hy => (each i hx hy).string?_eq
    refine .members hkeys.symm fun i hx hy => ?_
    have hname := key_of_keys hkeys i hy hx
    rw [← memberReadings_of_keys hkeys hword, ← hname]
    exact ih i hy hx
  | pairs hmay hp => exact .pairs hmay hp.symm
  | object hn hp => exact .object ((hp.map _).nodup_iff.1 hn) hp.symm

/-! ## Following -/

open Datum (SameEntry)

/-- Whatever the left tree gives, read so, the right one gives something equal. -/
def Follows (l : Loader) (x y : Json) : Reading → Prop
  | .value ty => ∀ d, l.load ty x = .ok d → ∃ e, l.load ty y = .ok e ∧ d.same e = true
  | .entry key value => ∀ d, l.PairLoads key value x d →
      ∃ e, l.PairLoads key value y e ∧ SameEntry d e

/-- Equal fields, null to null. -/
def SameField : Option Datum → Option Datum → Prop
  | none, none => True
  | some d, some e => d.same e = true
  | _, _ => False

theorem sameItems_of_forall₂ {ds es : List Datum}
    (h : List.Forall₂ (fun d e => d.same e = true) ds es) : Datum.sameItems ds es = true := by
  induction h with
  | nil => simp [Datum.sameItems]
  | cons hde _ ih => simp [Datum.sameItems, hde, ih]

theorem sameFields_of_forall₂ {vs ws : List (Option Datum)} (h : List.Forall₂ SameField vs ws) :
    Datum.sameFields vs ws = true := by
  induction h with
  | nil => simp [Datum.sameFields]
  | @cons v w vs ws hvw _ ih =>
    cases v with
    | none =>
      cases w with
      | none => simpa [Datum.sameFields] using ih
      | some w => cases hvw
    | some v =>
      cases w with
      | none => cases hvw
      | some w =>
        simp only [Datum.sameFields, Bool.and_eq_true]
        exact ⟨hvw, ih⟩

/-- What stands across from the left list carries over to the right one. -/
theorem exists_forall₂ {α β γ : Type} {r : α → γ → Prop} {q : β → γ → Prop} {p : γ → γ → Prop}
    {xs : List α} {ys : List β} {ds : List γ} (hlen : xs.length = ys.length)
    (h : ∀ i (hx : i < xs.length) (hy : i < ys.length) d, r xs[i] d → ∃ e, q ys[i] e ∧ p d e)
    (hds : List.Forall₂ r xs ds) : ∃ es, List.Forall₂ q ys es ∧ List.Forall₂ p ds es := by
  induction hds generalizing ys with
  | nil =>
    cases ys with
    | nil => exact ⟨[], .nil, .nil⟩
    | cons y ys => cases hlen
  | @cons x d xs ds hxd _ ih =>
    cases ys with
    | nil => cases hlen
    | cons y ys =>
      obtain ⟨e, hye, hde⟩ := h 0 (Nat.zero_lt_succ _) (Nat.zero_lt_succ _) d hxd
      obtain ⟨es, hes, hsame⟩ := ih (Nat.succ.inj hlen) fun i hx hy =>
        h (i + 1) (Nat.succ_lt_succ hx) (Nat.succ_lt_succ hy)
      exact ⟨e :: es, .cons hye hes, .cons hde hsame⟩

/-- A map follows another if its entries are like those of the other. -/
theorem exists_map_of_sameEntries {m : Mark} {key value : Ty} {es fs : Entries}
    (hx : l.load (.map m key value) x = .ok (.map es))
    (hy : fs.Fresh → l.load (.map m key value) y = .ok (.map fs))
    (hkeys : ∀ f ∈ fs, f.1.Distinct) (h : List.Forall₂ SameEntry es fs) :
    ∃ e, l.load (.map m key value) y = .ok e ∧ (Datum.map es).same e = true := by
  have hd := load_distinct hx
  have hload := hy (Datum.fresh_of_sameEntries h (fun e he => hd.key he) hkeys
    (hd.keys.imp And.right))
  refine ⟨_, hload, Datum.same_map hd (load_distinct hload) h.length_eq fun e he => ?_⟩
  obtain ⟨f, hf, hsame⟩ := exists_of_mem_right h.flip he
  exact ⟨f, hf, hsame⟩

/-- A map follows another if it has the same entries in another order. -/
theorem exists_map_of_perm {m : Mark} {key value : Ty} {es fs : Entries}
    (hx : l.load (.map m key value) x = .ok (.map es))
    (hy : fs.Fresh → l.load (.map m key value) y = .ok (.map fs)) (hp : es.Perm fs) :
    ∃ e, l.load (.map m key value) y = .ok e ∧ (Datum.map es).same e = true := by
  have hd := load_distinct hx
  have hfresh : es.Fresh := hd.keys.imp And.right
  have hload := hy (hfresh.perm (fun e he => hd.key he) hp)
  refine ⟨_, hload, Datum.same_map hd (load_distinct hload) hp.length_eq fun e he => ?_⟩
  exact ⟨e, hp.subset he, Datum.same_refl (hd.key he), Datum.same_refl (hd.value he)⟩

theorem PairLoads.key_distinct {key value : Ty} {e : Datum × Datum}
    (h : l.PairLoads key value x e) : e.1.Distinct := by
  obtain ⟨a, b, -, ha, -⟩ := h
  exact load_distinct ha

/-! ### Each way of reordering -/

theorem follows_refl (r : Reading) : l.Follows x x r := by
  cases r with
  | value ty => exact fun d hd => ⟨d, hd, Datum.same_refl (load_distinct hd)⟩
  | entry key value =>
    rintro e ⟨a, b, hx, ha, hb⟩
    exact ⟨e, ⟨a, b, hx, ha, hb⟩, Datum.same_refl (load_distinct ha),
      Datum.same_refl (load_distinct hb)⟩

theorem Follows.trans {z : Json} {r : Reading} (hxy : l.Follows x y r) (hyz : l.Follows y z r) :
    l.Follows x z r := by
  cases r with
  | value ty =>
    intro d hd
    obtain ⟨e, he, hde⟩ := hxy d hd
    obtain ⟨f, hf, hef⟩ := hyz e he
    exact ⟨f, hf, Datum.same_trans (load_distinct hd) (load_distinct he) (load_distinct hf) hde hef⟩
  | entry key value =>
    intro d hd
    obtain ⟨e, he, hde⟩ := hxy d hd
    obtain ⟨f, hf, hef⟩ := hyz e he
    refine ⟨f, hf, ?_⟩
    obtain ⟨a, b, -, ha, hb⟩ := hd
    obtain ⟨a', b', -, ha', hb'⟩ := he
    obtain ⟨a'', b'', -, ha'', hb''⟩ := hf
    exact ⟨Datum.same_trans (load_distinct ha) (load_distinct ha') (load_distinct ha'') hde.1 hef.1,
      Datum.same_trans (load_distinct hb) (load_distinct hb') (load_distinct hb'') hde.2 hef.2⟩

/-- An array follows if its items do. -/
theorem follows_items {xs ys : List Json} (hlen : xs.length = ys.length) {r : Reading}
    (h : ∀ i (hx : i < xs.length) (hy : i < ys.length) q, ReadsItem r i q →
      l.Follows xs[i] ys[i] q) : l.Follows (.array xs) (.array ys) r := by
  cases r with
  | value ty =>
    intro d hd
    rcases of_load_array hd with ⟨m, k, elem, rfl⟩ | ⟨m, key, value, rfl⟩
    · obtain ⟨_, ds, hxs, hds, rfl⟩ := load_seq_eq_ok.1 hd
      cases hxs
      have helem : ∀ i (hx : i < xs.length) (hy : i < ys.length) d, l.load elem xs[i] = .ok d →
          ∃ e, l.load elem ys[i] = .ok e ∧ d.same e = true := fun i hx hy => h i hx hy _ .elem
      obtain ⟨es, hes, hsame⟩ := exists_forall₂ (r := fun x d => l.load elem x = .ok d)
        (q := fun y d => l.load elem y = .ok d) hlen helem hds
      refine ⟨.seq k es, load_seq_eq_ok.2 ⟨ys, es, rfl, hes, rfl⟩, ?_⟩
      simp [Datum.same, sameItems_of_forall₂ hsame]
    · obtain ⟨es, -, rfl, hes⟩ := load_pairs_eq_ok.1 hd
      have hentry : ∀ i (hx : i < xs.length) (hy : i < ys.length) d,
          l.PairLoads key value xs[i] d → ∃ e, l.PairLoads key value ys[i] e ∧ SameEntry d e :=
        fun i hx hy => h i hx hy _ .entry
      obtain ⟨fs, hfs, hsame⟩ := exists_forall₂ hlen hentry hes
      refine exists_map_of_sameEntries hd (fun hfresh => ?_) (fun f hf => ?_) hsame
      · exact load_pairs_eq_ok.2 ⟨fs, hfresh, rfl, hfs⟩
      · obtain ⟨z, -, hz⟩ := exists_of_mem_right hfs hf
        exact hz.key_distinct
  | entry key value =>
    rintro e ⟨a, b, hxs, ha, hb⟩
    cases hxs
    obtain ⟨a', b', rfl⟩ := List.length_eq_two.1 hlen.symm
    obtain ⟨d, hd, hda⟩ := h 0 (by simp) (by simp) _ .key e.1 ha
    obtain ⟨d', hd', hdb⟩ := h 1 (by simp) (by simp) _ .value e.2 hb
    exact ⟨(d, d'), ⟨a', b', rfl, hd, hd'⟩, hda, hdb⟩

/-- A map in pair notation follows if it has the same pairs. -/
theorem follows_pairs {xs ys : List Json} (hp : xs.Perm ys) {r : Reading} (hr : r.isMap = true) :
    l.Follows (.array xs) (.array ys) r := by
  match r with
  | .value (.map m key value) =>
    intro d hd
    obtain ⟨es, -, rfl, hes⟩ := load_pairs_eq_ok.1 hd
    obtain ⟨fs, hfs, hperm⟩ := List.perm_comp_forall₂ hp.symm hes
    exact exists_map_of_perm hd (fun hfresh => load_pairs_eq_ok.2 ⟨fs, hfresh, rfl, hfs⟩) hperm.symm

/-- A field follows if its node does. -/
theorem exists_fieldLoads {ms ns : List (String × Json)} {f : Field} {v : Option Datum}
    (hkeys : Assoc.keys ms = Assoc.keys ns)
    (h : ∀ name, l.fieldKey? ms f = some name →
      (Assoc.find? name ms = none ∧ Assoc.find? name ns = none) ∨
        ∃ x y, Assoc.find? name ms = some x ∧ Assoc.find? name ns = some y ∧
          (x = .null ↔ y = .null) ∧ l.Follows x y (.value f.ty))
    (hv : l.FieldLoads ms f v) : ∃ w, l.FieldLoads ns f w ∧ SameField v w := by
  -- the nodes are both absent, both null, or follow one another
  have hnodes : (l.value? ms f = none ∧ l.value? ns f = none) ∨
      ∃ x y, l.value? ms f = some x ∧ l.value? ns f = some y ∧ l.Follows x y (.value f.ty) := by
    unfold value?
    rw [fieldNode?_eq, fieldNode?_eq, ← fieldKey?_of_keys hkeys]
    cases hname : l.fieldKey? ms f with
    | none => exact .inl ⟨rfl, rfl⟩
    | some name =>
      rw [Option.bind_some, Option.bind_some]
      rcases h name hname with ⟨hx, hy⟩ | ⟨x, y, hx, hy, hnull, hfollows⟩
      · rw [hx, hy]
        exact .inl ⟨rfl, rfl⟩
      · rw [hx, hy]
        by_cases hxn : x = .null
        · obtain rfl := hnull.1 hxn
          subst hxn
          exact .inl ⟨rfl, rfl⟩
        · have hyn : y ≠ .null := fun hyn => hxn (hnull.2 hyn)
          refine .inr ⟨x, y, ?_, ?_, hfollows⟩
          · cases x with
            | null => exact absurd rfl hxn
            | _ => rfl
          · cases y with
            | null => exact absurd rfl hyn
            | _ => rfl
  cases v with
  | none =>
    obtain ⟨hnullable, hnone⟩ := hv
    rcases hnodes with ⟨-, hy⟩ | ⟨x, y, hx, -⟩
    · exact ⟨none, ⟨hnullable, hy⟩, trivial⟩
    · rw [hnone] at hx
      cases hx
  | some d =>
    obtain ⟨x, hx, hd⟩ := hv
    rcases hnodes with ⟨hnone, -⟩ | ⟨x', y, hx', hy, hfollows⟩
    · rw [hnone] at hx
      cases hx
    · cases hx'.symm.trans hx
      obtain ⟨e, he, hde⟩ := hfollows d hd
      exact ⟨some e, ⟨y, hy, he⟩, hde⟩

/-- An object follows if its members do. -/
theorem follows_members {ms ns : List (String × Json)} (hkeys : Assoc.keys ms = Assoc.keys ns)
    (hstring : ∀ i (hx : i < ms.length) (hy : i < ns.length), ms[i].2.string? = ns[i].2.string?)
    (hnull : ∀ i (hx : i < ms.length) (hy : i < ns.length), ms[i].2 = .null ↔ ns[i].2 = .null)
    {r : Reading} (h : ∀ i (hx : i < ms.length) (hy : i < ns.length) q,
      ReadsMember l ms r ms[i].1 q → l.Follows ms[i].2 ns[i].2 q) :
    l.Follows (.object ms) (.object ns) r := by
  cases r with
  | value ty =>
    intro d hd
    rcases of_load_object hd with ⟨m, id, rfl⟩ | ⟨m, key, value, rfl⟩
    · obtain ⟨_, c, vs, hms, hc, hvs, rfl⟩ := load_bean_eq_ok.1 hd
      cases hms
      have hfind := find?_of_keys (P := fun name x y => (x = .null ↔ y = .null) ∧
          ∀ q, ReadsMember l ms (.value (.named m (.bean id))) name q → l.Follows x y q) hkeys
        fun i hx hy => ⟨hnull i hx hy, h i hx hy⟩
      have hfield : ∀ i (hx : i < (l.schema.bean c).allFields.length)
          (_ : i < (l.schema.bean c).allFields.length) v,
          l.FieldLoads ms (l.schema.bean c).allFields[i] v →
            ∃ w, l.FieldLoads ns (l.schema.bean c).allFields[i] w ∧ SameField v w := by
        intro i hx _ v hv
        refine exists_fieldLoads hkeys (fun name hname => ?_) hv
        refine (hfind name).imp_right ?_
        rintro ⟨x, y, hx', hy', hxy, hreads⟩
        exact ⟨x, y, hx', hy', hxy, hreads _ (.field hc (List.getElem_mem hx) hname)⟩
      obtain ⟨ws, hws, hsame⟩ := exists_forall₂ rfl hfield hvs
      rw [word?_of_keys hkeys hstring] at hc
      refine ⟨.bean c ws, load_bean_eq_ok.2 ⟨ns, c, ws, rfl, hc, hws, rfl⟩, ?_⟩
      simp [Datum.same, sameFields_of_forall₂ hsame]
    · obtain ⟨es, -, rfl, htext, hes⟩ := load_members_eq_ok.1 hd
      have hentry : ∀ i (hx : i < ms.length) (hy : i < ns.length) d,
          l.MemberLoads key value ms[i] d →
            ∃ e, l.MemberLoads key value ns[i] e ∧ SameEntry d e := by
        rintro i hx hy d ⟨hk, hv⟩
        have hname := key_of_keys hkeys i hx hy
        obtain ⟨e, he, hde⟩ := h i hx hy _ (.value htext) d.2 hv
        exact ⟨(d.1, e), ⟨hname ▸ hk, he⟩, Datum.same_refl (loadKey_distinct hk), hde⟩
      have hlen : ms.length = ns.length := by
        simpa [Assoc.keys] using congrArg List.length hkeys
      obtain ⟨fs, hfs, hsame⟩ := exists_forall₂ hlen hentry hes
      refine exists_map_of_sameEntries hd (fun hfresh => ?_) (fun f hf => ?_) hsame
      · exact load_members_eq_ok.2 ⟨fs, hfresh, rfl, htext, hfs⟩
      · obtain ⟨z, -, hz⟩ := exists_of_mem_right hfs hf
        exact loadKey_distinct hz.1
  | entry key value =>
    rintro e ⟨a, b, hms, -⟩
    cases hms

/-- An object follows if it has the same members. -/
theorem follows_object {ms ns : List (String × Json)} (hn : (Assoc.keys ms).Nodup)
    (hp : ms.Perm ns) (r : Reading) : l.Follows (.object ms) (.object ns) r := by
  have hfind : ∀ key, Assoc.find? key ms = Assoc.find? key ns :=
    fun key => Assoc.find?_perm key hp hn
  cases r with
  | value ty =>
    intro d hd
    rcases of_load_object hd with ⟨m, id, rfl⟩ | ⟨m, key, value, rfl⟩
    · obtain ⟨_, c, vs, hms, hc, hvs, rfl⟩ := load_bean_eq_ok.1 hd
      cases hms
      have hword : word? ms = word? ns := by
        unfold word? tagNode?
        rw [hfind, hfind]
      have hloads : l.FieldLoads ms = l.FieldLoads ns := by
        funext f v
        have hvalue : l.value? ms f = l.value? ns f := by
          simp only [value?, fieldNode?, hfind]
        cases v <;> simp only [FieldLoads, hvalue]
      rw [hword] at hc
      rw [hloads] at hvs
      exact ⟨_, load_bean_eq_ok.2 ⟨ns, c, vs, rfl, hc, hvs, rfl⟩,
        Datum.same_refl (load_distinct hd)⟩
    · obtain ⟨es, -, rfl, htext, hes⟩ := load_members_eq_ok.1 hd
      obtain ⟨fs, hfs, hperm⟩ := List.perm_comp_forall₂ hp.symm hes
      exact exists_map_of_perm hd (fun hfresh =>
        load_members_eq_ok.2 ⟨fs, hfresh, rfl, htext, hfs⟩) hperm.symm
  | entry key value =>
    rintro e ⟨a, b, hms, -⟩
    cases hms

/-! ## Any order -/

/-- Every reading is as a map. -/
def OnlyMaps (rs : Set Reading) : Prop := ∀ r ∈ rs, r.isMap = true

theorem Reordered.follows (h : Reordered l OnlyMaps rs x y) : ∀ r ∈ rs, l.Follows x y r := by
  induction h with
  | refl => exact fun r _ => follows_refl r
  | trans _ _ ihx ihy => exact fun r hr => (ihx r hr).trans (ihy r hr)
  | items hlen _ ih =>
    exact fun r hr => follows_items hlen fun i hx hy q hq => ih i hx hy q ⟨r, hr, hq⟩
  | members hkeys each ih =>
    exact fun r hr => follows_members hkeys (fun i hx hy => (each i hx hy).string?_eq)
      (fun i hx hy => (each i hx hy).eq_null_iff) fun i hx hy q hq => ih i hx hy q ⟨r, hr, hq⟩
  | pairs hmay hp => exact fun r hr => follows_pairs hp (hmay r hr)
  | object hn hp => exact fun r _ => follows_object hn hp r

end Loader

/-- **Loading does not depend on order**: if the members of objects and the entries of arrays that
    are only read as maps are put in another order, at any depth, the tree loads as before or fails
    as before, and what it loads as is equal to what it was. -/
theorem load_reordered (l : Loader) (ty : Ty) {x y : Json}
    (h : l.Reordered Loader.OnlyMaps {.value ty} x y) :
    ((∃ d, l.load ty x = .ok d) ↔ ∃ e, l.load ty y = .ok e) ∧
      ∀ d e, l.load ty x = .ok d → l.load ty y = .ok e → d.same e = true := by
  have hxy : l.Follows x y (.value ty) := h.follows _ rfl
  have hyx : l.Follows y x (.value ty) := h.symm.follows _ rfl
  refine ⟨⟨?_, ?_⟩, fun d e hd he => ?_⟩
  · rintro ⟨d, hd⟩
    obtain ⟨e, he, -⟩ := hxy d hd
    exact ⟨e, he⟩
  · rintro ⟨e, he⟩
    obtain ⟨d, hd, -⟩ := hyx e he
    exact ⟨d, hd⟩
  · obtain ⟨e', he', hsame⟩ := hxy d hd
    cases he.symm.trans he'
    exact hsame

/-- Boards with notes on groups of cells, and replays whose moves are also read in their order. -/
def games : Descriptor where
  enums := []
  beans := [
    ⟨"Board", none, none, none, [
      ⟨"size", "int", none, [], [], none⟩,
      ⟨"notes", "map,(map,int,int),string", none, [], [], none⟩]⟩,
    ⟨"Replay", none, none, none, [
      ⟨"moves", "map,int,int", none, [], [], none⟩,
      ⟨"order", "list,(list,int)", some "moves", [], [], none⟩]⟩]
  tables := []

def gamesSchema : Schema :=
  let int : Ty := .scalar .plain (.integer .int)
  let size : Field := ⟨"size", none, [], int, [], none⟩
  let notes : Field :=
    ⟨"notes", none, [], .map .plain (.map .plain int int) (.scalar .plain .string), [], none⟩
  let moves : Field := ⟨"moves", none, [], .map .plain int int, [], none⟩
  let order : Field :=
    ⟨"order", some "moves", [], .seq .plain .list (.seq .plain .list int), [], none⟩
  { beans := [
      ⟨"Board", none, none, [size, notes], none, [size, notes], [], [0], [0]⟩,
      ⟨"Replay", none, none, [moves, order], none, [moves, order], [], [1], [1]⟩]
    enums := []
    tables := []
    names := [("Board", .bean 0), ("Replay", .bean 1)] }

/-- A pair of numbers: a cell, or a move from one to another. -/
def pair (a b : Int) : Json := .array [.ofInt a, .ofInt b]

/-- A note on some cells. -/
def note (cells : List Json) (text : String) : Json := .array [.array cells, .string text]

theorem load_reordered_board : games.build = .ok gamesSchema ∧
    Loader.Reordered ⟨gamesSchema, none⟩ Loader.OnlyMaps {.value (.named .plain (.bean 0))}
      (.object [("size", .ofInt 3),
        ("notes", .array [note [pair 1 2, pair 3 4] "wall", note [pair 5 6] "door"])])
      (.object [("notes", .array [note [pair 5 6] "door", note [pair 3 4, pair 1 2] "wall"]),
        ("size", .ofInt 3)]) ∧
    ((∃ d, Loader.load ⟨gamesSchema, none⟩ (.named .plain (.bean 0)) (.object [("size", .ofInt 3),
        ("notes", .array [note [pair 1 2, pair 3 4] "wall", note [pair 5 6] "door"])]) = .ok d) ↔
      ∃ e, Loader.load ⟨gamesSchema, none⟩ (.named .plain (.bean 0))
        (.object [("notes", .array [note [pair 5 6] "door", note [pair 3 4, pair 1 2] "wall"]),
          ("size", .ofInt 3)]) = .ok e) := by
  have hreordered : Loader.Reordered ⟨gamesSchema, none⟩ Loader.OnlyMaps
      {.value (.named .plain (.bean 0))}
      (.object [("size", .ofInt 3),
        ("notes", .array [note [pair 1 2, pair 3 4] "wall", note [pair 5 6] "door"])])
      (.object [("notes", .array [note [pair 5 6] "door", note [pair 3 4, pair 1 2] "wall"]),
        ("size", .ofInt 3)]) := by
    -- of the fields only the notes are read under their name
    have hnotes : ∀ ms, ∀ q ∈ Loader.memberReadings ⟨gamesSchema, none⟩ ms
        {.value (.named .plain (.bean 0))} "notes",
        ∃ m m' k v w, q = .value (.map m (.map m' k v) w) := by
      rintro ms q ⟨_, rfl, h⟩
      cases h with
      | field hc hf hname =>
        cases hc
        rcases List.mem_cons.1 hf with rfl | hf
        · have hkey := List.mem_of_find?_eq_some hname
          simp [Loader.fieldKeys] at hkey
        · cases List.mem_singleton.1 hf
          exact ⟨_, _, _, _, _, rfl⟩
    refine .trans (y := .object [("size", .ofInt 3),
      ("notes", .array [note [pair 5 6] "door", note [pair 3 4, pair 1 2] "wall"])])
      (.members rfl fun i hx _ => ?_) (.object (by decide) (.swap ..))
    match i with
    | 0 => exact .refl
    | 1 =>
      refine .trans (y := .array [note [pair 3 4, pair 1 2] "wall", note [pair 5 6] "door"])
        (.items rfl fun i hx _ => ?_) (.pairs (fun q hq => ?_) (.swap ..))
      · match i with
        | 0 =>
          refine .items rfl fun i hx _ => ?_
          match i with
          | 0 =>
            refine .pairs ?_ (.swap ..)
            rintro q ⟨r, ⟨r', hr', hr⟩, hq⟩
            obtain ⟨_, _, _, _, _, rfl⟩ := hnotes _ r' hr'
            cases hr
            cases hq
            rfl
          | 1 => exact .refl
        | 1 => exact .refl
      · obtain ⟨_, _, _, _, _, rfl⟩ := hnotes _ q hq
        rfl
  exact ⟨by cbv, hreordered, (load_reordered _ _ hreordered).1⟩

/-- The moves of a replay are a map and its order is a list, both read from one array: in another
    order, which is the same map, the list is another one. -/
theorem not_load_reordered_replay : games.build = .ok gamesSchema ∧
    Loader.Reordered ⟨gamesSchema, none⟩ (fun rs => ∃ r ∈ rs, r.isMap = true)
      {.value (.named .plain (.bean 1))}
      (.object [("moves", .array [pair 1 2, pair 3 4])])
      (.object [("moves", .array [pair 3 4, pair 1 2])]) ∧
    ∃ d e, Loader.load ⟨gamesSchema, none⟩ (.named .plain (.bean 1))
        (.object [("moves", .array [pair 1 2, pair 3 4])]) = .ok d ∧
      Loader.load ⟨gamesSchema, none⟩ (.named .plain (.bean 1))
        (.object [("moves", .array [pair 3 4, pair 1 2])]) = .ok e ∧
      d.same e = false := by
  let int (i : Int) : Datum := .integer .int i
  let list (a b : Int) : Datum := .seq .list [int a, int b]
  refine ⟨by cbv, .members rfl fun i hx _ => ?_,
    .bean 1 [some (.map [(int 1, int 2), (int 3, int 4)]), some (.seq .list [list 1 2, list 3 4])],
    .bean 1 [some (.map [(int 3, int 4), (int 1, int 2)]), some (.seq .list [list 3 4, list 1 2])],
    by cbv, by cbv, by cbv⟩
  obtain rfl : i = 0 := by simpa using hx
  exact .pairs ⟨_, ⟨_, rfl, .field rfl (List.mem_cons_self ..) rfl⟩, rfl⟩ (.swap ..)

end GameConfig
