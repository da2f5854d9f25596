import GameConfig.Proofs.Load.Typing
import GameConfig.Table.Assemble

/-
  Map tables.

  The key of a record is taken from the place that the index field has in the
  value type of the table.  The record may be of a bean below, whose fields begin
  with those of the value type, so the place is that of its own index field.

  * `key?_eq_field?`: the key of a loaded record is the value of its index field;
  * `insertAll_eq_ok`: records are put in one after the other as long as no key
    comes again;
  * `load_map_of_build`: a map table holds every record under its own key, and
    no record is without a key unless the index field allows null.
-/

namespace GameConfig

/-- A field stands where its name is found. -/
theorem BeanDef.fieldIndex?_of_mem {b : BeanDef} (hb : (b.allFields.map Field.name).Nodup)
    {f : Field} (hf : f ∈ b.allFields) :
    ∃ i, b.fieldIndex? f.name = some i ∧ b.allFields[i]? = some f := by
  cases hi : b.fieldIndex? f.name with
  | none =>
    have hno := List.findIdx?_eq_none_iff.1 hi f hf
    simp at hno
  | some i =>
    obtain ⟨hlt, hname, -⟩ := List.findIdx?_eq_some_iff_getElem.1 hi
    -- names are distinct, so the field at that place is this one
    have hsame : b.allFields[i] = f :=
      List.inj_on_of_nodup_map hb (List.getElem_mem hlt) hf (beq_iff_eq.1 hname)
    exact ⟨i, rfl, List.getElem?_eq_some_iff.2 ⟨hlt, hsame⟩⟩

namespace TableLoader

variable {t : TableLoader}

/-! ## Records -/

theorem record_eq_ok {i : Nat} {raw : RawRecord} {r : Record} :
    t.record i raw = .ok r ↔ t.loader.loadBean t.table.valueType raw.value = .ok r := by
  unfold record
  cases t.loader.loadBean t.table.valueType raw.value <;> simp

/-- The records of a table load if each of them does. -/
theorem records_eq_ok {i : Nat} {raws : List RawRecord} {rs : List Record} :
    t.records i raws = .ok rs ↔ List.Forall₂ (fun raw r =>
      t.loader.loadBean t.table.valueType raw.value = .ok r) raws rs := by
  refine Loader.values_eq_ok t.records t.record _ (fun _ _ _ => record_eq_ok) (fun _ => rfl)
    (fun i raw raws => ?_) i raws rs
  rw [records]
  cases t.record i raw with
  | error e => rfl
  | ok r => cases t.records (i + 1) raws <;> rfl

/-- A record that does not load is not one without a key. -/
theorem records_ne_nullKey {i : Nat} {raws : List RawRecord} {table field : String} {n : Nat} :
    t.records i raws ≠ .error (.nullKey table field n) := by
  induction raws generalizing i with
  | nil => exact fun h => by cases h
  | cons raw raws ih =>
    intro h
    unfold records record at h
    split at h
    · rename_i e he
      split at he
      · cases he
      · cases he
        cases h
    · split at h
      · rename_i e he
        cases h
        exact ih he
      · cases h

theorem loadBean_conforms (hs : t.loader.schema.Sound) (hc : t.loader.schema.Closed)
    (hvalue : t.table.valueType < t.loader.schema.beans.length) {x : Json} {r : Record}
    (hr : t.loader.loadBean t.table.valueType x = .ok r) :
    Conforms t.loader.schema (.named .plain (.bean t.table.valueType))
      (.bean r.bean r.fields) := by
  have hty : t.loader.schema.Has (.named .plain (.bean t.table.valueType)) := hvalue
  exact Loader.load_conforms hs hc hty (Loader.load_of_loadBean hr)

/-! ## Keys -/

/-- The key of a loaded record is the value of its index field, and there is one unless that field
    allows null. -/
theorem key?_eq_field? (hs : t.loader.schema.Sound) (hc : t.loader.schema.Closed)
    (hvalue : t.table.valueType < t.loader.schema.beans.length) {name : String}
    (hname : t.table.index = some name) {f : Field}
    (hf : f ∈ (t.loader.schema.bean t.table.valueType).allFields) (hfname : f.name = name)
    {x : Json} {r : Record} (hr : t.loader.loadBean t.table.valueType x = .ok r) :
    r.field? t.loader.schema name = some (t.key? r) ∧ (t.key? r = none → f.ty.nullable = true) := by
  cases loadBean_conforms hs hc hvalue hr with
  | bean _ _ hbelow hlen hnull _ =>
    have hprefix := hs.prefix_of_above (hs.isAssignable_iff.1 hbelow)
    obtain ⟨i, hi, hfi⟩ := BeanDef.fieldIndex?_of_mem (hs.fieldsNodup t.table.valueType) hf
    rw [hfname] at hi
    have hi' : (t.loader.schema.bean r.bean).fieldIndex? name = some i :=
      hprefix.findIdx?_eq_some hi
    have hfi' : (t.loader.schema.bean r.bean).allFields[i]? = some f := by
      obtain ⟨hlt, hf⟩ := List.getElem?_eq_some_iff.1 hfi
      rw [List.prefix_iff_getElem?.1 hprefix i hlt, hf]
    have hlt : i < r.fields.length := hlen ▸ (List.getElem?_eq_some_iff.1 hfi').1
    have hvalue := List.getElem?_eq_getElem hlt
    have hkey : t.key? r = r.fields[i] := by
      rw [key?, hname, Option.getD_some, hi, Option.bind_some, hvalue, Option.join_some]
    refine ⟨?_, fun hnone => hnull f ?_⟩
    · rw [Record.field?, hi', hkey]
      exact hvalue
    · rw [← hnone, hkey]
      exact List.mem_of_getElem? (List.getElem?_zip_eq_some.2 ⟨hfi', hvalue⟩)

theorem distinct_of_field? {ty : Ty} {s : Schema} {r : Record}
    (hr : Conforms s ty (.bean r.bean r.fields)) {name : String} {k : Datum}
    (hk : r.field? s name = some (some k)) : k.Distinct := by
  obtain ⟨i, -, hi⟩ := Option.bind_eq_some_iff.1 hk
  exact hr.distinct.field (List.mem_of_getElem? hi)

/-! ## Entries -/

/-- Records are put in under their keys as long as each has one and none comes again. -/
theorem insertAll_eq_ok {ps : List (RawRecord × Record)} {out : List (Datum × Record)} :
    t.insertAll 0 [] ps = .ok out ↔
      List.Forall₂ (fun p e => t.key? p.2 = some e.1 ∧ e.2 = p.2) ps out ∧
        out.Pairwise fun e g => g.1.same e.1 = false := by
  have hcons : ∀ i acc p ps out, t.insertAll i acc (p :: ps) = .ok out ↔
      ∃ acc', (∃ e, (t.key? p.2 = some e.1 ∧ e.2 = p.2) ∧
        (∀ g ∈ acc, e.1.same g.1 = false) ∧ acc' = acc ++ [e]) ∧
          t.insertAll (i + 1) acc' ps = .ok out := by
    intro i acc p ps out
    rw [insertAll]
    cases hk : t.key? p.2 with
    | none => simp
    | some key =>
      dsimp only
      cases hfind : acc.find? fun e => key.same e.1 with
      | none =>
        have hfresh : ∀ g ∈ acc, key.same g.1 = false := by simpa using List.find?_eq_none.1 hfind
        constructor
        · exact fun h => ⟨_, ⟨(key, p.2), ⟨rfl, rfl⟩, hfresh, rfl⟩, h⟩
        · rintro ⟨_, ⟨⟨k, r⟩, ⟨hkey, rfl⟩, -, rfl⟩, h⟩
          cases hkey
          exact h
      | some g =>
        have hsame : key.same g.1 = true := by simpa using List.find?_some hfind
        refine iff_of_false (fun h => by cases h) ?_
        rintro ⟨_, ⟨⟨k, r⟩, ⟨hkey, -⟩, hfresh, -⟩, -⟩
        cases hkey
        rw [hfresh g (List.mem_of_find?_eq_some hfind)] at hsame
        cases hsame
  have h := Loader.entries_eq_ok t.insertAll (fun p e => t.key? p.2 = some e.1 ∧ e.2 = p.2)
    (fun _ _ => rfl) hcons 0 [] out ps
  simpa using h

theorem key?_eq_none_of_insertAll {i : Nat} {acc : List (Datum × Record)}
    {ps : List (RawRecord × Record)} {table field : String} {n : Nat}
    (h : t.insertAll i acc ps = .error (.nullKey table field n)) :
    ∃ p ∈ ps, t.key? p.2 = none := by
  induction ps generalizing i acc with
  | nil => cases h
  | cons p ps ih =>
    rw [insertAll] at h
    cases hk : t.key? p.2 with
    | none => exact ⟨p, List.mem_cons_self, hk⟩
    | some key =>
      rw [hk] at h
      dsimp only at h
      split at h
      · cases h
      · obtain ⟨q, hq, hnone⟩ := ih h
        exact ⟨q, List.mem_cons_of_mem p hq, hnone⟩

/-- Records that were put in one after the other are found under their keys. -/
theorem get?_of_pairwise {es : List (Datum × Record)} (hd : ∀ e ∈ es, e.1.Distinct)
    (h : es.Pairwise fun e g => e.1.same g.1 = false ∧ g.1.same e.1 = false) {e : Datum × Record}
    (he : e ∈ es) : (TableData.map es).get? e.1 = some e.2 := by
  induction h with
  | nil => cases he
  | @cons g es hg _ ih =>
    rw [TableData.get?, List.find?_cons]
    rcases List.mem_cons.1 he with rfl | he
    · rw [Datum.same_refl (hd e List.mem_cons_self)]
      rfl
    · rw [(hg e he).2]
      exact ih (fun g hg => hd g (List.mem_cons_of_mem _ hg)) he

/-! ## Tables -/

/-- The entries of a map table: each record loaded, under the value of its own index field, and
    found there. -/
structure Indexed (t : TableLoader) (name : String) (raws : List RawRecord)
    (es : List (Datum × Record)) : Prop where
  entries : List.Forall₂ (fun raw e =>
    t.loader.loadBean t.table.valueType raw.value = .ok e.2 ∧
      e.2.field? t.loader.schema name = some (some e.1)) raws es
  distinct : es.Pairwise fun e g => e.1.same g.1 = false ∧ g.1.same e.1 = false
  found : ∀ e ∈ es, (TableData.map es).get? e.1 = some e.2

/-- Of records that load, those entries are indexed whose keys were put in one after the other. -/
theorem indexed_of_insertAll (hs : t.loader.schema.Sound) (hc : t.loader.schema.Closed)
    (hvalue : t.table.valueType < t.loader.schema.beans.length) {name : String}
    (hname : t.table.index = some name) {f : Field}
    (hf : f ∈ (t.loader.schema.bean t.table.valueType).allFields) (hfname : f.name = name)
    {raws : List RawRecord} {rs : List Record} {es : List (Datum × Record)}
    (hrs : t.records 0 raws = .ok rs) (hes : t.insertAll 0 [] (raws.zip rs) = .ok es) :
    t.Indexed name raws es := by
  obtain ⟨hentries, hfresh⟩ := insertAll_eq_ok.1 hes
  have hall : List.Forall₂ (fun raw e =>
      t.loader.loadBean t.table.valueType raw.value = .ok e.2 ∧
        e.2.field? t.loader.schema name = some (some e.1)) raws es := by
    refine (forall₂_of_zip (records_eq_ok.1 hrs) hentries).imp ?_
    rintro raw ⟨k, r⟩ ⟨_, hr, hk, rfl⟩
    refine ⟨hr, ?_⟩
    rw [(key?_eq_field? hs hc hvalue hname hf hfname hr).1, hk]
  have hkeys : ∀ e ∈ es, e.1.Distinct := by
    intro e he
    obtain ⟨raw, -, hr, hk⟩ := exists_of_mem_right hall he
    exact distinct_of_field? (loadBean_conforms hs hc hvalue hr) hk
  have hdistinct : es.Pairwise fun e g => e.1.same g.1 = false ∧ g.1.same e.1 = false := by
    refine hfresh.imp_of_mem fun {e g} he hg hge => ⟨?_, hge⟩
    rw [Bool.eq_false_iff]
    intro heg
    rw [Datum.same_symm (hkeys e he) (hkeys g hg) heg] at hge
    cases hge
  exact ⟨hall, hdistinct, fun e he => get?_of_pairwise hkeys hdistinct he⟩

theorem load_map_eq_ok (hm : t.table.mode = .map) {raws : List RawRecord} {log : List Failure}
    {data : TableData} : (t.load raws log).1 = .ok data ↔
      ∃ rs es, t.records 0 raws = .ok rs ∧ t.insertAll 0 [] (raws.zip rs) = .ok es ∧
        data = .map es := by
  simp only [load, assemble, hm]
  cases t.records 0 raws with
  | error e => simp
  | ok rs =>
    simp only [Except.ok.injEq, exists_and_left, exists_eq_left']
    cases t.insertAll 0 [] (raws.zip rs) with
    | error e => simp [Except.map]
    | ok es => simp [Except.map, @eq_comm TableData]

/-- A table fails for want of a key only if some record that loads has none. -/
theorem exists_of_load_nullKey (hm : t.table.mode = .map) {raws : List RawRecord}
    {log : List Failure} {table field : String} {i : Nat}
    (h : (t.load raws log).1 = .error (.nullKey table field i)) :
    ∃ raw r, t.loader.loadBean t.table.valueType raw = .ok r ∧ t.key? r = none := by
  simp only [load, assemble, hm] at h
  split at h
  · rename_i e he
    cases h
    exact absurd he records_ne_nullKey
  · rename_i rs hrs
    cases hes : t.insertAll 0 [] (raws.zip rs) with
    | error e =>
      rw [hes] at h
      cases h
      obtain ⟨p, hp, hnone⟩ := key?_eq_none_of_insertAll hes
      exact ⟨p.1.value, p.2, List.forall₂_zip (records_eq_ok.1 hrs) hp, hnone⟩
    | ok es =>
      rw [hes] at h
      cases h

end TableLoader

/-- **Map tables index every record by its own key**: over every accepted schema, what a map table
    loads as has an entry for each raw record, in order, namely what the record loads as under the
    value of the index field of its own bean; the keys differ, and each finds its record.  No
    record is without a key if the index field does not allow null. -/
theorem load_map_of_build {h : History} {s : Schema} (hb : (Builder.run h).build = .ok s)
    (hc : h.Closed) {t : TableLoader} (hs : t.loader.schema = s) (ht : t.table ∈ s.tables)
    (hm : t.table.mode = .map) : ∃ name, t.table.index = some name ∧
      ∃ f ∈ (s.bean t.table.valueType).allFields, f.name = name ∧ ∀ raws log,
        (∀ data, (t.load raws log).1 = .ok data → ∃ es, data = .map es ∧ t.Indexed name raws es) ∧
        (f.ty.nullable = false → ∀ table field i,
          (t.load raws log).1 ≠ .error (.nullKey table field i)) := by
  subst hs
  have hsound := Schema.sound_of_build hb
  have hclosed := Schema.closed_of_build hc hb
  obtain ⟨hvalue, d, hmode, hindex, hfault⟩ := Schema.table_of_build hb ht
  obtain ⟨hsome, hfield⟩ :=
    (Resolve.indexFault?_eq_none (hsound.fieldsNodup t.table.valueType)).1 hfault
  obtain ⟨name, hname⟩ := Option.ne_none_iff_exists'.1 (hsome (hmode.trans hm))
  obtain ⟨f, hf, hfname, -⟩ := hfield name hname
  rw [hindex] at hname
  refine ⟨name, hname, f, hf, hfname, fun raws log => ⟨?_, ?_⟩⟩
  · intro data hdata
    obtain ⟨rs, es, hrs, hes, rfl⟩ := (TableLoader.load_map_eq_ok hm).1 hdata
    exact ⟨es, rfl,
      TableLoader.indexed_of_insertAll hsound hclosed hvalue hname hf hfname hrs hes⟩
  · intro hnull table field i hdata
    obtain ⟨raw, r, hr, hnone⟩ := TableLoader.exists_of_load_nullKey hm hdata
    have hkey := TableLoader.key?_eq_field? hsound hclosed hvalue hname hf hfname hr
    rw [hkey.2 hnone] at hnull
    cases hnull

/-- Swords and shields, all of them items with a number. -/
def arsenal : History :=
  let int : Ty := .scalar .plain (.integer .int)
  [.addBean ⟨"Item", none, none, [⟨"id", none, [], int, [], none⟩], none⟩,
    .addBean ⟨"Sword", some "Item", none, [⟨"damage", none, [], int, [], none⟩], none⟩,
    .addBean ⟨"Shield", some "Item", none, [⟨"armor", none, [], int, [], none⟩], none⟩,
    .addTable ⟨"TbItem", "Item", .map, some "id", ["items.json"], none⟩]

def arms : List RawRecord :=
  [⟨"a.json", .object [("$type", .string "Sword"), ("damage", .ofInt 7), ("id", .ofInt 2)]⟩,
    ⟨"b.json", .object [("id", .ofInt 1), ("$type", .string "Shield"), ("armor", .ofInt 5)]⟩]

theorem load_map_arsenal : ∃ s, (Builder.run arsenal).build = .ok s ∧ ∃ td ∈ s.tables,
    let t : TableLoader := ⟨⟨s, none⟩, ⟨[]⟩, td⟩
    let es : List (Datum × Record) :=
      [(.integer .int 2, ⟨1, [some (.integer .int 2), some (.integer .int 7)]⟩),
        (.integer .int 1, ⟨2, [some (.integer .int 1), some (.integer .int 5)]⟩)]
    (t.load arms []).1 = .ok (.map es) ∧ t.Indexed "id" arms es := by
  refine ⟨_, rfl, _, List.mem_cons_self, ?_⟩
  intro t es
  have hes : t.insertAll 0 [] (arms.zip (es.map (·.2))) = .ok es :=
    TableLoader.insertAll_eq_ok.2 ⟨.cons ⟨rfl, rfl⟩ (.cons ⟨rfl, rfl⟩ .nil), by
      simp [es, Datum.same]⟩
  have hload : (t.load arms []).1 = .ok (.map es) :=
    (TableLoader.load_map_eq_ok rfl).2 ⟨_, es, rfl, hes, rfl⟩
  have hclosed : arsenal.Closed := by
    unfold History.Closed Builder.Has
    decide
  obtain ⟨name, hname, f, -, -, hall⟩ :=
    load_map_of_build (h := arsenal) (t := t) rfl hclosed rfl List.mem_cons_self rfl
  obtain rfl : "id" = name := Option.some.inj hname
  obtain ⟨es', hes', hindexed⟩ := (hall arms []).1 _ hload
  obtain rfl : es = es' := TableData.map.inj hes'
  exact ⟨hload, hindexed⟩

end GameConfig
