import GameConfig.Proofs.Hierarchy

/-
  What resolving declarations gives, pass by pass.

  Each pass of `Resolve` runs over a list and stops at its first objection, so
  it succeeds exactly if all of its steps do (`enums_eq_ok`, `decls_eq_ok`,
  `parents_eq_ok`, `beansFrom_eq_ok`, `tables_eq_ok`).  `Resolved` collects what
  holds of an accepted schema and its declarations, and `schema_eq_ok` states
  that nothing else is asked for.

  * `Resolved.forest`: the parents of an accepted schema form a forest, provided
    that names only stand for beans that are there;
  * `allFields_eq_ok`: the fields of a bean are those along its line of
    ancestors, and their names are distinct;
  * `schema_eq_inheritanceCycle`: a cycle is the objection exactly if everything
    before the cycle test succeeds and the test finds a bean.
-/

namespace GameConfig.Resolve

open Hierarchy

/-! ## Declarations -/

theorem repeatedItem?_eq_none {seen : List String} {items : List EnumItem} :
    repeatedItem? seen items = none ↔
      (items.map EnumItem.name).Nodup ∧ ∀ i ∈ items, i.name ∉ seen := by
  induction items generalizing seen with
  | nil => simp [repeatedItem?]
  | cons i items ih =>
    by_cases hi : i.name ∈ seen
    · simp [repeatedItem?, hi]
    · simp only [repeatedItem?, List.contains_iff_mem, hi, if_false, ih, List.map_cons,
        List.nodup_cons, List.mem_map, List.mem_cons, forall_eq_or_imp, not_false_eq_true,
        true_and, not_or]
      constructor
      · rintro ⟨hn, h⟩
        exact ⟨⟨fun ⟨j, hj, e⟩ => (h j hj).1 e, hn⟩, fun j hj => (h j hj).2⟩
      · rintro ⟨⟨hne, hn⟩, h⟩
        exact ⟨hn, fun j hj => ⟨fun e => hne ⟨j, hj, e⟩, h j hj⟩⟩

/-- The function takes one step for each entry of a list and stops at the first that fails. -/
structure Pass {α β ε : Type} (f : List α → Except ε (List β)) (g : α → Except ε β) : Prop where
  nil : f [] = .ok []
  cons : ∀ a as, f (a :: as) = match g a with
    | .error err => .error err
    | .ok b => match f as with
      | .ok bs => .ok (b :: bs)
      | .error err => .error err

namespace Pass

variable {α β ε : Type} {f : List α → Except ε (List β)} {g : α → Except ε β} (hf : Pass f g)
  {as : List α}
include hf

/-- A pass succeeds exactly if all of its steps do. -/
theorem eq_ok {bs : List β} : f as = .ok bs ↔ as.map g = bs.map .ok := by
  induction as generalizing bs with
  | nil =>
    rw [hf.nil]
    cases bs <;> simp
  | cons a as ih =>
    rw [hf.cons]
    cases hg : g a with
    | error err => cases bs <;> simp [hg]
    | ok b =>
      cases hr : f as with
      | error err =>
        have hno : ∀ cs : List β, as.map g ≠ cs.map .ok := fun cs h => by
          rw [ih.2 h] at hr; cases hr
        cases bs with
        | nil => simp
        | cons c cs => simp [hg, hno cs]
      | ok cs =>
        have hyes := ih.1 hr
        cases bs with
        | nil => simp
        | cons c ds =>
          simp only [List.map_cons, hg, hyes, List.cons.injEq, Except.ok.injEq]
          exact and_congr_right fun _ =>
            ⟨fun h => h ▸ rfl, fun h => List.map_injective_iff.2 (fun _ _ => Except.ok.inj) h⟩

/-- Its results stand across from the entries. -/
theorem forall₂ {bs : List β} : f as = .ok bs ↔ List.Forall₂ (fun a b => g a = .ok b) as bs := by
  rw [hf.eq_ok, ← List.forall₂_eq_eq_eq, List.forall₂_map_left_iff, List.forall₂_map_right_iff]

/-- A pass that fails has a step that fails in the same way. -/
theorem exists_of_error {err : ε} (h : f as = .error err) : ∃ a ∈ as, g a = .error err := by
  induction as with
  | nil => rw [hf.nil] at h; cases h
  | cons a as ih =>
    rw [hf.cons] at h
    cases hg : g a with
    | error e =>
      simp only [hg] at h
      cases h
      exact ⟨a, List.mem_cons_self, hg⟩
    | ok b =>
      cases hr : f as with
      | error e =>
        simp only [hg, hr] at h
        cases h
        obtain ⟨c, hc, hce⟩ := ih hr
        exact ⟨c, List.mem_cons_of_mem _ hc, hce⟩
      | ok bs => simp only [hg, hr] at h; cases h

end Pass

/-- Steps that all succeed give a list of results. -/
theorem exists_map_eq {α β γ : Type} {f : α → γ} {g : β → γ} {as : List α}
    (h : ∀ a ∈ as, ∃ b, f a = g b) : ∃ bs : List β, as.map f = bs.map g := by
  induction as with
  | nil => exact ⟨[], rfl⟩
  | cons a as ih =>
    obtain ⟨b, hb⟩ := h a (by simp)
    obtain ⟨bs, hbs⟩ := ih fun c hc => h c (by simp [hc])
    exact ⟨b :: bs, by simp [hb, hbs]⟩

/-- Steps of two kinds that succeed with the same results succeed with the same lists. -/
theorem map_eq_map_congr {α β γ δ : Type} {f : α → γ} {g : β → γ} {f' : α → δ} {g' : β → δ}
    (h : ∀ a b, f a = g b ↔ f' a = g' b) {as : List α} {bs : List β} :
    as.map f = bs.map g ↔ as.map f' = bs.map g' := by
  induction as generalizing bs with
  | nil => cases bs <;> simp
  | cons a as ih => cases bs <;> simp [h, ih]

/-- The enum of a slot, if it is declared and its items are distinct. -/
def enumOf : String × Option EnumDef → Except SchemaError EnumDef
  | (name, none) => .error (.unknownType name "a field type")
  | (_, some e) =>
    match repeatedItem? [] e.items with
    | some item => .error (.duplicateItem e.fullName item)
    | none => .ok e

theorem enumOf_eq_ok {slot : String × Option EnumDef} {e : EnumDef} :
    enumOf slot = .ok e ↔ slot.2 = some e ∧ (e.items.map EnumItem.name).Nodup := by
  obtain ⟨n, _ | d⟩ := slot
  · simp [enumOf]
  have hd : repeatedItem? [] d.items = none ↔ (d.items.map EnumItem.name).Nodup := by
    simp [repeatedItem?_eq_none]
  cases hi : repeatedItem? [] d.items with
  | some item =>
    simp only [enumOf, hi, reduceCtorEq, Option.some.injEq, false_iff]
    rintro ⟨rfl, h⟩
    rw [hd.2 h] at hi; cases hi
  | none =>
    simp only [enumOf, hi, Except.ok.injEq, Option.some.injEq]
    exact ⟨fun h => ⟨h, h ▸ hd.1 hi⟩, fun h => h.1⟩

theorem enums_pass : Pass enums enumOf where
  nil := rfl
  cons slot slots := by
    obtain ⟨n, _ | e⟩ := slot
    · rfl
    · simp only [enums, enumOf]
      cases repeatedItem? [] e.items <;> cases enums slots <;> rfl

/-- All enums are declared, each with distinct items. -/
theorem enums_eq_ok {slots : List (String × Option EnumDef)} {es : List EnumDef} :
    enums slots = .ok es ↔ slots.map enumOf = es.map .ok :=
  enums_pass.eq_ok

/-- The bean of a slot, if it is declared. -/
def declOf : String × Option BeanDecl → Except SchemaError BeanDecl
  | (name, none) => .error (.unknownType name "a field type")
  | (_, some d) => .ok d

theorem declOf_eq_ok {slot : String × Option BeanDecl} {d : BeanDecl} :
    declOf slot = .ok d ↔ slot.2 = some d := by
  obtain ⟨n, _ | d⟩ := slot <;> simp [declOf]

theorem decls_pass : Pass decls declOf where
  nil := rfl
  cons slot slots := by
    obtain ⟨n, _ | d⟩ := slot
    · rfl
    · simp only [decls, declOf]
      cases decls slots <;> rfl

/-- All beans are declared. -/
theorem decls_eq_ok {slots : List (String × Option BeanDecl)} {ds : List BeanDecl} :
    decls slots = .ok ds ↔ slots.map declOf = ds.map .ok :=
  decls_pass.eq_ok

theorem parents_pass (names : Names) : Pass (parents names) (parent names) where
  nil := rfl
  cons d ds := by
    simp only [parents]
    cases parent names d <;> cases parents names ds <;> rfl

/-- All parents resolve. -/
theorem parents_eq_ok {names : Names} {ds : List BeanDecl} {ps : Parents} :
    parents names ds = .ok ps ↔ ds.map (parent names) = ps.map .ok :=
  (parents_pass names).eq_ok

theorem parent_of_parents {names : Names} {ds : List BeanDecl} {ps : Parents}
    (h : ds.map (parent names) = ps.map .ok) {id : Nat} {d : BeanDecl} (hd : ds[id]? = some d) :
    parent names d = .ok (parentOf ps id) := by
  have hid := congrArg (·[id]?) h
  simp only [List.getElem?_map, hd, Option.map_some] at hid
  cases hp : ps[id]? with
  | none => simp [hp] at hid
  | some p => simpa [parentOf, hp] using hid

theorem parent_eq_none {names : Names} {d : BeanDecl} :
    parent names d = .ok none ↔ d.parent = none := by
  unfold parent
  split
  · simp [*]
  · split <;> simp [*]

theorem parent_eq_some {names : Names} {d : BeanDecl} {id : Nat} :
    parent names d = .ok (some id) ↔
      ∃ w, d.parent = some w ∧
        names.lookup w (some (namespaceOf d.fullName)) = some (.bean id) := by
  unfold parent
  split
  · simp [*]
  · split <;> simp [*]

theorem tables_pass (s : Schema) : Pass (tables s) (table s) where
  nil := rfl
  cons t ts := by
    simp only [tables]
    cases table s t <;> cases tables s ts <;> rfl

/-- All tables resolve. -/
theorem tables_eq_ok {s : Schema} {ts : List TableDecl} {defs : List TableDef} :
    tables s ts = .ok defs ↔ ts.map (table s) = defs.map .ok :=
  (tables_pass s).eq_ok

/-- All beans have their fields. -/
theorem beansFrom_eq_ok {ps : Parents} {all ds : List BeanDecl} {id : Nat} {bs : List BeanDef} :
    beansFrom ps all id ds = .ok bs ↔
      (ds.zipIdx id).map (fun (d, i) => bean ps all d i) = bs.map .ok := by
  induction ds generalizing id bs with
  | nil =>
    cases bs <;> simp [beansFrom]
  | cons d ds ih =>
    cases hb : bean ps all d id with
    | error err => cases bs <;> simp [beansFrom, hb]
    | ok b =>
      cases hr : beansFrom ps all (id + 1) ds with
      | error err =>
        have hno : ∀ cs : List BeanDef,
            (ds.zipIdx (id + 1)).map (fun (d, i) => bean ps all d i) ≠ cs.map .ok := fun cs h => by
          rw [ih.2 h] at hr; cases hr
        cases bs with
        | nil => simp [beansFrom, hb, hr]
        | cons c cs => simpa [beansFrom, hb, hr] using fun _ => hno cs
      | ok cs =>
        have hyes := ih.1 hr
        cases bs with
        | nil => simp [beansFrom, hb, hr]
        | cons c es =>
          simp only [beansFrom, hb, hr, List.zipIdx_cons, List.map_cons, hyes, List.cons.injEq,
            Except.ok.injEq]
          exact and_congr_right fun _ =>
            ⟨fun h => h ▸ rfl, fun h => List.map_injective_iff.2 (fun _ _ => Except.ok.inj) h⟩

theorem beansFrom_eq_error {ps : Parents} {all ds : List BeanDecl} {id : Nat} {err : SchemaError}
    (h : beansFrom ps all id ds = .error err) : ∃ d ∈ ds, ∃ i, bean ps all d i = .error err := by
  induction ds generalizing id with
  | nil => cases h
  | cons d ds ih =>
    unfold beansFrom at h
    split at h
    · rename_i e hb
      cases h
      exact ⟨d, List.mem_cons_self, id, hb⟩
    split at h
    · cases h
    · rename_i e hr
      cases h
      obtain ⟨c, hc, i, hci⟩ := ih hr
      exact ⟨c, List.mem_cons_of_mem _ hc, i, hci⟩

/-! ## Fields -/

theorem addFields_eq_ok {bean : String} {acc fs out : List Field}
    (hacc : (acc.map Field.name).Nodup) :
    addFields bean acc fs = .ok out ↔ out = acc ++ fs ∧ ((acc ++ fs).map Field.name).Nodup := by
  induction fs generalizing acc with
  | nil => simpa [addFields, hacc] using eq_comm
  | cons f fs ih =>
    by_cases hf : f.name ∈ acc.map Field.name
    · have hany : (acc.any fun g => g.name == f.name) = true := by
        obtain ⟨g, hg, he⟩ := List.mem_map.1 hf
        exact List.any_eq_true.2 ⟨g, hg, by simpa using he⟩
      simp only [addFields, hany, if_true, reduceCtorEq, false_iff, not_and]
      rintro - hn
      rw [List.map_append, List.nodup_append] at hn
      exact hn.2.2 _ hf _ (by simp) rfl
    · have hany : (acc.any fun g => g.name == f.name) = false := by
        rw [Bool.eq_false_iff]
        intro h
        obtain ⟨g, hg, he⟩ := List.any_eq_true.1 h
        exact hf (List.mem_map.2 ⟨g, hg, by simpa using he⟩)
      have hacc' : ((acc ++ [f]).map Field.name).Nodup := by
        rw [List.map_append, List.nodup_append]
        refine ⟨hacc, by simp, ?_⟩
        rintro n hn _ hm rfl
        rw [List.map_singleton, List.mem_singleton] at hm
        exact hf (hm ▸ hn)
      simp only [addFields, hany, Bool.false_eq_true, if_false, ih hacc', List.append_assoc,
        List.singleton_append]

theorem chainFields_eq_ok {acc out : List Field} {ds : List BeanDecl}
    (hacc : (acc.map Field.name).Nodup) :
    chainFields acc ds = .ok out ↔
      out = acc ++ ds.flatMap BeanDecl.fields ∧
        ((acc ++ ds.flatMap BeanDecl.fields).map Field.name).Nodup := by
  induction ds generalizing acc with
  | nil => simpa [chainFields, hacc] using eq_comm
  | cons d ds ih =>
    rw [List.flatMap_cons, ← List.append_assoc]
    cases ha : addFields d.fullName acc d.fields with
    | error err =>
      simp only [chainFields, ha, reduceCtorEq, false_iff, not_and]
      rintro - hn
      rw [List.map_append] at hn
      rw [(addFields_eq_ok hacc).2 ⟨rfl, hn.of_append_left⟩] at ha
      cases ha
    | ok acc' =>
      obtain ⟨rfl, hacc'⟩ := (addFields_eq_ok hacc).1 ha
      simp only [chainFields, ha, ih hacc']

/-- The declarations along the line of a bean, the farthest ancestor first. -/
def line (ps : Parents) (ds : List BeanDecl) (id : Nat) : List BeanDecl :=
  (chain ps ps.length id).reverse.filterMap fun i => ds[i]?

/-- **The fields of a bean are those along its line, all with different names.** -/
theorem allFields_eq_ok {ps : Parents} {ds : List BeanDecl} {id : Nat} {fs : List Field} :
    allFields ps ds id = .ok fs ↔
      fs = (line ps ds id).flatMap BeanDecl.fields ∧ (fs.map Field.name).Nodup := by
  rw [allFields, chainFields_eq_ok (by simp), List.nil_append]
  exact and_congr_right fun h => by rw [h]

theorem line_of_root {ps : Parents} {ds : List BeanDecl} {id : Nat} {d : BeanDecl}
    (hp : parentOf ps id = none) (hd : ds[id]? = some d) : line ps ds id = [d] := by
  simp [line, chain_of_root hp, hd]

theorem line_of_parent {ps : Parents} (hf : Forest ps) {ds : List BeanDecl} {id p : Nat}
    {d : BeanDecl} (hp : parentOf ps id = some p) (hd : ds[id]? = some d) :
    line ps ds id = line ps ds p ++ [d] := by
  simp [line, hf.chain_of_parent hp, hd]

/-! ## Tables -/

theorem isIndexType_iff {ty : Ty} :
    isIndexType ty = true ↔ ty.isCollection = false ∧ ∀ m id, ty ≠ .named m (.bean id) := by
  rcases ty with ⟨m, k⟩ | ⟨m, id | id⟩ | ⟨m, k, e⟩ | ⟨m, k, v⟩ <;>
    simp [isIndexType, Ty.isCollection]

/-- An index is without fault if it is there when it must be and names a field that can serve. -/
theorem indexFault?_eq_none {b : BeanDef} {t : TableDecl}
    (hb : (b.allFields.map Field.name).Nodup) :
    indexFault? b t = none ↔
      (t.mode = .map → t.index ≠ none) ∧
      ∀ i, t.index = some i → ∃ f ∈ b.allFields, f.name = i ∧
        (t.mode = .map → isIndexType f.ty = true) := by
  cases hi : t.index with
  | none =>
    by_cases hm : t.mode = .map <;> simp [indexFault?, hi, hm]
  | some i =>
    simp only [indexFault?, hi, ne_eq, reduceCtorEq, not_false_eq_true, implies_true, true_and,
      Option.some.injEq, forall_eq']
    cases hf : b.allFields.find? fun f => f.name == i with
    | none =>
      simp only [List.find?_eq_none, beq_iff_eq] at hf
      simp only [reduceCtorEq, false_iff, not_exists, not_and]
      intro f hmem hname
      exact absurd hname (hf f hmem)
    | some f =>
      have hmem := List.mem_of_find?_eq_some hf
      have hname : f.name = i := by simpa using List.find?_some hf
      constructor
      · intro h
        refine ⟨f, hmem, hname, fun hm => ?_⟩
        simpa [hm] using h
      · rintro ⟨g, hg, hgi, hix⟩
        -- names are distinct, so the first field with this name is the only one
        obtain rfl : g = f := List.inj_on_of_nodup_map hb hg hmem (hgi.trans hname.symm)
        by_cases hm : t.mode = .map
        · simp [hm, hix hm]
        · simp [hm]

/-- A table resolves to its declaration with the bean that its value type means. -/
theorem table_eq_ok {s : Schema} {t : TableDecl} {d : TableDef} :
    table s t = .ok d ↔
      s.names.lookup t.valueType (some (namespaceOf t.fullName)) = some (.bean d.valueType) ∧
        indexFault? (s.bean d.valueType) t = none ∧
        d = ⟨t.fullName, d.valueType, t.mode, t.index, t.inputFiles, t.comment⟩ := by
  constructor
  · intro h
    unfold table at h
    split at h
    · cases h
    rename_i id hid
    split at h
    · cases h
    rename_i hfault
    cases h
    unfold valueType at hid
    split at hid
    · rename_i hfind
      cases hid
      exact ⟨hfind, hfault, rfl⟩
    · cases hid
    · cases hid
  · rintro ⟨hfind, hfault, hd⟩
    simp only [table, valueType, Schema.findType?, hfind, hfault]
    exact congrArg _ hd.symm

/-- A table resolves exactly if its value type is a bean over which its index is without fault. -/
theorem exists_table_iff {s : Schema} {t : TableDecl} :
    (∃ d, table s t = .ok d) ↔
      ∃ id, s.names.lookup t.valueType (some (namespaceOf t.fullName)) = some (.bean id) ∧
        indexFault? (s.bean id) t = none := by
  simp only [table_eq_ok]
  constructor
  · rintro ⟨d, hl, hx, -⟩
    exact ⟨d.valueType, hl, hx⟩
  · rintro ⟨id, hl, hx⟩
    exact ⟨⟨t.fullName, id, t.mode, t.index, t.inputFiles, t.comment⟩, hl, hx, rfl⟩

/-! ## Schemas -/

theorem firstCycle?_eq_none {ps : Parents} {ds : List BeanDecl} :
    firstCycle? ps ds = none ↔
      ∀ id, id < ds.length → cycles ps id ps.length (parentOf ps id) = false := by
  simp only [firstCycle?, Option.map_eq_none_iff, List.find?_eq_none, Bool.not_eq_true]
  constructor
  · intro h id hid
    exact h (ds[id], id) (List.mk_mem_zipIdx_iff_getElem?.2 (by simp [hid]))
  · rintro h ⟨d, id⟩ hm
    exact h id (List.getElem?_eq_some_iff.1 (List.mk_mem_zipIdx_iff_getElem?.1 hm)).1

/-- The test finds the first bean, in order, that is below a cycle or on one. -/
theorem firstCycle?_eq_some {ps : Parents} {ds : List BeanDecl} {d : BeanDecl}
    (hin : ∀ {id p}, parentOf ps id = some p → p < ps.length) :
    firstCycle? ps ds = some d ↔
      ∃ id, ds[id]? = some d ∧ Endless ps id ∧ ∀ j, j < id → ¬ Endless ps j := by
  simp only [firstCycle?, Option.map_eq_some_iff, List.find?_eq_some_iff_getElem, ← cycles_iff hin,
    List.getElem_zipIdx, List.length_zipIdx, Nat.zero_add, Bool.not_eq_true',
    Bool.not_eq_true]
  constructor
  · rintro ⟨p, ⟨hc, id, hid, rfl, hbefore⟩, rfl⟩
    exact ⟨id, List.getElem?_eq_getElem hid, hc, hbefore⟩
  · rintro ⟨id, hd, hc, hbefore⟩
    obtain ⟨hid, rfl⟩ := List.getElem?_eq_some_iff.1 hd
    exact ⟨(ds[id], id), ⟨hc, id, hid, rfl, hbefore⟩, rfl⟩

/-- The beans of a schema are these declarations with these parents. -/
structure Resolved (names : Names) (ds : List BeanDecl) (ps : Parents) (s : Schema) : Prop where
  sameNames : s.names = names
  resolves : ds.map (parent names) = ps.map .ok
  acyclic : firstCycle? ps ds = none
  builds : ds.zipIdx.map (fun (d, i) => bean ps ds d i) = s.beans.map .ok

/-- Resolving a table does not look at the tables of the schema. -/
theorem table_withTables (s : Schema) (defs : List TableDef) :
    table { s with tables := defs } = table s := rfl

/-- **A schema is accepted exactly if every pass succeeds.** -/
theorem schema_eq_ok {names : Names} {es : List (String × Option EnumDef)}
    {bs : List (String × Option BeanDecl)} {ts : List TableDecl} {s : Schema} :
    schema names es bs ts = .ok s ↔
      es.map enumOf = s.enums.map .ok ∧
      (∃ ds ps, bs.map declOf = ds.map .ok ∧ Resolved names ds ps s) ∧
      ts.map (table s) = s.tables.map .ok := by
  constructor
  · intro h
    unfold schema at h
    split at h
    · cases h
    rename_i es' he
    split at h
    · cases h
    rename_i ds hd
    split at h
    · cases h
    rename_i bs' hb
    dsimp only at h
    split at h
    · cases h
    rename_i ts' ht
    cases h
    unfold beans at hb
    split at hb
    · cases hb
    rename_i ps hp
    split at hb
    · cases hb
    rename_i hc
    exact ⟨enums_eq_ok.1 he, ⟨ds, ps, decls_eq_ok.1 hd, rfl, parents_eq_ok.1 hp, hc,
      beansFrom_eq_ok.1 hb⟩, (tables_eq_ok.1 ht :)⟩
  · rintro ⟨he, ⟨ds, ps, hd, rfl, hp, hc, hb⟩, ht⟩
    have htables : tables ⟨s.beans, s.enums, [], s.names⟩ ts = .ok s.tables := by
      rw [tables_eq_ok, ← ht]
      exact congrArg (ts.map ·) (table_withTables s [])
    simp only [schema, enums_eq_ok.2 he, decls_eq_ok.2 hd, beans, parents_eq_ok.2 hp, hc,
      beansFrom_eq_ok.2 hb, htables]

/-! ## Cycles -/

theorem enumOf_ne_cycle (slot : String × Option EnumDef) (n : String) :
    enumOf slot ≠ .error (.inheritanceCycle n) := by
  obtain ⟨m, _ | e⟩ := slot
  · simp [enumOf]
  · simp only [enumOf]
    split <;> simp

theorem declOf_ne_cycle (slot : String × Option BeanDecl) (n : String) :
    declOf slot ≠ .error (.inheritanceCycle n) := by
  obtain ⟨m, _ | d⟩ := slot <;> simp [declOf]

theorem parent_ne_cycle (names : Names) (d : BeanDecl) (n : String) :
    parent names d ≠ .error (.inheritanceCycle n) := by
  unfold parent
  split
  · simp
  · split <;> simp

theorem addFields_ne_cycle (bean : String) (acc fs : List Field) (n : String) :
    addFields bean acc fs ≠ .error (.inheritanceCycle n) := by
  induction fs generalizing acc with
  | nil => simp [addFields]
  | cons f fs ih =>
    unfold addFields
    split
    · simp
    · exact ih _

theorem chainFields_ne_cycle (acc : List Field) (ds : List BeanDecl) (n : String) :
    chainFields acc ds ≠ .error (.inheritanceCycle n) := by
  induction ds generalizing acc with
  | nil => simp [chainFields]
  | cons d ds ih =>
    unfold chainFields
    split
    · exact ih _
    · rename_i e he
      rw [← he]
      exact addFields_ne_cycle _ _ _ n

theorem bean_ne_cycle (ps : Parents) (ds : List BeanDecl) (d : BeanDecl) (id : Nat) (n : String) :
    bean ps ds d id ≠ .error (.inheritanceCycle n) := by
  unfold bean
  split
  · rename_i e he
    rw [ne_eq, Except.error.injEq, ← Except.error.injEq (α := List Field), ← he]
    exact chainFields_ne_cycle _ _ n
  · simp

theorem table_ne_cycle (s : Schema) (t : TableDecl) (n : String) :
    table s t ≠ .error (.inheritanceCycle n) := by
  unfold table
  split
  · rename_i e he
    unfold valueType at he
    split at he <;> cases he <;> simp
  · split <;> simp

/-- **Only the cycle test objects to a cycle**, and it is asked when all before it succeeded. -/
theorem schema_eq_inheritanceCycle {names : Names} {es : List (String × Option EnumDef)}
    {bs : List (String × Option BeanDecl)} {ts : List TableDecl} {n : String} :
    schema names es bs ts = .error (.inheritanceCycle n) ↔
      (∃ es' : List EnumDef, es.map enumOf = es'.map .ok) ∧
        ∃ ds ps d, bs.map declOf = ds.map .ok ∧ ds.map (parent names) = ps.map .ok ∧
          firstCycle? ps ds = some d ∧ d.fullName = n := by
  constructor
  · intro h
    unfold schema at h
    split at h
    · rename_i e he
      cases h
      obtain ⟨slot, -, hslot⟩ := enums_pass.exists_of_error he
      exact absurd hslot (enumOf_ne_cycle slot n)
    rename_i es' he
    split at h
    · rename_i e hd
      cases h
      obtain ⟨slot, -, hslot⟩ := decls_pass.exists_of_error hd
      exact absurd hslot (declOf_ne_cycle slot n)
    rename_i ds hd
    split at h
    · rename_i e hb
      cases h
      unfold beans at hb
      split at hb
      · rename_i e hp
        cases hb
        obtain ⟨d, -, hdp⟩ := (parents_pass names).exists_of_error hp
        exact absurd hdp (parent_ne_cycle names d n)
      rename_i ps hp
      split at hb
      · rename_i d hc
        cases hb
        exact ⟨⟨es', enums_eq_ok.1 he⟩, ds, ps, d, decls_eq_ok.1 hd, parents_eq_ok.1 hp, hc, rfl⟩
      · obtain ⟨d, -, i, hdi⟩ := beansFrom_eq_error hb
        exact absurd hdi (bean_ne_cycle ps ds d i n)
    · dsimp only at h
      split at h
      · rename_i e ht
        cases h
        obtain ⟨t, -, htable⟩ := (tables_pass _).exists_of_error ht
        exact absurd htable (table_ne_cycle _ t n)
      · cases h
  · rintro ⟨⟨es', he⟩, ds, ps, d, hd, hp, hc, rfl⟩
    simp only [schema, enums_eq_ok.2 he, decls_eq_ok.2 hd, beans, parents_eq_ok.2 hp, hc]

namespace Resolved

variable {names : Names} {ds : List BeanDecl} {ps : Parents} {s : Schema}
  (hr : Resolved names ds ps s)
include hr

theorem length_parents : ps.length = ds.length := by
  simpa using (congrArg List.length hr.resolves).symm

theorem length_beans : s.beans.length = ds.length := by
  simpa using (congrArg List.length hr.builds).symm

theorem parent_eq {id : Nat} {d : BeanDecl} (hd : ds[id]? = some d) :
    parent names d = .ok (parentOf ps id) :=
  parent_of_parents hr.resolves hd

theorem bean_eq {id : Nat} {d : BeanDecl} (hd : ds[id]? = some d) :
    bean ps ds d id = .ok (s.bean id) := by
  have h := congrArg (·[id]?) hr.builds
  simp only [List.getElem?_map, List.getElem?_zipIdx, hd, Option.map_some, Nat.zero_add] at h
  cases hb : s.beans[id]? with
  | none => simp [hb] at h
  | some b => simpa [Schema.bean, List.getD_eq_getElem?_getD, hb] using h

/-- The bean with a number holds what its declaration and the forest give. -/
theorem bean_fields {id : Nat} {d : BeanDecl} (hd : ds[id]? = some d) :
    ∃ fs, allFields ps ds id = .ok fs ∧ s.bean id =
      { fullName := d.fullName, altName := d.altName, parent := parentOf ps id,
        fields := d.fields, comment := d.comment, allFields := fs,
        children := childrenOf ps id, family := familyOf ps id, concrete := concreteOf ps id } := by
  have h := hr.bean_eq hd
  unfold bean at h
  split at h
  · cases h
  · rename_i fs hf
    exact ⟨fs, hf, (Except.ok.inj h).symm⟩

theorem forest (hin : ∀ {n id}, Assoc.find? n names = some (.bean id) → id < ds.length) :
    Forest ps := by
  refine (forest_iff_cycles fun {id p} hp => ?_).2 fun id hid => ?_
  · have hid := lt_of_parentOf hp
    rw [hr.length_parents] at hid ⊢
    have h := hr.parent_eq (List.getElem?_eq_getElem hid)
    rw [hp] at h
    obtain ⟨w, -, hl⟩ := parent_eq_some.1 h
    unfold Names.lookup at hl
    split at hl
    · rename_i hf
      exact hin (hf.trans hl)
    split at hl
    · split at hl
      · cases hl
      · exact hin hl
    · cases hl
  · exact firstCycle?_eq_none.1 hr.acyclic id (hr.length_parents ▸ hid)

end Resolved

end GameConfig.Resolve
