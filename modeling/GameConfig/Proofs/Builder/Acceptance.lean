import GameConfig.Proofs.Builder.Lines

/-
  Which histories of calls a builder accepts.

  `History.WellFormed` says what is asked of the declarations, without numbers
  and passes; `exists_build_iff` states that building asks for exactly that.
  `Accepted` collects what an accepted history and its schema have to do with
  one another, for all that is proved about schemas.
-/

namespace GameConfig

namespace History

/-- The table has the index that its mode asks for, and the index is a field of the bean. -/
structure Indexes (h : History) (t : TableDecl) (d : BeanDecl) : Prop where
  given : t.mode = .map → t.index ≠ none
  names : ∀ i, t.index = some i → ∃ ds f, h.Line d ds ∧ f ∈ ds.flatMap BeanDecl.fields ∧
    f.name = i ∧ (t.mode = .map → f.ty.isCollection = false ∧ ∀ m id, f.ty ≠ .named m (.bean id))

/-- What is asked of the declarations of a history. -/
structure WellFormed (h : History) : Prop where
  unambiguous : h.Unambiguous
  beansDeclared : ∀ n ∈ h.beanNames, n ∈ h.beans.map BeanDecl.fullName
  enumsDeclared : ∀ n ∈ h.enumNames, n ∈ h.enums.map EnumDef.fullName
  items : ∀ e ∈ h.enums, (e.items.map EnumItem.name).Nodup
  parents : ∀ d ∈ h.beans, d.parent ≠ none → ∃ p, h.IsParent p d
  ends : ∀ d ∈ h.beans, ∃ ds, h.Line d ds
  fields : ∀ d ∈ h.beans, ∀ ds, h.Line d ds →
    ((ds.flatMap BeanDecl.fields).map Field.name).Nodup
  tables : ∀ t ∈ h.tables, ∃ d, h.Finds (namespaceOf t.fullName) t.valueType d ∧ h.Indexes t d

end History

namespace Builder

open Hierarchy Resolve

/-- What an accepted history has to do with its schema: `ds` are the beans declared and `ps`
    their parents, by number. -/
structure Accepted (h : History) (ds : List BeanDecl) (ps : Parents) (s : Schema) : Prop where
  follows : Follows h (run h)
  beans : Roster .bean BeanDecl.fullName (run h).names h.beans ds
  enums : Roster .enum EnumDef.fullName (run h).names h.enums s.enums
  slots : (run h).beans.map (·.2) = ds.map some ∧ (run h).enums.map (·.2) = s.enums.map some
  items : ∀ e ∈ s.enums, (e.items.map EnumItem.name).Nodup
  resolved : Resolved (run h).names ds ps s
  forest : Forest ps
  tables : h.tables.map (table s) = s.tables.map .ok

/-- Enums are taken over as they are declared, if each one has distinct items. -/
theorem map_enumOf {slots : List (String × Option EnumDef)} {es : List EnumDef} :
    slots.map enumOf = es.map .ok ↔
      slots.map (·.2) = es.map some ∧ ∀ e ∈ es, (e.items.map EnumItem.name).Nodup := by
  induction slots generalizing es with
  | nil => cases es <;> simp
  | cons slot slots ih =>
    cases es with
    | nil => simp
    | cons e es =>
      simp only [List.map_cons, List.cons.injEq, enumOf_eq_ok, ih, List.mem_cons,
        forall_eq_or_imp]
      exact ⟨fun ⟨⟨h₁, h₂⟩, h₃, h₄⟩ => ⟨⟨h₁, h₃⟩, h₂, h₄⟩,
        fun ⟨⟨h₁, h₃⟩, h₂, h₄⟩ => ⟨⟨h₁, h₂⟩, h₃, h₄⟩⟩

/-- Beans are taken over as they are declared. -/
theorem map_declOf {slots : List (String × Option BeanDecl)} {ds : List BeanDecl} :
    slots.map declOf = ds.map .ok ↔ slots.map (·.2) = ds.map some :=
  map_eq_map_congr fun _ _ => declOf_eq_ok

theorem Roster.lt {kind : Nat → TypeRef} {α : Type} {nameOf : α → String} {names : Names}
    {declared ds : List α} (hr : Roster kind nameOf names declared ds) {n : String} {id : Nat}
    (h : Assoc.find? n names = some (kind id)) : id < ds.length := by
  obtain ⟨d, hd, -⟩ := (hr.index n id).1 h
  exact (List.getElem?_eq_some_iff.1 hd).1

/-- A builder that met a duplicate builds nothing. -/
theorem duplicates_of_build {b : Builder} {s : Schema} (hs : b.build = .ok s) :
    b.duplicates = [] := by
  unfold build at hs
  split at hs
  · cases hs
  · assumption

/-- **What is accepted was unambiguous, and every pass succeeded.** -/
theorem exists_accepted {h : History} {s : Schema} (hs : (run h).build = .ok s) :
    ∃ ds ps, Accepted h ds ps s := by
  unfold build at hs
  split at hs
  · cases hs
  · rename_i hclean
    have hb := run_follows ((duplicates_eq_nil_iff h).1 hclean)
    obtain ⟨he, ⟨ds, ps, hd, hr⟩, ht⟩ := schema_eq_ok.1 hs
    obtain ⟨he, hitems⟩ := map_enumOf.1 he
    have hbeans := hb.beans.roster (map_declOf.1 hd)
    rw [hb.tables] at ht
    exact ⟨ds, ps, hb, hbeans, hb.enums.roster he, ⟨map_declOf.1 hd, he⟩, hitems, hr,
      hr.forest hbeans.lt, ht⟩

section
variable {h : History} {ds : List BeanDecl} {ps : Parents} (hb : Follows h (run h))
  (hr : Roster .bean BeanDecl.fullName (run h).names h.beans ds)
  (hp : ds.map (parent (run h).names) = ps.map .ok) (hf : Forest ps)
include hb hr hp hf

/-- The fields of a bean are those along its line. -/
theorem allFields_iff {i : Nat} {d : BeanDecl} (hi : ds[i]? = some d) {fs : List Field} :
    allFields ps ds i = .ok fs ↔
      (fs.map Field.name).Nodup ∧ ∃ l, h.Line d l ∧ fs = l.flatMap BeanDecl.fields := by
  simp only [allFields_eq_ok, line_iff hb hr hp hf hi, exists_eq_left, and_comm]

/-- **A table resolves exactly if its value type is a bean that it indexes as it must.** -/
theorem exists_table_iff_indexes {s : Schema} (hs : Resolved (run h).names ds ps s)
    {t : TableDecl} :
    (∃ def', table s t = .ok def') ↔
      ∃ d, h.Finds (namespaceOf t.fullName) t.valueType d ∧ h.Indexes t d := by
  have hindex : ∀ {id d}, ds[id]? = some d →
      (indexFault? (s.bean id) t = none ↔ h.Indexes t d) := by
    intro id d hd
    obtain ⟨fs, hfs, hbean⟩ := hs.bean_fields hd
    obtain ⟨hnodup, l, hl, rfl⟩ := (allFields_iff hb hr hp hf hd).1 hfs
    rw [indexFault?_eq_none (by rw [hbean]; exact hnodup), hbean]
    simp only [isIndexType_iff]
    constructor
    · rintro ⟨hg, hn⟩
      refine ⟨hg, fun i hi => ?_⟩
      obtain ⟨f, hmem, hname, hix⟩ := hn i hi
      exact ⟨l, f, hl, hmem, hname, hix⟩
    · rintro ⟨hg, hn⟩
      refine ⟨hg, fun i hi => ?_⟩
      obtain ⟨l', f, hl', hmem, hname, hix⟩ := hn i hi
      rw [line_iff hb hr hp hf hd] at hl hl'
      exact ⟨f, hl ▸ hl' ▸ hmem, hname, hix⟩
  rw [exists_table_iff, hs.sameNames]
  simp only [hb.lookup_bean hr]
  constructor
  · rintro ⟨id, ⟨d, hd, hfind⟩, hx⟩
    exact ⟨d, hfind, (hindex hd).1 hx⟩
  · rintro ⟨d, hfind, hx⟩
    obtain ⟨id, hd⟩ := List.getElem?_of_mem ((hr.mem d).2 hfind.mem)
    exact ⟨id, ⟨d, hd, hfind⟩, (hindex hd).2 hx⟩

end

/-- What is accepted is well formed. -/
theorem Accepted.wellFormed {h : History} {ds : List BeanDecl} {ps : Parents} {s : Schema}
    (ha : Accepted h ds ps s) : h.WellFormed where
  unambiguous := ha.follows.unambiguous
  beansDeclared := (ha.follows.beans.exists_roster_iff bean_injective).1 ⟨_, ha.slots.1⟩
  enumsDeclared := (ha.follows.enums.exists_roster_iff enum_injective).1 ⟨_, ha.slots.2⟩
  items e he := ha.items e ((ha.enums.mem e).2 he)
  parents := (exists_parents_iff ha.follows ha.beans).1 ⟨ps, ha.resolved.resolves⟩
  ends := (forest_iff_lines ha.follows ha.beans ha.resolved.resolves).1 ha.forest
  fields d hd l hl := by
    obtain ⟨i, hi⟩ := List.getElem?_of_mem ((ha.beans.mem d).2 hd)
    obtain ⟨fs, hfs, -⟩ := ha.resolved.bean_fields hi
    obtain ⟨rfl, hnodup⟩ := allFields_eq_ok.1 hfs
    rwa [(line_iff ha.follows ha.beans ha.resolved.resolves ha.forest hi).1 hl]
  tables t ht := by
    refine (exists_table_iff_indexes ha.follows ha.beans ha.resolved.resolves ha.forest
      ha.resolved).1 ?_
    have hmem : table s t ∈ s.tables.map .ok := ha.tables ▸ List.mem_map_of_mem ht
    obtain ⟨def', -, hdef⟩ := List.mem_map.1 hmem
    exact ⟨def', hdef.symm⟩

/-- What is well formed passes every test. -/
theorem exists_build_of_wellFormed {h : History} (hw : h.WellFormed) :
    ∃ s, (run h).build = .ok s := by
  have hb := run_follows hw.unambiguous
  obtain ⟨es, hes⟩ := (hb.enums.exists_roster_iff enum_injective).2 hw.enumsDeclared
  obtain ⟨ds, hds⟩ := (hb.beans.exists_roster_iff bean_injective).2 hw.beansDeclared
  have hre := hb.enums.roster hes
  have hrb := hb.beans.roster hds
  obtain ⟨ps, hps⟩ := (exists_parents_iff hb hrb).2 hw.parents
  have hf := (forest_iff_lines hb hrb hps).2 hw.ends
  have hlen : ps.length = ds.length := by simpa using (congrArg List.length hps).symm
  obtain ⟨bs, hbs⟩ : ∃ bs : List BeanDef,
      ds.zipIdx.map (fun p => bean ps ds p.1 p.2) = bs.map .ok := by
    refine exists_map_eq fun p hdi => ?_
    obtain ⟨d, i⟩ := p
    have hi := List.mk_mem_zipIdx_iff_getElem?.1 hdi
    have hline := line_of_forest hb hrb hps hf i hi
    have hfs := allFields_eq_ok.2 ⟨rfl,
      hw.fields d ((hrb.mem d).1 (List.mem_of_getElem? hi)) _ hline⟩
    simp only [bean, hfs, Except.ok.injEq]
    exact ⟨_, rfl⟩
  have hcycle : firstCycle? ps ds = none := by
    rw [firstCycle?_eq_none, ← hlen]
    exact (forest_iff_cycles hf.inside).1 hf
  have hres : ∀ ts, Resolved (run h).names ds ps ⟨bs, es, ts, (run h).names⟩ := fun ts =>
    ⟨rfl, hps, hcycle, hbs⟩
  obtain ⟨ts, hts⟩ : ∃ ts : List TableDef,
      h.tables.map (table ⟨bs, es, [], (run h).names⟩) = ts.map .ok :=
    exists_map_eq fun t ht =>
      (exists_table_iff_indexes hb hrb hps hf (hres [])).2 (hw.tables t ht)
  refine ⟨⟨bs, es, ts, (run h).names⟩, ?_⟩
  unfold build
  rw [hb.clean, hb.tables]
  refine schema_eq_ok.2 ⟨?_, ⟨ds, ps, map_declOf.2 hds, hres ts⟩, hts⟩
  exact map_enumOf.2 ⟨hes, fun e he => hw.items e ((hre.mem e).1 he)⟩

/-- **A builder accepts exactly the well-formed declarations.** -/
theorem exists_build_iff (h : History) : (∃ s, (run h).build = .ok s) ↔ h.WellFormed := by
  constructor
  · rintro ⟨s, hs⟩
    obtain ⟨ds, ps, ha⟩ := exists_accepted hs
    exact ha.wellFormed
  · exact exists_build_of_wellFormed

end Builder

end GameConfig
