import GameConfig.Descriptor.Lower
import GameConfig.Proofs.Builder.Numbers

/-
  A descriptor as a history of calls.

  Building a descriptor first reserves all names and then declares everything,
  so its schema is the one that a history of calls leads to
  (`exists_history_of_build`).  Such a history is `Proper`: its names have been
  checked, and the types of its fields use only numbers that the builder gave
  out.
-/

namespace GameConfig

open Notation

/-- The names of the fields are names, and their types use numbers that the builder gave out. -/
structure BeanDecl.Proper (b : Builder) (d : BeanDecl) : Prop where
  fullName : isFullName d.fullName.toList = true
  fieldNames : ∀ f ∈ d.fields, isName f.name.toList = true
  fieldTypes : ∀ f ∈ d.fields, b.Has f.ty

theorem BeanDecl.Proper.mono {b b' : Builder} (h : b.Extends b') {d : BeanDecl}
    (hd : d.Proper b) : d.Proper b' :=
  ⟨hd.fullName, hd.fieldNames, fun f hf => (hd.fieldTypes f hf).mono h⟩

/-- The name and the names of the items have been checked. -/
structure EnumDef.Proper (e : EnumDef) : Prop where
  fullName : isFullName e.fullName.toList = true
  itemNames : ∀ i ∈ e.items, isName i.name.toList = true

/-- All names have been checked, and types use only numbers that were given out. -/
structure History.Proper (h : History) : Prop where
  beans : ∀ d ∈ h.beans, d.Proper (Builder.run h)
  enums : ∀ e ∈ h.enums, e.Proper

theorem checkName_eq_ok {p : List Char → Bool} {name path : String} {u : Unit} :
    checkName p name path = .ok u ↔ p name.toList = true := by
  unfold checkName
  split <;> simp [*]

/-! ## Declarations -/

theorem lowerItems_cons_eq_ok {path : String} {next : Int} {j : Nat} {e : ItemEntry}
    {es : List ItemEntry} {items : List EnumItem} :
    lowerItems path next j (e :: es) = .ok items ↔ isName e.name.toList = true ∧
      ∃ rest, lowerItems path (nextValue next (e.lowerValue next)) (j + 1) es = .ok rest ∧
        items = ⟨e.name, e.lowerValue next, e.altName, e.comment⟩ :: rest := by
  by_cases hname : isName e.name.toList = true
  · rw [lowerItems, (checkName_eq_ok (u := ())).2 hname]
    dsimp only
    cases lowerItems path (nextValue next (e.lowerValue next)) (j + 1) es with
    | error e => simp
    | ok rest => simpa [hname] using eq_comm
  · simp [lowerItems, checkName, hname]

theorem lowerItems_proper {path : String} {next : Int} {j : Nat} {es : List ItemEntry}
    {items : List EnumItem} (h : lowerItems path next j es = .ok items) :
    ∀ i ∈ items, isName i.name.toList = true := by
  induction es generalizing next j items with
  | nil => cases h; simp
  | cons e es ih =>
    obtain ⟨hname, rest, hrest, rfl⟩ := lowerItems_cons_eq_ok.1 h
    exact List.forall_mem_cons.2 ⟨hname, ih hrest⟩

/-- Where items stand is only told in objections. -/
theorem lowerItems_congr {path path' : String} {next : Int} {j j' : Nat} {es : List ItemEntry}
    {items : List EnumItem} (h : lowerItems path next j es = .ok items) :
    lowerItems path' next j' es = .ok items := by
  induction es generalizing next j j' items with
  | nil => exact h
  | cons e es ih =>
    obtain ⟨hname, rest, hrest, rfl⟩ := lowerItems_cons_eq_ok.1 h
    exact lowerItems_cons_eq_ok.2 ⟨hname, rest, ih hrest, rfl⟩

/-- What an entry declares. -/
def EnumEntry.Lowers (e : EnumEntry) (d : EnumDef) : Prop := e.lower 0 = .ok d

/-- It declares the same wherever it stands. -/
theorem EnumEntry.lower_eq_ok {i : Nat} {e : EnumEntry} {d : EnumDef} :
    e.lower i = .ok d ↔ e.Lowers d := by
  unfold Lowers lower
  constructor <;> intro h <;> split at h
  · cases h
  · rename_i hitems
    rw [lowerItems_congr hitems]
    exact h
  · cases h
  · rename_i hitems
    rw [lowerItems_congr hitems]
    exact h

theorem EnumEntry.Lowers.proper {e : EnumEntry} {d : EnumDef}
    (hn : isFullName e.name.toList = true) (h : e.Lowers d) : d.Proper := by
  unfold Lowers lower at h
  split at h
  · cases h
  · rename_i hitems
    cases h
    exact ⟨hn, lowerItems_proper hitems⟩

/-- The scope in which the type of a field is read. -/
def fieldScope (b : Builder) (bean : String) (e : FieldEntry) : Scope :=
  b.scope (namespaceOf bean) ("field `" ++ bean ++ "." ++ e.name ++ "`")

theorem lowerFields_cons_eq_ok {b : Builder} {bean path : String} {j : Nat} {e : FieldEntry}
    {es : List FieldEntry} {fs : List Field} :
    lowerFields b bean path j (e :: es) = .ok fs ↔ isName e.name.toList = true ∧
      ∃ ty, Ty.parse (fieldScope b bean e) e.type = .ok ty ∧
        ∃ rest, lowerFields b bean path (j + 1) es = .ok rest ∧
          fs = ⟨e.name, e.altName, e.variants, ty, e.tags, e.comment⟩ :: rest := by
  by_cases hname : isName e.name.toList = true
  · rw [lowerFields, (checkName_eq_ok (u := ())).2 hname]
    unfold fieldScope
    dsimp only
    cases Ty.parse (b.scope (namespaceOf bean) ("field `" ++ bean ++ "." ++ e.name ++ "`"))
      e.type with
    | error e => simp
    | ok ty =>
      cases lowerFields b bean path (j + 1) es with
      | error e => simp
      | ok rest => simpa [hname] using eq_comm
  · simp [lowerFields, checkName, hname]

theorem lowerFields_proper {b : Builder} (hb : b.Inside) {bean path : String} {j : Nat}
    {es : List FieldEntry} {fs : List Field} (h : lowerFields b bean path j es = .ok fs) :
    ∀ f ∈ fs, isName f.name.toList = true ∧ b.Has f.ty := by
  induction es generalizing j fs with
  | nil => cases h; simp
  | cons e es ih =>
    obtain ⟨hname, ty, hty, rest, hrest, rfl⟩ := lowerFields_cons_eq_ok.1 h
    have hscope : ∀ n ref, (fieldScope b bean e).resolve n = some ref →
        ref.Within b.beans.length b.enums.length := fun n ref hr =>
      Builder.findType?_within hb (show b.findType? n (some (namespaceOf bean)) = some ref from hr)
    have hhas : b.Has ty := read_within hscope hty
    exact List.forall_mem_cons.2 ⟨⟨hname, hhas⟩, ih hrest⟩

theorem BeanEntry.lower_eq_ok {b : Builder} {i : Nat} {e : BeanEntry} {d : BeanDecl} :
    e.lower b i = .ok d ↔ ∃ fs, lowerFields b e.name s!"beans[{i}]" 0 e.fields = .ok fs ∧
      d = ⟨e.name, e.parent, e.altName, fs, e.comment⟩ := by
  rw [lower]
  cases lowerFields b e.name s!"beans[{i}]" 0 e.fields with
  | error e => simp
  | ok fs => simpa using eq_comm

theorem BeanEntry.lower_proper {b : Builder} (hb : b.Inside) {i : Nat} {e : BeanEntry}
    {d : BeanDecl} (hn : isFullName e.name.toList = true) (h : e.lower b i = .ok d) :
    d.Proper b := by
  obtain ⟨fs, hfs, rfl⟩ := BeanEntry.lower_eq_ok.1 h
  have hproper := lowerFields_proper hb hfs
  exact ⟨hn, fun f hf => (hproper f hf).1, fun f hf => (hproper f hf).2⟩

/-- What entries with checked names declare is proper. -/
theorem EnumEntry.lowers_proper {es : List EnumEntry} {ds : List EnumDef}
    (h : List.Forall₂ EnumEntry.Lowers es ds)
    (hn : ∀ e ∈ es, isFullName e.name.toList = true) : ∀ d ∈ ds, d.Proper := by
  induction h with
  | nil => simp
  | cons hd _ ih =>
    rw [List.forall_mem_cons] at hn ⊢
    exact ⟨hd.proper hn.1, ih hn.2⟩

namespace Descriptor

variable {g : History} {b : Builder}

/-! ## Calls -/

theorem reserveEnums_eq_ok {i : Nat} {es : List EnumEntry} :
    reserveEnums (Builder.run g) i es = .ok b ↔
      (∀ e ∈ es, isFullName e.name.toList = true) ∧
        b = Builder.run (g ++ es.map fun e => .enumId e.name) := by
  induction es generalizing g i with
  | nil =>
    rw [reserveEnums, Except.ok.injEq, eq_comm]
    simp
  | cons e es ih =>
    have htail := ih (g := g ++ [.enumId e.name]) (i := i + 1)
    rw [Builder.run_concat, List.append_assoc] at htail
    rw [List.forall_mem_cons, and_assoc]
    by_cases hname : isFullName e.name.toList = true
    · rw [reserveEnums, (checkName_eq_ok (u := ())).2 hname]
      simp only [hname, true_and]
      exact htail
    · simp [reserveEnums, checkName, hname]

theorem reserveBeans_eq_ok {i : Nat} {es : List BeanEntry} :
    reserveBeans (Builder.run g) i es = .ok b ↔
      (∀ e ∈ es, isFullName e.name.toList = true) ∧
        b = Builder.run (g ++ es.map fun e => .beanId e.name) := by
  induction es generalizing g i with
  | nil =>
    rw [reserveBeans, Except.ok.injEq, eq_comm]
    simp
  | cons e es ih =>
    have htail := ih (g := g ++ [.beanId e.name]) (i := i + 1)
    rw [Builder.run_concat, List.append_assoc] at htail
    rw [List.forall_mem_cons, and_assoc]
    by_cases hname : isFullName e.name.toList = true
    · rw [reserveBeans, (checkName_eq_ok (u := ())).2 hname]
      simp only [hname, true_and]
      exact htail
    · simp [reserveBeans, checkName, hname]

/-- The enums are declared as their entries say. -/
theorem declareEnums_eq_ok {i : Nat} {es : List EnumEntry} :
    declareEnums (Builder.run g) i es = .ok b ↔
      ∃ ds, List.Forall₂ EnumEntry.Lowers es ds ∧ b = Builder.run (g ++ ds.map .addEnum) := by
  induction es generalizing g i with
  | nil =>
    rw [declareEnums, Except.ok.injEq, eq_comm]
    simp
  | cons e es ih =>
    rw [declareEnums]
    cases he : e.lower i with
    | error err =>
      simp only [reduceCtorEq, List.forall₂_cons_left_iff, false_iff]
      rintro ⟨ds, ⟨d, ds', hd, -⟩, -⟩
      rw [EnumEntry.lower_eq_ok.2 hd] at he
      cases he
    | ok d =>
      have htail := ih (g := g ++ [.addEnum d]) (i := i + 1)
      simp only [Builder.run_concat, List.append_assoc] at htail
      dsimp only
      refine htail.trans ⟨?_, ?_⟩
      · rintro ⟨ds, hds, rfl⟩
        exact ⟨d :: ds, .cons (EnumEntry.lower_eq_ok.1 he) hds, rfl⟩
      · rintro ⟨_, hds, rfl⟩
        cases hds with
        | cons hd hds =>
          rw [EnumEntry.lower_eq_ok.2 hd, Except.ok.injEq] at he
          subst he
          exact ⟨_, hds, rfl⟩

/-- A declaration is read with the numbers given out so far, which stay good. -/
theorem declareBeans_eq_ok {i : Nat} {es : List BeanEntry}
    (h : declareBeans (Builder.run g) i es = .ok b)
    (hn : ∀ e ∈ es, isFullName e.name.toList = true) :
    ∃ ds : List BeanDecl, b = Builder.run (g ++ ds.map .addBean) ∧ ∀ d ∈ ds, d.Proper b := by
  induction es generalizing g i with
  | nil => cases h; exact ⟨[], by simp, by simp⟩
  | cons e es ih =>
    unfold declareBeans at h
    split at h
    · cases h
    rename_i d hd
    rw [List.forall_mem_cons] at hn
    obtain ⟨ds, rfl, hds⟩ := ih (g := g ++ [.addBean d]) (by rw [Builder.run_concat]; exact h) hn.2
    refine ⟨d :: ds, by simp, List.forall_mem_cons.2 ⟨?_, hds⟩⟩
    refine (BeanEntry.lower_proper (Builder.run_inside g) hn.1 hd).mono ?_
    rw [List.append_assoc]
    exact Builder.run_extends g _

theorem declareTables_eq (ts : List TableEntry) :
    ts.foldl (fun b t => b.addTable t.lower) (Builder.run g) =
      Builder.run (g ++ ts.map fun t => .addTable t.lower) := by
  induction ts generalizing g with
  | nil => simp
  | cons t ts ih =>
    have h := ih (g := g ++ [.addTable t.lower])
    rw [Builder.run_concat] at h
    simpa [Builder.apply] using h

/-- The calls that reserve the names of a descriptor. -/
def reservations (d : Descriptor) : History :=
  (d.enums.map fun e => .enumId e.name) ++ d.beans.map fun e => .beanId e.name

/-- Collecting is checking and reserving all names, then declaring what entries say. -/
theorem collect_eq_ok {d : Descriptor} :
    d.collect = .ok b ↔
      (∀ e ∈ d.enums, isFullName e.name.toList = true) ∧
      (∀ e ∈ d.beans, isFullName e.name.toList = true) ∧
      ∃ es, List.Forall₂ EnumEntry.Lowers d.enums es ∧
      ∃ b', declareBeans (Builder.run (d.reservations ++ es.map .addEnum)) 0 d.beans = .ok b' ∧
        b = d.tables.foldl (fun b t => b.addTable t.lower) b' := by
  constructor
  · intro h
    unfold collect at h
    split at h
    · cases h
    rename_i h₁
    split at h
    · cases h
    rename_i h₂
    split at h
    · cases h
    rename_i h₃
    split at h
    · cases h
    rename_i b' h₄
    cases h
    obtain ⟨hen, rfl⟩ := (reserveEnums_eq_ok (g := [])).1 h₁
    obtain ⟨hbn, rfl⟩ := reserveBeans_eq_ok.1 h₂
    obtain ⟨es, hes, rfl⟩ := declareEnums_eq_ok.1 h₃
    exact ⟨hen, hbn, es, hes, b', h₄, rfl⟩
  · rintro ⟨hen, hbn, es, hes, b', h₄, rfl⟩
    have h₁ : reserveEnums .empty 0 d.enums =
        .ok (Builder.run (d.enums.map fun e => .enumId e.name)) :=
      (reserveEnums_eq_ok (g := [])).2 ⟨hen, rfl⟩
    have h₂ : reserveBeans (Builder.run (d.enums.map fun e => .enumId e.name)) 0 d.beans =
        .ok (Builder.run d.reservations) := reserveBeans_eq_ok.2 ⟨hbn, rfl⟩
    have h₃ : declareEnums (Builder.run d.reservations) 0 d.enums =
        .ok (Builder.run (d.reservations ++ es.map .addEnum)) :=
      declareEnums_eq_ok.2 ⟨es, hes, rfl⟩
    simp only [collect, h₁, h₂, h₃, h₄]

/-- **A descriptor is collected by a proper history of calls.** -/
theorem exists_history_of_collect {d : Descriptor} (h : d.collect = .ok b) :
    ∃ g : History, b = Builder.run g ∧ g.Proper := by
  obtain ⟨hen, hbn, es, hes, b', hb', rfl⟩ := collect_eq_ok.1 h
  obtain ⟨ds, rfl, hds⟩ := declareBeans_eq_ok hb' hbn
  refine ⟨_, declareTables_eq d.tables, ⟨fun e he => ?_, fun e he => ?_⟩⟩
  · have hmem : e ∈ ds := by
      simpa [reservations, History.beans, List.filterMap_append, List.filterMap_map,
        Function.comp_def] using he
    exact (hds e hmem).mono (Builder.run_extends _ _)
  · refine EnumEntry.lowers_proper hes hen e ?_
    simpa [reservations, History.enums, List.filterMap_append, List.filterMap_map,
      Function.comp_def] using he

/-- **Whatever a descriptor builds, a proper history of calls builds.** -/
theorem exists_history_of_build {d : Descriptor} {s : Schema} (h : d.build = .ok s) :
    ∃ g : History, (Builder.run g).build = .ok s ∧ g.Proper := by
  unfold build at h
  split at h
  · cases h
  · rename_i hb
    obtain ⟨g, rfl, hg⟩ := exists_history_of_collect hb
    exact ⟨g, h, hg⟩

end Descriptor

end GameConfig
