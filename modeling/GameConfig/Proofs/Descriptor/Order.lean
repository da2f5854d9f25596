import GameConfig.Proofs.Descriptor.History
import GameConfig.Proofs.Schema.Renumbered
import Mathlib

/-
  The order of declarations does not matter.

  All names are reserved before any type is read, so an entry declares the same
  wherever it stands, up to the numbers that the names were given
  (`BeanEntry.lower_renumber`).  `build_eq_ok` takes building apart into what
  the entries declare and a history of calls; exchanging entries exchanges
  declarations and renumbers types, and the two schemas agree (`build_perm`).
-/

namespace GameConfig

open Notation

variable {ρ : Renumbering}

/-! ## Entries -/

theorem lowerFields_renumber {b c : Builder} (hf : ρ.Fits b.names c.names)
    {bean path path' : String} {j j' : Nat} {es : List FieldEntry} {fs : List Field}
    (h : lowerFields b bean path j es = .ok fs) :
    lowerFields c bean path' j' es = .ok (fs.map (·.renumber ρ)) := by
  induction es generalizing j j' fs with
  | nil => cases h; rfl
  | cons e es ih =>
    obtain ⟨hname, ty, hty, rest, hrest, rfl⟩ := lowerFields_cons_eq_ok.1 h
    have hscope : ∀ n, (fieldScope c bean e).resolve n =
        ((fieldScope b bean e).resolve n).map (.renumber ρ) :=
      fun n => hf.lookup n (some (namespaceOf bean))
    exact lowerFields_cons_eq_ok.2
      ⟨hname, _, Ty.parse_renumber ρ hscope hty, _, ih hrest, rfl⟩

/-- What an entry declares under the numbers of a builder. -/
def BeanEntry.Lowers (b : Builder) (e : BeanEntry) (d : BeanDecl) : Prop := e.lower b 0 = .ok d

/-- **An entry declares the same wherever it stands, up to the numbers of names.** -/
theorem BeanEntry.lower_renumber {b c : Builder} (hf : ρ.Fits b.names c.names) {i : Nat}
    {e : BeanEntry} {d : BeanDecl} (h : e.lower b i = .ok d) (j : Nat) :
    e.lower c j = .ok (d.renumber ρ) := by
  obtain ⟨fs, hfs, rfl⟩ := BeanEntry.lower_eq_ok.1 h
  exact BeanEntry.lower_eq_ok.2 ⟨_, lowerFields_renumber hf hfs, rfl⟩

/-- With the same numbers it is the same. -/
theorem BeanEntry.lower_congr {b c : Builder} (hnames : c.names = b.names) {i : Nat}
    {e : BeanEntry} {d : BeanDecl} (h : e.lower b i = .ok d) (j : Nat) : e.lower c j = .ok d := by
  have hfits : Renumbering.id.Fits b.names c.names := hnames ▸ Renumbering.fits_id c.names
  simpa using lower_renumber hfits h j

theorem EnumEntry.Lowers.fullName {e : EnumEntry} {d : EnumDef} (h : e.Lowers d) :
    d.fullName = e.name := by
  unfold Lowers lower at h
  split at h
  · cases h
  · cases h; rfl

theorem BeanEntry.Lowers.fullName {b : Builder} {e : BeanEntry} {d : BeanDecl}
    (h : e.Lowers b d) : d.fullName = e.name := by
  obtain ⟨fs, -, rfl⟩ := BeanEntry.lower_eq_ok.1 h
  rfl

/-- Declarations are called as their entries. -/
theorem map_fullName {α β : Type} {r : α → β → Prop} {as : List α} {bs : List β}
    (h : List.Forall₂ r as bs) (name : α → String) (fullName : β → String)
    (hr : ∀ a b, r a b → fullName b = name a) : bs.map fullName = as.map name := by
  induction h with
  | nil => rfl
  | cons hd _ ih => rw [List.map_cons, List.map_cons, hr _ _ hd, ih]

theorem EnumEntry.map_fullName {es : List EnumEntry} {ds : List EnumDef}
    (h : List.Forall₂ EnumEntry.Lowers es ds) :
    ds.map EnumDef.fullName = es.map EnumEntry.name :=
  GameConfig.map_fullName h _ _ fun _ _ => Lowers.fullName

theorem BeanEntry.map_fullName {b : Builder} {es : List BeanEntry} {ds : List BeanDecl}
    (h : List.Forall₂ (BeanEntry.Lowers b) es ds) :
    ds.map BeanDecl.fullName = es.map BeanEntry.name :=
  GameConfig.map_fullName h _ _ fun _ _ => Lowers.fullName

namespace Descriptor

/-! ## Calls -/

section
variable {g : History} {b : Builder} {es : List BeanEntry} {ds : List BeanDecl}

/-- Declaring a bean whose name is known changes no number. -/
theorem run_addBean_names {d : BeanDecl} (hu : History.Unambiguous (g ++ [.addBean d]))
    (hn : d.fullName ∈ g.beanNames) :
    (Builder.run (g ++ [.addBean d])).names = (Builder.run g).names :=
  Builder.run_append_names hu (by simpa using hn) (by simp)

/-- So all types are read under the same numbers. -/
theorem lowers_of_declareBeans {i : Nat} (hn : ∀ e ∈ es, e.name ∈ g.beanNames)
    (h : declareBeans (Builder.run g) i es = .ok b) (hclean : b.duplicates = []) :
    ∃ ds : List BeanDecl, List.Forall₂ (BeanEntry.Lowers (Builder.run g)) es ds ∧
      b = Builder.run (g ++ ds.map .addBean) := by
  induction es generalizing g i with
  | nil => cases h; exact ⟨[], .nil, by simp⟩
  | cons e es ih =>
    rw [List.forall_mem_cons] at hn
    unfold declareBeans at h
    split at h
    · cases h
    rename_i d hlower
    have hd : e.Lowers (Builder.run g) d := BeanEntry.lower_congr rfl hlower 0
    obtain ⟨ds, hds, rfl⟩ := ih (g := g ++ [.addBean d]) (fun e he => by simp [hn.2 e he])
      (by rw [Builder.run_concat]; exact h)
    have hu := ((Builder.duplicates_eq_nil_iff _).1 hclean).of_append
    have hnames := run_addBean_names hu (hd.fullName ▸ hn.1)
    refine ⟨d :: ds, .cons hd (hds.imp fun _ _ h => ?_), by simp⟩
    exact BeanEntry.lower_congr hnames.symm h 0

theorem declareBeans_of_lowers {i : Nat} (hn : ∀ e ∈ es, e.name ∈ g.beanNames)
    (h : List.Forall₂ (BeanEntry.Lowers (Builder.run g)) es ds)
    (hu : History.Unambiguous (g ++ ds.map .addBean)) :
    declareBeans (Builder.run g) i es = .ok (Builder.run (g ++ ds.map .addBean)) := by
  induction es generalizing g i ds with
  | nil => cases h; simp [declareBeans]
  | cons e es ih =>
    cases h with
    | cons hd hds =>
      rename_i d ds
      rw [List.forall_mem_cons] at hn
      have hsplit : g ++ (d :: ds).map Call.addBean =
          g ++ [.addBean d] ++ ds.map .addBean := by simp
      rw [hsplit] at hu ⊢
      have hnames := run_addBean_names hu.of_append (hd.fullName ▸ hn.1)
      rw [declareBeans, BeanEntry.lower_congr rfl hd i]
      rw [← ih (i := i + 1) (fun e he => by simp [hn.2 e he])
        (hds.imp fun _ _ h => BeanEntry.lower_congr hnames h 0) hu, Builder.run_concat]
      rfl

end

/-- The calls that declare these enums and beans and the tables of a descriptor. -/
def calls (d : Descriptor) (es : List EnumDef) (ds : List BeanDecl) : History :=
  d.reservations ++ es.map .addEnum ++ ds.map .addBean ++ d.tables.map fun t => .addTable t.lower

/-- What the entries of a descriptor declare under the numbers that its names are given. -/
structure Lowers (d : Descriptor) (es : List EnumDef) (ds : List BeanDecl) : Prop where
  enumNames : ∀ e ∈ d.enums, isFullName e.name.toList = true
  beanNames : ∀ e ∈ d.beans, isFullName e.name.toList = true
  enums : List.Forall₂ EnumEntry.Lowers d.enums es
  beans : List.Forall₂ (BeanEntry.Lowers (Builder.run d.reservations)) d.beans ds

section
variable {d : Descriptor} {es : List EnumDef} {ds : List BeanDecl}

@[simp]
theorem beanNames_reservations : d.reservations.beanNames = d.beans.map BeanEntry.name := by
  simp [reservations, History.beanNames, Function.comp_def]

@[simp]
theorem enumNames_reservations : d.reservations.enumNames = d.enums.map EnumEntry.name := by
  simp [reservations, History.enumNames, List.filterMap_map, Function.comp_def]

@[simp]
theorem beans_calls : (d.calls es ds).beans = ds := by
  simp [calls, reservations, History.beans, List.filterMap_map, Function.comp_def]

@[simp]
theorem enums_calls : (d.calls es ds).enums = es := by
  simp [calls, reservations, History.enums, List.filterMap_map, Function.comp_def]

@[simp]
theorem tables_calls : (d.calls es ds).tables = d.tables.map TableEntry.lower := by
  simp [calls, reservations, History.tables, List.filterMap_map, Function.comp_def]

theorem beanNames_calls :
    (d.calls es ds).beanNames = d.beans.map BeanEntry.name ++ ds.map BeanDecl.fullName := by
  simp [calls, reservations, History.beanNames, List.filterMap_map, Function.comp_def]

theorem enumNames_calls :
    (d.calls es ds).enumNames = d.enums.map EnumEntry.name ++ es.map EnumDef.fullName := by
  simp [calls, reservations, History.enumNames, List.filterMap_map, Function.comp_def]

/-- Declaring enums changes no number. -/
theorem addEnums_names (hes : List.Forall₂ EnumEntry.Lowers d.enums es)
    (hu : History.Unambiguous (d.reservations ++ es.map .addEnum)) :
    (Builder.run (d.reservations ++ es.map .addEnum)).names =
      (Builder.run d.reservations).names := by
  refine Builder.run_append_names hu (fun n hn => ?_) fun n hn => ?_
  · simp [History.beanNames, List.filterMap_map, Function.comp_def] at hn
  · rw [enumNames_reservations, ← EnumEntry.map_fullName hes]
    simpa [History.enumNames, List.filterMap_map, Function.comp_def] using hn

variable (hl : d.Lowers es ds)
include hl

/-- Declarations mention no new names. -/
theorem Lowers.mem_beanNames {n : String} :
    n ∈ (d.calls es ds).beanNames ↔ n ∈ d.beans.map BeanEntry.name := by
  rw [beanNames_calls, BeanEntry.map_fullName hl.beans, List.mem_append, or_self]

theorem Lowers.mem_enumNames {n : String} :
    n ∈ (d.calls es ds).enumNames ↔ n ∈ d.enums.map EnumEntry.name := by
  rw [enumNames_calls, EnumEntry.map_fullName hl.enums, List.mem_append, or_self]

/-- **All numbers are given by the reservations.** -/
theorem Lowers.names (hu : (d.calls es ds).Unambiguous) :
    (Builder.run (d.calls es ds)).names = (Builder.run d.reservations).names := by
  have hsplit : d.calls es ds = d.reservations ++ (es.map .addEnum ++ (ds.map .addBean ++
      d.tables.map fun t => .addTable t.lower)) := by simp [calls]
  have hbeans := fun n => hl.mem_beanNames (n := n)
  have henums := fun n => hl.mem_enumNames (n := n)
  rw [hsplit] at hu hbeans henums ⊢
  refine Builder.run_append_names hu (fun n hn => ?_) fun n hn => ?_
  · rw [beanNames_reservations, ← hbeans, History.beanNames_append]
    exact List.mem_append_right _ hn
  · rw [enumNames_reservations, ← henums, History.enumNames_append]
    exact List.mem_append_right _ hn

end

theorem foldl_addTable_duplicates (b : Builder) (ts : List TableEntry) :
    (ts.foldl (fun b t => b.addTable t.lower) b).duplicates = b.duplicates := by
  induction ts generalizing b with
  | nil => rfl
  | cons t ts ih => exact ih (b.addTable t.lower)

/-- **Building is lowering all entries, then building what they declare.** -/
theorem build_eq_ok {d : Descriptor} {s : Schema} :
    d.build = .ok s ↔
      ∃ es ds, d.Lowers es ds ∧ (Builder.run (d.calls es ds)).build = .ok s := by
  have hknown : ∀ es : List EnumDef, ∀ e ∈ d.beans,
      e.name ∈ History.beanNames (d.reservations ++ es.map .addEnum) := fun es e he => by
    rw [History.beanNames_append, beanNames_reservations]
    exact List.mem_append_left _ (List.mem_map_of_mem he)
  constructor
  · intro h
    unfold build at h
    split at h
    · cases h
    rename_i b hb
    obtain ⟨hen, hbn, es, hes, b', hb', rfl⟩ := collect_eq_ok.1 hb
    have hclean : b'.duplicates = [] :=
      (foldl_addTable_duplicates b' d.tables) ▸ Builder.duplicates_of_build h
    obtain ⟨ds, hds, rfl⟩ := lowers_of_declareBeans (hknown es) hb' hclean
    have hu := (Builder.duplicates_eq_nil_iff _).1 hclean
    have hnames := addEnums_names hes hu.of_append
    rw [declareTables_eq] at h
    exact ⟨es, ds, ⟨hen, hbn, hes, hds.imp fun _ _ h => BeanEntry.lower_congr hnames.symm h 0⟩, h⟩
  · rintro ⟨es, ds, hl, h⟩
    have hu := (Builder.duplicates_eq_nil_iff _).1 (Builder.duplicates_of_build h)
    have hnames := addEnums_names hl.enums hu.of_append.of_append
    have hds := declareBeans_of_lowers (i := 0) (hknown es)
      (hl.beans.imp fun _ _ h => BeanEntry.lower_congr hnames h 0) hu.of_append
    have hcollect := collect_eq_ok.2 ⟨hl.enumNames, hl.beanNames, es, hl.enums, _, hds, rfl⟩
    rw [declareTables_eq] at hcollect
    simp only [build, hcollect]
    exact h

/-! ## Other orders -/

section
variable {d e : Descriptor} (he : d.enums.Perm e.enums) (hb : d.beans.Perm e.beans)
  (ht : d.tables = e.tables)
include he hb

/-- Reserving names in another order changes the numbers only. -/
theorem exists_fits (hu : d.reservations.Unambiguous) :
    ∃ ρ : Renumbering,
      ρ.Fits (Builder.run d.reservations).names (Builder.run e.reservations).names := by
  have hbeans : ∀ n, n ∈ e.reservations.beanNames ↔ n ∈ d.reservations.beanNames := fun n => by
    rw [beanNames_reservations, beanNames_reservations, (hb.map BeanEntry.name).mem_iff]
  have henums : ∀ n, n ∈ e.reservations.enumNames ↔ n ∈ d.reservations.enumNames := fun n => by
    rw [enumNames_reservations, enumNames_reservations, (he.map EnumEntry.name).mem_iff]
  have hu' : e.reservations.Unambiguous := {
    kinds n hn hn' := hu.kinds n ((hbeans n).1 hn) ((henums n).1 hn')
    beansOnce := by simp [reservations, History.beans, List.filterMap_map, Function.comp_def]
    enumsOnce := by simp [reservations, History.enums, List.filterMap_map, Function.comp_def] }
  exact ⟨_, Builder.renumbering_fits (Builder.run_follows hu) (Builder.run_follows hu') hbeans
    henums⟩

/-- The entries in another order declare the same in another order, under other numbers. -/
theorem Lowers.perm {es : List EnumDef} {ds : List BeanDecl} (hl : d.Lowers es ds)
    (hf : ρ.Fits (Builder.run d.reservations).names (Builder.run e.reservations).names) :
    ∃ es' ds', e.Lowers es' ds' ∧ es'.Perm es ∧ ds'.Perm (ds.map (·.renumber ρ)) := by
  obtain ⟨es', hes', hperm⟩ := List.perm_comp_forall₂ he.symm hl.enums
  have hbeans : List.Forall₂ (BeanEntry.Lowers (Builder.run e.reservations)) d.beans
      (ds.map (·.renumber ρ)) :=
    List.forall₂_map_right_iff.2 (hl.beans.imp fun _ _ h => BeanEntry.lower_renumber hf h 0)
  obtain ⟨ds', hds', hperm'⟩ := List.perm_comp_forall₂ hb.symm hbeans
  exact ⟨es', ds', ⟨fun f hf => hl.enumNames f (he.mem_iff.2 hf),
    fun f hf => hl.beanNames f (hb.mem_iff.2 hf), hes', hds'⟩, hperm, hperm'⟩

include ht

/-- **What a descriptor builds, it builds in every order, under other numbers.** -/
theorem exists_build_of_perm {s : Schema} (h : d.build = .ok s) :
    ∃ ρ t, e.build = .ok t ∧ s.Renumbered ρ t := by
  obtain ⟨es, ds, hl, hs⟩ := build_eq_ok.1 h
  have hu := (Builder.duplicates_eq_nil_iff _).1 (Builder.duplicates_of_build hs)
  obtain ⟨ρ, hf⟩ := exists_fits he hb (e := e) hu.of_append.of_append.of_append
  obtain ⟨es', ds', hl', hes, hds⟩ := hl.perm he hb hf
  have hr : (d.calls es ds).Renumbered ρ (e.calls es' ds') := {
    beanNames n := by
      rw [hl.mem_beanNames, hl'.mem_beanNames, (hb.map BeanEntry.name).mem_iff]
    enumNames n := by
      rw [hl.mem_enumNames, hl'.mem_enumNames, (he.map EnumEntry.name).mem_iff]
    beans := by simpa using hds
    enums := by simpa using hes
    tables := by simp [ht] }
  obtain ⟨_, _, has⟩ := Builder.exists_accepted hs
  obtain ⟨t, ht'⟩ := Builder.exists_build_of_wellFormed (hr.wellFormed has.wellFormed)
  obtain ⟨_, _, hat⟩ := Builder.exists_accepted ht'
  refine ⟨ρ, t, build_eq_ok.2 ⟨es', ds', hl', ht'⟩, has.renumbered hat hr ?_⟩
  rw [has.resolved.sameNames, hat.resolved.sameNames, hl.names hu,
    hl'.names (hr.unambiguous hu)]
  exact hf

/-- **The order of enums and beans does not matter**: in every order a descriptor builds or does
    not, and the schemas agree up to the numbers of beans and enums. -/
theorem build_perm :
    ((∃ s, d.build = .ok s) ↔ ∃ t, e.build = .ok t) ∧
      ∀ s t, d.build = .ok s → e.build = .ok t → ∃ ρ, s.Renumbered ρ t := by
  refine ⟨⟨fun ⟨s, hs⟩ => ?_, fun ⟨t, ht'⟩ => ?_⟩, fun s t hs ht' => ?_⟩
  · obtain ⟨_, t, ht', -⟩ := exists_build_of_perm he hb ht hs
    exact ⟨t, ht'⟩
  · obtain ⟨_, s, hs, -⟩ := exists_build_of_perm he.symm hb.symm ht.symm ht'
    exact ⟨s, hs⟩
  · obtain ⟨ρ, t', ht'', hr⟩ := exists_build_of_perm he hb ht hs
    rw [ht', Except.ok.injEq] at ht''
    exact ⟨ρ, ht'' ▸ hr⟩

end

/-- Two beans that mention one another, the parent behind its child. -/
def zoo : Descriptor where
  enums := [
    ⟨"zoo.Diet", false, none, [⟨"grass", none, none, none⟩]⟩,
    ⟨"Size", false, none, [⟨"small", none, none, none⟩, ⟨"big", none, none, none⟩]⟩]
  beans := [
    ⟨"zoo.Cat", some "Animal", none, none, [⟨"prey", "list,Animal", none, [], [], none⟩]⟩,
    ⟨"zoo.Animal", none, none, none, [⟨"rival", "Cat?", none, [], [], none⟩,
      ⟨"diet", "Diet", none, [], [], none⟩, ⟨"size", "Size", none, [], [], none⟩]⟩]
  tables := [⟨"zoo.TbAnimal", "Animal", .list, none, [], none⟩]

def zooSchema : Schema :=
  let prey : Field := ⟨"prey", none, [], .seq .plain .list (.named .plain (.bean 1)), [], none⟩
  let traits : List Field := [⟨"rival", none, [], .named ⟨true, []⟩ (.bean 0), [], none⟩,
    ⟨"diet", none, [], .named .plain (.enum 0), [], none⟩,
    ⟨"size", none, [], .named .plain (.enum 1), [], none⟩]
  { beans := [⟨"zoo.Cat", none, some 1, [prey], none, traits ++ [prey], [], [0], [0]⟩,
      ⟨"zoo.Animal", none, none, traits, none, traits, [0], [1, 0], [0]⟩]
    enums := [⟨"zoo.Diet", [⟨"grass", .int 0, none, none⟩], false, none⟩,
      ⟨"Size", [⟨"small", .int 0, none, none⟩, ⟨"big", .int 1, none, none⟩], false, none⟩]
    tables := [⟨"zoo.TbAnimal", 1, .list, none, [], none⟩]
    names := [("zoo.Diet", .enum 0), ("Size", .enum 1), ("zoo.Cat", .bean 0),
      ("zoo.Animal", .bean 1)] }

theorem build_perm_zoo : zoo.build = .ok zooSchema ∧
    ∃ ρ t, Descriptor.build ⟨zoo.enums.reverse, zoo.beans.reverse, zoo.tables⟩ = .ok t ∧
      zooSchema.Renumbered ρ t := by
  have hbuild : zoo.build = .ok zooSchema := by cbv
  obtain ⟨hiff, hagree⟩ := build_perm (d := zoo)
    (e := ⟨zoo.enums.reverse, zoo.beans.reverse, zoo.tables⟩) (List.reverse_perm _).symm
    (List.reverse_perm _).symm rfl
  obtain ⟨t, ht⟩ := hiff.1 ⟨_, hbuild⟩
  obtain ⟨ρ, hρ⟩ := hagree _ _ hbuild ht
  exact ⟨hbuild, ρ, t, ht, hρ⟩

end Descriptor

end GameConfig
