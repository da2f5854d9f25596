import GameConfig.Schema.Builder
import Mathlib.Data.List.Induction
import Mathlib.Data.List.Nodup

/-
  What a builder holds after a history of calls.

  A `History` is the list of calls made on a new builder.  It says by itself
  which names were mentioned as beans or enums and what was declared;
  `Builder.run` gives the state that the calls lead to.

  * `History.Unambiguous`: no name stands for both kinds, and none is declared
    twice; this is so exactly if the builder has met no duplicate
    (`duplicates_eq_nil_iff`);
  * `Ledger` relates one kind of a builder's names to a history: the numbers,
    the names mentioned and the declarations agree (`run_ledgers`).
-/

namespace GameConfig

/-- A call on a builder. -/
inductive Call where
  | beanId (name : String)
  | enumId (name : String)
  | addBean (decl : BeanDecl)
  | addEnum (decl : EnumDef)
  | addTable (decl : TableDecl)

namespace Call

/-- The name that a call mentions as a bean's. -/
@[simp]
def beanName? : Call → Option String
  | beanId n => some n
  | addBean d => some d.fullName
  | _ => none

/-- The name that a call mentions as an enum's. -/
@[simp]
def enumName? : Call → Option String
  | enumId n => some n
  | addEnum e => some e.fullName
  | _ => none

@[simp]
def bean? : Call → Option BeanDecl
  | addBean d => some d
  | _ => none

@[simp]
def enum? : Call → Option EnumDef
  | addEnum e => some e
  | _ => none

@[simp]
def table? : Call → Option TableDecl
  | addTable t => some t
  | _ => none

end Call

/-- The calls made on a new builder, in order. -/
abbrev History := List Call

namespace History

/-- The names mentioned as beans. -/
def beanNames (h : History) : List String := h.filterMap Call.beanName?

/-- The names mentioned as enums. -/
def enumNames (h : History) : List String := h.filterMap Call.enumName?

/-- The beans declared. -/
def beans (h : History) : List BeanDecl := h.filterMap Call.bean?

/-- The enums declared. -/
def enums (h : History) : List EnumDef := h.filterMap Call.enum?

/-- The tables declared. -/
def tables (h : History) : List TableDecl := h.filterMap Call.table?

section
variable (h g : History)

@[simp]
theorem beanNames_append : beanNames (h ++ g) = beanNames h ++ beanNames g :=
  List.filterMap_append

@[simp]
theorem enumNames_append : enumNames (h ++ g) = enumNames h ++ enumNames g :=
  List.filterMap_append

@[simp]
theorem beans_append : beans (h ++ g) = beans h ++ beans g := List.filterMap_append

@[simp]
theorem enums_append : enums (h ++ g) = enums h ++ enums g := List.filterMap_append

@[simp]
theorem tables_append : tables (h ++ g) = tables h ++ tables g := List.filterMap_append

variable (c : Call)

@[simp]
theorem beanNames_singleton : beanNames [c] = c.beanName?.toList := by
  cases c <;> rfl

@[simp]
theorem enumNames_singleton : enumNames [c] = c.enumName?.toList := by
  cases c <;> rfl

@[simp]
theorem beans_singleton : beans [c] = c.bean?.toList := by
  cases c <;> rfl

@[simp]
theorem enums_singleton : enums [c] = c.enum?.toList := by
  cases c <;> rfl

@[simp]
theorem tables_singleton : tables [c] = c.table?.toList := by
  cases c <;> rfl

end

/-- No name is used both as a bean and as an enum, and none is declared twice. -/
structure Unambiguous (h : History) : Prop where
  kinds : ∀ n, n ∈ h.beanNames → n ∉ h.enumNames
  beansOnce : (h.beans.map BeanDecl.fullName).Nodup
  enumsOnce : (h.enums.map EnumDef.fullName).Nodup

theorem Unambiguous.of_append {h g : History} (hu : Unambiguous (h ++ g)) : Unambiguous h where
  kinds n hb he := hu.kinds n (by simp [hb]) (by simp [he])
  beansOnce := by
    have := hu.beansOnce
    rw [beans_append, List.map_append] at this
    exact this.of_append_left
  enumsOnce := by
    have := hu.enumsOnce
    rw [enums_append, List.map_append] at this
    exact this.of_append_left

end History

namespace Builder

/-- The state behind a call. -/
def apply (b : Builder) : Call → Builder
  | .beanId n => (b.beanId n).2
  | .enumId n => (b.enumId n).2
  | .addBean d => (b.addBean d).2
  | .addEnum e => (b.addEnum e).2
  | .addTable t => b.addTable t

/-- The state behind a history of calls. -/
def run (h : History) : Builder := h.foldl apply .empty

theorem run_concat (h : History) (c : Call) : run (h ++ [c]) = (run h).apply c := by
  simp [run, List.foldl_append]

/-! ## One kind of names -/

variable {α : Type} {kind : Nat → TypeRef} {nameOf : α → String} {names : Names}
  {slots : List (String × Option α)} {mentioned : List String} {declared : List α}

/-- The name of the slot with a number. -/
def slotName? (slots : List (String × Option α)) (id : Nat) : Option String :=
  (slots[id]?).map (·.1)

/-- The names and slots of one kind agree with what was mentioned and declared. -/
structure Ledger (kind : Nat → TypeRef) (nameOf : α → String) (names : Names)
    (slots : List (String × Option α)) (mentioned : List String) (declared : List α) : Prop where
  index : ∀ n id, Assoc.find? n names = some (kind id) ↔ slotName? slots id = some n
  mentions : ∀ n, n ∈ slots.map (·.1) ↔ n ∈ mentioned
  declares : ∀ n a, (n, some a) ∈ slots ↔ a ∈ declared ∧ nameOf a = n
  once : (declared.map nameOf).Nodup

theorem slotName?_eq_some {id : Nat} {n : String} :
    slotName? slots id = some n ↔ ∃ a, slots[id]? = some (n, a) := by
  rw [slotName?, Option.map_eq_some_iff]
  exact ⟨fun ⟨⟨_, a⟩, h, e⟩ => ⟨a, e ▸ h⟩, fun ⟨a, h⟩ => ⟨_, h, rfl⟩⟩

theorem mem_names_iff {n : String} :
    n ∈ slots.map (·.1) ↔ ∃ id, slotName? slots id = some n := by
  rw [List.mem_iff_getElem?]
  simp only [slotName?, List.getElem?_map]

theorem slotName?_append {id : Nat} {n m : String} :
    slotName? (slots ++ [(m, none)]) id = some n ↔
      slotName? slots id = some n ∨ id = slots.length ∧ m = n := by
  simp only [slotName?]
  rcases Nat.lt_trichotomy id slots.length with h | rfl | h
  · rw [List.getElem?_append_left h]
    simp [Nat.ne_of_lt h]
  · simp
  · rw [List.getElem?_eq_none (by simp; omega), List.getElem?_eq_none (by omega)]
    simp [Nat.ne_of_gt h]

theorem slotName?_fill (slots : List (String × Option α)) (id i : Nat) (a : α) :
    slotName? (slots.modify id fun slot => (slot.1, some a)) i = slotName? slots i := by
  simp only [slotName?, List.getElem?_modify]
  cases slots[i]? <;> by_cases h : id = i <;> simp [h]

namespace Ledger

variable (hl : Ledger kind nameOf names slots mentioned declared)
include hl

theorem slot_inj (hk : Function.Injective kind) {i j : Nat} {n : String}
    (hi : slotName? slots i = some n) (hj : slotName? slots j = some n) : i = j :=
  hk (Option.some.inj (((hl.index n i).2 hi).symm.trans ((hl.index n j).2 hj)))

theorem mem_mentioned {n : String} : n ∈ mentioned ↔ ∃ id, Assoc.find? n names = some (kind id) := by
  rw [← hl.mentions n, mem_names_iff]
  simp only [hl.index]

/-- Mentioning a known name changes nothing. -/
theorem again {n : String} (h : ∃ id, Assoc.find? n names = some (kind id)) :
    Ledger kind nameOf names slots (mentioned ++ [n]) declared where
  index := hl.index
  mentions m := by
    rw [hl.mentions m, List.mem_append, List.mem_singleton]
    exact ⟨Or.inl, fun hm => hm.elim id fun e => e ▸ hl.mem_mentioned.2 h⟩
  declares := hl.declares
  once := hl.once

/-- A new name of this kind gets the next number. -/
theorem reserve (hk : Function.Injective kind) {n : String} (h : Assoc.find? n names = none) :
    Ledger kind nameOf (Assoc.insert n (kind slots.length) names) (slots ++ [(n, none)])
      (mentioned ++ [n]) declared where
  index m id := by
    rw [slotName?_append]
    by_cases hm : m = n
    · subst hm
      rw [Assoc.find?_insert_self]
      constructor
      · intro e
        exact Or.inr ⟨(hk (Option.some.inj e)).symm, rfl⟩
      · rintro (hs | ⟨rfl, -⟩)
        · rw [← hl.index, h] at hs; cases hs
        · rfl
    · rw [Assoc.find?_insert_of_ne hm, hl.index]
      simp [Ne.symm hm]
  mentions m := by
    rw [List.map_append, List.mem_append, hl.mentions m, List.mem_append]; rfl
  declares m a := by
    rw [List.mem_append, hl.declares m a]
    simp
  once := hl.once

/-- A new name of the other kind leaves this one alone. -/
theorem other {n : String} (h : Assoc.find? n names = none) {ref : TypeRef}
    (hr : ∀ id, ref ≠ kind id) :
    Ledger kind nameOf (Assoc.insert n ref names) slots mentioned declared where
  index m id := by
    by_cases hm : m = n
    · subst hm
      rw [Assoc.find?_insert_self, ← hl.index, h]
      simp [hr id]
    · rw [Assoc.find?_insert_of_ne hm, hl.index]
  mentions := hl.mentions
  declares := hl.declares
  once := hl.once

/-- The slot of a name is filled exactly if the name was declared. -/
theorem isDeclared_iff (hk : Function.Injective kind) {id : Nat} {n : String}
    (hn : slotName? slots id = some n) :
    isDeclared slots id = true ↔ n ∈ declared.map nameOf := by
  obtain ⟨o, ho⟩ := slotName?_eq_some.1 hn
  rw [List.mem_map, isDeclared, ho]
  cases o with
  | some a =>
    exact ⟨fun _ => ⟨a, (hl.declares n a).1 (List.mem_of_getElem? ho)⟩, fun _ => rfl⟩
  | none =>
    refine ⟨fun h => absurd h (by simp), fun ⟨a, ha⟩ => ?_⟩
    obtain ⟨i, hi⟩ := List.getElem?_of_mem ((hl.declares n a).2 ha)
    obtain rfl := hl.slot_inj hk hn (slotName?_eq_some.2 ⟨_, hi⟩)
    rw [ho] at hi; cases hi

/-- Filling the empty slot of a name declares it. -/
theorem fill (hk : Function.Injective kind) {id : Nat} {a : α}
    (hn : slotName? slots id = some (nameOf a)) (he : isDeclared slots id = false) :
    Ledger kind nameOf names (slots.modify id fun slot => (slot.1, some a)) mentioned
      (declared ++ [a]) where
  index m i := by rw [hl.index, slotName?_fill]
  mentions m := by
    rw [mem_names_iff, ← hl.mentions m, mem_names_iff]
    simp only [slotName?_fill]
  declares m c := by
    obtain ⟨o, ho⟩ := slotName?_eq_some.1 hn
    have hnone : o = none := by
      cases o with
      | none => rfl
      | some _ => simp [isDeclared, ho] at he
    subst hnone
    rw [List.mem_append, List.mem_singleton, or_and_right, ← hl.declares m c]
    simp only [List.mem_iff_getElem?, List.getElem?_modify]
    constructor
    · rintro ⟨i, hi⟩
      by_cases h : id = i
      · subst h
        simp only [ho, if_true, Option.map_eq_map, Option.map_some, Option.some.injEq,
          Prod.mk.injEq] at hi
        exact Or.inr ⟨hi.2.symm, hi.2 ▸ hi.1⟩
      · exact Or.inl ⟨i, by simpa [h] using hi⟩
    · rintro (⟨i, hi⟩ | ⟨rfl, rfl⟩)
      · refine ⟨i, ?_⟩
        have hne : id ≠ i := by rintro rfl; rw [ho] at hi; cases hi
        simpa [hne] using hi
      · exact ⟨id, by simp [ho]⟩
  once := by
    have hfresh : nameOf a ∉ declared.map nameOf := by
      rw [← hl.isDeclared_iff hk hn, he]; simp
    rw [List.map_append, List.nodup_append]
    refine ⟨hl.once, by simp, ?_⟩
    rintro n hn' _ hm rfl
    rw [List.map_singleton, List.mem_singleton] at hm
    exact hfresh (hm ▸ hn')

end Ledger

/-! ## Duplicates -/

theorem claim_duplicates (b : Builder) (n : String) (ref : TypeRef) :
    b.duplicates <+: (b.claim n ref).duplicates := by
  unfold claim
  cases Assoc.has n b.names <;> simp

theorem beanId_duplicates (b : Builder) (n : String) :
    b.duplicates <+: (b.beanId n).2.duplicates := by
  unfold beanId
  split
  · exact List.prefix_rfl
  · exact claim_duplicates { b with beans := b.beans ++ [(n, none)] } n _

theorem enumId_duplicates (b : Builder) (n : String) :
    b.duplicates <+: (b.enumId n).2.duplicates := by
  unfold enumId
  split
  · exact List.prefix_rfl
  · exact claim_duplicates { b with enums := b.enums ++ [(n, none)] } n _

theorem addBean_duplicates (b : Builder) (d : BeanDecl) :
    (b.beanId d.fullName).2.duplicates <+: (b.addBean d).2.duplicates := by
  unfold addBean
  dsimp only
  split
  · exact List.prefix_append _ _
  · exact List.prefix_rfl

theorem addEnum_duplicates (b : Builder) (e : EnumDef) :
    (b.enumId e.fullName).2.duplicates <+: (b.addEnum e).2.duplicates := by
  unfold addEnum
  dsimp only
  split
  · exact List.prefix_append _ _
  · exact List.prefix_rfl

/-- No call forgets a duplicate. -/
theorem apply_duplicates (b : Builder) (c : Call) : b.duplicates <+: (b.apply c).duplicates := by
  cases c with
  | beanId n => exact beanId_duplicates b n
  | enumId n => exact enumId_duplicates b n
  | addBean d => exact (beanId_duplicates b d.fullName).trans (addBean_duplicates b d)
  | addEnum e => exact (enumId_duplicates b e.fullName).trans (addEnum_duplicates b e)
  | addTable t => exact List.prefix_rfl

/-! ## Both kinds -/

theorem bean_injective : Function.Injective TypeRef.bean := fun _ _ h => by injection h

theorem enum_injective : Function.Injective TypeRef.enum := fun _ _ h => by injection h

/-- A builder without duplicates is what an unambiguous history leads to. -/
structure Follows (h : History) (b : Builder) : Prop where
  clean : b.duplicates = []
  beans : Ledger .bean BeanDecl.fullName b.names b.beans h.beanNames h.beans
  enums : Ledger .enum EnumDef.fullName b.names b.enums h.enumNames h.enums
  tables : b.tables = h.tables

theorem Follows.unambiguous {h : History} {b : Builder} (hb : Follows h b) : h.Unambiguous where
  kinds n hbean henum := by
    obtain ⟨i, hi⟩ := hb.beans.mem_mentioned.1 hbean
    obtain ⟨j, hj⟩ := hb.enums.mem_mentioned.1 henum
    rw [hi] at hj; cases hj
  beansOnce := hb.beans.once
  enumsOnce := hb.enums.once

theorem follows_empty : Follows [] empty where
  clean := rfl
  beans := ⟨fun _ _ => by simp [empty, Assoc.find?, slotName?], fun _ => by rfl,
    fun _ _ => by simp [empty, History.beans], List.nodup_nil⟩
  enums := ⟨fun _ _ => by simp [empty, Assoc.find?, slotName?], fun _ => by rfl,
    fun _ _ => by simp [empty, History.enums], List.nodup_nil⟩
  tables := rfl

variable {h : History} {b : Builder}

namespace Follows

variable (hb : Follows h b)
include hb

theorem beanId {n : String} (hn : n ∉ h.enumNames) :
    Follows (h ++ [.beanId n]) (b.beanId n).2 ∧
      slotName? (b.beanId n).2.beans (b.beanId n).1 = some n := by
  cases hf : Assoc.find? n b.names with
  | none =>
    have hhas : Assoc.has n b.names = false := by simp [Assoc.has, hf]
    simp only [Builder.beanId, hf, claim, hhas]
    refine ⟨⟨hb.clean, ?_, ?_, by simpa using hb.tables⟩, by simp [slotName?]⟩
    · simpa using hb.beans.reserve bean_injective hf
    · simpa using hb.enums.other hf fun id e => by cases e
  | some ref =>
    cases ref with
    | bean id =>
      simp only [Builder.beanId, hf]
      refine ⟨⟨hb.clean, ?_, ?_, by simpa using hb.tables⟩, (hb.beans.index n id).1 hf⟩
      · simpa using hb.beans.again ⟨id, hf⟩
      · simpa using hb.enums
    | enum id => exact absurd (hb.enums.mem_mentioned.2 ⟨id, hf⟩) hn

theorem enumId {n : String} (hn : n ∉ h.beanNames) :
    Follows (h ++ [.enumId n]) (b.enumId n).2 ∧
      slotName? (b.enumId n).2.enums (b.enumId n).1 = some n := by
  cases hf : Assoc.find? n b.names with
  | none =>
    have hhas : Assoc.has n b.names = false := by simp [Assoc.has, hf]
    simp only [Builder.enumId, hf, claim, hhas]
    refine ⟨⟨hb.clean, ?_, ?_, by simpa using hb.tables⟩, by simp [slotName?]⟩
    · simpa using hb.beans.other hf fun id e => by cases e
    · simpa using hb.enums.reserve enum_injective hf
  | some ref =>
    cases ref with
    | enum id =>
      simp only [Builder.enumId, hf]
      refine ⟨⟨hb.clean, ?_, ?_, by simpa using hb.tables⟩, (hb.enums.index n id).1 hf⟩
      · simpa using hb.beans
      · simpa using hb.enums.again ⟨id, hf⟩
    | bean id => exact absurd (hb.beans.mem_mentioned.2 ⟨id, hf⟩) hn

/-- A bean named like an enum is a duplicate. -/
theorem beanId_clash {n : String} (hn : n ∈ h.enumNames) : (b.beanId n).2.duplicates ≠ [] := by
  obtain ⟨id, hf⟩ := hb.enums.mem_mentioned.1 hn
  simp [Builder.beanId, hf, claim, Assoc.has]

/-- An enum named like a bean is a duplicate. -/
theorem enumId_clash {n : String} (hn : n ∈ h.beanNames) : (b.enumId n).2.duplicates ≠ [] := by
  obtain ⟨id, hf⟩ := hb.beans.mem_mentioned.1 hn
  simp [Builder.enumId, hf, claim, Assoc.has]

theorem addBean {d : BeanDecl} (hn : d.fullName ∉ h.enumNames)
    (hd : d.fullName ∉ h.beans.map BeanDecl.fullName) :
    Follows (h ++ [.addBean d]) (b.addBean d).2 := by
  obtain ⟨hr, hs⟩ := hb.beanId hn
  have hnew : isDeclared (b.beanId d.fullName).2.beans (b.beanId d.fullName).1 = false := by
    rw [Bool.eq_false_iff, Ne, hr.beans.isDeclared_iff bean_injective hs]
    simpa using hd
  have hfill := hr.beans.fill bean_injective (a := d) hs hnew
  refine ⟨by simp [Builder.addBean, hnew, hr.clean], ?_, ?_, ?_⟩
  · simpa [Builder.addBean] using hfill
  · simpa [Builder.addBean] using hr.enums
  · simpa [Builder.addBean] using hr.tables

theorem addEnum {e : EnumDef} (hn : e.fullName ∉ h.beanNames)
    (he : e.fullName ∉ h.enums.map EnumDef.fullName) :
    Follows (h ++ [.addEnum e]) (b.addEnum e).2 := by
  obtain ⟨hr, hs⟩ := hb.enumId hn
  have hnew : isDeclared (b.enumId e.fullName).2.enums (b.enumId e.fullName).1 = false := by
    rw [Bool.eq_false_iff, Ne, hr.enums.isDeclared_iff enum_injective hs]
    simpa using he
  have hfill := hr.enums.fill enum_injective (a := e) hs hnew
  refine ⟨by simp [Builder.addEnum, hnew, hr.clean], ?_, ?_, ?_⟩
  · simpa [Builder.addEnum] using hr.beans
  · simpa [Builder.addEnum] using hfill
  · simpa [Builder.addEnum] using hr.tables

/-- A second declaration of a bean is a duplicate. -/
theorem addBean_again {d : BeanDecl} (hn : d.fullName ∉ h.enumNames)
    (hd : d.fullName ∈ h.beans.map BeanDecl.fullName) : (b.addBean d).2.duplicates ≠ [] := by
  obtain ⟨hr, hs⟩ := hb.beanId hn
  have hagain : isDeclared (b.beanId d.fullName).2.beans (b.beanId d.fullName).1 = true := by
    rw [hr.beans.isDeclared_iff bean_injective hs]
    simpa using hd
  simp [Builder.addBean, hagain]

/-- A second declaration of an enum is a duplicate. -/
theorem addEnum_again {e : EnumDef} (hn : e.fullName ∉ h.beanNames)
    (he : e.fullName ∈ h.enums.map EnumDef.fullName) : (b.addEnum e).2.duplicates ≠ [] := by
  obtain ⟨hr, hs⟩ := hb.enumId hn
  have hagain : isDeclared (b.enumId e.fullName).2.enums (b.enumId e.fullName).1 = true := by
    rw [hr.enums.isDeclared_iff enum_injective hs]
    simpa using he
  simp [Builder.addEnum, hagain]

theorem addTable (t : TableDecl) : Follows (h ++ [.addTable t]) (b.addTable t) := by
  refine ⟨hb.clean, ?_, ?_, ?_⟩
  · simpa [Builder.addTable] using hb.beans
  · simpa [Builder.addTable] using hb.enums
  · simp [Builder.addTable, hb.tables]

/-- **A call that meets no duplicate is followed.** -/
theorem step (c : Call) (hd : (b.apply c).duplicates = []) : Follows (h ++ [c]) (b.apply c) := by
  cases c with
  | beanId n =>
    by_cases hn : n ∈ h.enumNames
    · exact absurd hd (hb.beanId_clash hn)
    · exact (hb.beanId hn).1
  | enumId n =>
    by_cases hn : n ∈ h.beanNames
    · exact absurd hd (hb.enumId_clash hn)
    · exact (hb.enumId hn).1
  | addBean d =>
    by_cases hn : d.fullName ∈ h.enumNames
    · exact absurd (List.prefix_nil.1 (hd ▸ addBean_duplicates b d)) (hb.beanId_clash hn)
    by_cases hm : d.fullName ∈ h.beans.map BeanDecl.fullName
    · exact absurd hd (hb.addBean_again hn hm)
    · exact hb.addBean hn hm
  | addEnum e =>
    by_cases hn : e.fullName ∈ h.beanNames
    · exact absurd (List.prefix_nil.1 (hd ▸ addEnum_duplicates b e)) (hb.enumId_clash hn)
    by_cases hm : e.fullName ∈ h.enums.map EnumDef.fullName
    · exact absurd hd (hb.addEnum_again hn hm)
    · exact hb.addEnum hn hm
  | addTable t => exact hb.addTable t

end Follows

/-- **An unambiguous history is followed.** -/
theorem run_follows {h : History} (hu : h.Unambiguous) : Follows h (run h) := by
  induction h using List.reverseRecOn with
  | nil => exact follows_empty
  | append_singleton h c ih =>
    have hf := ih hu.of_append
    rw [run_concat]
    cases c with
    | beanId n => exact (hf.beanId fun hn => hu.kinds n (by simp) (by simp [hn])).1
    | enumId n => exact (hf.enumId fun hn => hu.kinds n (by simp [hn]) (by simp)).1
    | addBean d =>
      refine hf.addBean (fun hn => hu.kinds d.fullName (by simp) (by simp [hn])) ?_
      have := hu.beansOnce
      simp only [History.beans_append, History.beans_singleton, Call.bean?, Option.toList,
        List.map_append, List.map_cons, List.map_nil, List.nodup_append] at this
      exact fun hm => this.2.2 _ hm _ (List.mem_singleton_self _) rfl
    | addEnum e =>
      refine hf.addEnum (fun hn => hu.kinds e.fullName (by simp [hn]) (by simp)) ?_
      have := hu.enumsOnce
      simp only [History.enums_append, History.enums_singleton, Call.enum?, Option.toList,
        List.map_append, List.map_cons, List.map_nil, List.nodup_append] at this
      exact fun hm => this.2.2 _ hm _ (List.mem_singleton_self _) rfl
    | addTable t => exact hf.addTable t

/-- **A builder has met no duplicate exactly if the calls were unambiguous.** -/
theorem duplicates_eq_nil_iff (h : History) : (run h).duplicates = [] ↔ h.Unambiguous := by
  refine ⟨fun hd => ?_, fun hu => (run_follows hu).clean⟩
  induction h using List.reverseRecOn with
  | nil => exact follows_empty.unambiguous
  | append_singleton h c ih =>
    rw [run_concat] at hd
    have hf := run_follows (ih (List.prefix_nil.1 (hd ▸ apply_duplicates (run h) c)))
    exact (hf.step c hd).unambiguous

end Builder

end GameConfig
