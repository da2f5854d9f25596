import GameConfig.Proofs.Builder.History
import GameConfig.Proofs.Schema.Resolution

/-
  Names, parents and lines of ancestors, as a history of calls gives them.

  `History.fullNameOf?` says what a word in a declaration means, `IsParent`
  which declaration a declared parent is, and `Line` what the chain from the
  root down to a bean is.  None of them knows about numbers.

  * `Roster` lists the declarations of one kind by number;
  * `Follows.lookup_bean`: looking a word up among the names of a builder finds
    the declaration that the word means;
  * `parentOf_eq_some_iff`: the parents by number are the declared parents;
  * `forest_iff_lines`: they form a forest exactly if every bean has a line;
  * `line_iff`: the line of a bean is the one that its number gives.
-/

namespace GameConfig

namespace History

/-- The name stands for a bean or an enum. -/
def Knows (h : History) (n : String) : Prop := n ∈ h.beanNames ∨ n ∈ h.enumNames

instance (h : History) (n : String) : Decidable (h.Knows n) :=
  inferInstanceAs (Decidable (n ∈ h.beanNames ∨ n ∈ h.enumNames))

/-- The full name that a word means inside a namespace: the word itself, if it is the name of a
    type, else the word behind the namespace. -/
def fullNameOf? (h : History) (space word : String) : Option String :=
  if h.Knows word then some word
  else if space ≠ "" ∧ h.Knows (space ++ "." ++ word) then some (space ++ "." ++ word)
  else none

/-- Inside a namespace the word means this bean. -/
structure Finds (h : History) (space word : String) (d : BeanDecl) : Prop where
  mem : d ∈ h.beans
  named : h.fullNameOf? space word = some d.fullName

/-- `p` is the declared parent of `d`. -/
def IsParent (h : History) (p d : BeanDecl) : Prop :=
  ∃ w, d.parent = some w ∧ h.Finds (namespaceOf d.fullName) w p

/-- The chain of declarations from the root down to a bean. -/
inductive Line (h : History) : BeanDecl → List BeanDecl → Prop
  | root {d} : d.parent = none → Line h d [d]
  | child {p d ds} : h.IsParent p d → Line h p ds → Line h d (ds ++ [d])

end History

namespace Builder

open Hierarchy Resolve

/-! ## Declarations by number -/

section
variable {α : Type} {kind : Nat → TypeRef} {nameOf : α → String} {names : Names}
  {slots : List (String × Option α)} {mentioned : List String} {declared ds : List α}

/-- The declarations of one kind by number. -/
structure Roster (kind : Nat → TypeRef) (nameOf : α → String) (names : Names)
    (declared ds : List α) : Prop where
  index : ∀ n id, Assoc.find? n names = some (kind id) ↔ ∃ d, ds[id]? = some d ∧ nameOf d = n
  mem : ∀ d, d ∈ ds ↔ d ∈ declared

namespace Roster

variable (hk : Function.Injective kind) (hr : Roster kind nameOf names declared ds)
include hk hr

/-- Different numbers have different names. -/
theorem getElem?_inj {i j : Nat} {d e : α} (hi : ds[i]? = some d) (hj : ds[j]? = some e)
    (h : nameOf d = nameOf e) : i = j := by
  have hni := (hr.index _ i).2 ⟨d, hi, rfl⟩
  have hnj := (hr.index _ j).2 ⟨e, hj, rfl⟩
  rw [h, hnj] at hni
  exact (hk (Option.some.inj hni)).symm

theorem nodup_names : (ds.map nameOf).Nodup := by
  refine List.pairwise_iff_getElem.2 fun i j hi hj hij heq => ?_
  simp only [List.getElem_map] at heq
  rw [List.length_map] at hi hj
  have := hr.getElem?_inj hk (List.getElem?_eq_getElem hi) (List.getElem?_eq_getElem hj) heq
  omega

end Roster

namespace Ledger

variable (hl : Ledger kind nameOf names slots mentioned declared)
include hl

theorem nameOf_of_getElem? {id : Nat} {n : String} {a : α} (h : slots[id]? = some (n, some a)) :
    nameOf a = n :=
  ((hl.declares n a).1 (List.mem_of_getElem? h)).2

/-- Slots that are all filled list the declarations. -/
theorem roster (h : slots.map (·.2) = ds.map some) : Roster kind nameOf names declared ds := by
  have hslot : ∀ (id : Nat) d, ds[id]? = some d ↔ ∃ n, slots[id]? = some (n, some d) := by
    intro id d
    have hid := congrArg (·[id]?) h
    simp only [List.getElem?_map] at hid
    cases hs : slots[id]? with
    | none =>
      rw [hs] at hid
      cases hd : ds[id]? with
      | none => simp
      | some d' => simp [hd] at hid
    | some slot =>
      obtain ⟨n, o⟩ := slot
      cases hd : ds[id]? with
      | none => simp [hs, hd] at hid
      | some d' =>
        simp only [hs, hd, Option.map_some, Option.some.injEq] at hid
        simp [hid]
  constructor
  · intro n id
    rw [hl.index, slotName?_eq_some]
    constructor
    · rintro ⟨o, ho⟩
      have hid := congrArg (·[id]?) h
      simp only [List.getElem?_map, ho, Option.map_some] at hid
      obtain ⟨d, hd, rfl⟩ := Option.map_eq_some_iff.1 hid.symm
      exact ⟨d, hd, hl.nameOf_of_getElem? ho⟩
    · rintro ⟨d, hd, rfl⟩
      obtain ⟨n, hn⟩ := (hslot id d).1 hd
      exact ⟨some d, by rw [hn, hl.nameOf_of_getElem? hn]⟩
  · intro d
    constructor
    · intro hd
      obtain ⟨id, hid⟩ := List.getElem?_of_mem hd
      obtain ⟨n, hn⟩ := (hslot id d).1 hid
      exact ((hl.declares n d).1 (List.mem_of_getElem? hn)).1
    · intro hd
      obtain ⟨id, hid⟩ := List.getElem?_of_mem ((hl.declares _ d).2 ⟨hd, rfl⟩)
      exact List.mem_of_getElem? ((hslot id d).2 ⟨_, hid⟩)

/-- **All slots are filled exactly if every name mentioned was declared.** -/
theorem exists_roster_iff (hk : Function.Injective kind) :
    (∃ ds : List α, slots.map (·.2) = ds.map some) ↔ ∀ n ∈ mentioned, n ∈ declared.map nameOf := by
  constructor
  · rintro ⟨ds, h⟩ n hn
    obtain ⟨id, hid⟩ := hl.mem_mentioned.1 hn
    have hr := hl.roster h
    obtain ⟨d, hd, rfl⟩ := (hr.index n id).1 hid
    exact List.mem_map_of_mem ((hr.mem d).1 (List.mem_of_getElem? hd))
  · intro hall
    refine exists_map_eq fun ⟨n, o⟩ hslot => ?_
    obtain ⟨id, hid⟩ := List.getElem?_of_mem hslot
    have hn : n ∈ mentioned := (hl.mentions n).1 (List.mem_map.2 ⟨_, hslot, rfl⟩)
    have hdecl := (hl.isDeclared_iff hk (slotName?_eq_some.2 ⟨o, hid⟩)).2 (hall n hn)
    cases o with
    | none => simp [isDeclared, hid] at hdecl
    | some a => exact ⟨a, rfl⟩

end Ledger

end

/-! ## What words mean -/

namespace Follows

variable {h : History} {b : Builder} (hb : Follows h b)
include hb

theorem knows_iff {n : String} : h.Knows n ↔ ∃ ref, Assoc.find? n b.names = some ref := by
  rw [History.Knows, hb.beans.mem_mentioned, hb.enums.mem_mentioned]
  constructor
  · rintro (⟨id, hid⟩ | ⟨id, hid⟩) <;> exact ⟨_, hid⟩
  · rintro ⟨id | id, hid⟩
    · exact Or.inl ⟨id, hid⟩
    · exact Or.inr ⟨id, hid⟩

theorem find?_of_not_knows {n : String} (hn : ¬ h.Knows n) : Assoc.find? n b.names = none :=
  Option.eq_none_iff_forall_ne_some.2 fun ref hr => hn (hb.knows_iff.2 ⟨ref, hr⟩)

/-- Looking a word up is finding the full name that it means. -/
theorem lookup_eq (w space : String) :
    b.names.lookup w (some space) =
      (h.fullNameOf? space w).bind fun n => Assoc.find? n b.names := by
  unfold Names.lookup History.fullNameOf?
  by_cases hw : h.Knows w
  · obtain ⟨ref, hr⟩ := hb.knows_iff.1 hw
    simp [hw, hr]
  · rw [hb.find?_of_not_knows hw]
    by_cases hs : space = ""
    · simp [hw, hs]
    by_cases hq : h.Knows (space ++ "." ++ w)
    · simp [hw, hs, hq]
    · simp [hw, hs, hq, hb.find?_of_not_knows hq]

/-- **A word is looked up as a bean exactly if it means the declaration with that number.** -/
theorem lookup_bean {ds : List BeanDecl}
    (hr : Roster .bean BeanDecl.fullName b.names h.beans ds) {w space : String} {id : Nat} :
    b.names.lookup w (some space) = some (.bean id) ↔
      ∃ d, ds[id]? = some d ∧ h.Finds space w d := by
  rw [hb.lookup_eq, Option.bind_eq_some_iff]
  constructor
  · rintro ⟨n, hn, hid⟩
    obtain ⟨d, hd, rfl⟩ := (hr.index n id).1 hid
    exact ⟨d, hd, (hr.mem d).1 (List.mem_of_getElem? hd), hn⟩
  · rintro ⟨d, hd, hf⟩
    exact ⟨_, hf.named, (hr.index _ id).2 ⟨d, hd, rfl⟩⟩

end Follows

/-! ## Parents and lines -/

section
variable {h : History} {b : Builder} {ds : List BeanDecl} {ps : Parents} (hb : Follows h b)
  (hr : Roster .bean BeanDecl.fullName b.names h.beans ds)
  (hp : ds.map (parent b.names) = ps.map .ok)
include hb hr

/-- The parents by number are the declared ones. -/
theorem parent_eq_some_iff {d : BeanDecl} {j : Nat} :
    parent b.names d = .ok (some j) ↔ ∃ p, ds[j]? = some p ∧ h.IsParent p d := by
  rw [parent_eq_some]
  simp only [hb.lookup_bean hr]
  constructor
  · rintro ⟨w, hw, p, hp, hf⟩
    exact ⟨p, hp, w, hw, hf⟩
  · rintro ⟨p, hp, w, hw, hf⟩
    exact ⟨w, hw, p, hp, hf⟩

/-- **All parents resolve exactly if each one declared is a bean.** -/
theorem exists_parents_iff :
    (∃ ps : Parents, ds.map (parent b.names) = ps.map .ok) ↔
      ∀ d ∈ h.beans, d.parent ≠ none → ∃ p, h.IsParent p d := by
  constructor
  · rintro ⟨ps, hp⟩ d hd hne
    obtain ⟨i, hi⟩ := List.getElem?_of_mem ((hr.mem d).2 hd)
    have hpar := parent_of_parents hp hi
    cases hj : parentOf ps i with
    | none => exact absurd (parent_eq_none.1 (hj ▸ hpar)) hne
    | some j =>
      obtain ⟨p, -, hip⟩ := (parent_eq_some_iff hb hr).1 (hj ▸ hpar)
      exact ⟨p, hip⟩
  · intro hall
    refine exists_map_eq fun d hd => ?_
    cases hw : d.parent with
    | none => exact ⟨none, parent_eq_none.2 hw⟩
    | some w =>
      obtain ⟨p, hip⟩ := hall d ((hr.mem d).1 hd) (by simp [hw])
      obtain ⟨_, -, hf⟩ := id hip
      obtain ⟨j, hj⟩ := List.getElem?_of_mem ((hr.mem p).2 hf.mem)
      exact ⟨some j, (parent_eq_some_iff hb hr).2 ⟨p, hj, hip⟩⟩

include hp

omit hb hr in
theorem parentOf_eq_none_iff {i : Nat} {d : BeanDecl} (hi : ds[i]? = some d) :
    parentOf ps i = none ↔ d.parent = none := by
  have hnone : parent b.names d = .ok none ↔ d.parent = none := parent_eq_none
  rw [← hnone, parent_of_parents hp hi, Except.ok.injEq]

theorem parentOf_eq_some_iff {i j : Nat} {d : BeanDecl} (hi : ds[i]? = some d) :
    parentOf ps i = some j ↔ ∃ p, ds[j]? = some p ∧ h.IsParent p d := by
  rw [← parent_eq_some_iff hb hr, parent_of_parents hp hi, Except.ok.injEq]

/-- The number of a parent. -/
theorem exists_parentOf {i : Nat} {p d : BeanDecl} (hi : ds[i]? = some d) (hip : h.IsParent p d) :
    ∃ j, ds[j]? = some p ∧ parentOf ps i = some j := by
  obtain ⟨_, -, hf⟩ := id hip
  obtain ⟨j, hj⟩ := List.getElem?_of_mem ((hr.mem p).2 hf.mem)
  exact ⟨j, hj, (parentOf_eq_some_iff hb hr hp hi).2 ⟨p, hj, hip⟩⟩

/-- In a forest every bean has a line. -/
theorem line_of_forest (hf : Forest ps) (i : Nat) {d : BeanDecl} (hi : ds[i]? = some d) :
    h.Line d (line ps ds i) := by
  refine hf.induction (P := fun i => ∀ d, ds[i]? = some d → h.Line d (line ps ds i))
    (fun i hroot d hi => ?_) (fun i j hij ih d hi => ?_) i d hi
  · rw [line_of_root hroot hi]
    exact .root ((parentOf_eq_none_iff hp hi).1 hroot)
  · obtain ⟨p, hj, hip⟩ := (parentOf_eq_some_iff hb hr hp hi).1 hij
    rw [line_of_parent hf hij hi]
    exact .child hip (ih p hj)

/-- **The parents form a forest exactly if every bean has a line.** -/
theorem forest_iff_lines : Forest ps ↔ ∀ d ∈ h.beans, ∃ l, h.Line d l := by
  have hlen : ps.length = ds.length := by simpa using (congrArg List.length hp).symm
  constructor
  · intro hf d hd
    obtain ⟨i, hi⟩ := List.getElem?_of_mem ((hr.mem d).2 hd)
    exact ⟨_, line_of_forest hb hr hp hf i hi⟩
  · refine fun hall => ⟨fun {i j} hij => ?_, fun i => ?_⟩
    · have hi := List.getElem?_eq_getElem (hlen ▸ lt_of_parentOf hij)
      obtain ⟨p, hj, -⟩ := (parentOf_eq_some_iff hb hr hp hi).1 hij
      exact hlen ▸ (List.getElem?_eq_some_iff.1 hj).1
    · cases hi : ds[i]? with
      | none =>
        refine ⟨1, ?_⟩
        rw [climb_one]
        cases hij : parentOf ps i with
        | none => rfl
        | some j =>
          have := lt_of_parentOf hij
          rw [List.getElem?_eq_none_iff] at hi
          omega
      | some d =>
        -- the line of the bean says how far it is to the root
        obtain ⟨l, hl⟩ := hall d ((hr.mem d).1 (List.mem_of_getElem? hi))
        induction hl generalizing i with
        | root hroot =>
          exact ⟨1, by rw [climb_one, (parentOf_eq_none_iff hp hi).2 hroot]⟩
        | child hip _ ih =>
          obtain ⟨j, hj, hij⟩ := exists_parentOf hb hr hp hi hip
          obtain ⟨k, hk⟩ := ih j hj
          exact ⟨k + 1, by simpa [climb, hij] using hk⟩

/-- **The line of a bean is the one that its number gives.** -/
theorem line_iff (hf : Forest ps) {i : Nat} {d : BeanDecl} {l : List BeanDecl}
    (hi : ds[i]? = some d) : h.Line d l ↔ l = line ps ds i := by
  constructor
  · intro hl
    induction hl generalizing i with
    | root hroot => exact (line_of_root ((parentOf_eq_none_iff hp hi).2 hroot) hi).symm
    | child hip _ ih =>
      obtain ⟨j, hj, hij⟩ := exists_parentOf hb hr hp hi hip
      rw [line_of_parent hf hij hi, ih hj]
  · rintro rfl
    exact line_of_forest hb hr hp hf i hi

end

end Builder

end GameConfig
