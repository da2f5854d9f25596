import GameConfig.Proofs.Builder.Acceptance
import Mathlib

/-
  Which bean an inheritance cycle is reported for.

  The cycle test asks every bean in the order in which the beans were first
  mentioned, and walking up from a bean that hangs below a cycle does not end
  either.  So the bean reported need not be on a cycle.

  * `History.Cyclic` and `History.Endless`: a bean is on a cycle; a bean is on
    one or hangs below one.  Both are about declared parents, not numbers;
  * `names_beans`: the numbers of beans follow the order of first mention;
  * `build_eq_inheritanceCycle_iff`: the bean reported is the first endless one;
  * `cyclic_iff_of_build`: it is on a cycle exactly if some bean on a cycle was
    mentioned before all that merely hang below one.
-/

namespace GameConfig

namespace History

variable (h : History)

/-- Going up from `d` by one parent or more, one comes to `a`. -/
def Leads (d a : BeanDecl) : Prop := Relation.TransGen (fun d p => h.IsParent p d) d a

/-- The bean is on a cycle. -/
def Cyclic (d : BeanDecl) : Prop := h.Leads d d

/-- The bean is on a cycle or hangs below one. -/
def Endless (d : BeanDecl) : Prop := ∃ c, h.Cyclic c ∧ (c = d ∨ h.Leads d c)

/-- The names of beans, each once, in the order in which they were first mentioned. -/
def order : List String := h.beanNames.eraseDups

/-- The bean was mentioned before the other one. -/
def Before (a b : BeanDecl) : Prop := h.order.idxOf a.fullName < h.order.idxOf b.fullName

/-- Every name stands for one declaration, and all parents are beans. -/
structure Linked : Prop where
  unambiguous : h.Unambiguous
  beansDeclared : ∀ n ∈ h.beanNames, n ∈ h.beans.map BeanDecl.fullName
  enumsDeclared : ∀ n ∈ h.enumNames, n ∈ h.enums.map EnumDef.fullName
  items : ∀ e ∈ h.enums, (e.items.map EnumItem.name).Nodup
  parents : ∀ d ∈ h.beans, d.parent ≠ none → ∃ p, h.IsParent p d

variable {h}

theorem Cyclic.endless {d : BeanDecl} (hd : h.Cyclic d) : h.Endless d := ⟨d, hd, .inl rfl⟩

/-- What one comes to by going up is declared. -/
theorem Leads.mem {d a : BeanDecl} (hl : h.Leads d a) : a ∈ h.beans := by
  obtain ⟨_, -, _, -, hf⟩ := Relation.TransGen.tail'_iff.1 hl
  exact hf.mem

theorem mem_order {d : BeanDecl} (hd : d ∈ h.beans) : d.fullName ∈ h.order := by
  obtain ⟨c, hc, hcd⟩ := List.mem_filterMap.1 hd
  refine List.mem_eraseDups.2 (List.mem_filterMap.2 ⟨c, hc, ?_⟩)
  cases c <;> cases hcd
  rfl

theorem eraseDups_concat (ns : List String) (n : String) :
    (ns ++ [n]).eraseDups = if n ∈ ns then ns.eraseDups else ns.eraseDups ++ [n] := by
  rw [List.eraseDups_append]
  by_cases hn : n ∈ ns
  · simp [List.removeAll, hn]
  · simp [List.removeAll, hn, List.eraseDups_cons]

end History

namespace Builder

open Hierarchy Resolve

/-! ## The order of the numbers -/

theorem names_fill {α : Type} (slots : List (String × Option α)) (id : Nat) (a : α) :
    (slots.modify id fun slot => (slot.1, some a)).map (·.1) = slots.map (·.1) := by
  refine List.ext_getElem? fun i => ?_
  simpa only [slotName?, List.getElem?_map] using slotName?_fill slots id i a

theorem enumId_beans (b : Builder) (n : String) : (b.enumId n).2.beans = b.beans := by
  unfold enumId
  split <;> rfl

theorem names_beanId {h : History} {b : Builder} (hb : Follows h b) (n : String) :
    (b.beanId n).2.beans.map (·.1) =
      if n ∈ h.beanNames then b.beans.map (·.1) else b.beans.map (·.1) ++ [n] := by
  unfold beanId
  split
  · rename_i id hid
    rw [if_pos (hb.beans.mem_mentioned.2 ⟨id, hid⟩)]
  · rename_i hno
    rw [if_neg fun hn => ?_]
    · simp [claim]
    · obtain ⟨id, hid⟩ := hb.beans.mem_mentioned.1 hn
      exact hno id hid

/-- **The numbers of beans follow the order in which they were first mentioned.** -/
theorem names_beans {h : History} (hu : h.Unambiguous) : (run h).beans.map (·.1) = h.order := by
  induction h using List.reverseRecOn with
  | nil => rfl
  | append_singleton g c ih =>
    have hf := run_follows hu.of_append
    have ih := ih hu.of_append
    rw [run_concat]
    unfold History.order at ih ⊢
    rw [History.beanNames_append, History.beanNames_singleton]
    have hbean : ∀ n, ((run g).beanId n).2.beans.map (·.1) = (History.beanNames g ++ [n]).eraseDups := by
      intro n
      rw [names_beanId hf, History.eraseDups_concat, ih]
    cases c with
    | beanId n => exact hbean n
    | addBean d =>
      exact (names_fill _ _ d).trans (hbean d.fullName)
    | enumId n => simpa [apply, enumId_beans] using ih
    | addEnum e => simpa [apply, addEnum, enumId_beans] using ih
    | addTable t => simpa [apply, addTable] using ih

section
variable {h : History} {ds : List BeanDecl} (hb : Follows h (run h))
  (hslots : (run h).beans.map (·.2) = ds.map some)
include hb hslots

/-- The declarations by number stand in the order of first mention. -/
theorem map_fullName : ds.map BeanDecl.fullName = h.order := by
  rw [← names_beans hb.unambiguous]
  refine List.ext_getElem? fun i => ?_
  have hi := congrArg (·[i]?) hslots
  simp only [List.getElem?_map] at hi ⊢
  cases hs : (run h).beans[i]? with
  | none =>
    rw [hs] at hi
    simpa using hi
  | some slot =>
    obtain ⟨n, o⟩ := slot
    rw [hs] at hi
    obtain ⟨d, hd, rfl⟩ := Option.map_eq_some_iff.1 hi.symm
    rw [hd, Option.map_some, Option.map_some, hb.beans.nameOf_of_getElem? hs]

/-- The place of a bean in the order is its number. -/
theorem idxOf_order {i : Nat} {d : BeanDecl} (hi : ds[i]? = some d) :
    h.order.idxOf d.fullName = i := by
  obtain ⟨hlt, rfl⟩ := List.getElem?_eq_some_iff.1 hi
  have hnodup := (hb.beans.roster hslots).nodup_names bean_injective
  rw [← map_fullName hb hslots]
  have hidx := hnodup.idxOf_getElem i (by simpa using hlt)
  rwa [List.getElem_map] at hidx

end

/-! ## Ways up by number -/

section
variable {h : History} {ds : List BeanDecl} {ps : Parents} (hb : Follows h (run h))
  (hr : Roster .bean BeanDecl.fullName (run h).names h.beans ds)
  (hp : ds.map (parent (run h).names) = ps.map .ok)
include hb hr hp

/-- The parents by number are numbers of beans. -/
theorem parentOf_lt {i j : Nat} (hij : parentOf ps i = some j) : j < ps.length := by
  have hlen : ps.length = ds.length := by simpa using (congrArg List.length hp).symm
  have hi := List.getElem?_eq_getElem (hlen ▸ lt_of_parentOf hij)
  obtain ⟨p, hj, -⟩ := (parentOf_eq_some_iff hb hr hp hi).1 hij
  exact hlen ▸ (List.getElem?_eq_some_iff.1 hj).1

/-- What one comes to by going up has a number. -/
theorem exists_climb {d a : BeanDecl} (hl : h.Leads d a) {i : Nat} (hi : ds[i]? = some d) :
    ∃ j k, ds[j]? = some a ∧ climb ps (k + 1) i = some j := by
  induction hl using Relation.TransGen.head_induction_on generalizing i with
  | single hip =>
    obtain ⟨j, hj, hij⟩ := exists_parentOf hb hr hp hi hip
    exact ⟨j, 0, hj, by rw [climb_one, hij]⟩
  | head hip _ ih =>
    obtain ⟨m, hm, him⟩ := exists_parentOf hb hr hp hi hip
    obtain ⟨j, k, hj, hk⟩ := ih hm
    exact ⟨j, k + 1, hj, by rw [climb, him]; exact hk⟩

/-- What a way up by number comes to is declared above. -/
theorem leads_of_climb {k i j : Nat} {d : BeanDecl} (hi : ds[i]? = some d)
    (hk : climb ps (k + 1) i = some j) : ∃ a, ds[j]? = some a ∧ h.Leads d a := by
  induction k generalizing j with
  | zero =>
    rw [climb_one] at hk
    obtain ⟨p, hj, hip⟩ := (parentOf_eq_some_iff hb hr hp hi).1 hk
    exact ⟨p, hj, .single hip⟩
  | succ k ih =>
    rw [climb_succ] at hk
    obtain ⟨m, hm, hmj⟩ := Option.bind_eq_some_iff.1 hk
    obtain ⟨a, ha, hl⟩ := ih hm
    obtain ⟨p, hj, hip⟩ := (parentOf_eq_some_iff hb hr hp ha).1 hmj
    exact ⟨p, hj, hl.tail hip⟩

theorem cyclic_iff {i : Nat} {d : BeanDecl} (hi : ds[i]? = some d) :
    h.Cyclic d ↔ OnCycle ps i := by
  constructor
  · intro hc
    obtain ⟨j, k, hj, hk⟩ := exists_climb hb hr hp hc hi
    obtain rfl := hr.getElem?_inj bean_injective hi hj rfl
    exact ⟨k, hk⟩
  · rintro ⟨k, hk⟩
    obtain ⟨a, ha, hl⟩ := leads_of_climb hb hr hp hi hk
    obtain rfl : d = a := Option.some.inj (hi.symm.trans ha)
    exact hl

theorem endless_iff {i : Nat} {d : BeanDecl} (hi : ds[i]? = some d) :
    h.Endless d ↔ Endless ps i := by
  constructor
  · rintro ⟨c, hc, rfl | hl⟩
    · exact ((cyclic_iff hb hr hp hi).1 hc).endless
    · obtain ⟨j, k, hj, hk⟩ := exists_climb hb hr hp hl hi
      exact ⟨j, ⟨k + 1, hk⟩, (cyclic_iff hb hr hp hj).1 hc⟩
  · rintro ⟨j, ⟨k, hk⟩, hc⟩
    cases k with
    | zero =>
      obtain rfl : i = j := Option.some.inj hk
      exact ⟨d, (cyclic_iff hb hr hp hi).2 hc, .inl rfl⟩
    | succ k =>
      obtain ⟨a, ha, hl⟩ := leads_of_climb hb hr hp hi hk
      exact ⟨a, (cyclic_iff hb hr hp ha).2 hc, .inr hl⟩

/-- **The cycle test finds the first endless bean** in the order of first mention. -/
theorem firstCycle?_iff (hslots : (run h).beans.map (·.2) = ds.map some) {d : BeanDecl} :
    firstCycle? ps ds = some d ↔
      d ∈ h.beans ∧ h.Endless d ∧ ∀ b ∈ h.beans, h.Endless b → ¬ h.Before b d := by
  rw [firstCycle?_eq_some (parentOf_lt hb hr hp)]
  constructor
  · rintro ⟨i, hi, he, hfirst⟩
    refine ⟨(hr.mem d).1 (List.mem_of_getElem? hi), (endless_iff hb hr hp hi).2 he, ?_⟩
    intro b hbm hbe hbefore
    obtain ⟨j, hj⟩ := List.getElem?_of_mem ((hr.mem b).2 hbm)
    rw [History.Before, idxOf_order hb hslots hi, idxOf_order hb hslots hj] at hbefore
    exact hfirst j hbefore ((endless_iff hb hr hp hj).1 hbe)
  · rintro ⟨hd, he, hfirst⟩
    obtain ⟨i, hi⟩ := List.getElem?_of_mem ((hr.mem d).2 hd)
    refine ⟨i, hi, (endless_iff hb hr hp hi).1 he, fun j hji hje => ?_⟩
    obtain ⟨b, hj⟩ : ∃ b, ds[j]? = some b :=
      ⟨_, List.getElem?_eq_getElem (hji.trans (List.getElem?_eq_some_iff.1 hi).1)⟩
    refine hfirst b ((hr.mem b).1 (List.mem_of_getElem? hj)) ((endless_iff hb hr hp hj).2 hje) ?_
    rwa [History.Before, idxOf_order hb hslots hi, idxOf_order hb hslots hj]

end

/-! ## The bean reported -/

/-- **A cycle is reported for the first endless bean**, if names, items and parents are in
    order. -/
theorem build_eq_inheritanceCycle_iff {h : History} {name : String} :
    (run h).build = .error (.inheritanceCycle name) ↔
      h.Linked ∧ ∃ d ∈ h.beans, d.fullName = name ∧ h.Endless d ∧
        ∀ b ∈ h.beans, h.Endless b → ¬ h.Before b d := by
  constructor
  · intro he
    unfold build at he
    split at he
    · cases he
    rename_i hclean
    have hu := (duplicates_eq_nil_iff h).1 hclean
    have hb := run_follows hu
    obtain ⟨⟨es, hes⟩, ds, ps, d, hd, hp, hc, rfl⟩ := schema_eq_inheritanceCycle.1 he
    obtain ⟨hes, hitems⟩ := map_enumOf.1 hes
    rw [map_declOf] at hd
    have hre := hb.enums.roster hes
    have hrb := hb.beans.roster hd
    obtain ⟨hmem, hend, hfirst⟩ := (firstCycle?_iff hb hrb hp hd).1 hc
    exact ⟨⟨hu, (hb.beans.exists_roster_iff bean_injective).1 ⟨ds, hd⟩,
      (hb.enums.exists_roster_iff enum_injective).1 ⟨es, hes⟩,
      fun e he => hitems e ((hre.mem e).2 he), (exists_parents_iff hb hrb).1 ⟨ps, hp⟩⟩,
      d, hmem, rfl, hend, hfirst⟩
  · rintro ⟨hl, d, hmem, rfl, hend, hfirst⟩
    have hb := run_follows hl.unambiguous
    obtain ⟨es, hes⟩ := (hb.enums.exists_roster_iff enum_injective).2 hl.enumsDeclared
    obtain ⟨ds, hds⟩ := (hb.beans.exists_roster_iff bean_injective).2 hl.beansDeclared
    have hre := hb.enums.roster hes
    have hrb := hb.beans.roster hds
    obtain ⟨ps, hp⟩ := (exists_parents_iff hb hrb).2 hl.parents
    have hc := (firstCycle?_iff hb hrb hp hds).2 ⟨hmem, hend, hfirst⟩
    unfold build
    rw [hb.clean]
    refine schema_eq_inheritanceCycle.2 ⟨⟨es, map_enumOf.2 ⟨hes, ?_⟩⟩, ds, ps, d,
      map_declOf.2 hds, hp, hc, rfl⟩
    exact fun e he => hl.items e ((hre.mem e).1 he)

/-- **The bean reported is on a cycle exactly if some bean on a cycle was mentioned before every
    bean that merely hangs below one.**  In any case it is on a cycle or hangs below one, and it
    is the only bean of its name. -/
theorem cyclic_iff_of_build {h : History} {name : String}
    (he : (run h).build = .error (.inheritanceCycle name)) :
    ∃ d ∈ h.beans, d.fullName = name ∧ (∀ b ∈ h.beans, b.fullName = name → b = d) ∧
      h.Endless d ∧
      (h.Cyclic d ↔
        ∃ c, h.Cyclic c ∧ ∀ b ∈ h.beans, h.Endless b → ¬ h.Cyclic b → h.Before c b) := by
  obtain ⟨hl, d, hd, rfl, hend, hfirst⟩ := build_eq_inheritanceCycle_iff.1 he
  have honce : ∀ b ∈ h.beans, b.fullName = d.fullName → b = d := fun b hb hn =>
    List.inj_on_of_nodup_map hl.unambiguous.beansOnce hb hd hn
  refine ⟨d, hd, rfl, honce, hend, fun hcyc => ⟨d, hcyc, fun b hb hbe hbc => ?_⟩, ?_⟩
  · have hnot := hfirst b hb hbe
    have hne : h.order.idxOf d.fullName ≠ h.order.idxOf b.fullName := fun heq => by
      rw [List.idxOf_inj (History.mem_order hd)] at heq
      exact hbc (honce b hb heq.symm ▸ hcyc)
    unfold History.Before at hnot ⊢
    omega
  · rintro ⟨c, hc, hbefore⟩
    by_contra hno
    exact hfirst c hc.mem hc.endless (hbefore d hd hend hno)

/-- A bean that has a parent and nothing else. -/
def childOf (parent name : String) : BeanDecl := ⟨name, some parent, none, [], none⟩

/-- Two beans that are each other's parent, and a third below them. -/
def ring : History :=
  [.addBean (childOf "B" "A"), .addBean (childOf "A" "B"), .addBean (childOf "A" "C")]

theorem cyclic_iff_ring :
    (run ring).build = .error (.inheritanceCycle "A") ∧
    ∃ d ∈ ring.beans, d.fullName = "A" ∧ (∀ b ∈ ring.beans, b.fullName = "A" → b = d) ∧
      ring.Endless d ∧
      (ring.Cyclic d ↔
        ∃ c, ring.Cyclic c ∧ ∀ b ∈ ring.beans, ring.Endless b → ¬ ring.Cyclic b →
          ring.Before c b) := by
  have he : (run ring).build = .error (.inheritanceCycle "A") := by cbv
  exact ⟨he, cyclic_iff_of_build he⟩

/-- A bean that is its own parent, and one below it that is declared first. -/
def tail : History := [.addBean (childOf "B" "A"), .addBean (childOf "B" "B")]

theorem not_cyclic_tail :
    ¬ ∀ (h : History) (name : String), (run h).build = .error (.inheritanceCycle name) →
      ∀ d ∈ h.beans, d.fullName = name → h.Cyclic d := by
  intro hall
  have he : (run tail).build = .error (.inheritanceCycle "A") := by cbv
  have hcyc : tail.Leads (childOf "B" "A") (childOf "B" "A") :=
    hall tail "A" he _ (by decide) rfl
  -- both beans name the second one as their parent, so nothing leads to the first
  have hparent : ∀ {d p : BeanDecl}, d ∈ tail.beans → tail.IsParent p d → p = childOf "B" "B" := by
    rintro d p hd ⟨w, hw, hf⟩
    have hmem : ∀ b ∈ tail.beans, b = childOf "B" "A" ∨ b = childOf "B" "B" := by decide
    have hnamed := hf.named
    rcases hmem d hd with rfl | rfl <;> cases hw <;>
      rcases hmem p hf.mem with rfl | rfl <;> first | rfl | exact absurd hnamed (by decide)
  have hup : ∀ {a}, tail.Leads (childOf "B" "A") a → a = childOf "B" "B" := by
    intro a ha
    induction ha with
    | single hip => exact hparent (by decide) hip
    | tail _ hip ih =>
      subst ih
      exact hparent (by decide) hip
  exact absurd (hup hcyc) (by decide)

end Builder

end GameConfig
