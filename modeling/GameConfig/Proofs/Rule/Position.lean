import GameConfig.Proofs.Load.Apart
import GameConfig.Proofs.Rule.Direct
import Mathlib

/-
  The positions that the walk over a record visits.

  A position is given by the steps that lead to it from the record: names of
  fields, numbers of items, and for maps the number of an entry and whether its
  key or its value is meant.  In a path a step is written as `.name`, as `[i]`
  or as the JSON text of the key in brackets, for the key and for the value.

  * `RuleSet.visits` lists the visited positions with the rules and the values
    there; `walk_eq` states that the walk applies the rules of one position
    after the other, each at its path;
  * `RuleSet.exists_visit_iff`: these are all positions inside the record;
  * `Leads.eq_or_twins`: positions that are written alike are the same, but for
    the key and the value of an entry;
  * `paths_tell_of_build`: so over an accepted schema a path tells the position,
    up to that.
-/

namespace GameConfig

open Notation

/-! ## Positions -/

/-- A step from a value to one of its parts. -/
inductive Step where
  | field (name : String)
  | item (i : Nat)
  /-- To the key of an entry, which is exported as the JSON value. -/
  | key (i : Nat) (key : Json)
  /-- To the value of an entry with such a key. -/
  | value (i : Nat) (key : Json)

/-- How a step is written in a path. -/
def Step.text : Step → String
  | field name => "." ++ name
  | item i => "[" ++ integerText i ++ "]"
  | key _ k | value _ k => "[" ++ k.compact ++ "]"

/-- How steps are written, one behind the other. -/
def stepsText : List Step → String
  | [] => ""
  | st :: steps => st.text ++ stepsText steps

/-- Steps lead from a value to a value inside it. -/
inductive Leads (s : Schema) : List Step → Datum → Datum → Prop
  | here {d : Datum} : Leads s [] d d
  | field {id : Nat} {vs : List (Option Datum)} {f : Field} {d e : Datum} {steps : List Step} :
      (f, some d) ∈ (s.bean id).allFields.zip vs → Leads s steps d e →
        Leads s (.field f.name :: steps) (.bean id vs) e
  | item {k : SeqKind} {ds : List Datum} {i : Nat} {d e : Datum} {steps : List Step} :
      ds[i]? = some d → Leads s steps d e → Leads s (.item i :: steps) (.seq k ds) e
  | key {es : Entries} {i : Nat} {k v e : Datum} {steps : List Step} :
      es[i]? = some (k, v) → Leads s steps k e →
        Leads s (.key i (k.toJson s) :: steps) (.map es) e
  | value {es : Entries} {i : Nat} {k v e : Datum} {steps : List Step} :
      es[i]? = some (k, v) → Leads s steps v e →
        Leads s (.value i (k.toJson s) :: steps) (.map es) e

/-- The first position is, or lies inside, the key of an entry of a map, and the second one is, or
    lies at the same relative path inside, the value of that entry. -/
def Twins (steps steps' : List Step) : Prop :=
  ∃ front i key rest rest', steps = front ++ .key i key :: rest ∧
    steps' = front ++ .value i key :: rest' ∧ stepsText rest = stepsText rest'

/-- A position, with the rules for the value there. -/
structure Visit where
  steps : List Step
  tree : RuleTree
  value : Datum

namespace Visit

/-- The path, from the record on. -/
def path (v : Visit) : String := stepsText v.steps

/-- The position seen from one step up. -/
def behind (st : Step) (v : Visit) : Visit := { v with steps := st :: v.steps }

end Visit

/-! ## Visits -/

/-- A part of a value, the step that leads to it and the rules for it. -/
structure Branch where
  step : Step
  tree : RuleTree
  value : Datum

/-- The items of a sequence from number `i` on. -/
def itemBranches (elem : RuleTree) (i : Nat) : List Datum → List Branch
  | [] => []
  | d :: ds => ⟨.item i, elem, d⟩ :: itemBranches elem (i + 1) ds

/-- The keys and values of a map from entry number `i` on. -/
def entryBranches (s : Schema) (key value : RuleTree) (i : Nat) : Entries → List Branch
  | [] => []
  | (k, v) :: es =>
    ⟨.key i (k.toJson s), key, k⟩ :: ⟨.value i (k.toJson s), value, v⟩ ::
      entryBranches s key value (i + 1) es

/-- The fields of a bean, as far as there are both rules and values. -/
def fieldBranches : BeanRules → List (Option Datum) → List Branch
  | (name, tree) :: rules, some d :: ds => ⟨.field name, tree, d⟩ :: fieldBranches rules ds
  | _ :: rules, none :: ds => fieldBranches rules ds
  | _, _ => []

/-- The parts of a value that its tree has rules for. -/
def branches (s : Schema) (set : RuleSet) (tree : RuleTree) : Datum → List Branch
  | .seq kind items =>
    match tree with
    | .seq _ k elem => if k = kind then itemBranches elem 0 items else []
    | _ => []
  | .map entries =>
    match tree with
    | .map _ key value => entryBranches s key value 0 entries
    | _ => []
  | .bean id fields =>
    match tree with
    | .bean _ => fieldBranches (set.bean id) fields
    | _ => []
  | _ => []

section

variable {s : Schema} {set : RuleSet} {tree key value elem : RuleTree} {b : Branch} {i : Nat}

theorem mem_itemBranches {ds : List Datum} :
    b ∈ itemBranches elem i ds ↔ ∃ j d, ds[j]? = some d ∧ b = ⟨.item (i + j), elem, d⟩ := by
  induction ds generalizing i with
  | nil => simp [itemBranches]
  | cons d ds ih =>
    rw [itemBranches, List.mem_cons, ih]
    constructor
    · rintro (rfl | ⟨j, e, hj, rfl⟩)
      · exact ⟨0, d, rfl, rfl⟩
      · exact ⟨j + 1, e, hj, by rw [Nat.add_right_comm]; rfl⟩
    · rintro ⟨j, e, hj, rfl⟩
      cases j with
      | zero =>
        obtain rfl := Option.some.inj hj
        exact .inl rfl
      | succ j => exact .inr ⟨j, e, hj, by rw [Nat.add_right_comm]; rfl⟩

theorem mem_entryBranches {es : Entries} :
    b ∈ entryBranches s key value i es ↔ ∃ j k v, es[j]? = some (k, v) ∧
      (b = ⟨.key (i + j) (k.toJson s), key, k⟩ ∨ b = ⟨.value (i + j) (k.toJson s), value, v⟩) := by
  induction es generalizing i with
  | nil => simp [entryBranches]
  | cons e es ih =>
    obtain ⟨k, v⟩ := e
    rw [entryBranches, List.mem_cons, List.mem_cons, ih]
    constructor
    · rintro (rfl | rfl | ⟨j, k', v', hj, h⟩)
      · exact ⟨0, k, v, rfl, .inl rfl⟩
      · exact ⟨0, k, v, rfl, .inr rfl⟩
      · exact ⟨j + 1, k', v', hj, by rwa [← Nat.add_assoc, Nat.add_right_comm]⟩
    · rintro ⟨j, k', v', hj, h⟩
      cases j with
      | zero =>
        obtain ⟨rfl, rfl⟩ := Prod.mk.inj (Option.some.inj hj)
        exact h.imp_right .inl
      | succ j =>
        rw [← Nat.add_assoc, Nat.add_right_comm] at h
        exact .inr (.inr ⟨j, k', v', hj, h⟩)

theorem mem_fieldBranches {rules : BeanRules} {vs : List (Option Datum)} :
    b ∈ fieldBranches rules vs ↔
      ∃ r d, (r, some d) ∈ rules.zip vs ∧ b = ⟨.field r.1, r.2, d⟩ := by
  induction rules generalizing vs with
  | nil => cases vs <;> simp [fieldBranches]
  | cons r rules ih =>
    cases vs with
    | nil => simp [fieldBranches]
    | cons v vs =>
      cases v with
      | none => simp [fieldBranches, ih]
      | some d =>
        rw [fieldBranches, List.mem_cons, ih, List.zip_cons_cons]
        constructor
        · rintro (rfl | ⟨r', e, hr, rfl⟩)
          · exact ⟨r, d, List.mem_cons_self, rfl⟩
          · exact ⟨r', e, .tail _ hr, rfl⟩
        · rintro ⟨r', e, hr, rfl⟩
          rcases List.mem_cons.1 hr with h | hr
          · obtain ⟨rfl, he⟩ := Prod.mk.inj h
            obtain rfl := Option.some.inj he
            exact .inl rfl
          · exact .inr ⟨r', e, hr, rfl⟩

/-- Branches lead to parts. -/
theorem mem_parts_of_branch {d : Datum} (h : b ∈ branches s set tree d) : b.value ∈ d.parts := by
  unfold branches at h
  split at h
  · split at h
    · split at h
      · obtain ⟨j, e, hj, rfl⟩ := mem_itemBranches.1 h
        exact List.mem_of_getElem? hj
      · cases h
    · cases h
  · split at h
    · obtain ⟨j, k, v, hj, rfl | rfl⟩ := mem_entryBranches.1 h
      · exact List.mem_append_left _ (List.mem_map_of_mem (List.mem_of_getElem? hj))
      · exact List.mem_append_right _ (List.mem_map_of_mem (List.mem_of_getElem? hj))
    · cases h
  · split at h
    · obtain ⟨r, e, hr, rfl⟩ := mem_fieldBranches.1 h
      exact List.mem_filterMap.2 ⟨some e, (List.of_mem_zip hr).2, rfl⟩
    · cases h
  · cases h

end

/-- The positions inside a value, the whole before its parts. -/
def visits (s : Schema) (set : RuleSet) (tree : RuleTree) (d : Datum) : List Visit :=
  ⟨[], tree, d⟩ :: (branches s set tree d).attach.flatMap fun b =>
    (visits s set b.1.tree b.1.value).map (.behind b.1.step)
termination_by sizeOf d
decreasing_by exact Datum.sizeOf_part (mem_parts_of_branch b.2)

/-- The positions behind some branches. -/
def visitsBehind (s : Schema) (set : RuleSet) (bs : List Branch) : List Visit :=
  bs.flatMap fun b => (visits s set b.tree b.value).map (.behind b.step)

/-- The positions of a record that the walk visits. -/
def RuleSet.visits (set : RuleSet) (s : Schema) (r : Record) : List Visit :=
  visitsBehind s set (fieldBranches (set.bean r.bean) r.fields)

theorem visits_eq (s : Schema) (set : RuleSet) (tree : RuleTree) (d : Datum) :
    visits s set tree d = ⟨[], tree, d⟩ :: visitsBehind s set (branches s set tree d) := by
  have hflat := List.flatMap_subtype (l := (branches s set tree d).attach)
    (f := fun b => (visits s set b.1.tree b.1.value).map (Visit.behind b.1.step))
    (g := fun b => (visits s set b.tree b.value).map (Visit.behind b.step)) fun _ _ => rfl
  rw [visits, visitsBehind, hflat, List.unattach_attach]

theorem mem_visitsBehind {s : Schema} {set : RuleSet} {bs : List Branch} {v : Visit} :
    v ∈ visitsBehind s set bs ↔
      ∃ b ∈ bs, ∃ w ∈ visits s set b.tree b.value, v = w.behind b.step := by
  simp [visitsBehind, eq_comm]

theorem behind_mem_visits {s : Schema} {set : RuleSet} {tree : RuleTree} {d : Datum} {b : Branch}
    (hb : b ∈ branches s set tree d) {v : Visit} (hv : v ∈ visits s set b.tree b.value) :
    v.behind b.step ∈ visits s set tree d := by
  rw [visits_eq]
  exact .tail _ (mem_visitsBehind.2 ⟨b, hb, v, hv, rfl⟩)

/-! ## The walk -/

section

variable (s : Schema) (set : RuleSet) (source path : String)

theorem walkItems_eq (elem : RuleTree) (i : Nat) (ds : List Datum) :
    walkItems s set source path elem i ds = (itemBranches elem i ds).flatMap fun b =>
      walk s set source (path ++ b.step.text) b.tree b.value := by
  induction ds generalizing i with
  | nil => rfl
  | cons d ds ih =>
    rw [walkItems, itemBranches, List.flatMap_cons, ih, Step.text, String.append_assoc,
      String.append_assoc, String.append_assoc]

theorem walkEntries_eq (key value : RuleTree) (i : Nat) (es : Entries) :
    walkEntries s set source path key value es = (entryBranches s key value i es).flatMap fun b =>
      walk s set source (path ++ b.step.text) b.tree b.value := by
  induction es generalizing i with
  | nil => rfl
  | cons e es ih =>
    rw [walkEntries, entryBranches, List.flatMap_cons, List.flatMap_cons, ih (i + 1)]
    simp only [Step.text, String.append_assoc, List.append_assoc]

theorem walkFields_eq (rules : BeanRules) (vs : List (Option Datum)) :
    walkFields s set source path rules vs = (fieldBranches rules vs).flatMap fun b =>
      walk s set source (path ++ b.step.text) b.tree b.value := by
  induction rules generalizing vs with
  | nil => cases vs <;> rfl
  | cons r rules ih =>
    cases vs with
    | nil => rfl
    | cons v vs =>
      cases v with
      | none => rw [walkFields, fieldBranches, ih]
      | some d =>
        rw [walkFields, fieldBranches, List.flatMap_cons, ih, Step.text, String.append_assoc]

/-- The walk applies the rules to the whole, then goes along the branches. -/
theorem walk_branches (tree : RuleTree) (d : Datum) :
    walk s set source path tree d = applyRules s source path tree.rules d ++
      (branches s set tree d).flatMap fun b =>
        walk s set source (path ++ b.step.text) b.tree b.value := by
  cases d with
  | seq kind items =>
    cases tree with
    | seq rs k elem =>
      by_cases hk : k = kind
      · simp [walk, branches, hk, walkItems_eq]
      · simp [walk, branches, hk]
    | _ => simp [walk, branches]
  | map entries =>
    cases tree with
    | map rs key value => simp [walk, branches, walkEntries_eq _ _ _ _ _ _ 0]
    | _ => simp [walk, branches]
  | bean id fields =>
    cases tree with
    | bean rs => simp [walk, branches, walkFields_eq]
    | _ => simp [walk, branches]
  | _ => simp [walk, branches]

/-- **The walk applies the rules of one position after the other**, each at its path. -/
theorem walk_eq (tree : RuleTree) (d : Datum) :
    walk s set source path tree d = (visits s set tree d).flatMap fun v =>
      applyRules s source (path ++ v.path) v.tree.rules v.value := by
  induction d using Datum.induction generalizing path tree with
  | step d ih =>
    rw [walk_branches, visits_eq, List.flatMap_cons, visitsBehind, List.flatMap_assoc]
    congr 1
    · simp [Visit.path, stepsText]
    · refine List.flatMap_congr fun b hb => ?_
      rw [ih _ (mem_parts_of_branch hb), List.flatMap_map]
      refine List.flatMap_congr fun v _ => ?_
      simp [Visit.behind, Visit.path, stepsText, String.append_assoc]

theorem RuleSet.faults_eq (r : Record) :
    set.faults s source path r = (set.visits s r).flatMap fun v =>
      applyRules s source (path ++ v.path) v.tree.rules v.value := by
  rw [faults, visits, walkFields_eq, visitsBehind, List.flatMap_assoc]
  refine List.flatMap_congr fun b _ => ?_
  rw [walk_eq, List.flatMap_map]
  refine List.flatMap_congr fun v _ => ?_
  simp [Visit.behind, Visit.path, stepsText, String.append_assoc]

end

/-! ## Where the walk comes -/

theorem exists_mem_zip_of_forall₂ {α β γ : Type} {R : α → β → Prop} {as : List α} {bs : List β}
    (h : List.Forall₂ R as bs) {cs : List γ} {a : α} {c : γ} (hac : (a, c) ∈ as.zip cs) :
    ∃ b, R a b ∧ (b, c) ∈ bs.zip cs := by
  induction h generalizing cs with
  | nil => cases hac
  | cons hab _ ih =>
    cases cs with
    | nil => cases hac
    | cons c' cs =>
      rcases List.mem_cons.1 hac with hac | hac
      · obtain ⟨rfl, rfl⟩ := Prod.mk.inj hac
        exact ⟨_, hab, List.mem_cons_self⟩
      · obtain ⟨b, hb, hbc⟩ := ih hac
        exact ⟨b, hb, .tail _ hbc⟩

section

variable {s : Schema} {registry : Registry} {set : RuleSet}
variable (hset : RuleSet.compile s registry = .ok set)
include hset

/-- The rules of a bean are those of its fields, in order. -/
theorem RuleSet.forall₂_of_compile (id : Nat) :
    List.Forall₂ (fun f r => r.1 = f.name ∧
      RuleTree.ofField ⟨s, s.bean id, f⟩ registry = .ok r.2)
        (s.bean id).allFields (set.bean id) := by
  by_cases hid : id < s.beans.length
  · exact compileFields_eq_ok.1 (RuleSet.bean_of_compile hset hid).2
  · obtain ⟨out, hout, rfl⟩ := RuleSet.compile_eq_ok.1 hset
    have hrules : RuleSet.bean ⟨out⟩ id = [] := by
      rw [RuleSet.bean, List.getD_eq_getElem?_getD, List.getElem?_eq_none]
      · rfl
      · rw [← (compileBeans_eq_ok.1 hout).length_eq]
        exact Nat.le_of_not_lt hid
    rw [hrules, Schema.bean_of_not_lt hid]
    exact .nil

/-- The walk goes from a bean to the fields that have values. -/
theorem mem_fieldBranches_of_compile {id : Nat} {vs : List (Option Datum)} {b : Branch} :
    b ∈ fieldBranches (set.bean id) vs ↔ ∃ f d tree, (f, some d) ∈ (s.bean id).allFields.zip vs ∧
      RuleTree.ofField ⟨s, s.bean id, f⟩ registry = .ok tree ∧ b = ⟨.field f.name, tree, d⟩ := by
  have hall := RuleSet.forall₂_of_compile hset id
  rw [mem_fieldBranches]
  constructor
  · rintro ⟨r, d, hr, rfl⟩
    obtain ⟨f, ⟨hname, htree⟩, hf⟩ := exists_mem_zip_of_forall₂ hall.flip hr
    exact ⟨f, d, r.2, hf, htree, by rw [hname]⟩
  · rintro ⟨f, d, tree, hf, htree, rfl⟩
    obtain ⟨r, ⟨hname, htree'⟩, hr⟩ := exists_mem_zip_of_forall₂ hall hf
    obtain rfl := Except.ok.inj (htree'.symm.trans htree)
    exact ⟨r, d, hr, by rw [hname]⟩

/-- The steps of a branch and of a position behind it lead there. -/
theorem leads_branch {tree : RuleTree} {d : Datum} {b : Branch} (hb : b ∈ branches s set tree d)
    {steps : List Step} {e : Datum} (h : Leads s steps b.value e) :
    Leads s (b.step :: steps) d e := by
  unfold branches at hb
  split at hb
  · split at hb
    · split at hb
      · obtain ⟨j, x, hj, rfl⟩ := mem_itemBranches.1 hb
        rw [Nat.zero_add]
        exact .item hj h
      · cases hb
    · cases hb
  · split at hb
    · obtain ⟨j, k, v, hj, rfl | rfl⟩ := mem_entryBranches.1 hb
      · rw [Nat.zero_add]
        exact .key hj h
      · rw [Nat.zero_add]
        exact .value hj h
    · cases hb
  · split at hb
    · obtain ⟨f, x, tree, hf, -, rfl⟩ := (mem_fieldBranches_of_compile hset).1 hb
      exact .field hf h
    · cases hb
  · cases hb

/-- **The steps of a position lead to the value there.** -/
theorem leads_visits {tree : RuleTree} {d : Datum} {v : Visit} (hv : v ∈ visits s set tree d) :
    Leads s v.steps d v.value := by
  induction d using Datum.induction generalizing tree v with
  | step d ih =>
    rw [visits_eq, List.mem_cons] at hv
    rcases hv with rfl | hv
    · exact .here
    · obtain ⟨b, hb, w, hw, rfl⟩ := mem_visitsBehind.1 hv
      exact leads_branch hset hb (ih _ (mem_parts_of_branch hb) hw)

/-- **The walk along the tree of a type comes to all positions** inside a value of the type. -/
theorem exists_visit {steps : List Step} {d e : Datum} (h : Leads s steps d e) {ty : Ty}
    (hd : Conforms s ty d) {b : BeanDef} {f : Field} {inner : RuleTree}
    (htree : RuleTree.ofTy ⟨s, b, f⟩ registry ty = .ok inner) (more : List Rule) :
    ∃ v ∈ visits s set (inner.add more) d, v.steps = steps ∧ v.value = e := by
  induction h generalizing ty b f inner more with
  | here =>
    rw [visits_eq]
    exact ⟨_, List.mem_cons_self, rfl, rfl⟩
  | @field id vs g x e steps hg _ ih =>
    cases hd with
    | bean _ _ _ _ _ hfields =>
      obtain ⟨rules, -, rfl⟩ := RuleTree.ofTy_bean_eq_ok.1 htree
      obtain ⟨r, ⟨-, hr⟩, -⟩ :=
        exists_mem_zip_of_forall₂ (RuleSet.forall₂_of_compile hset id) hg
      have hbranch : ⟨.field g.name, r.2, x⟩ ∈ branches s set ((RuleTree.bean rules).add more)
          (.bean id vs) :=
        (mem_fieldBranches_of_compile hset).2 ⟨g, x, r.2, hg, hr, rfl⟩
      obtain ⟨inner, own, hinner, -, hadd⟩ := RuleTree.ofField_eq_ok.1 hr
      obtain ⟨v, hv, rfl, rfl⟩ := ih (hfields g x hg) hinner own
      rw [hadd] at hv
      exact ⟨_, behind_mem_visits hbranch hv, rfl, rfl⟩
  | @item k ds i x e steps hi _ ih =>
    cases hd with
    | seq helems =>
      obtain ⟨rules, elem, -, helem, rfl⟩ := RuleTree.ofTy_seq_eq_ok.1 htree
      have hbranch : ⟨.item i, elem, x⟩ ∈ branches s set ((RuleTree.seq rules k elem).add more)
          (.seq k ds) := by
        simp [branches, RuleTree.add, mem_itemBranches, hi]
      obtain ⟨v, hv, rfl, rfl⟩ := ih (helems x (List.mem_of_getElem? hi)) helem []
      rw [elem.add_nil] at hv
      exact ⟨_, behind_mem_visits hbranch hv, rfl, rfl⟩
  | @key es i k v e steps hi _ ih =>
    cases hd with
    | map _ hkeys _ =>
      obtain ⟨rules, kt, vt, -, hkt, -, rfl⟩ := RuleTree.ofTy_map_eq_ok.1 htree
      have hbranch : ⟨.key i (k.toJson s), kt, k⟩ ∈ branches s set
          ((RuleTree.map rules kt vt).add more) (.map es) := by
        simp [branches, RuleTree.add, mem_entryBranches, hi]
      obtain ⟨w, hw, rfl, rfl⟩ := ih (hkeys _ (List.mem_of_getElem? hi)) hkt []
      rw [kt.add_nil] at hw
      exact ⟨_, behind_mem_visits hbranch hw, rfl, rfl⟩
  | @value es i k v e steps hi _ ih =>
    cases hd with
    | map _ _ hvalues =>
      obtain ⟨rules, kt, vt, -, -, hvt, rfl⟩ := RuleTree.ofTy_map_eq_ok.1 htree
      have hbranch : ⟨.value i (k.toJson s), vt, v⟩ ∈ branches s set
          ((RuleTree.map rules kt vt).add more) (.map es) := by
        simp [branches, RuleTree.add, mem_entryBranches, hi]
      obtain ⟨w, hw, rfl, rfl⟩ := ih (hvalues _ (List.mem_of_getElem? hi)) hvt []
      rw [vt.add_nil] at hw
      exact ⟨_, behind_mem_visits hbranch hw, rfl, rfl⟩

/-- **The walk over a record comes to all positions inside it.** -/
theorem RuleSet.exists_visit_iff {m : Mark} {id : Nat} {r : Record}
    (hr : Conforms s (.named m (.bean id)) r.toDatum) {steps : List Step} {e : Datum} :
    (∃ v ∈ set.visits s r, v.steps = steps ∧ v.value = e) ↔
      steps ≠ [] ∧ Leads s steps r.toDatum e := by
  constructor
  · rintro ⟨v, hv, rfl, rfl⟩
    obtain ⟨b, hb, w, hw, rfl⟩ := mem_visitsBehind.1 hv
    obtain ⟨f, d, tree, hf, -, rfl⟩ := (mem_fieldBranches_of_compile hset).1 hb
    exact ⟨List.cons_ne_nil _ _, .field hf (leads_visits hset hw)⟩
  · rintro ⟨hne, h⟩
    cases hr with
    | bean _ _ _ _ _ hfields =>
      cases h with
      | here => exact absurd rfl hne
      | @field _ _ f d _ steps hf h =>
        obtain ⟨t, ⟨-, ht⟩, -⟩ :=
          exists_mem_zip_of_forall₂ (RuleSet.forall₂_of_compile hset r.bean) hf
        obtain ⟨inner, own, hinner, -, hadd⟩ := RuleTree.ofField_eq_ok.1 ht
        obtain ⟨v, hv, rfl, rfl⟩ := exists_visit hset h (hfields f d hf) hinner own
        rw [hadd] at hv
        exact ⟨_, mem_visitsBehind.2 ⟨_, (mem_fieldBranches_of_compile hset).2
          ⟨f, d, t.2, hf, ht, rfl⟩, v, hv, rfl⟩, rfl, rfl⟩

end

/-! ## Steps told apart -/

theorem stepsText_append (steps steps' : List Step) :
    stepsText (steps ++ steps') = stepsText steps ++ stepsText steps' := by
  induction steps with
  | nil => simp [stepsText]
  | cons st steps ih => rw [List.cons_append, stepsText, stepsText, ih, String.append_assoc]

theorem stepsText_cons_ne (st : Step) (steps : List Step) : stepsText (st :: steps) ≠ "" := by
  intro h
  have hnil := congrArg String.toList h
  cases st <;> simp [stepsText, Step.text] at hnil

/-- A name ends where a path ends or goes on. -/
theorem endsName_stepsText (steps : List Step) :
    ∀ c ∈ (stepsText steps).toList.head?, isNameChar c = false := by
  cases steps with
  | nil => simp [stepsText]
  | cons st steps => cases st <;> simp [stepsText, Step.text] <;> rfl

theorem field_append_inj {n m : String} (hn : isName n.toList = true) (hm : isName m.toList = true)
    {steps steps' : List Step}
    (h : stepsText (.field n :: steps) = stepsText (.field m :: steps')) :
    n = m ∧ stepsText steps = stepsText steps' := by
  have hchars : n.toList ++ (stepsText steps).toList = m.toList ++ (stepsText steps').toList := by
    simpa [stepsText, Step.text] using congrArg String.toList h
  obtain ⟨hnm, hrest⟩ := append_inj_of_ends (isNameChar_of_isName hn) (isNameChar_of_isName hm)
    (endsName_stepsText steps) (endsName_stepsText steps') hchars
  exact ⟨String.toList_inj.1 hnm, String.toList_inj.1 hrest⟩

theorem item_append_inj {i j : Nat} {steps steps' : List Step}
    (h : stepsText (.item i :: steps) = stepsText (.item j :: steps')) :
    i = j ∧ stepsText steps = stepsText steps' := by
  have hchars : (Json.Number.int i).chars ++ ']' :: (stepsText steps).toList =
      (Json.Number.int j).chars ++ ']' :: (stepsText steps').toList := by
    simpa [stepsText, Step.text, Json.Number.chars] using congrArg String.toList h
  have hfin : ∀ k : Nat, (Json.Number.int k).IsFinite := fun _ => trivial
  obtain ⟨hij, hrest⟩ := Json.Number.chars_append_inj (hfin i) (hfin j)
    (Json.endsNumeral_cons rfl _) (Json.endsNumeral_cons rfl _) hchars
  exact ⟨Int.natCast_inj.1 (Json.Number.int.inj hij), String.toList_inj.1 (List.cons.inj hrest).2⟩

theorem key_append_inj {a b : Step} {j k : Json} (ha : a.text = "[" ++ j.compact ++ "]")
    (hb : b.text = "[" ++ k.compact ++ "]") (hj : j.Fits) (hk : k.Fits)
    {steps steps' : List Step} (h : stepsText (a :: steps) = stepsText (b :: steps')) :
    j = k ∧ stepsText steps = stepsText steps' := by
  have hchars : j.compactChars ++ ']' :: (stepsText steps).toList =
      k.compactChars ++ ']' :: (stepsText steps').toList := by
    simpa [stepsText, ha, hb, Json.compact] using congrArg String.toList h
  obtain ⟨hjk, hrest⟩ := Json.compactChars_append_inj j hj hk (Json.endsNumeral_cons rfl _)
    (Json.endsNumeral_cons rfl _) hchars
  exact ⟨hjk, String.toList_inj.1 (List.cons.inj hrest).2⟩

/-! ## Positions told apart -/

namespace Twins

variable {steps steps' : List Step}

theorem stepsText_eq (h : Twins steps steps') : stepsText steps = stepsText steps' := by
  obtain ⟨front, i, k, rest, rest', rfl, rfl, hrest⟩ := h
  rw [stepsText_append, stepsText_append, stepsText, stepsText, hrest, Step.text, Step.text]

theorem cons (st : Step) (h : Twins steps steps') : Twins (st :: steps) (st :: steps') := by
  obtain ⟨front, i, k, rest, rest', rfl, rfl, hrest⟩ := h
  exact ⟨st :: front, i, k, rest, rest', rfl, rfl, hrest⟩

end Twins

variable {s : Schema}

/-- A name tells the field of a bean, and its value. -/
theorem field_inj {fs : List Field} (hfs : (fs.map Field.name).Nodup) {vs : List (Option Datum)}
    {p q : Field × Option Datum} (hp : p ∈ fs.zip vs) (hq : q ∈ fs.zip vs)
    (h : p.1.name = q.1.name) : p = q := by
  obtain ⟨i, hi, rfl⟩ := List.getElem_of_mem hp
  obtain ⟨j, hj, rfl⟩ := List.getElem_of_mem hq
  have hlen : (fs.map Field.name).length = fs.length := List.length_map _
  rw [List.length_zip] at hi hj
  have hi' : i < (fs.map Field.name).length := by omega
  have hj' : j < (fs.map Field.name).length := by omega
  have hname : (fs.map Field.name)[i] = (fs.map Field.name)[j] := by
    simpa [List.getElem_zip] using h
  obtain rfl := hfs.getElem_inj_iff.1 hname
  rfl

/-- A key tells the entry of a map. -/
theorem entry_inj {es : Entries} (hkeys : Datum.KeysApart s (.map es)) {i j : Nat}
    {e f : Datum × Datum} (hi : es[i]? = some e) (hj : es[j]? = some f) {a b : Step}
    (ha : a.text = "[" ++ (e.1.toJson s).compact ++ "]")
    (hb : b.text = "[" ++ (f.1.toJson s).compact ++ "]") {steps steps' : List Step}
    (h : stepsText (a :: steps) = stepsText (b :: steps')) :
    i = j ∧ e = f ∧ stepsText steps = stepsText steps' := by
  obtain ⟨hfits, hdiffer⟩ := hkeys
  obtain ⟨hjson, hrest⟩ := key_append_inj ha hb (hfits e (List.mem_of_getElem? hi))
    (hfits f (List.mem_of_getElem? hj)) h
  obtain ⟨hilt, rfl⟩ := List.getElem?_eq_some_iff.1 hi
  obtain ⟨hjlt, rfl⟩ := List.getElem?_eq_some_iff.1 hj
  rw [List.pairwise_iff_getElem] at hdiffer
  obtain rfl : i = j := by
    rcases Nat.lt_trichotomy i j with hlt | heq | hlt
    · exact absurd hjson (hdiffer i j hilt hjlt hlt)
    · exact heq
    · exact absurd hjson.symm (hdiffer j i hjlt hilt hlt)
  exact ⟨rfl, rfl, hrest⟩

/-- **Positions that are written alike are the same**, but for those in the key and in the value
    of an entry. -/
theorem Leads.eq_or_twins (hs : s.Sound) (hn : s.Named) {steps steps' : List Step} {d e e' : Datum}
    (h : Leads s steps d e) (h' : Leads s steps' d e') (hd : d.Throughout (Datum.KeysApart s))
    (htext : stepsText steps = stepsText steps') :
    steps = steps' ∨ Twins steps steps' ∨ Twins steps' steps := by
  have hcons : ∀ (st : Step) {steps steps' : List Step},
      (steps = steps' ∨ Twins steps steps' ∨ Twins steps' steps) →
        st :: steps = st :: steps' ∨ Twins (st :: steps) (st :: steps') ∨
          Twins (st :: steps') (st :: steps) :=
    fun st _ _ => .imp (congrArg _) (.imp (.cons st) (.cons st))
  induction h generalizing steps' with
  | here =>
    cases steps' with
    | nil => exact .inl rfl
    | cons st steps' => exact absurd htext.symm (stepsText_cons_ne st steps')
  | @field id vs f x e steps hf _ ih =>
    cases h' with
    | here => exact absurd htext (stepsText_cons_ne _ _)
    | @field _ _ g y _ steps' hg h' =>
      obtain ⟨hname, hrest⟩ := field_append_inj (hn id f (List.of_mem_zip hf).1)
        (hn id g (List.of_mem_zip hg).1) htext
      obtain ⟨rfl, hxy⟩ := Prod.mk.inj (field_inj (hs.fieldsNodup id) hf hg hname)
      obtain rfl := Option.some.inj hxy
      exact hcons _ (ih h' (hd.field (List.of_mem_zip hf).2) hrest)
  | @item k ds i x e steps hi _ ih =>
    cases h' with
    | here => exact absurd htext (stepsText_cons_ne _ _)
    | @item _ _ j y _ steps' hj h' =>
      obtain ⟨rfl, hrest⟩ := item_append_inj htext
      obtain rfl := Option.some.inj (hi.symm.trans hj)
      exact hcons _ (ih h' (hd.part (List.mem_of_getElem? hi)) hrest)
  | @key es i k v e steps hi _ ih =>
    cases h' with
    | here => exact absurd htext (stepsText_cons_ne _ _)
    | @key _ j l w _ steps' hj h' =>
      obtain ⟨rfl, hkv, hrest⟩ := entry_inj hd.whole hi hj rfl rfl htext
      obtain ⟨rfl, rfl⟩ := Prod.mk.inj hkv
      exact hcons _ (ih h' (hd.key (List.mem_of_getElem? hi)) hrest)
    | @value _ j l w _ steps' hj h' =>
      obtain ⟨rfl, hkv, hrest⟩ := entry_inj hd.whole hi hj rfl rfl htext
      obtain ⟨rfl, rfl⟩ := Prod.mk.inj hkv
      exact .inr (.inl ⟨[], i, k.toJson s, steps, steps', rfl, rfl, hrest⟩)
  | @value es i k v e steps hi _ ih =>
    cases h' with
    | here => exact absurd htext (stepsText_cons_ne _ _)
    | @key _ j l w _ steps' hj h' =>
      obtain ⟨rfl, hkv, hrest⟩ := entry_inj hd.whole hi hj rfl rfl htext
      obtain ⟨rfl, rfl⟩ := Prod.mk.inj hkv
      exact .inr (.inr ⟨[], i, k.toJson s, steps', steps, rfl, rfl, hrest.symm⟩)
    | @value _ j l w _ steps' hj h' =>
      obtain ⟨rfl, hkv, hrest⟩ := entry_inj hd.whole hi hj rfl rfl htext
      obtain ⟨rfl, rfl⟩ := Prod.mk.inj hkv
      exact hcons _ (ih h' (hd.value (List.mem_of_getElem? hi)) hrest)

/-- **Paths tell positions**: over every accepted schema, compiled rules and loaded record the walk
    applies the rules of one position after the other, at the path that it writes behind the
    starting path; it comes to all positions inside the record; and two of them have one path only
    if one is or lies inside the key of an entry of a map and the other one is or lies inside the
    value of that entry, at the same relative path. -/
theorem paths_tell_of_build {d : Descriptor} {s : Schema} (hb : d.build = .ok s)
    {registry : Registry} {set : RuleSet} (hset : RuleSet.compile s registry = .ok set)
    {v : Option String} {id : Nat} (hid : id < s.beans.length) {x : Json} (hx : x.Fits) {r : Record}
    (hr : Loader.loadBean ⟨s, v⟩ id x = .ok r) (source path : String) :
    (set.faults s source path r = (set.visits s r).flatMap fun w =>
      applyRules s source (path ++ w.path) w.tree.rules w.value) ∧
    (∀ steps e, (∃ w ∈ set.visits s r, w.steps = steps ∧ w.value = e) ↔
      steps ≠ [] ∧ Leads s steps r.toDatum e) ∧
    ∀ w ∈ set.visits s r, ∀ w' ∈ set.visits s r, w.steps ≠ w'.steps →
      (path ++ w.path = path ++ w'.path ↔
        Twins w.steps w'.steps ∨ Twins w'.steps w.steps) := by
  obtain ⟨g, hg, hp⟩ := Descriptor.exists_history_of_build hb
  have hs := Schema.sound_of_build hg
  have hn := Schema.named_of_build hp hg
  have hload : Loader.load ⟨s, v⟩ (.named .plain (.bean id)) x = .ok r.toDatum :=
    Loader.load_of_loadBean hr
  have hconf : Conforms s (.named .plain (.bean id)) r.toDatum :=
    Loader.load_conforms (l := ⟨s, v⟩) hs (Schema.closed_of_build hp.closed hg) hid hload
  have hkeys := Datum.keysApart_of_conforms hs hn hconf (Loader.load_expressible hx hload)
  have hvisits : ∀ steps e, (∃ w ∈ set.visits s r, w.steps = steps ∧ w.value = e) ↔
      steps ≠ [] ∧ Leads s steps r.toDatum e :=
    fun _ _ => RuleSet.exists_visit_iff hset hconf
  refine ⟨RuleSet.faults_eq s set source path r, hvisits,
    fun w hw w' hw' hne => ⟨fun hpath => ?_, ?_⟩⟩
  · have hleads := ((hvisits _ _).1 ⟨w, hw, rfl, rfl⟩).2
    have hleads' := ((hvisits _ _).1 ⟨w', hw', rfl, rfl⟩).2
    have htext := (String.append_right_inj _).1 hpath
    exact (hleads.eq_or_twins hs hn hleads' hkeys htext).resolve_left hne
  · rintro (h | h)
    · rw [Visit.path, Visit.path, h.stepsText_eq]
    · rw [Visit.path, Visit.path, h.stepsText_eq]

/-- Seasons, where a map tells whom the teams met. -/
def league : Descriptor where
  enums := []
  beans := [
    ⟨"Team", none, none, none, [⟨"name", "string", none, [], [("size", "[1,3]")], none⟩]⟩,
    ⟨"Season", none, none, none, [⟨"met", "map,Team,Team", none, [], [], none⟩]⟩]
  tables := []

def leagueSchema : Schema :=
  let name : Field := ⟨"name", none, [], .scalar .plain .string, [("size", "[1,3]")], none⟩
  let team : Ty := .named .plain (.bean 0)
  let met : Field := ⟨"met", none, [], .map .plain team team, [], none⟩
  { beans := [
      ⟨"Team", none, none, [name], none, [name], [], [0], [0]⟩,
      ⟨"Season", none, none, [met], none, [met], [], [1], [1]⟩]
    enums := []
    tables := []
    names := [("Team", .bean 0), ("Season", .bean 1)] }

/-- Two meetings.  Of the names only that of the second key is not too long, and the first one looks
    like the end of a path. -/
def season : Json :=
  let team (name : String) : Json := .object [("name", .string name)]
  .object [("met", .array [.array [team "a].name", team "home"], .array [team "b", team "away"]])]

def seasonRecord : Record :=
  let team (name : String) : Datum := .bean 0 [some (.string name)]
  ⟨1, [some (.map [(team "a].name", team "home"), (team "b", team "away")])]⟩

/-- Where the names are that are too long. -/
def overlong : List String :=
  ["TbSeason[0].met[\x7b\"name\":\"a].name\"\x7d].name",
    "TbSeason[0].met[\x7b\"name\":\"a].name\"\x7d].name",
    "TbSeason[0].met[\x7b\"name\":\"b\"\x7d].name"]

theorem paths_tell_season : league.build = .ok leagueSchema ∧ season.Fits ∧
    Loader.loadBean ⟨leagueSchema, none⟩ 1 season = .ok seasonRecord ∧
    ∃ set, RuleSet.compile leagueSchema .standard = .ok set ∧
      (set.faults leagueSchema "season.json" "TbSeason[0]" seasonRecord).map Failure.path =
        overlong ∧
      ∀ w ∈ set.visits leagueSchema seasonRecord, ∀ w' ∈ set.visits leagueSchema seasonRecord,
        w.steps ≠ w'.steps → ("TbSeason[0]" ++ w.path = "TbSeason[0]" ++ w'.path ↔
          Twins w.steps w'.steps ∨ Twins w'.steps w.steps) := by
  have hbuild : league.build = .ok leagueSchema := by cbv
  have hload : Loader.loadBean ⟨leagueSchema, none⟩ 1 season = .ok seasonRecord := by cbv
  have hfits : season.Fits := by
    have hteam : ∀ name, (Json.object [("name", .string name)]).Fits := fun name =>
      .object (List.forall_mem_singleton.2 .string)
    have hmet : ∀ name name', (Json.array [.object [("name", .string name)],
        .object [("name", .string name')]]).Fits := fun name name' =>
      .array (List.forall_mem_cons.2 ⟨hteam name, List.forall_mem_singleton.2 (hteam name')⟩)
    exact .object (List.forall_mem_singleton.2 (.array
      (List.forall_mem_cons.2 ⟨hmet _ _, List.forall_mem_singleton.2 (hmet _ _)⟩)))
  obtain ⟨set, hset, hpaths⟩ : ∃ set, RuleSet.compile leagueSchema .standard = .ok set ∧
      (set.faults leagueSchema "season.json" "TbSeason[0]" seasonRecord).map Failure.path =
        overlong := ⟨_, rfl, by decide +kernel⟩
  exact ⟨hbuild, hfits, hload, set, hset, hpaths,
    (paths_tell_of_build hbuild hset (by decide) hfits hload "season.json" "TbSeason[0]").2.2⟩

end GameConfig
