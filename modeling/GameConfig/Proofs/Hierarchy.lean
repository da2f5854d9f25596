import GameConfig.Schema.Resolve
import Mathlib.Data.Finset.Card
import Mathlib.Data.List.Nodup

/-
  The forest that the parents of beans form.

  `climb ps k id` goes up `k` parents.  In a `Forest` every parent is a bean and
  every way up ends; then no way is longer than there are beans, and the
  bounded walks of `Hierarchy` are complete:

  * `mem_chain` and `mem_familyOf`: a chain holds exactly the ancestors of a
    bean, a family exactly its descendants, both with the bean itself;
  * `familyOf_nodup`: a family holds each of them once;
  * `chain_of_parent`: the chain of a child is the child and the chain of its
    parent;
  * `exists_concrete`: below every bean there is one without children;
  * `forest_iff_cycles`: the cycle test accepts exactly the forests;
  * `cycles_iff`: it objects to exactly the beans from which the way up comes to
    a cycle, those on one and those that hang below one.
-/

namespace GameConfig.Hierarchy

variable {ps : Parents}

/-- The bean that is `k` parents above a bean. -/
def climb (ps : Parents) : Nat → Nat → Option Nat
  | 0, id => some id
  | k + 1, id => (parentOf ps id).bind (climb ps k)

theorem climb_add (j k id : Nat) : climb ps (j + k) id = (climb ps j id).bind (climb ps k) := by
  induction j generalizing id with
  | zero => simp [climb]
  | succ j ih =>
    rw [Nat.add_right_comm]
    cases h : parentOf ps id with
    | none => simp [climb, h]
    | some p => simp [climb, h, ih]

theorem climb_one (id : Nat) : climb ps 1 id = parentOf ps id := by
  cases h : parentOf ps id <;> simp [climb, h]

theorem climb_succ (k id : Nat) : climb ps (k + 1) id = (climb ps k id).bind (parentOf ps) := by
  rw [climb_add]
  exact congrArg _ (funext climb_one)

/-- Behind the end of the way up there is nothing. -/
theorem climb_none {j k id : Nat} (h : climb ps j id = none) (hk : j ≤ k) :
    climb ps k id = none := by
  obtain ⟨m, rfl⟩ := Nat.exists_eq_add_of_le hk
  rw [climb_add, h]; rfl

theorem lt_of_parentOf {id p : Nat} (h : parentOf ps id = some p) : id < ps.length := by
  by_contra hn
  rw [parentOf, List.getElem?_eq_none (Nat.le_of_not_lt hn)] at h
  simp at h

/-- A way that comes back to where it started can be gone round any number of times. -/
theorem climb_round {k a : Nat} (h : climb ps k a = some a) (n : Nat) :
    climb ps (n * k) a = some a := by
  induction n with
  | zero => simp [climb]
  | succ n ih => rw [Nat.succ_mul, climb_add, ih]; exact h

/-- What has a parent and what is one have numbers, so a way up that is longer than there are
    beans comes through one of them twice. -/
theorem exists_revisit (hin : ∀ {id p}, parentOf ps id = some p → p < ps.length) {k b : Nat}
    (hk : ps.length < k) (h : climb ps k b ≠ none) :
    ∃ i j c, i < j ∧ climb ps i b = some c ∧ climb ps j b = some c := by
  have hsome : ∀ i, i ≤ k → ∃ c, climb ps i b = some c := fun i hi =>
    Option.ne_none_iff_exists'.1 fun hn => h (climb_none hn hi)
  -- the stations behind the first step are parents, so beans, and there is one too many
  have hmaps : ∀ i ∈ Finset.range (ps.length + 1),
      (climb ps (i + 1) b).getD 0 ∈ Finset.range ps.length := by
    intro i hi
    obtain ⟨c, hc⟩ := hsome (i + 1) (by have := Finset.mem_range.1 hi; omega)
    have hc' := hc
    rw [climb_succ] at hc
    obtain ⟨p, -, hp⟩ := Option.bind_eq_some_iff.1 hc
    simpa [hc'] using hin hp
  obtain ⟨i, hi, j, hj, hne, heq⟩ :=
    Finset.exists_ne_map_eq_of_card_lt_of_maps_to (by simp) hmaps
  obtain ⟨c, hc⟩ := hsome (i + 1) (by have := Finset.mem_range.1 hi; omega)
  obtain ⟨d, hd⟩ := hsome (j + 1) (by have := Finset.mem_range.1 hj; omega)
  simp only [hc, hd, Option.getD_some] at heq
  subst heq
  rcases Nat.lt_or_gt_of_ne hne with hlt | hlt
  · exact ⟨i + 1, j + 1, c, by omega, hc, hd⟩
  · exact ⟨j + 1, i + 1, c, by omega, hd, hc⟩

/-- Every parent is a bean, and every way up ends. -/
structure Forest (ps : Parents) : Prop where
  inside : ∀ {id p}, parentOf ps id = some p → p < ps.length
  ends : ∀ id, ∃ k, climb ps k id = none

/-- `a` is `b` or one of its ancestors. -/
def Above (ps : Parents) (a b : Nat) : Prop := ∃ k, climb ps k b = some a

theorem Above.refl (a : Nat) : Above ps a a := ⟨0, rfl⟩

theorem Above.trans {a b c : Nat} (hab : Above ps a b) (hbc : Above ps b c) : Above ps a c := by
  obtain ⟨j, hj⟩ := hab
  obtain ⟨k, hk⟩ := hbc
  exact ⟨k + j, by rw [climb_add, hk]; exact hj⟩

theorem Above.parent {a b p : Nat} (h : Above ps a p) (hp : parentOf ps b = some p) :
    Above ps a b :=
  h.trans ⟨1, by rw [climb_one, hp]⟩

/-- What is above a bean is the bean itself or above its parent. -/
theorem above_iff {a b : Nat} :
    Above ps a b ↔ b = a ∨ ∃ p, parentOf ps b = some p ∧ Above ps a p := by
  constructor
  · rintro ⟨k, hk⟩
    cases k with
    | zero => exact Or.inl (Option.some.inj hk)
    | succ k =>
      obtain ⟨p, hp, hk⟩ := Option.bind_eq_some_iff.1 hk
      exact Or.inr ⟨p, hp, k, hk⟩
  · rintro (rfl | ⟨p, hp, h⟩)
    · exact .refl _
    · exact h.parent hp

/-- Two ancestors of one bean are on one way. -/
theorem Above.total {a b c : Nat} (ha : Above ps a c) (hb : Above ps b c) :
    Above ps a b ∨ Above ps b a := by
  obtain ⟨j, hj⟩ := ha
  obtain ⟨k, hk⟩ := hb
  rcases Nat.le_total j k with h | h
  · obtain ⟨m, rfl⟩ := Nat.exists_eq_add_of_le h
    rw [climb_add, hj] at hk
    exact Or.inr ⟨m, hk⟩
  · obtain ⟨m, rfl⟩ := Nat.exists_eq_add_of_le h
    rw [climb_add, hk] at hj
    exact Or.inl ⟨m, hj⟩

namespace Forest

variable (hf : Forest ps)
include hf

/-- **No bean is its own proper ancestor.**  Going round again and again would never end. -/
theorem climb_ne_self (k a : Nat) : climb ps (k + 1) a ≠ some a := by
  intro h
  obtain ⟨n, hn⟩ := hf.ends a
  have := climb_none hn (Nat.le_mul_of_pos_right n (Nat.succ_pos k))
  rw [climb_round h n] at this
  cases this

/-- An ancestor stands at one height only. -/
theorem climb_inj {a b j k : Nat} (hj : climb ps j b = some a) (hk : climb ps k b = some a) :
    j = k := by
  wlog h : j ≤ k generalizing j k
  · exact (this hk hj (Nat.le_of_not_le h)).symm
  obtain ⟨m, rfl⟩ := Nat.exists_eq_add_of_le h
  rw [climb_add, hj] at hk
  cases m with
  | zero => rfl
  | succ m => exact absurd hk (hf.climb_ne_self m a)

theorem above_antisymm {a b : Nat} (hab : Above ps a b) (hba : Above ps b a) : a = b := by
  obtain ⟨j, hj⟩ := hab
  obtain ⟨k, hk⟩ := hba
  have h : climb ps (j + k) b = some b := by rw [climb_add, hj]; exact hk
  have h0 := hf.climb_inj h (show climb ps 0 b = some b from rfl)
  obtain rfl : j = 0 := by omega
  exact (Option.some.inj hj).symm

/-- **No way up is longer than there are beans**: its stations are different beans. -/
theorem climb_le {a b k : Nat} (h : climb ps k b = some a) : k ≤ ps.length := by
  by_contra hk
  have hgoes : climb ps k b ≠ none := by simp [h]
  obtain ⟨i, j, c, hij, hi, hj⟩ := exists_revisit hf.inside (Nat.lt_of_not_le hk) hgoes
  have := hf.climb_inj hi hj
  omega

theorem climb_length (b : Nat) : climb ps (ps.length + 1) b = none := by
  cases h : climb ps (ps.length + 1) b with
  | none => rfl
  | some a => have := hf.climb_le h; omega

end Forest

/-! ## Chains -/

theorem mem_chain_climb {n a b : Nat} :
    a ∈ chain ps n b ↔ ∃ k, k ≤ n ∧ climb ps k b = some a := by
  induction n generalizing b with
  | zero =>
    simp only [chain, List.mem_singleton, Nat.le_zero]
    exact ⟨fun h => ⟨0, rfl, by rw [h]; rfl⟩, by rintro ⟨k, rfl, h⟩; exact (Option.some.inj h).symm⟩
  | succ n ih =>
    cases hp : parentOf ps b with
    | none =>
      simp only [chain, hp, List.mem_singleton]
      constructor
      · rintro rfl; exact ⟨0, by omega, rfl⟩
      · rintro ⟨k, -, hk⟩
        cases k with
        | zero => exact (Option.some.inj hk).symm
        | succ k => simp [climb, hp] at hk
    | some p =>
      simp only [chain, hp, List.mem_cons, ih]
      constructor
      · rintro (rfl | ⟨k, hk, h⟩)
        · exact ⟨0, by omega, rfl⟩
        · exact ⟨k + 1, by omega, by simpa [climb, hp] using h⟩
      · rintro ⟨k, hk, h⟩
        cases k with
        | zero => exact Or.inl (Option.some.inj h).symm
        | succ k => exact Or.inr ⟨k, by omega, by simpa [climb, hp] using h⟩

/-- Steps behind the end of the way up add nothing to a chain. -/
theorem chain_stable {m n b : Nat} (h : climb ps (m + 1) b = none) (hmn : m ≤ n) :
    chain ps n b = chain ps m b := by
  induction m generalizing n b with
  | zero =>
    rw [climb_one] at h
    cases n <;> simp [chain, h]
  | succ m ih =>
    obtain ⟨n, rfl⟩ : ∃ n', n = n' + 1 := ⟨n - 1, by omega⟩
    cases hp : parentOf ps b with
    | none => simp [chain, hp]
    | some p =>
      simp only [chain, hp]
      rw [ih (by simpa [climb, hp] using h) (by omega)]

theorem chain_of_root {b : Nat} (h : parentOf ps b = none) (n : Nat) : chain ps n b = [b] := by
  cases n <;> simp [chain, h]

namespace Forest

variable (hf : Forest ps)
include hf

/-- **A chain holds exactly what is above its bean.** -/
theorem mem_chain {a b : Nat} : a ∈ chain ps ps.length b ↔ Above ps a b := by
  rw [mem_chain_climb]
  exact ⟨fun ⟨k, _, h⟩ => ⟨k, h⟩, fun ⟨k, h⟩ => ⟨k, hf.climb_le h, h⟩⟩

/-- **The chain of a child is the child and the chain of its parent.** -/
theorem chain_of_parent {b p : Nat} (h : parentOf ps b = some p) :
    chain ps ps.length b = b :: chain ps ps.length p := by
  have hl := hf.climb_length b
  obtain ⟨n, hn⟩ : ∃ n, ps.length = n + 1 :=
    ⟨ps.length - 1, by have := hf.inside h; omega⟩
  rw [hn] at hl ⊢
  have hstable := chain_stable (n := n + 1) (m := n) (b := p) (by simpa [climb, h] using hl)
    (Nat.le_succ n)
  rw [hstable]
  simp only [chain, h]

theorem lt_of_mem_chain {a b : Nat} (hb : b < ps.length) (h : a ∈ chain ps ps.length b) :
    a < ps.length := by
  obtain ⟨k, hk⟩ := hf.mem_chain.1 h
  cases k with
  | zero => rwa [← Option.some.inj hk]
  | succ k =>
    rw [climb_succ] at hk
    obtain ⟨c, -, hc⟩ := Option.bind_eq_some_iff.1 hk
    exact hf.inside hc

/-- Whatever holds of the roots and goes from parents to children holds of all beans. -/
theorem induction {P : Nat → Prop} (root : ∀ b, parentOf ps b = none → P b)
    (child : ∀ b p, parentOf ps b = some p → P p → P b) (b : Nat) : P b := by
  obtain ⟨k, hk⟩ := hf.ends b
  induction k generalizing b with
  | zero => cases hk
  | succ k ih =>
    cases hp : parentOf ps b with
    | none => exact root b hp
    | some p => exact child b p hp (ih p (by simpa [climb, hp] using hk))

end Forest

/-! ## Families -/

theorem mem_childrenOf {a b : Nat} : b ∈ childrenOf ps a ↔ parentOf ps b = some a := by
  simp only [childrenOf, List.mem_filter, List.mem_range, beq_iff_eq]
  exact ⟨fun h => h.2, fun h => ⟨lt_of_parentOf h, h⟩⟩

theorem childrenOf_nodup (a : Nat) : (childrenOf ps a).Nodup := List.nodup_range.filter _

theorem mem_descendants {n a b : Nat} :
    b ∈ descendants ps n a ↔ ∃ k, k < n ∧ climb ps (k + 1) b = some a := by
  induction n generalizing a with
  | zero => simp [descendants]
  | succ n ih =>
    simp only [descendants, List.mem_flatMap, List.mem_cons, mem_childrenOf, ih]
    constructor
    · rintro ⟨c, hc, rfl | ⟨k, hk, h⟩⟩
      · exact ⟨0, by omega, by rw [climb_one, hc]⟩
      · exact ⟨k + 1, by omega, by rw [climb_succ, h]; exact hc⟩
    · rintro ⟨k, hk, h⟩
      rw [climb_succ] at h
      obtain ⟨c, hc, hca⟩ := Option.bind_eq_some_iff.1 h
      cases k with
      | zero => exact ⟨c, hca, Or.inl (Option.some.inj hc)⟩
      | succ k => exact ⟨c, hca, Or.inr ⟨k, by omega, hc⟩⟩

namespace Forest

variable (hf : Forest ps)
include hf

/-- **A family holds exactly what its first bean is above.** -/
theorem mem_familyOf {a b : Nat} : b ∈ familyOf ps a ↔ Above ps a b := by
  simp only [familyOf, List.mem_cons, mem_descendants]
  constructor
  · rintro (rfl | ⟨k, -, h⟩)
    · exact .refl b
    · exact ⟨k + 1, h⟩
  · rintro ⟨k, h⟩
    cases k with
    | zero => exact Or.inl (Option.some.inj h)
    | succ k => exact Or.inr ⟨k, by have := hf.climb_le h; omega, h⟩

theorem not_mem_descendants (n a : Nat) : a ∉ descendants ps n a := by
  rw [mem_descendants]
  rintro ⟨k, -, h⟩
  exact hf.climb_ne_self k a h

/-- The families of two children are apart: a bean in both would stand at two heights. -/
theorem descendants_nodup (n a : Nat) : (descendants ps n a).Nodup := by
  induction n generalizing a with
  | zero => simp [descendants]
  | succ n ih =>
    refine List.nodup_flatMap.2 ⟨fun c _ => ?_, ?_⟩
    · exact List.nodup_cons.2 ⟨hf.not_mem_descendants n c, ih c⟩
    have hmem : ∀ {b c}, b ∈ c :: descendants ps n c → ∃ k, climb ps k b = some c := by
      intro b c hb
      rcases List.mem_cons.1 hb with rfl | hb
      · exact ⟨0, rfl⟩
      · obtain ⟨k, -, h⟩ := mem_descendants.1 hb
        exact ⟨k + 1, h⟩
    refine (childrenOf_nodup a).imp_of_mem fun {c d} hc hd hne => ?_
    rw [mem_childrenOf] at hc hd
    intro b hb hb'
    obtain ⟨j, hj⟩ := hmem hb
    obtain ⟨k, hk⟩ := hmem hb'
    have hj' : climb ps (j + 1) b = some a := by rw [climb_succ, hj]; exact hc
    have hk' : climb ps (k + 1) b = some a := by rw [climb_succ, hk]; exact hd
    obtain rfl : j = k := by have := hf.climb_inj hj' hk'; omega
    exact hne (Option.some.inj (hj.symm.trans hk))

theorem familyOf_nodup (a : Nat) : (familyOf ps a).Nodup :=
  List.nodup_cons.2 ⟨hf.not_mem_descendants _ a, hf.descendants_nodup _ a⟩

theorem mem_concreteOf {a b : Nat} :
    b ∈ concreteOf ps a ↔ Above ps a b ∧ childrenOf ps b = [] := by
  rw [concreteOf, List.mem_filter, hf.mem_familyOf, List.isEmpty_iff]

/-- **Below every bean there is one without children**: otherwise there would be ways up to it
    of any length. -/
theorem exists_concrete (a : Nat) : ∃ b, b ∈ concreteOf ps a := by
  by_contra hnone
  have hlong : ∀ k, ∃ b, climb ps k b = some a := by
    intro k
    induction k with
    | zero => exact ⟨a, rfl⟩
    | succ k ih =>
      obtain ⟨b, hb⟩ := ih
      have hne : childrenOf ps b ≠ [] := fun h => hnone ⟨b, hf.mem_concreteOf.2 ⟨⟨k, hb⟩, h⟩⟩
      obtain ⟨c, hc⟩ := List.exists_mem_of_ne_nil _ hne
      rw [mem_childrenOf] at hc
      exact ⟨c, by simpa [climb, hc] using hb⟩
  obtain ⟨b, hb⟩ := hlong (ps.length + 1)
  have := hf.climb_le hb
  omega

/-- The members below a bean are below all that is above it. -/
theorem concreteOf_subset {a b : Nat} (h : Above ps a b) : concreteOf ps b ⊆ concreteOf ps a := by
  intro c hc
  rw [hf.mem_concreteOf] at hc ⊢
  exact ⟨h.trans hc.1, hc.2⟩

end Forest

/-! ## The cycle test -/

theorem cycles_eq_false {start n : Nat} {cur : Option Nat} :
    cycles ps start n cur = false ↔
      cur.bind (climb ps n) = none ∧ ∀ k, k < n → cur.bind (climb ps k) ≠ some start := by
  induction n generalizing cur with
  | zero => cases cur <;> simp [cycles, climb]
  | succ n ih =>
    cases cur with
    | none => simp [cycles]
    | some p =>
      simp only [cycles, Bool.or_eq_false_iff, ih, beq_eq_false_iff_ne, Option.bind_some]
      constructor
      · rintro ⟨hp, hend, hk⟩
        refine ⟨hend, fun k hkn => ?_⟩
        cases k with
        | zero => simpa [climb] using hp
        | succ k => exact hk k (by omega)
      · rintro ⟨hend, hk⟩
        exact ⟨by simpa [climb] using hk 0 (by omega), hend, fun k hkn => hk (k + 1) (by omega)⟩

/-- **The cycle test accepts exactly the forests.** -/
theorem forest_iff_cycles (hin : ∀ {id p}, parentOf ps id = some p → p < ps.length) :
    Forest ps ↔ ∀ id, id < ps.length → cycles ps id ps.length (parentOf ps id) = false := by
  constructor
  · intro hf id _
    rw [cycles_eq_false]
    exact ⟨hf.climb_length id, fun k _ => hf.climb_ne_self k id⟩
  · intro h
    refine ⟨hin, fun id => ?_⟩
    by_cases hid : id < ps.length
    · exact ⟨ps.length + 1, (cycles_eq_false.1 (h id hid)).1⟩
    · refine ⟨1, ?_⟩
      rw [climb_one]
      cases hp : parentOf ps id with
      | none => rfl
      | some p => exact absurd (lt_of_parentOf hp) hid

/-- Up from the bean, by one parent or more, one comes back to it. -/
def OnCycle (ps : Parents) (id : Nat) : Prop := ∃ k, climb ps (k + 1) id = some id

/-- The way up from the bean comes to a cycle. -/
def Endless (ps : Parents) (id : Nat) : Prop := ∃ c, Above ps c id ∧ OnCycle ps c

theorem OnCycle.endless {id : Nat} (h : OnCycle ps id) : Endless ps id := ⟨id, .refl id, h⟩

/-- The way up from what is below a cycle never ends. -/
theorem Endless.climb_ne_none {id : Nat} (h : Endless ps id) (n : Nat) :
    climb ps n id ≠ none := by
  obtain ⟨c, ⟨j, hj⟩, k, hk⟩ := h
  intro hn
  have hround : climb ps (j + n * (k + 1)) id = some c := by
    rw [climb_add, hj]
    exact climb_round hk n
  have hlong : n ≤ j + n * (k + 1) :=
    (Nat.le_mul_of_pos_right n (Nat.succ_pos k)).trans (Nat.le_add_left _ j)
  rw [climb_none hn hlong] at hround
  cases hround

/-- **A way up that is longer than there are beans comes to a cycle.** -/
theorem endless_of_climb (hin : ∀ {id p}, parentOf ps id = some p → p < ps.length) {id : Nat}
    (h : climb ps (ps.length + 1) id ≠ none) : Endless ps id := by
  obtain ⟨i, j, c, hij, hi, hj⟩ := exists_revisit hin (Nat.lt_succ_self _) h
  obtain ⟨m, rfl⟩ := Nat.exists_eq_add_of_lt hij
  refine ⟨c, ⟨i, hi⟩, m, ?_⟩
  rw [Nat.add_assoc, climb_add, hi] at hj
  exact hj

/-- **The cycle test objects to exactly the beans below a cycle or on one.** -/
theorem cycles_iff (hin : ∀ {id p}, parentOf ps id = some p → p < ps.length) {id : Nat} :
    cycles ps id ps.length (parentOf ps id) = true ↔ Endless ps id := by
  rw [← Bool.not_eq_false, cycles_eq_false]
  constructor
  · intro h
    by_cases hend : climb ps (ps.length + 1) id = none
    · have hround : ∃ k, climb ps (k + 1) id = some id := by
        by_contra hno
        exact h ⟨hend, fun k _ hk => hno ⟨k, hk⟩⟩
      exact OnCycle.endless hround
    · exact endless_of_climb hin hend
  · rintro h ⟨hend, -⟩
    exact h.climb_ne_none (ps.length + 1) hend

end GameConfig.Hierarchy
