import GameConfig.Proofs.Datum.Equality

/-
  What equality of values is.

  Numbers are equal if they are one number or both zero; whatever is not a
  number is one value.  Maps are equal if they have the same size and each key
  of the one is found in the other, under an equal value; the order of their
  entries does not matter.  On values with distinct keys this is an
  equivalence.

  * `Binary.same_iff`: equality of numbers;
  * `same_map_iff` and `same_map_perm`: equality of maps, and that their order
    does not matter;
  * `same_equivalence` puts them together.
-/

namespace GameConfig

/-! ## Numbers -/

/-- The numbers are one, or both are zero, whatever their signs. -/
def Binary.Alike {l : Layout} (x y : Binary l) : Prop :=
  x = y ∨ ∃ s t, x = .ofRank s 0 ∧ y = .ofRank t 0

theorem Binary.key_ofRank_zero {l : Layout} (s : Bool) : (ofRank s 0 : Binary l).key = some 0 := by
  cases s <;> simp [ofRank, key]

theorem Binary.ranked_eq_ofRank_zero {l : Layout} {s : Bool} {r : Fin (l.top + 1)}
    (hr : r.val = 0) : ranked s r = ofRank s 0 :=
  congrArg (ranked s) (Fin.ext (by rw [hr]; exact (Nat.zero_min _).symm))

theorem Binary.same_iff {l : Layout} {x y : Binary l} : x.same y = true ↔ x.Alike y := by
  rw [same, beq_iff_eq]
  constructor
  · intro h
    cases x with
    | nan =>
      cases y with
      | nan => exact .inl rfl
      | ranked t q => cases h
    | ranked s r =>
      cases y with
      | nan => cases h
      | ranked t q =>
        have hkey : (if s then -(r.val : Int) else r.val) = if t then -(q.val : Int) else q.val :=
          Option.some.inj h
        by_cases hst : s = t
        · subst hst
          have hrank : r = q := Fin.ext (by split at hkey <;> omega)
          exact .inl (hrank ▸ rfl)
        · -- numbers of different signs have one key only at zero
          have hzero : r.val = 0 ∧ q.val = 0 := by
            obtain rfl : s = !t := Bool.eq_not.2 hst
            cases t with
            | false =>
              have hkey : -(r.val : Int) = q.val := hkey
              omega
            | true =>
              have hkey : (r.val : Int) = -q.val := hkey
              omega
          exact .inr ⟨s, t, ranked_eq_ofRank_zero hzero.1, ranked_eq_ofRank_zero hzero.2⟩
  · rintro (rfl | ⟨s, t, rfl, rfl⟩)
    · rfl
    · rw [key_ofRank_zero, key_ofRank_zero]

namespace Datum

/-! ## Maps -/

/-- Maps are equal if they have one size and each key is looked up with an equal value. -/
theorem same_map_iff {es fs : Entries} :
    (map es).same (map fs) = true ↔ es.length = fs.length ∧
      ∀ e ∈ es, ∃ v, Entries.find? e.1 fs = some v ∧ e.2.same v = true := by
  rw [same, Bool.and_eq_true, beq_iff_eq, within_eq_true]
  refine and_congr_right fun _ => forall₂_congr fun e _ => ?_
  constructor
  · rintro ⟨f, hf, hv⟩
    exact ⟨f.2, by rw [Entries.find?, hf]; rfl, hv⟩
  · rintro ⟨v, hfind, hv⟩
    obtain ⟨f, hf, rfl⟩ := Option.map_eq_some_iff.1 hfind
    exact ⟨f, hf, hv⟩

theorem Distinct.perm {es fs : Entries} (h : (map es).Distinct) (hp : es.Perm fs) :
    (map fs).Distinct := by
  refine .intro (h.keys.perm hp fun h => ⟨h.2, h.1⟩) fun p hmem => h.part ?_
  have hparts : ((map es).parts).Perm (map fs).parts :=
    (hp.map Prod.fst).append (hp.map Prod.snd)
  exact hparts.mem_iff.2 hmem

/-- A map is equal to the map of the same entries in another order. -/
theorem same_of_perm {es fs : Entries} (h : (map es).Distinct) (hp : es.Perm fs) :
    (map es).same (map fs) = true := by
  refine same_map h (h.perm hp) hp.length_eq fun e he => ⟨e, hp.mem_iff.1 he, ?_, ?_⟩
  · exact same_refl (h.key he)
  · exact same_refl (h.value he)

/-- The order of the entries does not matter, on either side. -/
theorem same_map_perm {es es' fs fs' : Entries} (he : (map es).Distinct) (hf : (map fs).Distinct)
    (hes : es.Perm es') (hfs : fs.Perm fs') :
    (map es').same (map fs') = (map es).same (map fs) := by
  have he' := he.perm hes
  have hf' := hf.perm hfs
  calc (map es').same (map fs')
      = (map es).same (map fs') := same_congr he he' hf' (same_of_perm he hes)
    _ = (map fs').same (map es) := same_comm he hf'
    _ = (map fs).same (map es) := same_congr hf hf' he (same_of_perm hf hfs)
    _ = (map es).same (map fs) := same_comm hf he

/-! ## Equivalence -/

/-- **On values with distinct keys equality is an equivalence.**  Maps are equal if they have one
    size and each key of the one is looked up in the other with an equal value, in whatever order
    both are; numbers are equal if they are one or both zero. -/
theorem same_equivalence :
    Equivalence (fun a b : { d : Datum // d.Distinct } => a.1.same b.1 = true) ∧
    (∀ es fs : Entries, (map es).same (map fs) = true ↔ es.length = fs.length ∧
      ∀ e ∈ es, ∃ v, Entries.find? e.1 fs = some v ∧ e.2.same v = true) ∧
    (∀ es es' fs fs' : Entries, (map es).Distinct → (map fs).Distinct → es.Perm es' →
      fs.Perm fs' → (map es').same (map fs') = (map es).same (map fs)) ∧
    (∀ x y : Single, (float x).same (float y) = true ↔ x.Alike y) ∧
    (∀ x y : Double, (double x).same (double y) = true ↔ x.Alike y) := by
  refine ⟨⟨?_, ?_, ?_⟩, ?_, ?_, ?_, ?_⟩
  · intro a
    exact same_refl a.2
  · intro a b hab
    exact same_symm a.2 b.2 hab
  · intro a b c hab hbc
    exact same_trans a.2 b.2 c.2 hab hbc
  · intro es fs
    exact same_map_iff
  · intro es es' fs fs' he hf hes hfs
    exact same_map_perm he hf hes hfs
  · intro x y
    rw [same, Binary.same_iff]
  · intro x y
    rw [same, Binary.same_iff]

/-- A purse with a map as a key and a word as a key; the number in it is zero with this sign. -/
def purse (negative : Bool) : Entries :=
  [(map [(double (.ofRank negative 0), integer .long 1)], seq .list [double .nan]),
    (string "gold", float .nan)]

theorem distinct_purse (negative : Bool) : (map (purse negative)).Distinct := by
  have leaf : ∀ {d : Datum}, d.KeysDiffer → d.parts = [] → d.Distinct := fun hk hp =>
    .intro hk (by simp [hp])
  refine .intro (by simp [KeysDiffer, Entries.KeysDiffer, purse, same]) fun p hp => ?_
  simp only [parts, purse, List.map_cons, List.map_nil, List.cons_append, List.nil_append,
    List.mem_cons, List.not_mem_nil, or_false] at hp
  rcases hp with rfl | rfl | rfl | rfl
  · refine .intro (by simp [KeysDiffer, Entries.KeysDiffer]) fun p hp => ?_
    simp only [parts, List.map_cons, List.map_nil, List.cons_append, List.nil_append,
      List.mem_cons, List.not_mem_nil, or_false] at hp
    rcases hp with rfl | rfl <;> exact leaf trivial rfl
  · exact leaf trivial rfl
  · refine .intro trivial fun p hp => ?_
    obtain rfl := List.mem_singleton.1 hp
    exact leaf trivial rfl
  · exact leaf trivial rfl

theorem same_equivalence_purse :
    (map (purse false)).Distinct ∧ (map (purse true)).Distinct ∧
      (purse true).Perm (purse true).reverse ∧
      (map (purse false)).same (map (purse true).reverse) = true ∧
      (map (purse true).reverse).same (map (purse false)) = true ∧
      (map (purse false)).same (map (purse true)) = true := by
  obtain ⟨hequiv, -, hperm, -⟩ := same_equivalence
  have hf := distinct_purse false
  have ht := distinct_purse true
  have hback : (purse true).Perm (purse true).reverse := (List.reverse_perm _).symm
  have hsame : (map (purse false)).same (map (purse true).reverse) = true := by
    simp [purse, same, within, sameItems, Binary.same, Binary.ofRank, Binary.key]
  have hturned := hperm _ _ _ _ hf ht (.refl (purse false)) hback
  refine ⟨hf, ht, hback, hsame, ?_, ?_⟩
  · exact hequiv.symm (x := ⟨_, hf⟩) (y := ⟨_, ht.perm hback⟩) hsame
  · rw [← hturned, hsame]

end Datum

end GameConfig
