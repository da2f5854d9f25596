import GameConfig.Proofs.Schema.Sound

/-
  What is written as the type of a bean means that bean again.

  The discriminator is the simple name, unless another concrete bean of the
  hierarchy has it too.  A simple name has no dot, so as a full name it could
  only belong to a bean whose simple name it is as well; hence looking it up
  meets no other bean, by full name or by simple name, and never comes to
  aliases (`subtype?_discriminator`).  `subtype?_of_build` says so of every accepted
  schema.
-/

namespace GameConfig

open Hierarchy Text

/-! ## Simple names -/

theorem cut_eq_none {sep : Char} {cs : List Char} : cut sep cs = none ↔ sep ∉ cs := by
  induction cs with
  | nil => simp [cut]
  | cons c cs ih =>
    by_cases hc : c = sep
    · simp [cut, hc]
    · have hne : sep ≠ c := Ne.symm hc
      cases hr : cut sep cs with
      | none => simpa [cut, hc, hr, hne] using ih.1 hr
      | some p =>
        have hmem : sep ∈ cs := by
          by_contra h
          rw [ih.2 h] at hr; cases hr
        simp [cut, hc, hr, hmem]

theorem not_mem_simpleName (n : String) : '.' ∉ (simpleName n).toList := by
  unfold simpleName splitFullName cutLast
  cases hc : cut '.' n.toList.reverse with
  | none => simpa using cut_eq_none.1 hc
  | some p =>
    obtain ⟨after, before⟩ := p
    simpa using not_mem_of_cut hc

/-- The characters of a simple name are characters of the name. -/
theorem mem_simpleName {n : String} {c : Char} (h : c ∈ (simpleName n).toList) :
    c ∈ n.toList := by
  unfold simpleName splitFullName cutLast at h
  cases hcut : cut '.' n.toList.reverse with
  | none => simpa [hcut] using h
  | some p =>
    have hmem : c ∈ p.1 := by simpa [hcut] using h
    rw [← List.mem_reverse, eq_of_cut hcut]
    exact List.mem_append_left _ hmem

/-- A simple name is its own simple name. -/
theorem simpleName_simpleName (n : String) : simpleName (simpleName n) = simpleName n := by
  have hcut : cutLast '.' (simpleName n).toList = none := by
    rw [cutLast, cut_eq_none.2 (by simpa using not_mem_simpleName n)]
  rw [simpleName, splitFullName, hcut]

namespace Schema

/-- A search that some member of a list satisfies, and no other, finds it. -/
theorem find?_eq_some_of_unique {ids : List Nat} {p : Nat → Bool} {c : Nat} (hc : c ∈ ids)
    (hp : p c = true) (hu : ∀ d ∈ ids, p d = true → d = c) : ids.find? p = some c := by
  cases hf : ids.find? p with
  | none => exact absurd hp (by simpa using List.find?_eq_none.1 hf c hc)
  | some d => rw [hu d (List.mem_of_find?_eq_some hf) (by simpa using List.find?_some hf)]

/-- **What is written as the type of a bean means that bean again.** -/
theorem Sound.subtype?_discriminator {s : Schema} (hs : s.Sound) {base c : Nat}
    (hb : base < s.beans.length) (hc : c ∈ (s.bean base).concrete) :
    s.subtype? base (s.discriminator (s.bean c)) = some c := by
  have hlt : ∀ d ∈ (s.bean base).concrete, d < s.beans.length := fun d hd =>
    lt_of_below hb ((hs.mem_concrete hb).1 hd).1
  have hfull : ∀ d ∈ (s.bean base).concrete, (s.bean d).fullName = (s.bean c).fullName → d = c :=
    fun d hd h => hs.bean_inj (hlt d hd) (hlt c hc) h
  obtain ⟨r, hr, hroot, habove, htop⟩ := hs.exists_root (hlt c hc)
  -- the root is above the base, so the members of the base are among those that may clash
  have hbase : Above s.parents r base := by
    rcases habove.total ((hs.mem_concrete hb).1 hc).1 with h | h
    · exact h
    · rcases above_iff.1 h with rfl | ⟨p, hp, -⟩
      · exact .refl r
      · rw [parentOf_parents, htop] at hp
        cases hp
  have hsub := hs.concrete_subset hr hbase
  unfold discriminator
  rw [hroot]
  dsimp only
  split
  · -- the full name belongs to one bean
    have h := find?_eq_some_of_unique (p := fun id => (s.bean id).fullName == (s.bean c).fullName)
      hc (by simp) fun d hd h => hfull d hd (by simpa using h)
    simp only [subtype?, h]
  · rename_i hclash
    have hname : ∀ d ∈ (s.bean base).concrete, (s.bean d).name = (s.bean c).name → d = c := by
      intro d hd h
      by_contra hne
      refine hclash (List.any_eq_true.2 ⟨d, hsub hd, ?_⟩)
      simpa [h] using fun hf => hne (hfull d hd hf)
    -- a simple name that is a full name is the simple name of that bean
    have hfull' : ∀ d ∈ (s.bean base).concrete, (s.bean d).fullName = (s.bean c).name → d = c := by
      intro d hd h
      refine hname d hd ?_
      rw [BeanDef.name, h, BeanDef.name, simpleName_simpleName]
    unfold subtype?
    dsimp only
    split
    · rename_i d hf
      rw [hfull' d (List.mem_of_find?_eq_some hf) (by simpa using List.find?_some hf)]
    · have h := find?_eq_some_of_unique (p := fun id => (s.bean id).name == (s.bean c).name)
        hc (by simp) fun d hd h => hname d hd (by simpa using h)
      rw [h]

/-- The full name of a concrete bean means that bean. -/
theorem Sound.subtype?_fullName {s : Schema} (hs : s.Sound) {base c : Nat}
    (hb : base < s.beans.length) (hc : c ∈ (s.bean base).concrete) :
    s.subtype? base (s.bean c).fullName = some c := by
  have hlt : ∀ d ∈ (s.bean base).concrete, d < s.beans.length := fun d hd =>
    lt_of_below hb ((hs.mem_concrete hb).1 hd).1
  have h := find?_eq_some_of_unique (p := fun id => (s.bean id).fullName == (s.bean c).fullName)
    hc (by simp) fun d hd h => hs.bean_inj (hlt d hd) (hlt c hc) (by simpa using h)
  simp only [subtype?, h]

/-- Concrete beans of a family that are written alike are one. -/
theorem Sound.discriminator_inj {s : Schema} (hs : s.Sound) {base c d : Nat}
    (hb : base < s.beans.length) (hc : c ∈ (s.bean base).concrete)
    (hd : d ∈ (s.bean base).concrete)
    (h : s.discriminator (s.bean c) = s.discriminator (s.bean d)) : c = d := by
  have hcd := hs.subtype?_discriminator hb hc
  rw [h, hs.subtype?_discriminator hb hd] at hcd
  exact (Option.some.inj hcd).symm

/-- **Discriminators mean the beans they are written for**, in every accepted schema: wherever a
    concrete bean is looked up, its discriminator and its full name mean it, whatever the names
    and aliases of the others; and in the whole hierarchy no other bean is written so. -/
theorem subtype?_of_build {h : History} {s : Schema} (hbuild : (Builder.run h).build = .ok s)
    {base c : Nat} (hb : base < s.beans.length) (hc : c ∈ (s.bean base).concrete) :
    s.subtype? base (s.discriminator (s.bean c)) = some c ∧
      s.subtype? base (s.bean c).fullName = some c ∧
      ∀ d ∈ (s.root (s.bean c)).concrete,
        s.discriminator (s.bean d) = s.discriminator (s.bean c) → d = c := by
  have hs := sound_of_build hbuild
  refine ⟨hs.subtype?_discriminator hb hc, hs.subtype?_fullName hb hc, fun d hd h => ?_⟩
  have hbelow := (hs.mem_concrete hb).1 hc
  obtain ⟨r, hr, hroot, habove, -⟩ := hs.exists_root (Sound.lt_of_below hb hbelow.1)
  rw [hroot] at hd
  exact hs.discriminator_inj hr hd ((hs.mem_concrete hr).2 ⟨habove, hbelow.2⟩) h

/-- Rings of two namespaces and a square, whose aliases are names of one another. -/
def rings : History :=
  [.addBean ⟨"Shape", none, none, [], none⟩,
    .addBean ⟨"Round", some "Shape", none, [], none⟩,
    .addBean ⟨"a.Ring", some "Round", some "Square", [], none⟩,
    .addBean ⟨"b.Ring", some "Shape", some "Ring", [], none⟩,
    .addBean ⟨"b.Square", some "Round", some "a.Ring", [], none⟩]

/-- Below the intermediate bean only one ring is left; it is still written in full. -/
theorem subtype?_rings : ∃ s : Schema, (Builder.run rings).build = .ok s ∧
    (s.bean 1).concrete = [2, 4] ∧ s.discriminator (s.bean 2) = "a.Ring" ∧
    s.discriminator (s.bean 4) = "Square" ∧
    s.subtype? 1 "a.Ring" = some 2 ∧ s.subtype? 1 "Square" = some 4 := by
  refine ⟨_, rfl, by decide, by decide, by decide, ?_, ?_⟩
  · exact (subtype?_of_build (h := rings) (c := 2) rfl (by decide : 1 < 5) (by decide)).1
  · exact (subtype?_of_build (h := rings) (c := 4) rfl (by decide : 1 < 5) (by decide)).1

end Schema

end GameConfig
