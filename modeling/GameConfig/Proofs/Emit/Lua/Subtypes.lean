import GameConfig.Emit.Lua.Module
import GameConfig.Proofs.Schema.Discriminator

/-
  The table by which the generated reader of a bean finds the subtype.

  The table has all spellings of all concrete descendants as keys, and a key may
  stand there more than once.  What is written as the type of a bean is always a
  key with that bean as its target; it stands there with another target exactly
  if it is the alias of another concrete descendant (`subtypeEntries_of_build`).
  The loader takes aliases last and so never mistakes one for a name, the table
  does not tell them apart: `rings` is a schema where the type that is written
  for a circle is also the key of a ring.
-/

namespace GameConfig

open Schema

namespace Lua

variable {s : Schema} {b : BeanDef}

theorem mem_spellings {word : String} : word ∈ spellings s b ↔
    word = s.discriminator b ∨ word = b.fullName ∨ b.altName = some word := by
  unfold spellings
  dsimp only
  split
  case isTrue hshort => simp [← hshort]
  case isFalse => simp

theorem mem_subtypeEntries {word target : String} : (word, target) ∈ subtypeEntries s b ↔
    ∃ c ∈ b.concrete, word ∈ spellings s (s.bean c) ∧ (s.bean c).fullName = target := by
  simp [subtypeEntries]

section

variable (hs : s.Sound) {base c : Nat} (hb : base < s.beans.length)
  (hc : c ∈ (s.bean base).concrete)
include hs hb hc

/-- A name of another concrete descendant is not what is written for this one. -/
theorem eq_of_fullName_eq_discriminator {d : Nat} (hd : d ∈ (s.bean base).concrete)
    (h : (s.bean d).fullName = s.discriminator (s.bean c)) : d = c := by
  have hfound := hs.subtype?_fullName hb hd
  rw [h, hs.subtype?_discriminator hb hc] at hfound
  exact (Option.some.inj hfound).symm

/-- The targets of what is written for a bean: the bean, and each one with that alias. -/
theorem mem_subtypeEntries_discriminator (target : String) :
    (s.discriminator (s.bean c), target) ∈ subtypeEntries s (s.bean base) ↔
      target = (s.bean c).fullName ∨ ∃ d ∈ (s.bean base).concrete,
        (s.bean d).altName = some (s.discriminator (s.bean c)) ∧ target = (s.bean d).fullName := by
  rw [mem_subtypeEntries]
  constructor
  · rintro ⟨d, hd, hword, rfl⟩
    rcases mem_spellings.1 hword with hsame | hfull | halias
    · exact .inl (by rw [hs.discriminator_inj hb hc hd hsame])
    · exact .inl (by rw [eq_of_fullName_eq_discriminator hs hb hc hd hfull.symm])
    · exact .inr ⟨d, hd, halias, rfl⟩
  · rintro (rfl | ⟨d, hd, halias, rfl⟩)
    · exact ⟨c, hc, mem_spellings.2 (.inl rfl), rfl⟩
    · exact ⟨d, hd, mem_spellings.2 (.inr (.inr halias)), rfl⟩

end

/-- **The table of subtypes against the loader.**  What is written as the type of a concrete
    descendant means it to the loader and is a key of the table with it as the target; it is the
    only target exactly if no other concrete descendant has that word as its alias. -/
theorem subtypeEntries_of_build {h : History} {s : Schema} (hbuild : (Builder.run h).build = .ok s)
    {base c : Nat} (hb : base < s.beans.length) (hc : c ∈ (s.bean base).concrete) :
    s.subtype? base (s.discriminator (s.bean c)) = some c ∧
      (s.discriminator (s.bean c), (s.bean c).fullName) ∈ subtypeEntries s (s.bean base) ∧
      ((∀ e ∈ subtypeEntries s (s.bean base), e.1 = s.discriminator (s.bean c) →
          e.2 = (s.bean c).fullName) ↔
        ∀ d ∈ (s.bean base).concrete,
          (s.bean d).altName = some (s.discriminator (s.bean c)) → d = c) := by
  have hs := sound_of_build hbuild
  have hentries := mem_subtypeEntries_discriminator hs hb hc
  refine ⟨hs.subtype?_discriminator hb hc, (hentries _).2 (.inl rfl), ?_⟩
  constructor
  · intro honly d hd halias
    have hname := honly _ ((hentries _).2 (.inr ⟨d, hd, halias, rfl⟩)) rfl
    exact hs.bean_inj (Sound.lt_of_below hb ((hs.mem_concrete hb).1 hd).1)
      (Sound.lt_of_below hb ((hs.mem_concrete hb).1 hc).1) hname
  · rintro hnone ⟨word, target⟩ he rfl
    rcases (hentries target).1 he with rfl | ⟨d, hd, halias, rfl⟩
    · rfl
    · rw [hnone d hd halias]

/-- Two shapes, one of which has the name of the other as its alias. -/
def rings : History :=
  [.addBean ⟨"Shape", none, none, [], none⟩,
    .addBean ⟨"Circle", some "Shape", none, [], none⟩,
    .addBean ⟨"Ring", some "Shape", some "Circle", [], none⟩]

theorem subtypeEntries_rings : ∃ s, (Builder.run rings).build = .ok s ∧
    0 < s.beans.length ∧ 1 ∈ (s.bean 0).concrete ∧
    s.subtype? 0 (s.discriminator (s.bean 1)) = some 1 ∧
      (s.discriminator (s.bean 1), (s.bean 1).fullName) ∈ subtypeEntries s (s.bean 0) ∧
      ((∀ e ∈ subtypeEntries s (s.bean 0), e.1 = s.discriminator (s.bean 1) →
          e.2 = (s.bean 1).fullName) ↔
        ∀ d ∈ (s.bean 0).concrete,
          (s.bean d).altName = some (s.discriminator (s.bean 1)) → d = 1) :=
  ⟨_, rfl, by decide, by decide,
    subtypeEntries_of_build (h := rings) rfl (by decide) (by decide)⟩

/-- What is written for the circle is the key of the ring as well, behind its own entry. -/
theorem subtypeEntries_rings_clash : ∃ s, (Builder.run rings).build = .ok s ∧
    (s.bean 0).isAbstract = true ∧ 1 ∈ (s.bean 0).concrete ∧
    s.discriminator (s.bean 1) = "Circle" ∧ (s.bean 1).fullName = "Circle" ∧
    subtypeEntries s (s.bean 0) = [("Circle", "Circle"), ("Ring", "Ring"), ("Circle", "Ring")] :=
  ⟨_, rfl, by decide, by decide, by decide, by decide, by decide⟩

end Lua

end GameConfig
