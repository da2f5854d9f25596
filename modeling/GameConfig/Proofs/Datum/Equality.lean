import GameConfig.Datum.Basic
import Mathlib.Data.Fintype.Card
import Mathlib.Data.Fintype.EquivFin
import Mathlib.Data.List.Forall2
import Mathlib.Data.List.Pairwise

/-
  Equality of values.

  Maps are equal if they have the same size and every entry of the one is found
  in the other.  This is an equivalence as long as the keys of every map differ
  (`Distinct`); without that, a map need not even be equal to itself.

  * `same_refl`: a value is equal to itself;
  * `same_congr`: equal values are equal to the same values, from which
    symmetry and transitivity follow (`same_symm`, `same_trans`);
  * `Entries.Fresh.keysDiffer`: keys that are put in one after the other, none
    equal to one before it, differ;
  * `same_map`: maps are equal if their entries are alike, in whatever order.
-/

namespace GameConfig

/-- What stands on the right stands across from something on the left. -/
theorem exists_of_mem_right {α β : Type} {r : α → β → Prop} {as : List α} {bs : List β}
    (h : List.Forall₂ r as bs) {b : β} (hb : b ∈ bs) : ∃ a ∈ as, r a b := by
  induction h with
  | nil => cases hb
  | @cons a b' as bs hab _ ih =>
    rcases List.mem_cons.1 hb with rfl | hb
    · exact ⟨a, List.mem_cons_self .., hab⟩
    · obtain ⟨a', ha', hr⟩ := ih hb
      exact ⟨a', List.mem_cons_of_mem _ ha', hr⟩

/-- The keys of the entries are pairwise different. -/
def Entries.KeysDiffer (es : Entries) : Prop :=
  es.Pairwise fun e f => e.1.same f.1 = false ∧ f.1.same e.1 = false

/-- Of pairwise different keys, two that are equal belong to one entry. -/
theorem eq_of_same_of_pairwise {β : Type} {es : List (Datum × β)}
    (h : es.Pairwise fun e f => e.1.same f.1 = false ∧ f.1.same e.1 = false) {e f : Datum × β}
    (he : e ∈ es) (hf : f ∈ es) (hs : e.1.same f.1 = true) : e = f := by
  have : Std.Symm fun e f : Datum × β => e.1.same f.1 = false ∧ f.1.same e.1 = false :=
    ⟨fun _ _ h => ⟨h.2, h.1⟩⟩
  by_contra hne
  have hdiff := h.forall he hf hne
  rw [hdiff.1] at hs; cases hs

/-- Two entries with equal keys are one. -/
theorem Entries.KeysDiffer.eq_of_same {es : Entries} (h : es.KeysDiffer) {e f : Datum × Datum}
    (he : e ∈ es) (hf : f ∈ es) (hs : e.1.same f.1 = true) : e = f :=
  eq_of_same_of_pairwise h he hf hs

namespace Datum

/-- The values directly inside a value. -/
def parts : Datum → List Datum
  | bean _ vs => vs.filterMap id
  | seq _ xs => xs
  | map es => es.map (·.1) ++ es.map (·.2)
  | _ => []

theorem sizeOf_part {d p : Datum} (h : p ∈ d.parts) : sizeOf p < sizeOf d := by
  cases d with
  | bean id vs =>
    obtain ⟨v, hv, hp⟩ := List.mem_filterMap.1 h
    obtain rfl : v = some p := hp
    have := List.sizeOf_lt_of_mem hv
    simp at this ⊢; omega
  | seq k xs =>
    have := List.sizeOf_lt_of_mem (show p ∈ xs from h)
    simp; omega
  | map es =>
    rcases List.mem_append.1 h with h | h
    · obtain ⟨e, he, rfl⟩ := List.mem_map.1 h
      have := List.sizeOf_lt_of_mem he
      cases e; simp at this ⊢; omega
    · obtain ⟨e, he, rfl⟩ := List.mem_map.1 h
      have := List.sizeOf_lt_of_mem he
      cases e; simp at this ⊢; omega
  | _ => cases h

/-- Whatever goes from the parts of a value to the value holds of all values. -/
theorem induction {P : Datum → Prop} (step : ∀ d, (∀ p ∈ d.parts, P p) → P d) (d : Datum) : P d := by
  induction h : sizeOf d using Nat.strongRecOn generalizing d with
  | _ n ih => exact step d fun p hp => ih _ (h ▸ sizeOf_part hp) p rfl

/-- The keys of a map are pairwise different. -/
def KeysDiffer : Datum → Prop
  | map es => Entries.KeysDiffer es
  | _ => True

/-- In every map inside the value the keys are pairwise different. -/
inductive Distinct : Datum → Prop
  | intro {d : Datum} : d.KeysDiffer → (∀ p ∈ d.parts, Distinct p) → Distinct d

namespace Distinct

theorem keys {es : Entries} (h : (map es).Distinct) : es.KeysDiffer := by
  cases h with
  | intro hk _ => exact hk

theorem part {d p : Datum} (h : d.Distinct) (hp : p ∈ d.parts) : p.Distinct := by
  cases h with
  | intro _ hparts => exact hparts p hp

theorem key {es : Entries} (h : (map es).Distinct) {e : Datum × Datum} (he : e ∈ es) :
    e.1.Distinct :=
  h.part (List.mem_append_left _ (List.mem_map_of_mem he))

theorem value {es : Entries} (h : (map es).Distinct) {e : Datum × Datum} (he : e ∈ es) :
    e.2.Distinct :=
  h.part (List.mem_append_right _ (List.mem_map_of_mem he))

theorem item {k : SeqKind} {xs : List Datum} (h : (seq k xs).Distinct) {x : Datum}
    (hx : x ∈ xs) : x.Distinct :=
  h.part hx

theorem field {id : Nat} {vs : List (Option Datum)} (h : (bean id vs).Distinct) {x : Datum}
    (hx : some x ∈ vs) : x.Distinct :=
  h.part (List.mem_filterMap.2 ⟨some x, hx, rfl⟩)

end Distinct

/-! ## Maps -/

/-- Being within is finding every entry. -/
theorem within_eq_true {es fs : Entries} :
    within es fs = true ↔
      ∀ e ∈ es, ∃ f, List.find? (fun f => same e.1 f.1) fs = some f ∧ same e.2 f.2 = true := by
  induction es with
  | nil => simp [within]
  | cons e es ih =>
    obtain ⟨k, v⟩ := e
    simp only [within, Bool.and_eq_true, ih, List.forall_mem_cons]
    refine and_congr_left fun _ => ?_
    cases List.find? (fun f => same k f.1) fs <;> simp

/-- Finding is meeting an equal entry, if no two have the key that is looked for. -/
theorem within_iff {es fs : Entries}
    (hu : ∀ e ∈ es, ∀ f ∈ fs, ∀ g ∈ fs, same e.1 f.1 = true → same e.1 g.1 = true → f = g) :
    within es fs = true ↔
      ∀ e ∈ es, ∃ f ∈ fs, same e.1 f.1 = true ∧ same e.2 f.2 = true := by
  rw [within_eq_true]
  refine forall₂_congr fun e he => ⟨?_, ?_⟩
  · rintro ⟨f, hf, hv⟩
    exact ⟨f, List.mem_of_find?_eq_some hf, by simpa using List.find?_some hf, hv⟩
  · rintro ⟨f, hf, hk, hv⟩
    cases hg : List.find? (fun f => same e.1 f.1) fs with
    | none => exact absurd hk (by simpa using List.find?_eq_none.1 hg f hf)
    | some g =>
      obtain rfl := hu e he f hf g (List.mem_of_find?_eq_some hg) hk
        (by simpa using List.find?_some hg)
      exact ⟨f, rfl, hv⟩

/-- A relation that takes different entries of a list to different ones of a list of the same
    length meets them all. -/
theorem meets_all {α β : Type} {r : α → β → Prop} {as : List α} {bs : List β}
    (hlen : as.length = bs.length) (hex : ∀ a ∈ as, ∃ b ∈ bs, r a b)
    (hdiff : as.Pairwise fun a a' => ∀ b ∈ bs, r a b → ¬ r a' b) :
    ∀ b ∈ bs, ∃ a ∈ as, r a b := by
  have hidx : ∀ i : Fin as.length, ∃ j : Fin bs.length, r as[i] bs[j] := fun i => by
    obtain ⟨b, hb, hr⟩ := hex as[i] (List.getElem_mem _)
    obtain ⟨j, hj, rfl⟩ := List.getElem_of_mem hb
    exact ⟨⟨j, hj⟩, hr⟩
  choose g hg using hidx
  have hne : ∀ i j : Fin as.length, i < j → g i ≠ g j := fun i j hij he =>
    List.pairwise_iff_getElem.1 hdiff i j i.2 j.2 hij bs[g i] (List.getElem_mem _) (hg i)
      (he ▸ hg j)
  have hinj : Function.Injective g := by
    intro i j he
    rcases lt_trichotomy i j with h | h | h
    · exact absurd he (hne i j h)
    · exact h
    · exact absurd he.symm (hne j i h)
  have hsurj := hinj.surjective_of_finite (finCongr hlen)
  intro b hb
  obtain ⟨j, hj, rfl⟩ := List.getElem_of_mem hb
  obtain ⟨i, hi⟩ := hsurj ⟨j, hj⟩
  refine ⟨as[i], List.getElem_mem _, ?_⟩
  have := hg i
  rwa [hi] at this

/-! ## Equivalence -/

theorem sameItems_refl {xs : List Datum} (h : ∀ x ∈ xs, same x x = true) :
    sameItems xs xs = true := by
  induction xs with
  | nil => simp [sameItems]
  | cons x xs ih =>
    rw [List.forall_mem_cons] at h
    simp [sameItems, h.1, ih h.2]

theorem sameFields_refl {vs : List (Option Datum)} (h : ∀ x, some x ∈ vs → same x x = true) :
    sameFields vs vs = true := by
  induction vs with
  | nil => simp [sameFields]
  | cons v vs ih =>
    have hvs := ih fun x hx => h x (List.mem_cons_of_mem _ hx)
    cases v with
    | none => simpa [sameFields] using hvs
    | some x => simp [sameFields, h x (List.mem_cons_self ..), hvs]

/-- **A value with distinct keys is equal to itself.** -/
theorem same_refl {d : Datum} (h : d.Distinct) : d.same d = true := by
  induction h with
  | @intro d hkeys hparts ih =>
    cases d with
    | bean id vs =>
      simp only [same, beq_self_eq_true, Bool.true_and]
      exact sameFields_refl fun x hx => ih x (List.mem_filterMap.2 ⟨some x, hx, rfl⟩)
    | seq k xs =>
      simp only [same, beq_self_eq_true, Bool.true_and]
      exact sameItems_refl ih
    | map es =>
      simp only [same, beq_self_eq_true, Bool.true_and, within_eq_true]
      intro e he
      have hk := ih e.1 (List.mem_append_left _ (List.mem_map_of_mem he))
      have hv := ih e.2 (List.mem_append_right _ (List.mem_map_of_mem he))
      cases hf : List.find? (fun f => same e.1 f.1) es with
      | none => exact absurd hk (by simpa using List.find?_eq_none.1 hf e he)
      | some f =>
        obtain rfl := Entries.KeysDiffer.eq_of_same hkeys he (List.mem_of_find?_eq_some hf)
          (by simpa using List.find?_some hf)
        exact ⟨e, rfl, hv⟩
    | _ => simp [same, Binary.same]

/-- Whatever equals the value equals the same values. -/
def Central (a : Datum) : Prop :=
  ∀ {b c : Datum}, b.Distinct → c.Distinct → a.same b = true → b.same c = a.same c

theorem Central.symm {a b : Datum} (h : Central a) (ha : a.Distinct) (hb : b.Distinct)
    (hs : a.same b = true) : b.same a = true := by
  rw [h hb ha hs, same_refl ha]

theorem sameItems_congr {as bs cs : List Datum} (ha : ∀ a ∈ as, Central a)
    (hb : ∀ b ∈ bs, b.Distinct) (hc : ∀ c ∈ cs, c.Distinct) (h : sameItems as bs = true) :
    sameItems bs cs = sameItems as cs := by
  induction as generalizing bs cs with
  | nil => cases bs <;> simp [sameItems] at h ⊢
  | cons a as ih =>
    cases bs with
    | nil => simp [sameItems] at h
    | cons b bs =>
      simp only [sameItems, Bool.and_eq_true] at h
      simp only [List.forall_mem_cons] at ha hb
      cases cs with
      | nil => simp [sameItems]
      | cons c cs =>
        rw [List.forall_mem_cons] at hc
        simp only [sameItems]
        rw [ha.1 hb.1 hc.1 h.1, ih ha.2 hb.2 hc.2 h.2]

theorem sameFields_congr {as bs cs : List (Option Datum)} (ha : ∀ a, some a ∈ as → Central a)
    (hb : ∀ b, some b ∈ bs → b.Distinct) (hc : ∀ c, some c ∈ cs → c.Distinct)
    (h : sameFields as bs = true) : sameFields bs cs = sameFields as cs := by
  induction as generalizing bs cs with
  | nil => cases bs <;> simp [sameFields] at h ⊢
  | cons a as ih =>
    have ha' : ∀ a, some a ∈ as → Central a := fun x hx => ha x (List.mem_cons_of_mem _ hx)
    cases bs with
    | nil => cases a <;> simp [sameFields] at h
    | cons b bs =>
      have hb' : ∀ b, some b ∈ bs → b.Distinct := fun x hx => hb x (List.mem_cons_of_mem _ hx)
      cases cs with
      | nil => cases a <;> cases b <;> simp [sameFields]
      | cons c cs =>
        have hc' : ∀ c, some c ∈ cs → c.Distinct := fun x hx => hc x (List.mem_cons_of_mem _ hx)
        cases a with
        | none =>
          cases b with
          | none => cases c <;> simp [sameFields] at h ⊢; exact ih ha' hb' hc' h
          | some b => simp [sameFields] at h
        | some a =>
          cases b with
          | none => simp [sameFields] at h
          | some b =>
            simp only [sameFields, Bool.and_eq_true] at h
            cases c with
            | none => simp [sameFields]
            | some c =>
              simp only [sameFields]
              rw [ha a (List.mem_cons_self ..) (hb b (List.mem_cons_self ..))
                (hc c (List.mem_cons_self ..)) h.1, ih ha' hb' hc' h.2]

/-- The entries of equal maps meet, so they meet the same entries. -/
theorem within_congr {es fs gs : Entries} (hk : ∀ e ∈ es, Central e.1)
    (hv : ∀ e ∈ es, Central e.2) (he : (map es).Distinct) (hf : (map fs).Distinct)
    (hg : (map gs).Distinct) (hlen : es.length = fs.length) (h : within es fs = true) :
    within fs gs = within es gs := by
  -- no key on the left equals two on the right
  have hu : ∀ {hs : Entries}, (map hs).Distinct → ∀ e ∈ es, ∀ f ∈ hs, ∀ g ∈ hs,
      same e.1 f.1 = true → same e.1 g.1 = true → f = g := by
    intro hs hd e he f hf g hg hef heg
    refine hd.keys.eq_of_same hf hg ?_
    rw [hk e he (hd.key hf) (hd.key hg) hef, heg]
  have hmeet := (within_iff (hu hf)).1 h
  have hback : ∀ f ∈ fs, ∃ e ∈ es, same e.1 f.1 = true ∧ same e.2 f.2 = true := by
    refine meets_all hlen hmeet (he.keys.imp_of_mem ?_)
    -- keys that equal one key are equal
    rintro e e' hme hme' ⟨hne, -⟩ f hmf ⟨hef, -⟩ ⟨hef', -⟩
    have hfe := Central.symm (hk e' hme') (he.key hme') (hf.key hmf) hef'
    rw [hk e hme (hf.key hmf) (he.key hme') hef, hne] at hfe
    cases hfe
  have hu' : ∀ f ∈ fs, ∀ g ∈ gs, ∀ g' ∈ gs, same f.1 g.1 = true → same f.1 g'.1 = true →
      g = g' := by
    intro f hmf g hmg g' hmg' hfg hfg'
    obtain ⟨e, hme, hef, -⟩ := hback f hmf
    rw [hk e hme (hf.key hmf) (hg.key hmg) hef] at hfg
    rw [hk e hme (hf.key hmf) (hg.key hmg') hef] at hfg'
    exact hu hg e hme g hmg g' hmg' hfg hfg'
  rw [Bool.eq_iff_iff, within_iff hu', within_iff (hu hg)]
  -- an entry and the one that it meets meet the same entries
  have hiff : ∀ e ∈ es, ∀ f ∈ fs, same e.1 f.1 = true → same e.2 f.2 = true →
      ((∃ g ∈ gs, same f.1 g.1 = true ∧ same f.2 g.2 = true) ↔
        ∃ g ∈ gs, same e.1 g.1 = true ∧ same e.2 g.2 = true) := by
    intro e hme f hmf hef hev
    refine exists_congr fun g => and_congr_right fun hmg => ?_
    rw [hk e hme (hf.key hmf) (hg.key hmg) hef, hv e hme (hf.value hmf) (hg.value hmg) hev]
  constructor
  · intro hall e hme
    obtain ⟨f, hmf, hef, hev⟩ := hmeet e hme
    exact (hiff e hme f hmf hef hev).1 (hall f hmf)
  · intro hall f hmf
    obtain ⟨e, hme, hef, hev⟩ := hback f hmf
    exact (hiff e hme f hmf hef hev).2 (hall e hme)

/-! ## Values -/

theorem central_bean {id : Nat} {vs : List (Option Datum)} (hv : ∀ x, some x ∈ vs → Central x) :
    Central (bean id vs) := by
  intro b c hb hc h
  cases b with
  | bean jd ws =>
    simp only [same, Bool.and_eq_true, beq_iff_eq] at h
    obtain ⟨rfl, h⟩ := h
    cases c with
    | bean kd us =>
      simp only [same]
      rw [sameFields_congr hv (fun x hx => hb.field hx) (fun x hx => hc.field hx) h]
    | _ => simp [same]
  | _ => simp [same] at h

theorem central_seq {k : SeqKind} {xs : List Datum} (hx : ∀ x ∈ xs, Central x) :
    Central (seq k xs) := by
  intro b c hb hc h
  cases b with
  | seq l ys =>
    simp only [same, Bool.and_eq_true, beq_iff_eq] at h
    obtain ⟨rfl, h⟩ := h
    cases c with
    | seq m zs =>
      simp only [same]
      rw [sameItems_congr hx (fun x hx => hb.item hx) (fun x hx => hc.item hx) h]
    | _ => simp [same]
  | _ => simp [same] at h

theorem central_map {es : Entries} (hd : (map es).Distinct) (hk : ∀ e ∈ es, Central e.1)
    (hv : ∀ e ∈ es, Central e.2) : Central (map es) := by
  intro b c hb hc h
  cases b with
  | map fs =>
    simp only [same, Bool.and_eq_true, beq_iff_eq] at h
    cases c with
    | map gs =>
      simp only [same]
      rw [within_congr hk hv hd hb hc h.1 h.2, h.1]
    | _ => simp [same]
  | _ => simp [same] at h

/-- A value without parts is compared as a whole. -/
theorem central_leaf {a : Datum} (h : ∀ b, a.same b = true → ∀ c, b.same c = a.same c) :
    Central a :=
  fun {b c} _ _ hab => h b hab c

theorem Distinct.central {a : Datum} (ha : a.Distinct) : Central a := by
  induction ha with
  | @intro a hkeys hparts ih =>
    cases a with
    | bean id vs =>
      exact central_bean fun x hx => ih x (List.mem_filterMap.2 ⟨some x, hx, rfl⟩)
    | seq k xs => exact central_seq ih
    | map es =>
      refine central_map (.intro hkeys hparts) (fun e he => ?_) fun e he => ?_
      · exact ih e.1 (List.mem_append_left _ (List.mem_map_of_mem he))
      · exact ih e.2 (List.mem_append_right _ (List.mem_map_of_mem he))
    | float x =>
      refine central_leaf fun b h c => ?_
      cases b <;> simp [same, Binary.same] at h
      cases c <;> simp [same, Binary.same, h]
    | double x =>
      refine central_leaf fun b h c => ?_
      cases b <;> simp [same, Binary.same] at h
      cases c <;> simp [same, Binary.same, h]
    | _ =>
      -- the other kinds are equal only to themselves
      refine central_leaf fun b h c => ?_
      cases b <;> simp [same] at h
      all_goals simp [h]

/-- **Equal values are equal to the same values.** -/
theorem same_congr {a b c : Datum} (ha : a.Distinct) (hb : b.Distinct) (hc : c.Distinct)
    (h : a.same b = true) : b.same c = a.same c :=
  ha.central hb hc h

theorem same_symm {a b : Datum} (ha : a.Distinct) (hb : b.Distinct) (h : a.same b = true) :
    b.same a = true := by
  rw [same_congr ha hb ha h, same_refl ha]

theorem same_trans {a b c : Datum} (ha : a.Distinct) (hb : b.Distinct) (hc : c.Distinct)
    (hab : a.same b = true) (hbc : b.same c = true) : a.same c = true := by
  rw [← same_congr ha hb hc hab, hbc]

end Datum

/-! ## Insertion -/

namespace Entries

/-- No key equals the key of an entry before it. -/
def Fresh (es : Entries) : Prop := es.Pairwise fun e f => f.1.same e.1 = false

theorem insert?_eq_ok {k v : Datum} {es out : Entries} :
    es.insert? k v = .ok out ↔ (∀ e ∈ es, k.same e.1 = false) ∧ out = es ++ [(k, v)] := by
  unfold insert?
  split
  · rename_i e he
    have hmem := List.mem_of_find?_eq_some he
    have hsame : k.same e.1 = true := by simpa using List.find?_some he
    simp only [reduceCtorEq, false_iff, not_and]
    intro h
    rw [h e hmem] at hsame; cases hsame
  · rename_i hnone
    have h : ∀ e ∈ es, k.same e.1 = false := by simpa using List.find?_eq_none.1 hnone
    simp only [Except.ok.injEq]
    exact ⟨fun e => ⟨h, e.symm⟩, fun e => e.2.symm⟩

/-- Keys that differ from those before them differ from those behind them too. -/
theorem Fresh.keysDiffer {es : Entries} (h : es.Fresh) (hd : ∀ e ∈ es, e.1.Distinct) :
    es.KeysDiffer := by
  refine h.imp_of_mem fun {e f} he hf hfe => ⟨?_, hfe⟩
  rw [Bool.eq_false_iff]
  intro hef
  rw [Datum.same_symm (hd e he) (hd f hf) hef] at hfe
  cases hfe

/-- The order of entries does not matter if their keys differ. -/
theorem Fresh.perm {es fs : Entries} (h : es.Fresh) (hd : ∀ e ∈ es, e.1.Distinct)
    (hp : es.Perm fs) : fs.Fresh := by
  exact ((h.keysDiffer hd).perm hp fun h => ⟨h.2, h.1⟩).imp And.right

end Entries

/-! ## Reordered maps -/

namespace Datum

theorem same_comm {a b : Datum} (ha : a.Distinct) (hb : b.Distinct) : a.same b = b.same a := by
  rw [Bool.eq_iff_iff]
  exact ⟨same_symm ha hb, same_symm hb ha⟩

/-- Equal keys and equal values. -/
def SameEntry (e f : Datum × Datum) : Prop := e.1.same f.1 = true ∧ e.2.same f.2 = true

/-- Maps of one size are equal if every entry of the one has its like in the other. -/
theorem same_map {es fs : Entries} (he : (map es).Distinct) (hf : (map fs).Distinct)
    (hlen : es.length = fs.length) (h : ∀ e ∈ es, ∃ f ∈ fs, SameEntry e f) :
    (map es).same (map fs) = true := by
  have hu : ∀ e ∈ es, ∀ f ∈ fs, ∀ g ∈ fs, same e.1 f.1 = true → same e.1 g.1 = true → f = g := by
    intro e hme f hmf g hmg hef heg
    refine hf.keys.eq_of_same hmf hmg ?_
    rw [same_congr (he.key hme) (hf.key hmf) (hf.key hmg) hef, heg]
  rw [same, Bool.and_eq_true, beq_iff_eq]
  exact ⟨hlen, (within_iff hu).2 h⟩

/-- Entries like fresh ones are fresh. -/
theorem fresh_of_sameEntries {es fs : Entries} (h : List.Forall₂ SameEntry es fs)
    (he : ∀ e ∈ es, e.1.Distinct) (hf : ∀ f ∈ fs, f.1.Distinct) (hfresh : es.Fresh) :
    fs.Fresh := by
  induction h with
  | nil => exact .nil
  | @cons e f es fs hef h ih =>
    rw [Entries.Fresh, List.pairwise_cons] at hfresh ⊢
    rw [List.forall_mem_cons] at he hf
    refine ⟨fun g hg => ?_, ih he.2 hf.2 hfresh.2⟩
    obtain ⟨e', he', hsame⟩ := exists_of_mem_right h hg
    -- equal keys are equal to the same keys, on either side
    rw [same_congr (he.2 e' he') (hf.2 g hg) hf.1 hsame.1, same_comm (he.2 e' he') hf.1,
      same_congr he.1 hf.1 (he.2 e' he') hef.1, same_comm he.1 (he.2 e' he')]
    exact hfresh.1 e' he'

end Datum

end GameConfig
