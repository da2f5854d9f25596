import GameConfig.Proofs.Builder.History
import GameConfig.Proofs.Ty.Reading

/-
  The numbers that a builder gives out.

  Whatever the calls were, a name stands for a slot that is there, and slots are
  never taken away.  So a type that is read while declarations are collected
  uses only numbers that are good in the end.

  * `TypeRef.Within` and `Ty.Within`: beans and enums have numbers below bounds;
  * `Builder.run_labelled`: names stand for slots with these names, so for
    slots that are there (`run_inside`);
  * `Notation.read_within`: a type expression gives only numbers that its scope
    gave.
-/

namespace GameConfig

/-- The bean or enum has a number below these. -/
def TypeRef.Within (beans enums : Nat) : TypeRef → Prop
  | .bean id => id < beans
  | .enum id => id < enums

instance (beans enums : Nat) : (ref : TypeRef) → Decidable (ref.Within beans enums)
  | .bean id => inferInstanceAs (Decidable (id < beans))
  | .enum id => inferInstanceAs (Decidable (id < enums))

/-- The beans and enums of the type have numbers below these. -/
def Ty.Within (beans enums : Nat) : Ty → Prop
  | .scalar _ _ => True
  | .named _ ref => ref.Within beans enums
  | .seq _ _ e => e.Within beans enums
  | .map _ k v => k.Within beans enums ∧ v.Within beans enums

instance Ty.decidableWithin (beans enums : Nat) : (ty : Ty) → Decidable (ty.Within beans enums)
  | .scalar _ _ => .isTrue trivial
  | .named _ ref => inferInstanceAs (Decidable (ref.Within beans enums))
  | .seq _ _ e => e.decidableWithin beans enums
  | .map _ k v =>
    have := k.decidableWithin beans enums
    have := v.decidableWithin beans enums
    inferInstanceAs (Decidable (_ ∧ _))

theorem TypeRef.Within.mono {b b' e e' : Nat} (hb : b ≤ b') (he : e ≤ e') {ref : TypeRef}
    (h : ref.Within b e) : ref.Within b' e' := by
  cases ref with
  | bean id => exact Nat.lt_of_lt_of_le h hb
  | enum id => exact Nat.lt_of_lt_of_le h he

theorem Ty.Within.mono {b b' e e' : Nat} (hb : b ≤ b') (he : e ≤ e') {ty : Ty}
    (h : ty.Within b e) : ty.Within b' e' := by
  induction ty with
  | scalar => trivial
  | named => exact TypeRef.Within.mono hb he h
  | seq _ _ _ ih => exact ih h
  | map _ _ _ ihk ihv => exact ⟨ihk h.1, ihv h.2⟩

namespace Builder

/-- The type uses numbers that the builder gave out. -/
def Has (b : Builder) (ty : Ty) : Prop := ty.Within b.beans.length b.enums.length

/-- Every name stands for a slot that is there. -/
def Inside (b : Builder) : Prop :=
  ∀ n ref, Assoc.find? n b.names = some ref → ref.Within b.beans.length b.enums.length

/-- The builder has at least the slots of another. -/
structure Extends (b b' : Builder) : Prop where
  beans : b.beans.length ≤ b'.beans.length
  enums : b.enums.length ≤ b'.enums.length

theorem Extends.refl (b : Builder) : Extends b b := ⟨Nat.le_refl _, Nat.le_refl _⟩

theorem Extends.trans {a b c : Builder} (hab : Extends a b) (hbc : Extends b c) : Extends a c :=
  ⟨Nat.le_trans hab.beans hbc.beans, Nat.le_trans hab.enums hbc.enums⟩

theorem Has.mono {b b' : Builder} (h : Extends b b') {ty : Ty} (hty : b.Has ty) : b'.Has ty :=
  Ty.Within.mono h.beans h.enums hty

theorem beanId_extends (b : Builder) (n : String) : Extends b (b.beanId n).2 := by
  unfold beanId
  split
  · exact .refl b
  · exact ⟨by simp [claim], by simp [claim]⟩

theorem enumId_extends (b : Builder) (n : String) : Extends b (b.enumId n).2 := by
  unfold enumId
  split
  · exact .refl b
  · exact ⟨by simp [claim], by simp [claim]⟩

theorem addBean_eq (b : Builder) (d : BeanDecl) :
    (b.addBean d).2.names = (b.beanId d.fullName).2.names ∧
      (b.addBean d).2.beans.length = (b.beanId d.fullName).2.beans.length ∧
      (b.addBean d).2.enums.length = (b.beanId d.fullName).2.enums.length := by
  simp [addBean]

theorem addEnum_eq (b : Builder) (e : EnumDef) :
    (b.addEnum e).2.names = (b.enumId e.fullName).2.names ∧
      (b.addEnum e).2.beans.length = (b.enumId e.fullName).2.beans.length ∧
      (b.addEnum e).2.enums.length = (b.enumId e.fullName).2.enums.length := by
  simp [addEnum]

/-- No call takes a slot away. -/
theorem apply_extends (b : Builder) (c : Call) : Extends b (b.apply c) := by
  cases c with
  | beanId n => exact beanId_extends b n
  | enumId n => exact enumId_extends b n
  | addBean d =>
    obtain ⟨-, hb, he⟩ := addBean_eq b d
    have h := beanId_extends b d.fullName
    exact ⟨hb ▸ h.beans, he ▸ h.enums⟩
  | addEnum e =>
    obtain ⟨-, hb, he⟩ := addEnum_eq b e
    have h := enumId_extends b e.fullName
    exact ⟨hb ▸ h.beans, he ▸ h.enums⟩
  | addTable t => exact ⟨Nat.le_refl _, Nat.le_refl _⟩

theorem run_extends (g h : History) : Extends (run g) (run (g ++ h)) := by
  induction h using List.reverseRecOn with
  | nil => simpa using Extends.refl (run g)
  | append_singleton h c ih =>
    rw [← List.append_assoc, run_concat]
    exact ih.trans (apply_extends _ c)

/-- The name of the slot that a bean or enum has. -/
def nameOf? (b : Builder) : TypeRef → Option String
  | .bean id => slotName? b.beans id
  | .enum id => slotName? b.enums id

/-- Every name stands for a slot with that name. -/
def Labelled (b : Builder) : Prop :=
  ∀ n ref, Assoc.find? n b.names = some ref → b.nameOf? ref = some n

theorem Labelled.inside {b : Builder} (hb : b.Labelled) : b.Inside := by
  intro n ref h
  have hname := hb n ref h
  cases ref with
  | bean id =>
    obtain ⟨_, hslot⟩ := slotName?_eq_some.1 hname
    exact (List.getElem?_eq_some_iff.1 hslot).1
  | enum id =>
    obtain ⟨_, hslot⟩ := slotName?_eq_some.1 hname
    exact (List.getElem?_eq_some_iff.1 hslot).1

/-- A name that is claimed stands for what it was claimed for, the others for what they did. -/
theorem Labelled.claim {b b' : Builder} (hb : b.Labelled) {n : String} {ref : TypeRef}
    (hn : b'.names = Assoc.insert n ref b.names) (hnew : b'.nameOf? ref = some n)
    (hold : ∀ r m, b.nameOf? r = some m → b'.nameOf? r = some m) : b'.Labelled := by
  intro m r hm
  rw [hn] at hm
  by_cases h : m = n
  · subst h
    rw [Assoc.find?_insert_self] at hm
    cases hm
    exact hnew
  · rw [Assoc.find?_insert_of_ne h] at hm
    exact hold r m (hb m r hm)

theorem Labelled.newBean {b : Builder} (hb : b.Labelled) (n : String) :
    ({ b with beans := b.beans ++ [(n, none)] }.claim n (.bean b.beans.length)).Labelled := by
  refine hb.claim rfl ?_ fun r m hr => ?_
  · exact slotName?_append.2 (Or.inr ⟨rfl, rfl⟩)
  · cases r with
    | bean id => exact slotName?_append.2 (Or.inl hr)
    | enum id => exact hr

theorem Labelled.newEnum {b : Builder} (hb : b.Labelled) (n : String) :
    ({ b with enums := b.enums ++ [(n, none)] }.claim n (.enum b.enums.length)).Labelled := by
  refine hb.claim rfl ?_ fun r m hr => ?_
  · exact slotName?_append.2 (Or.inr ⟨rfl, rfl⟩)
  · cases r with
    | bean id => exact hr
    | enum id => exact slotName?_append.2 (Or.inl hr)

theorem beanId_labelled {b : Builder} (hb : b.Labelled) (n : String) : (b.beanId n).2.Labelled := by
  unfold beanId
  split
  · exact hb
  · exact hb.newBean n

theorem enumId_labelled {b : Builder} (hb : b.Labelled) (n : String) : (b.enumId n).2.Labelled := by
  unfold enumId
  split
  · exact hb
  · exact hb.newEnum n

theorem apply_labelled {b : Builder} (hb : b.Labelled) (c : Call) : (b.apply c).Labelled := by
  cases c with
  | beanId n => exact beanId_labelled hb n
  | enumId n => exact enumId_labelled hb n
  | addBean d =>
    intro n ref h
    have hname := beanId_labelled hb d.fullName n ref h
    cases ref with
    | bean id => exact (slotName?_fill _ _ _ _).trans hname
    | enum id => exact hname
  | addEnum e =>
    intro n ref h
    have hname := enumId_labelled hb e.fullName n ref h
    cases ref with
    | bean id => exact hname
    | enum id => exact (slotName?_fill _ _ _ _).trans hname
  | addTable t => exact hb

/-- **Names stand for slots with these names**, whatever the calls were. -/
theorem run_labelled (h : History) : (run h).Labelled := by
  induction h using List.reverseRecOn with
  | nil => exact fun _ _ hf => by simp [run, empty, Assoc.find?] at hf
  | append_singleton h c ih =>
    rw [run_concat]
    exact apply_labelled ih c

/-- Names stand for slots that are there. -/
theorem run_inside (h : History) : Inside (run h) := (run_labelled h).inside

theorem findType?_within {b : Builder} (hb : Inside b) {n : String} {space : Option String}
    {ref : TypeRef} (h : b.findType? n space = some ref) :
    ref.Within b.beans.length b.enums.length := by
  unfold findType? Names.lookup at h
  split at h
  · rename_i hf
    cases h
    exact hb _ _ hf
  · split at h
    · split at h
      · cases h
      · exact hb _ _ h
    · cases h

end Builder

namespace Notation

theorem leaf_within {scope : Scope} {beans enums : Nat}
    (hs : ∀ n ref, scope.resolve n = some ref → ref.Within beans enums) {m : Mark}
    {name : List Char} {ty : Ty} (h : leaf scope m name = .ok ty) : ty.Within beans enums := by
  rcases leaf_eq_ok.1 h with ⟨k, -, rfl⟩ | ⟨-, -, -, ref, hr, rfl⟩
  · trivial
  · exact hs _ _ hr

theorem Reads.within {scope : Scope} {beans enums : Nat}
    (hs : ∀ n ref, scope.resolve n = some ref → ref.Within beans enums) {cs : List Char} {ty : Ty}
    (h : Reads scope cs ty) : ty.Within beans enums := by
  induction h with
  | whole _ _ ih => exact ih
  | name _ _ hl => exact leaf_within hs hl
  | seq _ _ _ _ ih => exact (ih :)
  | map _ _ _ _ _ _ ihk ihv => exact ⟨ihk, ihv⟩

/-- **A type expression gives only numbers that its scope gave.** -/
theorem read_within {scope : Scope} {beans enums : Nat}
    (hs : ∀ n ref, scope.resolve n = some ref → ref.Within beans enums) {cs : List Char} {ty : Ty}
    (h : read scope cs = .ok ty) : ty.Within beans enums :=
  (reads_of_read h).within hs

end Notation

end GameConfig
