import GameConfig.Datum.Export
import GameConfig.Proofs.Datum.Conforms
import GameConfig.Proofs.Descriptor.History

/-
  The JSON object that a bean value is written as.

  It has the discriminator first, if there is one, and then a member for each
  field (`toJson_bean`).  Names of fields are names, so none of them is the
  key of the discriminator or the key of a variant, and no two members have one
  key: every field is found under its name (`find?_name`) and nothing under the
  key of a variant (`find?_storedAs`).
-/

namespace GameConfig

open Notation

/-! ## Names of fields -/

/-- The names of fields are names. -/
def Schema.Named (s : Schema) : Prop :=
  ∀ id, ∀ f ∈ (s.bean id).allFields, isName f.name.toList = true

theorem Schema.named_of_build {h : History} (hp : h.Proper) {s : Schema}
    (hs : (Builder.run h).build = .ok s) : s.Named := by
  obtain ⟨ds, ps, ha⟩ := Builder.exists_accepted hs
  exact ha.forall_fields fun d hd => (hp.beans d hd).fieldNames

theorem History.Proper.closed {h : History} (hp : h.Proper) : h.Closed :=
  fun d hd => (hp.beans d hd).fieldTypes

theorem ne_typeKey_of_isName {n : String} (h : isName n.toList = true) : n ≠ typeKey := by
  rintro rfl
  revert h
  decide

theorem ne_storedAs_of_isName {n : String} (h : isName n.toList = true) (f : Field) (w : String) :
    n ≠ f.storedAs w := by
  rintro rfl
  have := isNameChar_of_isName h '@' (by simp [Field.storedAs])
  revert this
  decide

/-! ## Members -/

namespace Datum

variable {s : Schema}

/-- The value of a field as it is written. -/
def fieldJson (s : Schema) : Option Datum → Json
  | some d => d.toJson s
  | none => .null

theorem itemsJson_eq (s : Schema) (xs : List Datum) : itemsJson s xs = xs.map (toJson s) := by
  induction xs with
  | nil => simp [itemsJson]
  | cons x xs ih => simp [itemsJson, ih]

theorem entriesJson_eq (s : Schema) (es : Entries) :
    entriesJson s es = es.map fun e => .array [e.1.toJson s, e.2.toJson s] := by
  induction es with
  | nil => simp [entriesJson]
  | cons e es ih => simp [entriesJson, ih]

theorem fieldsJson_eq (s : Schema) (fs : List Field) (vs : List (Option Datum)) :
    fieldsJson s fs vs = (fs.zip vs).map fun p => (p.1.name, fieldJson s p.2) := by
  induction fs generalizing vs with
  | nil => cases vs <;> simp [fieldsJson]
  | cons f fs ih =>
    cases vs with
    | nil => simp [fieldsJson]
    | cons v vs => cases v <;> simp [fieldsJson, fieldJson, ih]

/-- The keys are names of fields, in order. -/
theorem keys_fieldsJson (s : Schema) (fs : List Field) (vs : List (Option Datum)) :
    Assoc.keys (fieldsJson s fs vs) <+: fs.map Field.name := by
  rw [fieldsJson_eq]
  induction fs generalizing vs with
  | nil => simp [Assoc.keys]
  | cons f fs ih =>
    cases vs with
    | nil => simp [Assoc.keys]
    | cons v vs => simpa [Assoc.keys, List.prefix_cons_inj] using ih vs

/-- The member that names the type of a bean, if it has a parent. -/
def tagMember (s : Schema) (c : Nat) : List (String × Json) :=
  if (s.bean c).parent.isSome then [(typeKey, .string (s.discriminator (s.bean c)))] else []

/-- The members that a bean value is written as. -/
def members (s : Schema) (c : Nat) (vs : List (Option Datum)) : List (String × Json) :=
  tagMember s c ++ fieldsJson s (s.bean c).allFields vs

theorem mem_keys_members {c : Nat} {vs : List (Option Datum)} {k : String}
    (h : k ∈ Assoc.keys (members s c vs)) :
    k = typeKey ∨ ∃ f ∈ (s.bean c).allFields, k = f.name := by
  rw [Assoc.keys, members, List.map_append, List.mem_append] at h
  rcases h with h | h
  · unfold tagMember at h
    split at h
    · exact Or.inl (by simpa using h)
    · cases h
  · obtain ⟨f, hf, rfl⟩ := List.mem_map.1 ((keys_fieldsJson s _ vs).subset h)
    exact Or.inr ⟨f, hf, rfl⟩

/-- **The members of a bean value have different keys.** -/
theorem keys_members_nodup (hs : s.Sound) (hn : s.Named) (c : Nat) (vs : List (Option Datum)) :
    (Assoc.keys (members s c vs)).Nodup := by
  have hsub := keys_fieldsJson s (s.bean c).allFields vs
  have hfields := hsub.sublist.nodup (hs.fieldsNodup c)
  unfold members tagMember
  split
  · rw [List.singleton_append, Assoc.keys, List.map_cons, List.nodup_cons]
    refine ⟨fun h => ?_, hfields⟩
    obtain ⟨f, hf, hk⟩ := List.mem_map.1 (hsub.subset h)
    exact ne_typeKey_of_isName (hn c f hf) hk
  · exact hfields

/-- A bean value is written as its members. -/
theorem toJson_bean (hs : s.Sound) (hn : s.Named) (c : Nat) (vs : List (Option Datum)) :
    (bean c vs).toJson s = .object (members s c vs) := by
  have h := Assoc.ofEntries_eq (keys_members_nodup hs hn c vs)
  simpa [toJson, members, tagMember] using h

/-- A field is found under its name. -/
theorem find?_name (hs : s.Sound) (hn : s.Named) {c : Nat} {vs : List (Option Datum)} {f : Field}
    {v : Option Datum} (h : (f, v) ∈ (s.bean c).allFields.zip vs) :
    Assoc.find? f.name (members s c vs) = some (fieldJson s v) := by
  refine Assoc.find?_eq_some (keys_members_nodup hs hn c vs) (List.mem_append_right _ ?_)
  rw [fieldsJson_eq]
  exact List.mem_map.2 ⟨(f, v), h, rfl⟩

/-- Nothing is found under the key of a variant. -/
theorem find?_storedAs (hn : s.Named) (c : Nat) (vs : List (Option Datum)) (f : Field)
    (w : String) : Assoc.find? (f.storedAs w) (members s c vs) = none := by
  refine Assoc.find?_eq_none fun h => ?_
  rcases mem_keys_members h with hk | ⟨g, hg, hk⟩
  · have hat : '@' ∈ typeKey.toList := by
      rw [← hk]
      simp [Field.storedAs]
    revert hat
    decide
  · exact ne_storedAs_of_isName (hn c g hg) f w hk.symm

end Datum

end GameConfig
