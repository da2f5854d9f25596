import GameConfig.Proofs.Load.Typing

/-
  Where loading fails.

  The path of an error leads from the root through the type and the raw tree to
  the first node that does not load: whatever is read before one of its steps
  loads.

  * `Locates`: an error whose path leads there and whose fault is the one there;
  * `framed_loop_eq_error`: a loop over parts fails at its first part that fails, as
    `load_bean_eq_error`, `load_seq_eq_error` and `load_map_eq_error` say of the
    parts of a node;
  * `load_eq_error_iff_locates`: loading fails with the errors that locate a fault, and
    no others.
-/

namespace GameConfig

namespace Loader

variable {l : Loader}

/-! ## Loops -/

theorem within_eq_error {α : Type} {f : Frame} {r : Except LoadError α} {e : LoadError} :
    within f r = .error e ↔ ∃ e', r = .error e' ∧ e = e'.within f := by
  cases r <;> simp [within, eq_comm]

/-- A loop that adds a step to the errors of its parts. -/
theorem framed_loop_eq_error {α σ : Type} (f : Nat → σ → List α → Except LoadError σ)
    (one : σ → α → Except LoadError σ) (frame : Nat → α → Frame) (hnil : ∀ i s, f i s [] = .ok s)
    (hcons : ∀ i s a as,
      f i s (a :: as) = (within (frame i a) (one s a)).bind fun t => f (i + 1) t as)
    (i : Nat) (s : σ) (as : List α) (e : LoadError) :
    f i s as = .error e ↔ ∃ as₁ a as₂ t e', as = as₁ ++ a :: as₂ ∧ f i s as₁ = .ok t ∧
      one t a = .error e' ∧ e = e'.within (frame (i + as₁.length) a) := by
  rw [loop_eq_error f (fun i s a => within (frame i a) (one s a)) hnil hcons]
  simp only [within_eq_error, exists_and_left]

/-- So with a loop that collects values. -/
theorem framed_values_eq_error {α β : Type} (f : Nat → List α → Except LoadError (List β))
    (one : α → Except LoadError β) (frame : Nat → α → Frame) (hnil : ∀ i, f i [] = .ok [])
    (hcons : ∀ i a as, f i (a :: as) =
      (within (frame i a) (one a)).bind fun b => (f (i + 1) as).map (b :: ·))
    (i : Nat) (as : List α) (e : LoadError) :
    f i as = .error e ↔ ∃ as₁ a as₂ bs e', as = as₁ ++ a :: as₂ ∧ f i as₁ = .ok bs ∧
      one a = .error e' ∧ e = e'.within (frame (i + as₁.length) a) := by
  rw [values_eq_error f (fun i a => within (frame i a) (one a)) hnil hcons]
  simp only [within_eq_error, exists_and_left]

/-! ## Beans -/

theorem field_eq_error {bean : String} {ms : List (String × Json)} {f : Field} {e : LoadError} :
    l.field bean (ms.map fun m => (m.1, l.node m.2)) f = .error e ↔
      (f.ty.nullable = false ∧ l.fieldNode? ms f = none ∧ e = .of (.missingField bean f.name)) ∨
      (f.ty.nullable = false ∧ l.fieldNode? ms f = some .null ∧
        e = .of (.nullField bean f.name)) ∨
      ∃ x, l.value? ms f = some x ∧ l.load f.ty x = .error e := by
  rw [field, fieldNode?_map]
  cases hx : l.fieldNode? ms f with
  | none => by_cases hn : f.ty.nullable = true <;> simp [hn, value?, hx, fail, eq_comm]
  | some x =>
    have hload : (l.node x).load f.ty = l.load f.ty x := rfl
    cases x with
    | null => by_cases hn : f.ty.nullable = true <;> simp [hn, value?, hx, fail, eq_comm]
    | _ =>
      simp only [Option.map_some, raw_node, hload]
      split
      · rename_i d hd
        simp [value?, hx, hd]
      · rename_i e' he'
        simp [value?, hx, he']

theorem fields_eq_error {bean : String} {members : List (String × Node)} {fs : List Field}
    {e : LoadError} :
    l.fields bean members fs = .error e ↔
      ∃ fs₁ f fs₂ vs e', fs = fs₁ ++ f :: fs₂ ∧ l.fields bean members fs₁ = .ok vs ∧
        l.field bean members f = .error e' ∧ e = e'.within (.field bean f.name) :=
  framed_values_eq_error (fun _ => l.fields bean members) (l.field bean members)
    (fun _ f => .field bean f.name) (fun _ => rfl) (fun _ => fields_cons bean members) 0 fs e

/-- A word that names no concrete bean is no matter of a part. -/
theorem resolve_eq_error {id : Nat} {w : Option String} {e : LoadError}
    (h : l.resolve id w = .error e) : e = .of e.fault := by
  unfold resolve at h
  dsimp only at h
  split at h
  · cases h
  · split at h
    · cases h
      rfl
    · split at h <;> cases h
      rfl

theorem loadRecord_eq_error {id : Nat} {ms : List (String × Json)} {e : LoadError} :
    l.loadRecord id (.object ms) (ms.map fun m => (m.1, l.node m.2)) = .error e ↔
      l.resolve id (word? ms) = .error e ∨
      ∃ c, l.resolve id (word? ms) = .ok c ∧ ∃ fs f fs' vs e',
        (l.schema.bean c).allFields = fs ++ f :: fs' ∧ List.Forall₂ (l.FieldLoads ms) fs vs ∧
        l.field (l.schema.bean c).fullName (ms.map fun m => (m.1, l.node m.2)) f = .error e' ∧
        e = e'.within (.field (l.schema.bean c).fullName f.name) := by
  simp only [loadRecord, word?_nodes]
  cases hc : l.resolve id (word? ms) with
  | error e' => simp
  | ok c =>
    simp only [reduceCtorEq, false_or, Except.ok.injEq, exists_eq_left']
    constructor
    · intro h
      split at h
      · rename_i e' hf
        cases h
        obtain ⟨fs, f, fs', vs, e', hfs, hvs, hbad, he⟩ := fields_eq_error.1 hf
        exact ⟨fs, f, fs', vs, e', hfs, fields_eq_ok.1 hvs, hbad, he⟩
      · cases h
    · rintro ⟨fs, f, fs', vs, e', hfs, hvs, hbad, he⟩
      rw [fields_eq_error.2 ⟨fs, f, fs', vs, e', hfs, fields_eq_ok.2 hvs, hbad, he⟩]

/-- A node that does not load as a bean is no object, does not name a concrete bean, or has a
    first field that does not load. -/
theorem load_bean_eq_error {m : Mark} {id : Nat} {x : Json} {e : LoadError} :
    l.load (.named m (.bean id)) x = .error e ↔
      ((∀ ms, x ≠ .object ms) ∧ e = .of (.unexpectedNode "object" x.describe)) ∨
      ∃ ms, x = .object ms ∧
        l.loadRecord id (.object ms) (ms.map fun m => (m.1, l.node m.2)) = .error e := by
  have hrecord : l.load (.named m (.bean id)) x = .error e ↔
      l.loadRecord id x (x.members.map fun m => (m.1, l.node m.2)) = .error e := by
    rw [load_eq, loadAs]
    cases l.loadRecord id x (x.members.map fun m => (m.1, l.node m.2)) <;> simp
  rw [hrecord]
  cases x with
  | object ms => simp [Json.members]
  | _ => simp [loadRecord, unexpected, fail, eq_comm]

/-! ## Sequences -/

theorem loadItems_eq_error {elem : Ty} {i : Nat} {ns : List Node} {e : LoadError} :
    loadItems elem i ns = .error e ↔
      ∃ ns₁ n ns₂ ds e', ns = ns₁ ++ n :: ns₂ ∧ loadItems elem i ns₁ = .ok ds ∧
        n.load elem = .error e' ∧ e = e'.within (.index (i + ns₁.length)) :=
  framed_values_eq_error (loadItems elem) (fun n => n.load elem) (fun i _ => .index i) (fun _ => rfl)
    (loadItems_cons elem) i ns e

/-- A node that does not load as a sequence is no array or has a first item that does not load. -/
theorem load_seq_eq_error {m : Mark} {k : SeqKind} {elem : Ty} {x : Json} {e : LoadError} :
    l.load (.seq m k elem) x = .error e ↔
      ((∀ xs, x ≠ .array xs) ∧ e = .of (.unexpectedNode "array" x.describe)) ∨
      ∃ xs y ys ds e', x = .array (xs ++ y :: ys) ∧
        List.Forall₂ (fun x d => l.load elem x = .ok d) xs ds ∧ l.load elem y = .error e' ∧
        e = e'.within (.index xs.length) := by
  rw [load_eq]
  cases x with
  | array xs =>
    have hitems : l.loadAs (.array xs) (xs.map l.node) [] (.seq m k elem) = .error e ↔
        loadItems elem 0 (xs.map l.node) = .error e := by
      rw [loadAs]
      cases loadItems elem 0 (xs.map l.node) <;> simp
    show l.loadAs (.array xs) (xs.map l.node) [] (.seq m k elem) = .error e ↔ _
    rw [hitems, loadItems_eq_error]
    constructor
    · rintro ⟨ns₁, n, ns₂, ds, e', hns, hds, hbad, he⟩
      obtain ⟨xs₁, xs₂, rfl, rfl, hxs⟩ := List.map_eq_append_iff.1 hns
      obtain ⟨y, ys, rfl, rfl, rfl⟩ := List.map_eq_cons_iff.1 hxs
      rw [List.length_map, Nat.zero_add] at he
      exact Or.inr ⟨xs₁, y, ys, ds, e', rfl,
        List.forall₂_map_left_iff.1 (loadItems_eq_ok.1 hds), hbad, he⟩
    · rintro (⟨h, -⟩ | ⟨xs₁, y, ys, ds, e', hxs, hds, hbad, he⟩)
      · exact absurd rfl (h xs)
      · cases hxs
        refine ⟨xs₁.map l.node, l.node y, ys.map l.node, ds, e', by simp,
          loadItems_eq_ok.2 (List.forall₂_map_left_iff.2 hds), hbad, ?_⟩
        rw [List.length_map, Nat.zero_add]
        exact he
  | _ => simp [loadAs, unexpected, fail, eq_comm]

/-! ## Maps -/

/-- An entry is not put in if its key or its value does not load, or if its key is there. -/
theorem entry_eq_error {key value : Except LoadError Datum} {acc : Entries} {again : LoadFault}
    {e : LoadError} :
    (match key with
      | .error e => .error e
      | .ok k =>
        match value with
        | .error e => .error e
        | .ok v =>
          match acc.insert? k v with
          | .ok es => .ok es
          | .error _ => fail again : Except LoadError Entries) = .error e ↔
      key = .error e ∨
      ∃ k, key = .ok k ∧ (value = .error e ∨
        ∃ v, value = .ok v ∧ (∃ g ∈ acc, k.same g.1 = true) ∧ e = .of again) := by
  cases key with
  | error e' => simp
  | ok k =>
    cases value with
    | error e' => simp
    | ok v =>
      simp only [reduceCtorEq, false_or, Except.ok.injEq, exists_eq_left']
      by_cases hfresh : ∀ g ∈ acc, k.same g.1 = false
      · rw [Entries.insert?_eq_ok.2 ⟨hfresh, rfl⟩]
        simp only [reduceCtorEq, false_iff, not_and]
        rintro ⟨g, hg, hsame⟩ -
        rw [hfresh g hg] at hsame
        cases hsame
      · have hthere : ∃ g ∈ acc, k.same g.1 = true := by simpa using hfresh
        cases hi : acc.insert? k v with
        | ok es => exact absurd (Entries.insert?_eq_ok.1 hi).1 hfresh
        | error d =>
          show Except.error (LoadError.of again) = .error e ↔ _
          rw [Except.error.injEq]
          exact ⟨fun h => ⟨hthere, h.symm⟩, fun h => h.2.symm⟩

theorem loadPair_eq_error {key value : Ty} {acc : Entries} {x : Json} {e : LoadError} :
    loadPair key value acc (l.node x) = .error e ↔
      ((∀ k v, x ≠ .array [k, v]) ∧ e = .of (.invalidMap (.notPair x.compact))) ∨
      ∃ k v, x = .array [k, v] ∧ (l.load key k = .error e ∨
        ∃ kd, l.load key k = .ok kd ∧ (l.load value v = .error e ∨
          ∃ vd, l.load value v = .ok vd ∧ (∃ g ∈ acc, kd.same g.1 = true) ∧
            e = .of (.duplicateKey k.compact))) := by
  by_cases hpair : ∃ k v, x = .array [k, v]
  · obtain ⟨k, v, rfl⟩ := hpair
    have hentry : loadPair key value acc (l.node (.array [k, v])) = .error e ↔ _ := entry_eq_error
    rw [raw_node] at hentry
    rw [hentry]
    constructor
    · exact fun h => Or.inr ⟨k, v, rfl, h⟩
    · rintro (⟨h, -⟩ | ⟨k', v', heq, h⟩)
      · exact absurd rfl (h k v)
      · cases heq
        exact h
  · have hno : ∀ k v, x ≠ .array [k, v] := fun k v hx => hpair ⟨k, v, hx⟩
    have hfault : loadPair key value acc (l.node x) =
        .error (.of (.invalidMap (.notPair x.compact))) := by
      unfold loadPair
      split
      · rename_i hkv
        obtain ⟨a, b, hx, -, -⟩ := eq_pair_of_items hkv
        exact absurd hx (hno a b)
      · rw [raw_node]
        rfl
    rw [hfault, Except.error.injEq]
    constructor
    · exact fun h => Or.inl ⟨hno, h.symm⟩
    · rintro (⟨-, h⟩ | ⟨k, v, hx, -⟩)
      · exact h.symm
      · exact absurd hx (hno k v)

theorem loadMember_eq_error {key value : Ty} {acc : Entries} {n : String} {x : Json}
    {e : LoadError} :
    l.loadMember key value acc n (l.node x) = .error e ↔
      l.loadKey key n = .error e ∨
      ∃ kd, l.loadKey key n = .ok kd ∧ (l.load value x = .error e ∨
        ∃ vd, l.load value x = .ok vd ∧ (∃ g ∈ acc, kd.same g.1 = true) ∧
          e = .of (.duplicateKey ("\"" ++ n ++ "\""))) :=
  entry_eq_error

/-- What an entry stands behind: raw entries load as these, and no key comes again. -/
def Behind {α : Type} (loads : α → Datum × Datum → Prop) (as : List α) (es : Entries) : Prop :=
  List.Forall₂ loads as es ∧ es.Fresh

/-- Pairs fail at the first one that is not put in behind those before it. -/
theorem loadPairs_eq_error {key value : Ty} {xs : List Json} {e : LoadError} :
    loadPairs key value 0 [] (xs.map l.node) = .error e ↔
      ∃ xs₁ x xs₂ es e', xs = xs₁ ++ x :: xs₂ ∧
        Behind (l.PairLoads key value) xs₁ es ∧
        loadPair key value es (l.node x) = .error e' ∧ e = e'.within (.index xs₁.length) := by
  have h := framed_loop_eq_error (fun i acc xs => loadPairs key value i acc (xs.map l.node))
    (fun acc x => loadPair key value acc (l.node x)) (fun i _ => .index i) (fun _ _ => rfl)
    (fun i acc x xs => loadPairs_cons key value i acc (l.node x) (xs.map l.node)) 0 [] xs e
  simpa only [loadPairs_eq_ok, Nat.zero_add, Behind] using h

/-- So do members. -/
theorem loadMembers_eq_error {key value : Ty} {ms : List (String × Json)} {e : LoadError} :
    l.loadMembers key value [] (ms.map fun m => (m.1, l.node m.2)) = .error e ↔
      ∃ ms₁ m ms₂ es e', ms = ms₁ ++ m :: ms₂ ∧
        Behind (l.MemberLoads key value) ms₁ es ∧
        l.loadMember key value es m.1 (l.node m.2) = .error e' ∧ e = e'.within (.key m.1) := by
  have h := framed_loop_eq_error
    (fun _ acc ms => l.loadMembers key value acc (ms.map fun m => (m.1, l.node m.2)))
    (fun acc m => l.loadMember key value acc m.1 (l.node m.2)) (fun _ m => .key m.1)
    (fun _ _ => rfl) (fun _ acc m ms => loadMembers_cons key value acc (m.1, l.node m.2)
      (ms.map fun m => (m.1, l.node m.2))) 0 [] ms e
  simpa only [loadMembers_eq_ok, Behind] using h

/-- A node that does not load as a map is neither array nor object, is an object though keys are
    not texts, or has a first entry that is not put in. -/
theorem load_map_eq_error {m : Mark} {key value : Ty} {x : Json} {e : LoadError} :
    l.load (.map m key value) x = .error e ↔
      ((∀ xs, x ≠ .array xs) ∧ (∀ ms, x ≠ .object ms) ∧
        e = .of (.invalidMap (.notMap x.describe))) ∨
      (∃ ms, x = .object ms ∧ key.isTextKey = false ∧
        e = .of (.invalidMap (.keyTypeNotText (key.name l.schema)))) ∨
      (∃ xs, x = .array xs ∧ loadPairs key value 0 [] (xs.map l.node) = .error e) ∨
      ∃ ms, x = .object ms ∧ key.isTextKey = true ∧
        l.loadMembers key value [] (ms.map fun m => (m.1, l.node m.2)) = .error e := by
  have hmap : l.load (.map m key value) x = .error e ↔
      l.loadMap key value x (x.items.map l.node) (x.members.map fun m => (m.1, l.node m.2)) =
        .error e := by
    rw [load_eq, loadAs]
    cases l.loadMap key value x (x.items.map l.node) (x.members.map fun m => (m.1, l.node m.2)) <;>
      simp
  rw [hmap]
  cases x with
  | array xs => simp [loadMap, Json.items]
  | object ms =>
    cases ht : key.isTextKey <;> simp [loadMap, Json.members, ht, fail, @eq_comm LoadError]
  | _ => simp [loadMap, fail, @eq_comm LoadError]

/-! ## Paths -/

/-- The concrete bean that an object is read as comes to the field: those before it load. -/
structure Reaches (l : Loader) (id : Nat) (ms : List (String × Json)) (c : Nat) (f : Field) :
    Prop where
  concrete : c ∈ (l.schema.bean id).concrete
  resolved : l.resolve id (word? ms) = .ok c
  before : ∃ fs fs' vs, (l.schema.bean c).allFields = fs ++ f :: fs' ∧
    List.Forall₂ (l.FieldLoads ms) fs vs

/-- The step to a field of a bean. -/
def fieldFrame (l : Loader) (c : Nat) (f : Field) : Frame :=
  .field (l.schema.bean c).fullName f.name

/-- The path of the error leads through the type and the raw tree to the first part that does not
    load, and its fault is what is wrong there. -/
inductive Locates (l : Loader) : Ty → Json → LoadError → Prop
  /-- A node that is wrong itself. -/
  | node {ty x fault} : l.load ty x = .error (.of fault) → Locates l ty x (.of fault)
  | missing {m id ms c f} : l.Reaches id ms c f → f.ty.nullable = false →
      l.fieldNode? ms f = none →
      Locates l (.named m (.bean id)) (.object ms)
        ((LoadError.of (.missingField (l.schema.bean c).fullName f.name)).within (l.fieldFrame c f))
  | null {m id ms c f} : l.Reaches id ms c f → f.ty.nullable = false →
      l.fieldNode? ms f = some .null →
      Locates l (.named m (.bean id)) (.object ms)
        ((LoadError.of (.nullField (l.schema.bean c).fullName f.name)).within (l.fieldFrame c f))
  | field {m id ms c f x e} : l.Reaches id ms c f → l.value? ms f = some x → Locates l f.ty x e →
      Locates l (.named m (.bean id)) (.object ms) (e.within (l.fieldFrame c f))
  | item {m k elem xs x xs' ds e} : List.Forall₂ (fun x d => l.load elem x = .ok d) xs ds →
      Locates l elem x e →
      Locates l (.seq m k elem) (.array (xs ++ x :: xs')) (e.within (.index xs.length))
  | notPair {m key value xs x xs' es} : Behind (l.PairLoads key value) xs es →
      (∀ k v, x ≠ .array [k, v]) →
      Locates l (.map m key value) (.array (xs ++ x :: xs'))
        ((LoadError.of (.invalidMap (.notPair x.compact))).within (.index xs.length))
  | pairKey {m key value xs k v xs' es e} : Behind (l.PairLoads key value) xs es →
      Locates l key k e →
      Locates l (.map m key value) (.array (xs ++ .array [k, v] :: xs'))
        (e.within (.index xs.length))
  | pairValue {m key value xs k v xs' es kd e} : Behind (l.PairLoads key value) xs es →
      l.load key k = .ok kd → Locates l value v e →
      Locates l (.map m key value) (.array (xs ++ .array [k, v] :: xs'))
        (e.within (.index xs.length))
  | pairAgain {m key value xs k v xs' es kd vd g} : Behind (l.PairLoads key value) xs es →
      l.load key k = .ok kd → l.load value v = .ok vd → g ∈ es → kd.same g.1 = true →
      Locates l (.map m key value) (.array (xs ++ .array [k, v] :: xs'))
        ((LoadError.of (.duplicateKey k.compact)).within (.index xs.length))
  /-- A name that is not a key. -/
  | memberKey {m key value ms n x ms' es fault} : key.isTextKey = true →
      Behind (l.MemberLoads key value) ms es → l.loadKey key n = .error (.of fault) →
      Locates l (.map m key value) (.object (ms ++ (n, x) :: ms'))
        ((LoadError.of fault).within (.key n))
  | memberValue {m key value ms n x ms' es kd e} : key.isTextKey = true →
      Behind (l.MemberLoads key value) ms es → l.loadKey key n = .ok kd → Locates l value x e →
      Locates l (.map m key value) (.object (ms ++ (n, x) :: ms')) (e.within (.key n))
  | memberAgain {m key value ms n x ms' es kd vd g} : key.isTextKey = true →
      Behind (l.MemberLoads key value) ms es → l.loadKey key n = .ok kd →
      l.load value x = .ok vd → g ∈ es → kd.same g.1 = true →
      Locates l (.map m key value) (.object (ms ++ (n, x) :: ms'))
        ((LoadError.of (.duplicateKey ("\"" ++ n ++ "\""))).within (.key n))

/-- An error without a path is one of the node. -/
theorem Locates.root {ty : Ty} {x : Json} {e : LoadError} (h : l.load ty x = .error e)
    (he : e = .of e.fault) : l.Locates ty x e := by
  rw [he] at h ⊢
  exact .node h

theorem scalar_eq_error {k : Scalar} {x : Json} {e : LoadError} (h : scalar k x = .error e) :
    e = .of e.fault := by
  cases k with
  | integer w =>
    simp only [scalar, integer] at h
    split at h
    · split at h <;> cases h
      rfl
    · cases h
      rfl
  | float =>
    simp only [scalar, single] at h
    split at h
    · split at h <;> cases h
      rfl
    · cases h
      rfl
  | datetime =>
    simp only [scalar] at h
    split at h
    · cases h
      rfl
    · split at h <;> cases h
      rfl
  | _ =>
    simp only [scalar] at h
    split at h <;> cases h
    rfl

theorem item_eq_error {id : Nat} {d : EnumDef} {x : Json} {e : LoadError}
    (h : item id d x = .error e) : e = .of e.fault := by
  unfold item at h
  split at h
  · split at h <;> cases h
    rfl
  · cases h
    rfl

theorem loadKey_eq_error {key : Ty} {n : String} {e : LoadError}
    (h : l.loadKey key n = .error e) : e = .of e.fault := by
  unfold loadKey at h
  split at h
  · exact scalar_eq_error h
  · exact item_eq_error h
  · split at h
    · split at h
      · exact scalar_eq_error h
      · cases h
        rfl
    · cases h
      rfl
  · cases h
    rfl

/-- An error of a field locates its fault if the error of its value does. -/
theorem Reaches.locates {m : Mark} {id c : Nat} {ms : List (String × Json)} {f : Field}
    {e : LoadError} (hf : l.Reaches id ms c f)
    (he : l.field (l.schema.bean c).fullName (ms.map fun m => (m.1, l.node m.2)) f = .error e)
    (hvalue : ∀ x, l.value? ms f = some x → l.load f.ty x = .error e → l.Locates f.ty x e) :
    l.Locates (.named m (.bean id)) (.object ms) (e.within (l.fieldFrame c f)) := by
  rcases field_eq_error.1 he with ⟨hn, hx, rfl⟩ | ⟨hn, hx, rfl⟩ | ⟨x, hx, hload⟩
  · exact .missing hf hn hx
  · exact .null hf hn hx
  · exact .field hf hx (hvalue x hx hload)

/-- **What loading fails with locates a fault.** -/
theorem locates_of_load (hs : l.schema.Sound) (hc : l.schema.Closed) {ty : Ty} {x : Json}
    {e : LoadError} (hty : l.schema.Has ty) (h : l.load ty x = .error e) : l.Locates ty x e := by
  -- a step of the path leads to a raw value inside, whatever becomes of the type
  induction x using Json.induction generalizing ty e with
  | step x ih =>
  match ty with
  | .scalar m k =>
    refine .root h ?_
    rw [load_scalar] at h
    exact scalar_eq_error h
  | .named m (.enum id) =>
    refine .root h ?_
    rw [load_enum] at h
    exact item_eq_error h
  | .named m (.bean id) =>
    rcases load_bean_eq_error.1 h with ⟨-, rfl⟩ | ⟨ms, rfl, hrecord⟩
    · exact .node h
    rcases loadRecord_eq_error.1 hrecord with
      hres | ⟨c, hres, fs, f, fs', vs, e', hfs, hvs, hf, rfl⟩
    · exact .root h (resolve_eq_error hres)
    have hreach : l.Reaches id ms c f := ⟨resolve_mem hs hty hres, hres, fs, fs', vs, hfs, hvs⟩
    have hmem : f ∈ (l.schema.bean c).allFields := by simp [hfs]
    refine hreach.locates hf fun y hy hload => ?_
    obtain ⟨k, hk⟩ := value?_mem hy
    exact ih y (.member hk) (hc c f hmem) hload
  | .seq m k elem =>
    rcases load_seq_eq_error.1 h with ⟨-, rfl⟩ | ⟨xs, y, ys, ds, e', rfl, hds, hy, rfl⟩
    · exact .node h
    · exact .item hds (ih y (.item (by simp)) hty hy)
  | .map m key value =>
    rcases load_map_eq_error.1 h with
      ⟨-, -, rfl⟩ | ⟨ms, rfl, -, rfl⟩ | ⟨xs, rfl, hpairs⟩ | ⟨ms, rfl, htext, hmembers⟩
    · exact .node h
    · exact .node h
    · obtain ⟨xs, y, ys, es, e', rfl, hes, hpair, rfl⟩ := loadPairs_eq_error.1 hpairs
      have hin : ∀ z : Json, z.Inside y → z.Inside (.array (xs ++ y :: ys)) :=
        fun z hz => .trans hz (.item (by simp))
      rcases loadPair_eq_error.1 hpair with
        ⟨hno, rfl⟩ | ⟨k, v, rfl, hk | ⟨kd, hk, hv | ⟨vd, hv, ⟨g, hg, hsame⟩, rfl⟩⟩⟩
      · exact .notPair hes hno
      · exact .pairKey hes (ih k (hin k (.item (by simp))) hty.1 hk)
      · exact .pairValue hes hk (ih v (hin v (.item (by simp))) hty.2 hv)
      · exact .pairAgain hes hk hv hg hsame
    · obtain ⟨ms, ⟨n, y⟩, ys, es, e', rfl, hes, hmember, rfl⟩ := loadMembers_eq_error.1 hmembers
      rcases loadMember_eq_error.1 hmember with
        hk | ⟨kd, hk, hv | ⟨vd, hv, ⟨g, hg, hsame⟩, rfl⟩⟩
      · obtain ⟨fault, rfl⟩ : ∃ fault, e' = .of fault := ⟨_, loadKey_eq_error hk⟩
        exact .memberKey htext hes hk
      · have hin : y.Inside (.object (ms ++ (n, y) :: ys)) := .member (k := n) (by simp)
        exact .memberValue htext hes hk (ih y hin hty.2 hv)
      · exact .memberAgain htext hes hk hv hg hsame

theorem Reaches.load {m : Mark} {id c : Nat} {ms : List (String × Json)} {f : Field}
    {e : LoadError} (hf : l.Reaches id ms c f)
    (he : l.field (l.schema.bean c).fullName (ms.map fun m => (m.1, l.node m.2)) f = .error e) :
    l.load (.named m (.bean id)) (.object ms) = .error (e.within (l.fieldFrame c f)) := by
  obtain ⟨fs, fs', vs, hfs, hvs⟩ := hf.before
  have hrecord := loadRecord_eq_error.2
    (Or.inr ⟨c, hf.resolved, fs, f, fs', vs, e, hfs, hvs, he, rfl⟩)
  exact load_bean_eq_error.2 (Or.inr ⟨ms, rfl, hrecord⟩)

theorem Behind.load_pair {m : Mark} {key value : Ty} {xs xs' : List Json} {x : Json} {es : Entries}
    {e : LoadError} (hes : Behind (l.PairLoads key value) xs es)
    (he : loadPair key value es (l.node x) = .error e) :
    l.load (.map m key value) (.array (xs ++ x :: xs')) = .error (e.within (.index xs.length)) := by
  have hpairs := loadPairs_eq_error.2 ⟨xs, x, xs', es, e, rfl, hes, he, rfl⟩
  exact load_map_eq_error.2 (Or.inr (Or.inr (Or.inl ⟨_, rfl, hpairs⟩)))

theorem Behind.load_member {m : Mark} {key value : Ty} {ms ms' : List (String × Json)} {n : String}
    {x : Json} {es : Entries} {e : LoadError} (htext : key.isTextKey = true)
    (hes : Behind (l.MemberLoads key value) ms es)
    (he : l.loadMember key value es n (l.node x) = .error e) :
    l.load (.map m key value) (.object (ms ++ (n, x) :: ms')) = .error (e.within (.key n)) := by
  have hmembers := loadMembers_eq_error.2 ⟨ms, (n, x), ms', es, e, rfl, hes, he, rfl⟩
  exact load_map_eq_error.2 (Or.inr (Or.inr (Or.inr ⟨_, rfl, htext, hmembers⟩)))

/-- **What locates a fault is what loading fails with.** -/
theorem Locates.load {ty : Ty} {x : Json} {e : LoadError} (h : l.Locates ty x e) :
    l.load ty x = .error e := by
  induction h with
  | node h => exact h
  | missing hf hn hx => exact hf.load (field_eq_error.2 (Or.inl ⟨hn, hx, rfl⟩))
  | null hf hn hx => exact hf.load (field_eq_error.2 (Or.inr (Or.inl ⟨hn, hx, rfl⟩)))
  | field hf hx _ ih => exact hf.load (field_eq_error.2 (Or.inr (Or.inr ⟨_, hx, ih⟩)))
  | item hds _ ih => exact load_seq_eq_error.2 (Or.inr ⟨_, _, _, _, _, rfl, hds, ih, rfl⟩)
  | notPair hes hno => exact hes.load_pair (loadPair_eq_error.2 (Or.inl ⟨hno, rfl⟩))
  | pairKey hes _ ih => exact hes.load_pair (loadPair_eq_error.2 (Or.inr ⟨_, _, rfl, Or.inl ih⟩))
  | pairValue hes hk _ ih =>
    exact hes.load_pair (loadPair_eq_error.2 (Or.inr ⟨_, _, rfl, Or.inr ⟨_, hk, Or.inl ih⟩⟩))
  | pairAgain hes hk hv hg hsame =>
    refine hes.load_pair (loadPair_eq_error.2 (Or.inr ⟨_, _, rfl, Or.inr ⟨_, hk, Or.inr ?_⟩⟩))
    exact ⟨_, hv, ⟨_, hg, hsame⟩, rfl⟩
  | memberKey htext hes hk => exact hes.load_member htext (loadMember_eq_error.2 (Or.inl hk))
  | memberValue htext hes hk _ ih =>
    exact hes.load_member htext (loadMember_eq_error.2 (Or.inr ⟨_, hk, Or.inl ih⟩))
  | memberAgain htext hes hk hv hg hsame =>
    refine hes.load_member htext (loadMember_eq_error.2 (Or.inr ⟨_, hk, Or.inr ?_⟩))
    exact ⟨_, hv, ⟨_, hg, hsame⟩, rfl⟩

end Loader

/-- **The errors of loading locate the first fault**: over every accepted schema, loading fails
    with just the errors whose path leads to the first part of the raw tree that does not load. -/
theorem load_eq_error_iff_locates {h : History} {s : Schema} (hs : (Builder.run h).build = .ok s)
    (hc : h.Closed) {v : Option String} {ty : Ty} (hty : s.Has ty) {x : Json} {e : LoadError} :
    Loader.load ⟨s, v⟩ ty x = .error e ↔ Loader.Locates ⟨s, v⟩ ty x e := by
  have hsound := Schema.sound_of_build hs
  have hclosed := Schema.closed_of_build hc hs
  exact ⟨Loader.locates_of_load (l := ⟨s, v⟩) hsound hclosed hty, Loader.Locates.load⟩

/-- Swords by name twice, the last one of an unknown color. -/
def swords : Json :=
  .array [sword, .object [("first", .object [("damage", .ofInt 3), ("$type", .string "Sword"),
    ("color", .string "red")]), ("second", .object [("$type", .string "Sword"),
    ("damage", .ofInt 5), ("color", .string "blue")])]]

theorem load_error_swords : ∃ s : Schema, (Builder.run goods).build = .ok s ∧
    let e : LoadError := ⟨.unknownItem "Color" "blue",
      [.index 1, .key "second", .field "Sword" "color"]⟩
    Loader.load ⟨s, none⟩ (.seq .plain .list itemsByName) swords = .error e ∧
      Loader.Locates ⟨s, none⟩ (.seq .plain .list itemsByName) swords e := by
  refine ⟨_, rfl, rfl, ?_⟩
  refine (load_eq_error_iff_locates (h := goods) (v := none) rfl ?_ ?_).1 rfl
  · unfold History.Closed Builder.Has
    decide
  · unfold Schema.Has
    decide

end GameConfig
