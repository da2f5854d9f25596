import GameConfig.Load.Loader
import GameConfig.Proofs.Datum.Equality
import Mathlib.Data.List.Forall2

/-
  What loading asks of a raw node, type by type.

  A node loads as a type if its parts load as the parts of the type.  The
  statements here say so without nodes and without errors: `load_seq_eq_ok`,
  `load_bean_eq_ok` and `load_map_eq_ok` are about the parts of raw JSON and the
  values that they load as.

  `FieldLoads`, `PairLoads` and `MemberLoads` are about one field and one entry.
  Proofs about loading go from the parts of a raw tree to the tree
  (`Json.induction`).
-/

namespace GameConfig

/-- The items of an array. -/
def Json.items : Json → List Json
  | .array xs => xs
  | _ => []

/-- The members of an object. -/
def Json.members : Json → List (String × Json)
  | .object ms => ms
  | _ => []

/-- The left tree is a proper part of the right one. -/
inductive Json.Inside : Json → Json → Prop
  | item {x xs} : x ∈ xs → Inside x (.array xs)
  | member {k x ms} : (k, x) ∈ ms → Inside x (.object ms)
  | trans {x y z} : Inside x y → Inside y z → Inside x z

theorem Json.Inside.sizeOf_lt {x y : Json} (h : x.Inside y) : sizeOf x < sizeOf y := by
  induction h with
  | item hx =>
    have := List.sizeOf_lt_of_mem hx
    simp; omega
  | member hx =>
    have := List.sizeOf_lt_of_mem hx
    simp at this ⊢; omega
  | trans _ _ ihx ihy => exact ihx.trans ihy

/-- Whatever goes from the parts of a tree to the tree holds of all trees. -/
theorem Json.induction {P : Json → Prop} (step : ∀ x, (∀ y, y.Inside x → P y) → P x)
    (x : Json) : P x := by
  induction h : sizeOf x using Nat.strongRecOn generalizing x with
  | _ n ih => exact step x fun y hy => ih _ (h ▸ hy.sizeOf_lt) y rfl

/-- What stands across from pairs stands across from their left sides. -/
theorem forall₂_of_zip {α β γ : Type} {r : α → β → Prop} {q : α × β → γ → Prop} {as : List α}
    {bs : List β} {cs : List γ} (h : List.Forall₂ r as bs) (hq : List.Forall₂ q (as.zip bs) cs) :
    List.Forall₂ (fun a c => ∃ b, r a b ∧ q (a, b) c) as cs := by
  induction h generalizing cs with
  | nil =>
    cases hq
    exact .nil
  | cons hab _ ih =>
    cases hq with
    | cons hac hq => exact .cons ⟨_, hab, hac⟩ (ih hq)

namespace Loader

variable {l : Loader}

theorem within_eq_ok {α : Type} {f : Frame} {r : Except LoadError α} {a : α} :
    within f r = .ok a ↔ r = .ok a := by
  cases r <;> simp [within]

/-! ## Loops -/

/-- A loop that collects values gives those of its parts, in order. -/
theorem values_eq_ok {α β ε : Type} (f : Nat → List α → Except ε (List β))
    (one : Nat → α → Except ε β) (value : α → β → Prop)
    (hone : ∀ i a b, one i a = .ok b ↔ value a b) (hnil : ∀ i, f i [] = .ok [])
    (hcons : ∀ i a as, f i (a :: as) = (one i a).bind fun b => (f (i + 1) as).map (b :: ·))
    (i : Nat) (as : List α) (bs : List β) : f i as = .ok bs ↔ List.Forall₂ value as bs := by
  induction as generalizing i bs with
  | nil => cases bs <;> simp [hnil]
  | cons a as ih =>
    rw [hcons]
    constructor
    · intro h
      cases hb : one i a with
      | error e =>
        rw [hb] at h
        cases h
      | ok b =>
        rw [hb] at h
        cases hbs : f (i + 1) as with
        | error e => simp [Except.bind, hbs, Except.map] at h
        | ok bs' =>
          obtain rfl : b :: bs' = bs := by simpa [Except.bind, hbs, Except.map] using h
          exact .cons ((hone i a b).1 hb) ((ih (i + 1) bs').1 hbs)
    · intro h
      cases h with
      | cons hb hbs =>
        rw [(hone i a _).2 hb, Except.bind, (ih (i + 1) _).2 hbs]
        rfl

/-- A loop fails at its first part that fails, the parts before it having been read. -/
theorem loop_eq_error {α σ ε : Type} (f : Nat → σ → List α → Except ε σ)
    (one : Nat → σ → α → Except ε σ) (hnil : ∀ i s, f i s [] = .ok s)
    (hcons : ∀ i s a as, f i s (a :: as) = (one i s a).bind fun t => f (i + 1) t as)
    (i : Nat) (s : σ) (as : List α) (e : ε) :
    f i s as = .error e ↔ ∃ as₁ a as₂ t, as = as₁ ++ a :: as₂ ∧ f i s as₁ = .ok t ∧
      one (i + as₁.length) t a = .error e := by
  induction as generalizing i s with
  | nil => simp [hnil]
  | cons b as ih =>
    rw [hcons]
    cases hb : one i s b with
    | error e₀ =>
      constructor
      · rintro ⟨⟩
        exact ⟨[], b, as, s, rfl, hnil i s, hb⟩
      · rintro ⟨as₁, a, as₂, t, has, hok, hbad⟩
        cases as₁ with
        | nil =>
          rw [hnil] at hok
          cases has
          cases hok
          exact hb.symm.trans hbad
        | cons c as₁ =>
          cases has
          rw [hcons, hb] at hok
          cases hok
    | ok u =>
      show f (i + 1) u as = .error e ↔ _
      rw [ih]
      constructor
      · rintro ⟨as₁, a, as₂, t, rfl, hok, hbad⟩
        refine ⟨b :: as₁, a, as₂, t, rfl, ?_, ?_⟩
        · rw [hcons, hb]
          exact hok
        · rw [List.length_cons, ← hbad, Nat.add_right_comm, Nat.add_assoc]
      · rintro ⟨as₁, a, as₂, t, has, hok, hbad⟩
        cases as₁ with
        | nil =>
          rw [hnil] at hok
          cases has
          cases hok
          cases hb.symm.trans hbad
        | cons c as₁ =>
          cases has
          rw [hcons, hb] at hok
          refine ⟨as₁, a, as₂, t, rfl, hok, ?_⟩
          rw [← hbad, List.length_cons, Nat.add_right_comm, Nat.add_assoc]

/-- So does a loop that collects values, as one whose state is of no matter. -/
theorem values_eq_error {α β ε : Type} (f : Nat → List α → Except ε (List β))
    (one : Nat → α → Except ε β) (hnil : ∀ i, f i [] = .ok [])
    (hcons : ∀ i a as, f i (a :: as) = (one i a).bind fun b => (f (i + 1) as).map (b :: ·))
    (i : Nat) (as : List α) (e : ε) :
    f i as = .error e ↔ ∃ as₁ a as₂ bs, as = as₁ ++ a :: as₂ ∧ f i as₁ = .ok bs ∧
      one (i + as₁.length) a = .error e := by
  have hforget : ∀ {γ : Type} (r : Except ε γ) (e : ε),
      r.map (fun _ => ()) = .error e ↔ r = .error e := by
    intro γ r e
    cases r <;> simp [Except.map]
  have hok : ∀ {γ : Type} (r : Except ε γ),
      r.map (fun _ => ()) = .ok () ↔ ∃ a, r = .ok a := by
    intro γ r
    cases r <;> simp [Except.map]
  have h := loop_eq_error (fun i (_ : Unit) as => (f i as).map fun _ => ())
    (fun i _ a => (one i a).map fun _ => ()) (fun i _ => by simp only [hnil, Except.map])
    (fun i _ a as => by
      simp only [hcons]
      cases one i a with
      | error e => rfl
      | ok b => cases f (i + 1) as <;> rfl) i () as e
  simp only [hforget, hok] at h
  rw [h]
  constructor
  · rintro ⟨as₁, a, as₂, -, has, ⟨bs, hbs⟩, hbad⟩
    exact ⟨as₁, a, as₂, bs, has, hbs, hbad⟩
  · rintro ⟨as₁, a, as₂, bs, has, hbs, hbad⟩
    exact ⟨as₁, a, as₂, (), has, ⟨bs, hbs⟩, hbad⟩

theorem fields_cons (bean : String) (members : List (String × Node)) (f : Field)
    (fs : List Field) : l.fields bean members (f :: fs) =
      (within (.field bean f.name) (l.field bean members f)).bind fun v =>
        (l.fields bean members fs).map (v :: ·) := by
  rw [fields]
  cases within (.field bean f.name) (l.field bean members f) with
  | error e => rfl
  | ok v => cases l.fields bean members fs <;> rfl

theorem loadItems_cons (elem : Ty) (i : Nat) (n : Node) (ns : List Node) :
    loadItems elem i (n :: ns) = (within (.index i) (n.load elem)).bind fun d =>
      (loadItems elem (i + 1) ns).map (d :: ·) := by
  rw [loadItems]
  cases within (.index i) (n.load elem) with
  | error e => rfl
  | ok d => cases loadItems elem (i + 1) ns <;> rfl

theorem loadPairs_cons (key value : Ty) (i : Nat) (acc : Entries) (n : Node) (ns : List Node) :
    loadPairs key value i acc (n :: ns) =
      (within (.index i) (loadPair key value acc n)).bind fun acc =>
        loadPairs key value (i + 1) acc ns := by
  rw [loadPairs]
  cases within (.index i) (loadPair key value acc n) <;> rfl

theorem loadMembers_cons (key value : Ty) (acc : Entries) (m : String × Node)
    (ms : List (String × Node)) : l.loadMembers key value acc (m :: ms) =
      (within (.key m.1) (l.loadMember key value acc m.1 m.2)).bind fun acc =>
        l.loadMembers key value acc ms := by
  rw [loadMembers]
  cases within (.key m.1) (l.loadMember key value acc m.1 m.2) <;> rfl

/-! ## Nodes -/

theorem nodes_eq (xs : List Json) : l.nodes xs = xs.map l.node := by
  induction xs with
  | nil => simp [nodes]
  | cons x xs ih => simp [nodes, ih]

theorem memberNodes_eq (ms : List (String × Json)) :
    l.memberNodes ms = ms.map fun m => (m.1, l.node m.2) := by
  induction ms with
  | nil => simp [memberNodes]
  | cons m ms ih => simp [memberNodes, ih]

@[simp]
theorem raw_node (x : Json) : (l.node x).raw = x := by
  cases x <;> simp [node, Node.raw]

theorem items_node (x : Json) : (l.node x).items = x.items.map l.node := by
  cases x <;> simp [node, Node.items, Json.items, nodes_eq]

/-- Loading is one step over the parts. -/
theorem load_eq (ty : Ty) (x : Json) :
    l.load ty x = l.loadAs x (x.items.map l.node) (x.members.map fun m => (m.1, l.node m.2)) ty := by
  cases x <;> simp [load, node, Node.load, Json.items, Json.members, nodes_eq, memberNodes_eq]

theorem tagNode?_map {α β : Type} (g : α → β) (ms : List (String × α)) :
    tagNode? (ms.map fun m => (m.1, g m.2)) = (tagNode? ms).map g := by
  simp only [tagNode?, Assoc.find?_map]
  cases Assoc.find? typeKey ms <;> rfl

theorem fieldNode?_map {α β : Type} (g : α → β) (ms : List (String × α)) (f : Field) :
    l.fieldNode? (ms.map fun m => (m.1, g m.2)) f = (l.fieldNode? ms f).map g := by
  have hbind : ∀ k : Option String, (k.bind fun key =>
      Assoc.find? key (ms.map fun m => (m.1, g m.2))) =
        (k.bind fun key => Assoc.find? key ms).map g := by
    intro k
    cases k <;> simp [Assoc.find?_map]
  simp only [fieldNode?]
  rw [hbind, hbind, Assoc.find?_map]
  cases (l.variant.bind f.variantKey?).bind fun key => Assoc.find? key ms with
  | some n => rfl
  | none => cases Assoc.find? f.name ms <;> rfl

/-! ## Scalars and enums -/

theorem load_scalar (m : Mark) (k : Scalar) (x : Json) : l.load (.scalar m k) x = scalar k x := by
  rw [load_eq]; rfl

theorem load_enum (m : Mark) (id : Nat) (x : Json) :
    l.load (.named m (.enum id)) x = item id (l.schema.enum id) x := by
  rw [load_eq]; rfl

theorem integer_eq_ok {w : IntWidth} {x : Json} {d : Datum} :
    integer w x = .ok d ↔ ∃ i, x.int64? = some i ∧ w.holds i = true ∧ d = .integer w i := by
  unfold integer
  cases x.int64? with
  | none => simp [malformed, fail]
  | some i =>
    simp only [Option.some.injEq, exists_eq_left']
    cases hi : w.holds i with
    | false => simp [malformed, fail]
    | true => simpa using eq_comm

theorem single_eq_ok {x : Json} {d : Datum} :
    single x = .ok d ↔ ∃ y, x.double? = some y ∧
      (y.isFinite = true ∧ y.abs.le Single.greatest.widen = true) ∧ d = .float y.narrow := by
  unfold single
  cases x.double? with
  | none => simp [malformed, fail]
  | some y =>
    simp only [Option.some.injEq, exists_eq_left', ← Bool.and_eq_true]
    cases hy : y.isFinite && y.abs.le Single.greatest.widen with
    | false => simp [malformed, fail]
    | true => simpa using eq_comm

theorem bool_eq_ok {x : Json} {d : Datum} :
    scalar .bool x = .ok d ↔ ∃ b, x = .bool b ∧ d = .bool b := by
  cases x with
  | bool b => simpa [scalar, Json.bool?] using eq_comm
  | _ => simp [scalar, Json.bool?, malformed, fail]

theorem double_eq_ok {x : Json} {d : Datum} :
    scalar .double x = .ok d ↔ ∃ n, x = .number n ∧ d = .double n.toDouble := by
  cases x with
  | number n => simpa [scalar, Json.double?] using eq_comm
  | _ => simp [scalar, Json.double?, malformed, fail]

theorem string_eq_ok {x : Json} {d : Datum} :
    scalar .string x = .ok d ↔ ∃ s, x = .string s ∧ d = .string s := by
  cases x with
  | string s => simpa [scalar, Json.string?] using eq_comm
  | _ => simp [scalar, Json.string?, malformed, fail]

theorem datetime_eq_ok {x : Json} {d : Datum} :
    scalar .datetime x = .ok d ↔
      ∃ s t, x = .string s ∧ DateTime.read? s = some t ∧ d = .datetime t := by
  cases x with
  | string s =>
    simp only [scalar, Json.string?, Json.string.injEq]
    cases ht : DateTime.read? s with
    | none => simp [fail, ht]
    | some t => simpa [ht] using eq_comm
  | _ => simp [scalar, Json.string?, malformed, fail]

theorem item_eq_ok {id : Nat} {e : EnumDef} {x : Json} {d : Datum} :
    item id e x = .ok d ↔
      ∃ word i, x = .string word ∧ e.findItem? word = some i ∧ d = .enum id i := by
  cases x with
  | string word =>
    simp only [item, Json.string?, Json.string.injEq]
    cases hi : e.findItem? word with
    | none => simp [fail, hi]
    | some i => simpa [hi] using eq_comm
  | _ => simp [item, Json.string?, fail]

/-! ## Names as keys -/

/-- The node that a name stands for as a key: the name itself, or the number it spells. -/
def keyNode? (key : Ty) (name : String) : Option Json :=
  if key.isNumeric then
    match Json.read? (Text.trimmed name) with
    | .ok (.number n) => some (.number n)
    | _ => none
  else some (.string name)

/-- A name as a numeric key is the number that it spells. -/
theorem loadKey_numeric {m : Mark} {kind : Scalar} (hn : Ty.isNumeric (.scalar m kind) = true)
    (name : String) : l.loadKey (.scalar m kind) name =
      match keyNode? (.scalar m kind) name with
      | some k => scalar kind k
      | none => fail (.malformedScalar "numeric map key" s!"`{name}`") := by
  have hkey : l.loadKey (.scalar m kind) name = match Json.read? (Text.trimmed name) with
      | .ok (.number n) => scalar kind (.number n)
      | _ => fail (.malformedScalar "numeric map key" s!"`{name}`") := by
    cases kind with
    | bool | string | datetime => cases hn
    | _ => rfl
  rw [hkey, keyNode?, if_pos hn]
  cases Json.read? (Text.trimmed name) with
  | error e => rfl
  | ok x => cases x <;> rfl

/-- **A name loads as a key as the node does that it stands for**, if keys of the type may be
    names. -/
theorem loadKey_eq_ok {key : Ty} {name : String} {d : Datum} :
    l.loadKey key name = .ok d ↔
      key.isTextKey = true ∧ ∃ k, keyNode? key name = some k ∧ l.load key k = .ok d := by
  by_cases hn : key.isNumeric = true
  · cases key with
    | scalar m kind =>
      have htext : (Ty.scalar m kind).isTextKey = true := by
        cases kind <;> first | rfl | exact hn
      rw [loadKey_numeric hn, and_iff_right htext]
      cases keyNode? (.scalar m kind) name <;> simp [load_scalar, fail]
    | _ => cases hn
  · have hnode : keyNode? key name = some (.string name) := if_neg hn
    rw [hnode]
    cases key with
    | scalar m kind =>
      cases kind with
      | string => simp [loadKey, load_scalar, Ty.isTextKey]
      | bool | datetime => simp [loadKey, fail, Ty.isTextKey, Ty.isNumeric]
      | integer | float | double => exact absurd rfl hn
    | named m ref =>
      cases ref with
      | bean id => simp [loadKey, fail, Ty.isTextKey, Ty.isNumeric]
      | enum id => simp [loadKey, load_enum, Ty.isTextKey]
    | seq | map => simp [loadKey, fail, Ty.isTextKey, Ty.isNumeric]

/-- Keys that may be names are scalars or items of an enum. -/
theorem eq_of_isTextKey {key : Ty} (h : key.isTextKey = true) :
    (∃ m k, key = .scalar m k) ∨ ∃ m id, key = .named m (.enum id) := by
  cases key with
  | scalar m k => exact Or.inl ⟨m, k, rfl⟩
  | named m ref =>
    cases ref with
    | bean id => cases h
    | enum id => exact Or.inr ⟨m, id, rfl⟩
  | seq | map => cases h

/-! ## Beans -/

/-- A bean without children is meant itself; of another, a subtype that the word names. -/
theorem resolve_eq_ok {id c : Nat} {w : Option String} :
    l.resolve id w = .ok c ↔
      ((l.schema.bean id).children = [] ∧ c = id) ∨
      ((l.schema.bean id).children ≠ [] ∧
        ∃ word, w = some word ∧ l.schema.subtype? id word = some c) := by
  unfold resolve BeanDef.isAbstract
  by_cases ha : (l.schema.bean id).children = []
  · simp [ha, eq_comm]
  · cases w with
    | none => simp [ha, fail]
    | some word => cases hc : l.schema.subtype? id word <;> simp [ha, hc, fail]

/-- The type that the members of an object name. -/
def word? (ms : List (String × Json)) : Option String := (tagNode? ms).bind Json.string?

theorem word?_nodes (ms : List (String × Json)) :
    ((tagNode? (ms.map fun m => (m.1, l.node m.2))).bind fun n => n.raw.string?) = word? ms := by
  rw [tagNode?_map, word?]
  cases tagNode? ms <;> simp

/-- The value of a field among the members of an object, unless it is null. -/
def value? (l : Loader) (ms : List (String × Json)) (f : Field) : Option Json :=
  match l.fieldNode? ms f with
  | some .null => none
  | v => v

/-- Among the members of an object the field loads as this value. -/
def FieldLoads (l : Loader) (ms : List (String × Json)) (f : Field) : Option Datum → Prop
  | none => f.ty.nullable = true ∧ l.value? ms f = none
  | some d => ∃ x, l.value? ms f = some x ∧ l.load f.ty x = .ok d

theorem field_eq_ok {bean : String} {ms : List (String × Json)} {f : Field} {v : Option Datum} :
    l.field bean (ms.map fun m => (m.1, l.node m.2)) f = .ok v ↔ l.FieldLoads ms f v := by
  rw [field, fieldNode?_map]
  cases hx : l.fieldNode? ms f with
  | none =>
    cases v <;> by_cases hn : f.ty.nullable = true <;>
      simp [hn, FieldLoads, value?, hx, fail]
  | some x =>
    have hload : (l.node x).load f.ty = l.load f.ty x := rfl
    cases x with
    | null =>
      cases v <;> by_cases hn : f.ty.nullable = true <;>
        simp [hn, FieldLoads, value?, hx, fail]
    | _ =>
      simp only [Option.map_some, raw_node, hload]
      split
      · rename_i d hd
        cases v <;> simp [FieldLoads, value?, hx, hd]
      · rename_i e he
        cases v <;> simp [FieldLoads, value?, hx, he]

theorem fields_eq_ok {bean : String} {ms : List (String × Json)} {fs : List Field}
    {vs : List (Option Datum)} :
    l.fields bean (ms.map fun m => (m.1, l.node m.2)) fs = .ok vs ↔
      List.Forall₂ (l.FieldLoads ms) fs vs :=
  values_eq_ok (fun _ => l.fields bean (ms.map fun m => (m.1, l.node m.2))) _ (l.FieldLoads ms)
    (fun _ _ _ => within_eq_ok.trans field_eq_ok) (fun _ => rfl) (fun _ => fields_cons bean _) 0
    fs vs

/-- **A bean loads from an object whose members give the value of every field.** -/
theorem loadRecord_eq_ok {id : Nat} {x : Json} {r : Record} :
    l.loadRecord id x (x.members.map fun m => (m.1, l.node m.2)) = .ok r ↔
      ∃ ms, x = .object ms ∧ l.resolve id (word? ms) = .ok r.bean ∧
        List.Forall₂ (l.FieldLoads ms) (l.schema.bean r.bean).allFields r.fields := by
  cases x with
  | object ms =>
    simp only [loadRecord, Json.members, Json.object.injEq, word?_nodes, exists_eq_left']
    cases hc : l.resolve id (word? ms) with
    | error e => simp
    | ok c =>
      obtain ⟨rc, rvs⟩ := r
      simp only [Except.ok.injEq]
      rw [and_comm]
      constructor
      · intro h
        split at h
        · cases h
        · rename_i vs hvs
          cases h
          exact ⟨fields_eq_ok.1 hvs, rfl⟩
      · rintro ⟨hvs, rfl⟩
        rw [fields_eq_ok.2 hvs]
  | _ => simp [loadRecord, unexpected, fail]

theorem load_bean_eq_ok {m : Mark} {id : Nat} {x : Json} {d : Datum} :
    l.load (.named m (.bean id)) x = .ok d ↔
      ∃ ms c vs, x = .object ms ∧ l.resolve id (word? ms) = .ok c ∧
        List.Forall₂ (l.FieldLoads ms) (l.schema.bean c).allFields vs ∧ d = .bean c vs := by
  rw [load_eq, loadAs]
  constructor
  · intro h
    split at h
    · rename_i r hr
      cases h
      obtain ⟨ms, hx, hc, hvs⟩ := loadRecord_eq_ok.1 hr
      exact ⟨ms, r.bean, r.fields, hx, hc, hvs, rfl⟩
    · cases h
  · rintro ⟨ms, c, vs, hx, hc, hvs, rfl⟩
    rw [loadRecord_eq_ok (r := ⟨c, vs⟩).2 ⟨ms, hx, hc, hvs⟩]
    rfl

/-- Loading a record is loading a value of its bean. -/
theorem load_of_loadBean {m : Mark} {id : Nat} {x : Json} {r : Record}
    (h : l.loadBean id x = .ok r) : l.load (.named m (.bean id)) x = .ok r.toDatum := by
  have hmembers : (l.node x).members = x.members.map fun m => (m.1, l.node m.2) := by
    cases x <;> simp [node, Node.members, Json.members, memberNodes_eq]
  rw [loadBean, hmembers] at h
  rw [load_eq, loadAs, h]

/-! ## Sequences -/

theorem loadItems_eq_ok {elem : Ty} {i : Nat} {ns : List Node} {ds : List Datum} :
    loadItems elem i ns = .ok ds ↔ List.Forall₂ (fun n d => n.load elem = .ok d) ns ds :=
  values_eq_ok (loadItems elem) _ (fun n d => n.load elem = .ok d) (fun _ _ _ => within_eq_ok)
    (fun _ => rfl) (loadItems_cons elem) i ns ds

/-- **A sequence loads from an array whose items load as its elements.** -/
theorem load_seq_eq_ok {m : Mark} {k : SeqKind} {elem : Ty} {x : Json} {d : Datum} :
    l.load (.seq m k elem) x = .ok d ↔
      ∃ xs ds, x = .array xs ∧ List.Forall₂ (fun x d => l.load elem x = .ok d) xs ds ∧
        d = .seq k ds := by
  rw [load_eq]
  cases x with
  | array xs =>
    simp only [loadAs, Json.items, Json.array.injEq]
    constructor
    · intro h
      split at h
      · rename_i ds hds
        cases h
        exact ⟨xs, ds, rfl, List.forall₂_map_left_iff.1 (loadItems_eq_ok.1 hds), rfl⟩
      · cases h
    · rintro ⟨xs', ds, rfl, hds, rfl⟩
      rw [loadItems_eq_ok.2 (List.forall₂_map_left_iff.2 hds)]
  | _ => simp [loadAs, unexpected, fail]

/-! ## Maps -/

/-- The raw entry is a pair that loads as this entry. -/
def PairLoads (l : Loader) (key value : Ty) (x : Json) (e : Datum × Datum) : Prop :=
  ∃ k v, x = .array [k, v] ∧ l.load key k = .ok e.1 ∧ l.load value v = .ok e.2

/-- The member loads as this entry. -/
def MemberLoads (l : Loader) (key value : Ty) (m : String × Json) (e : Datum × Datum) : Prop :=
  l.loadKey key m.1 = .ok e.1 ∧ l.load value m.2 = .ok e.2

/-- Entries that are put in one after the other are all put in exactly if no key comes again. -/
theorem entries_eq_ok {α β ε : Type}
    (f : Nat → List (Datum × β) → List α → Except ε (List (Datum × β)))
    (entry : α → Datum × β → Prop) (hnil : ∀ i acc, f i acc [] = .ok acc)
    (hcons : ∀ i acc a as out, f i acc (a :: as) = .ok out ↔
      ∃ acc', (∃ e, entry a e ∧ (∀ g ∈ acc, e.1.same g.1 = false) ∧ acc' = acc ++ [e]) ∧
        f (i + 1) acc' as = .ok out)
    (i : Nat) (acc out : List (Datum × β)) (as : List α) :
    f i acc as = .ok out ↔
      ∃ es, List.Forall₂ entry as es ∧ (∀ e ∈ es, ∀ g ∈ acc, e.1.same g.1 = false) ∧
        es.Pairwise (fun e g => g.1.same e.1 = false) ∧ out = acc ++ es := by
  induction as generalizing i acc with
  | nil =>
    rw [hnil, Except.ok.injEq]
    constructor
    · rintro rfl
      exact ⟨[], .nil, by simp, .nil, by simp⟩
    · rintro ⟨es, hes, -, -, rfl⟩
      cases hes
      simp
  | cons a as ih =>
    rw [hcons]
    constructor
    · rintro ⟨_, ⟨e, he, hacc, rfl⟩, h⟩
      obtain ⟨es, hes, hout, hfresh, rfl⟩ := (ih _ _).1 h
      refine ⟨e :: es, .cons he hes, ?_, .cons ?_ hfresh, by simp⟩
      · rintro g hg
        rcases List.mem_cons.1 hg with rfl | hg
        · exact hacc
        · exact fun g' hg' => hout g hg g' (List.mem_append_left _ hg')
      · exact fun g hg => hout g hg e (by simp)
    · rintro ⟨es, hes, hout, hfresh, rfl⟩
      cases hes with
      | @cons _ e _ es he hes =>
        rw [List.pairwise_cons] at hfresh
        refine ⟨_, ⟨e, he, hout e (by simp), rfl⟩, (ih _ _).2 ⟨es, hes, ?_, hfresh.2, by simp⟩⟩
        intro g hg g' hg'
        rcases List.mem_append.1 hg' with h | h
        · exact hout g (by simp [hg]) g' h
        · obtain rfl := List.mem_singleton.1 h
          exact hfresh.1 g hg

/-- A node with two items is an array of two. -/
theorem eq_pair_of_items {x : Json} {k v : Node} (h : (l.node x).items = [k, v]) :
    ∃ a b, x = .array [a, b] ∧ k = l.node a ∧ v = l.node b := by
  rw [items_node] at h
  obtain ⟨a, ys, hx, rfl, hv⟩ := List.map_eq_cons_iff.1 h
  obtain ⟨b, zs, rfl, rfl, hnil⟩ := List.map_eq_cons_iff.1 hv
  obtain rfl := List.map_eq_nil_iff.1 hnil
  cases x with
  | array xs => exact ⟨a, b, congrArg Json.array hx, rfl, rfl⟩
  | _ => cases hx

theorem loadPair_eq_ok {key value : Ty} {acc out : Entries} {x : Json} :
    loadPair key value acc (l.node x) = .ok out ↔
      ∃ e, l.PairLoads key value x e ∧ (∀ g ∈ acc, e.1.same g.1 = false) ∧ out = acc ++ [e] := by
  have hload : ∀ (y : Json) (ty : Ty), (l.node y).load ty = l.load ty y := fun _ _ => rfl
  constructor
  · intro h
    unfold loadPair at h
    split at h
    · rename_i k v hkv
      obtain ⟨a, b, rfl, rfl, rfl⟩ := eq_pair_of_items hkv
      split at h
      · cases h
      rename_i kd hk
      split at h
      · cases h
      rename_i vd hv
      split at h
      · rename_i es hes
        cases h
        obtain ⟨hfresh, rfl⟩ := Entries.insert?_eq_ok.1 hes
        exact ⟨(kd, vd), ⟨a, b, rfl, hk, hv⟩, hfresh, rfl⟩
      · cases h
    · cases h
  · rintro ⟨⟨kd, vd⟩, ⟨k, v, rfl, hk, hv⟩, hfresh, rfl⟩
    simp only [loadPair, items_node, Json.items, List.map_cons, List.map_nil, hload, hk, hv,
      Entries.insert?_eq_ok.2 ⟨hfresh, rfl⟩]

theorem loadMember_eq_ok {key value : Ty} {acc out : Entries} {n : String} {x : Json} :
    l.loadMember key value acc n (l.node x) = .ok out ↔
      ∃ e, l.MemberLoads key value (n, x) e ∧ (∀ g ∈ acc, e.1.same g.1 = false) ∧
        out = acc ++ [e] := by
  have hload : (l.node x).load value = l.load value x := rfl
  constructor
  · intro h
    unfold loadMember at h
    split at h
    · cases h
    rename_i kd hk
    split at h
    · cases h
    rename_i vd hv
    split at h
    · rename_i es hes
      cases h
      obtain ⟨hfresh, rfl⟩ := Entries.insert?_eq_ok.1 hes
      exact ⟨(kd, vd), ⟨hk, hv⟩, hfresh, rfl⟩
    · cases h
  · rintro ⟨⟨kd, vd⟩, ⟨hk, hv⟩, hfresh, rfl⟩
    dsimp only at hk hv
    simp only [loadMember, hload, hk, hv, Entries.insert?_eq_ok.2 ⟨hfresh, rfl⟩]

theorem loadPairs_eq_ok {key value : Ty} {xs : List Json} {out : Entries} :
    loadPairs key value 0 [] (xs.map l.node) = .ok out ↔
      List.Forall₂ (l.PairLoads key value) xs out ∧ out.Fresh := by
  have hstep : ∀ i acc n ns out, loadPairs key value i acc (n :: ns) = .ok out ↔
      ∃ acc', loadPair key value acc n = .ok acc' ∧
        loadPairs key value (i + 1) acc' ns = .ok out := by
    intro i acc n ns out
    rw [loadPairs_cons]
    cases loadPair key value acc n <;> simp [within, Except.bind]
  have h := entries_eq_ok (fun i acc xs => loadPairs key value i acc (xs.map l.node))
    (l.PairLoads key value) (fun _ _ => rfl)
    (fun i acc x xs out => by simp only [List.map_cons, hstep, loadPair_eq_ok]) 0 [] out xs
  simpa [Entries.Fresh] using h

theorem loadMembers_eq_ok {key value : Ty} {ms : List (String × Json)} {out : Entries} :
    l.loadMembers key value [] (ms.map fun m => (m.1, l.node m.2)) = .ok out ↔
      List.Forall₂ (l.MemberLoads key value) ms out ∧ out.Fresh := by
  have hstep : ∀ acc n x ns out, l.loadMembers key value acc ((n, x) :: ns) = .ok out ↔
      ∃ acc', l.loadMember key value acc n x = .ok acc' ∧
        l.loadMembers key value acc' ns = .ok out := by
    intro acc n x ns out
    rw [loadMembers_cons]
    cases l.loadMember key value acc n x <;> simp [within, Except.bind]
  have h := entries_eq_ok
    (fun _ acc ms => l.loadMembers key value acc (ms.map fun m => (m.1, l.node m.2)))
    (l.MemberLoads key value) (fun _ _ => rfl)
    (fun _ acc m ms out => by simp only [List.map_cons, hstep, loadMember_eq_ok]) 0 [] out ms
  simpa [Entries.Fresh] using h

/-- **A map loads from the pairs of an array or from the members of an object.** -/
theorem load_map_eq_ok {m : Mark} {key value : Ty} {x : Json} {d : Datum} :
    l.load (.map m key value) x = .ok d ↔
      ∃ es : Entries, es.Fresh ∧ d = .map es ∧
        ((∃ xs, x = .array xs ∧ List.Forall₂ (l.PairLoads key value) xs es) ∨
          ∃ ms, x = .object ms ∧ key.isTextKey = true ∧
            List.Forall₂ (l.MemberLoads key value) ms es) := by
  have hload : l.load (.map m key value) x = .ok d ↔ ∃ es : Entries, d = .map es ∧
      l.loadMap key value x (x.items.map l.node) (x.members.map fun m => (m.1, l.node m.2)) =
        .ok es := by
    rw [load_eq, loadAs]
    constructor
    · intro h
      split at h
      · rename_i es hes
        cases h
        exact ⟨es, rfl, hes⟩
      · cases h
    · rintro ⟨es, rfl, hes⟩
      rw [hes]
  rw [hload]
  refine exists_congr fun es => ?_
  cases x with
  | array xs =>
    simp [loadMap, Json.items, loadPairs_eq_ok, and_comm, and_left_comm]
  | object ms =>
    by_cases ht : key.isTextKey = true
    · simp [loadMap, Json.members, ht, loadMembers_eq_ok, and_comm, and_left_comm]
    · simp [loadMap, ht, fail]
  | _ => simp [loadMap, fail]

theorem load_pairs_eq_ok {m : Mark} {key value : Ty} {xs : List Json} {d : Datum} :
    l.load (.map m key value) (.array xs) = .ok d ↔
      ∃ es : Entries, es.Fresh ∧ d = .map es ∧ List.Forall₂ (l.PairLoads key value) xs es := by
  simp [load_map_eq_ok]

theorem load_members_eq_ok {m : Mark} {key value : Ty} {ms : List (String × Json)} {d : Datum} :
    l.load (.map m key value) (.object ms) = .ok d ↔
      ∃ es : Entries, es.Fresh ∧ d = .map es ∧ key.isTextKey = true ∧
        List.Forall₂ (l.MemberLoads key value) ms es := by
  simp [load_map_eq_ok]

/-- The key of an entry loads from a part of the raw tree or from a name, and its value from a
    part. -/
theorem load_map_entry {m : Mark} {key value : Ty} {x : Json} {es : Entries}
    (h : l.load (.map m key value) x = .ok (.map es)) {e : Datum × Datum} (he : e ∈ es) :
    ((∃ y, y.Inside x ∧ l.load key y = .ok e.1) ∨ ∃ n, l.loadKey key n = .ok e.1) ∧
      ∃ y, y.Inside x ∧ l.load value y = .ok e.2 := by
  obtain ⟨es', -, heq, hes⟩ := load_map_eq_ok.1 h
  obtain rfl := Datum.map.inj heq
  rcases hes with ⟨xs, rfl, hes⟩ | ⟨ms, rfl, -, hes⟩
  · obtain ⟨y, hy, a, b, rfl, ha, hb⟩ := exists_of_mem_right hes he
    have hin : ∀ z ∈ [a, b], Json.Inside z (.array xs) := fun z hz => .trans (.item hz) (.item hy)
    exact ⟨Or.inl ⟨a, hin a (by simp), ha⟩, b, hin b (by simp), hb⟩
  · obtain ⟨⟨n, y⟩, hy, hk, hv⟩ := exists_of_mem_right hes he
    exact ⟨Or.inr ⟨n, hk⟩, y, .member hy, hv⟩

/-- Null is the value of no type. -/
theorem load_null_ne_ok (ty : Ty) (d : Datum) : l.load ty .null ≠ .ok d := by
  intro h
  match ty with
  | .scalar m k => 
    rw [load_scalar] at h
    cases k <;> cases h
  | .named m (.enum id) => rw [load_enum] at h; cases h
  | .named m (.bean id) => simp [load_bean_eq_ok] at h
  | .seq m k e => simp [load_seq_eq_ok] at h
  | .map m k v => simp [load_map_eq_ok] at h

/-- What loads from an array is a sequence or a map. -/
theorem of_load_array {ty : Ty} {xs : List Json} {d : Datum} (h : l.load ty (.array xs) = .ok d) :
    (∃ m k elem, ty = .seq m k elem) ∨ ∃ m key value, ty = .map m key value := by
  match ty with
  | .scalar m k =>
    rw [load_scalar] at h
    cases k <;> cases h
  | .named m (.enum id) => rw [load_enum] at h; cases h
  | .named m (.bean id) => simp [load_bean_eq_ok] at h
  | .seq m k elem => exact Or.inl ⟨m, k, elem, rfl⟩
  | .map m key value => exact Or.inr ⟨m, key, value, rfl⟩

/-- What loads from an object is a bean or a map. -/
theorem of_load_object {ty : Ty} {ms : List (String × Json)} {d : Datum}
    (h : l.load ty (.object ms) = .ok d) :
    (∃ m id, ty = .named m (.bean id)) ∨ ∃ m key value, ty = .map m key value := by
  match ty with
  | .scalar m k =>
    rw [load_scalar] at h
    cases k <;> cases h
  | .named m (.enum id) => rw [load_enum] at h; cases h
  | .named m (.bean id) => exact Or.inl ⟨m, id, rfl⟩
  | .seq m k elem => simp [load_seq_eq_ok] at h
  | .map m key value => exact Or.inr ⟨m, key, value, rfl⟩

end Loader

end GameConfig
