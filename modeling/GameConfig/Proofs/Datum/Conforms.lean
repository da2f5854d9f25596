import GameConfig.Datum.Export
import GameConfig.Proofs.Builder.Numbers
import GameConfig.Proofs.Datum.Equality
import GameConfig.Proofs.Schema.Sound

/-
  Values of a type over a schema.

  `Conforms` says what a value of a type is, at every depth: a bean value names
  a concrete member of the declared bean's family and has one entry for each of
  its fields, an enum value an item that is there, and the keys of a map differ.

  * `Conforms.distinct`: such a value has distinct keys at every depth;
  * `Datum.toJson?` is the export with every lookup checked, and
    `toJson?_of_conforms` states that for such a value no lookup fails.
-/

namespace GameConfig

open Hierarchy

/-! ## Types over a schema -/

/-- The type is one over the schema. -/
def Schema.Has (s : Schema) (ty : Ty) : Prop := ty.Within s.beans.length s.enums.length

/-- The types of fields are types over the schema. -/
def Schema.Closed (s : Schema) : Prop := ∀ id, ∀ f ∈ (s.bean id).allFields, s.Has f.ty

/-- The types of declared fields use only numbers that the builder gave out. -/
def History.Closed (h : History) : Prop :=
  ∀ d ∈ h.beans, ∀ f ∈ d.fields,
    (Builder.run h).Has f.ty

namespace Builder

variable {h : History} {ds : List BeanDecl} {ps : Parents} {s : Schema}

/-- What holds of all declared fields holds of all fields of the beans. -/
theorem Accepted.forall_fields (ha : Accepted h ds ps s) {p : Field → Prop}
    (hp : ∀ d ∈ h.beans, ∀ f ∈ d.fields, p f) : ∀ id, ∀ f ∈ (s.bean id).allFields, p f := by
  intro id f hf
  by_cases hid : id < s.beans.length
  · obtain ⟨d, hd⟩ := ha.exists_decl hid
    rw [(ha.allFields_eq hd).1, List.mem_flatMap] at hf
    obtain ⟨d', hd', hf⟩ := hf
    obtain ⟨i, -, hi⟩ := List.mem_filterMap.1 hd'
    exact hp d' ((ha.beans.mem d').1 (List.mem_of_getElem? hi)) f hf
  · rw [Schema.bean_of_not_lt hid] at hf
    cases hf

theorem Accepted.closed (ha : Accepted h ds ps s) (hc : h.Closed) : s.Closed := by
  have hbeans : (run h).beans.length = s.beans.length := by
    rw [ha.resolved.length_beans]
    simpa using congrArg List.length ha.slots.1
  have henums : (run h).enums.length = s.enums.length := by
    simpa using congrArg List.length ha.slots.2
  refine ha.forall_fields fun d hd f hf => ?_
  have := hc d hd f hf
  rwa [Builder.Has, hbeans, henums] at this

end Builder

theorem Schema.closed_of_build {h : History} (hc : h.Closed) {s : Schema}
    (hs : (Builder.run h).build = .ok s) : s.Closed := by
  obtain ⟨ds, ps, ha⟩ := Builder.exists_accepted hs
  exact ha.closed hc

/-! ## Values of a type -/

/-- A value of a type. -/
inductive Conforms (s : Schema) : Ty → Datum → Prop
  | bool {m b} : Conforms s (.scalar m .bool) (.bool b)
  | integer {m w i} : w.holds i = true → Conforms s (.scalar m (.integer w)) (.integer w i)
  | float {m x} : Conforms s (.scalar m .float) (.float x)
  | double {m x} : Conforms s (.scalar m .double) (.double x)
  | string {m t} : Conforms s (.scalar m .string) (.string t)
  | datetime {m t} : Conforms s (.scalar m .datetime) (.datetime t)
  | enum {m id i} : id < s.enums.length → i < (s.enum id).items.length →
      Conforms s (.named m (.enum id)) (.enum id i)
  | bean {m id c vs} : c < s.beans.length → (s.bean c).children = [] →
      s.isAssignable id c = true → vs.length = (s.bean c).allFields.length →
      (∀ f, (f, none) ∈ (s.bean c).allFields.zip vs → f.ty.nullable = true) →
      (∀ f d, (f, some d) ∈ (s.bean c).allFields.zip vs → Conforms s f.ty d) →
      Conforms s (.named m (.bean id)) (.bean c vs)
  | seq {m k e xs} : (∀ x ∈ xs, Conforms s e x) → Conforms s (.seq m k e) (.seq k xs)
  | map {m k v es} : Entries.KeysDiffer es → (∀ e ∈ es, Conforms s k e.1) →
      (∀ e ∈ es, Conforms s v e.2) → Conforms s (.map m k v) (.map es)

/-- What stands on the right of lists of one length has something across from it. -/
theorem exists_mem_zip_right {α β : Type} {as : List α} {bs : List β} (hlen : bs.length = as.length)
    {b : β} (hb : b ∈ bs) : ∃ a, (a, b) ∈ as.zip bs := by
  obtain ⟨i, hi, rfl⟩ := List.getElem_of_mem hb
  exact ⟨as[i], List.mem_iff_getElem.2 ⟨i, by simp; omega, by simp⟩⟩

theorem Conforms.distinct {s : Schema} {ty : Ty} {d : Datum} (h : Conforms s ty d) :
    d.Distinct := by
  induction h with
  | bean _ _ _ hlen _ _ ih =>
    refine .intro trivial fun p hp => ?_
    obtain ⟨v, hv, hpv⟩ := List.mem_filterMap.1 hp
    obtain rfl : v = some p := hpv
    obtain ⟨f, hf⟩ := exists_mem_zip_right hlen hv
    exact ih f p hf
  | seq _ ih => exact .intro trivial ih
  | map hk _ _ ihk ihv =>
    refine .intro hk fun p hp => ?_
    rcases List.mem_append.1 hp with hp | hp
    · obtain ⟨e, he, rfl⟩ := List.mem_map.1 hp
      exact ihk e he
    · obtain ⟨e, he, rfl⟩ := List.mem_map.1 hp
      exact ihv e he
  | _ => exact .intro trivial (by simp [Datum.parts])

/-! ## Export -/

/-- The bean at the end of a chain of parents, each of them looked up. -/
def Schema.rootFrom? (s : Schema) : Nat → BeanDef → Option BeanDef
  | 0, b => some b
  | steps + 1, b =>
    match b.parent with
    | some p => (s.beans[p]?).bind (s.rootFrom? steps)
    | none => some b

/-- What is written as the type of a bean, every bean of the hierarchy looked up. -/
def Schema.discriminator? (s : Schema) (b : BeanDef) : Option String := do
  let root ← s.rootFrom? s.beans.length b
  let others ← root.concrete.mapM fun id => s.beans[id]?
  let clash := others.any fun other => other.fullName != b.fullName && other.name == b.name
  some (if clash then b.fullName else b.name)

namespace Datum

mutual

/-- The JSON form of a value, every bean, enum and item looked up. -/
def toJson? (s : Schema) : Datum → Option Json
  | bool b => some (.bool b)
  | integer _ i => some (.ofInt i)
  | float x => some (.ofDouble x.exported)
  | double x => some (.ofDouble x)
  | string t => some (.string t)
  | datetime t => some (.string t.toText)
  | enum id item => do
    let e ← s.enums[id]?
    let i ← e.items[item]?
    some (.string i.name)
  | bean id vs => do
    let b ← s.beans[id]?
    let head ← if b.parent.isSome then (s.discriminator? b).map fun w => [(typeKey, .string w)]
      else some []
    let ms ← fieldsJson? s b.allFields vs
    some (.object (Assoc.ofEntries (head ++ ms)))
  | seq _ xs => (itemsJson? s xs).map .array
  | map es => (entriesJson? s es).map .array

def itemsJson? (s : Schema) : List Datum → Option (List Json)
  | [] => some []
  | d :: ds => do
    let x ← toJson? s d
    let xs ← itemsJson? s ds
    some (x :: xs)

def fieldsJson? (s : Schema) : List Field → List (Option Datum) → Option (List (String × Json))
  | f :: fs, some d :: ds => do
    let x ← toJson? s d
    let ms ← fieldsJson? s fs ds
    some ((f.name, x) :: ms)
  | f :: fs, none :: ds => (fieldsJson? s fs ds).map ((f.name, .null) :: ·)
  | _, _ => some []

def entriesJson? (s : Schema) : List (Datum × Datum) → Option (List Json)
  | [] => some []
  | (k, v) :: es => do
    let x ← toJson? s k
    let y ← toJson? s v
    let xs ← entriesJson? s es
    some (.array [x, y] :: xs)

end

variable {s : Schema}

theorem itemsJson?_eq {ds : List Datum} (h : ∀ d ∈ ds, d.toJson? s = some (d.toJson s)) :
    itemsJson? s ds = some (itemsJson s ds) := by
  induction ds with
  | nil => simp [itemsJson?, itemsJson]
  | cons d ds ih =>
    rw [List.forall_mem_cons] at h
    simp [itemsJson?, itemsJson, h.1, ih h.2]

theorem entriesJson?_eq {es : Entries} (hk : ∀ e ∈ es, e.1.toJson? s = some (e.1.toJson s))
    (hv : ∀ e ∈ es, e.2.toJson? s = some (e.2.toJson s)) :
    entriesJson? s es = some (entriesJson s es) := by
  induction es with
  | nil => simp [entriesJson?, entriesJson]
  | cons e es ih =>
    rw [List.forall_mem_cons] at hk hv
    simp [entriesJson?, entriesJson, hk.1, hv.1, ih hk.2 hv.2]

theorem fieldsJson?_eq {fs : List Field} {vs : List (Option Datum)}
    (h : ∀ f d, (f, some d) ∈ fs.zip vs → d.toJson? s = some (d.toJson s)) :
    fieldsJson? s fs vs = some (fieldsJson s fs vs) := by
  induction fs generalizing vs with
  | nil => cases vs <;> simp [fieldsJson?, fieldsJson]
  | cons f fs ih =>
    cases vs with
    | nil => simp [fieldsJson?, fieldsJson]
    | cons v vs =>
      have hrest := ih fun g d hg => h g d (List.mem_cons_of_mem _ hg)
      cases v with
      | none => simp [fieldsJson?, fieldsJson, hrest]
      | some d => simp [fieldsJson?, fieldsJson, hrest, h f d (by simp)]

end Datum

namespace Schema

variable {s : Schema} (hs : s.Sound)
include hs

theorem Sound.rootFrom?_eq (n b : Nat) :
    s.rootFrom? n (s.bean b) = some (s.rootFrom n (s.bean b)) := by
  induction n generalizing b with
  | zero => rfl
  | succ n ih =>
    cases hp : (s.bean b).parent with
    | none => simp [rootFrom?, rootFrom, hp]
    | some p => simp [rootFrom?, rootFrom, hp, bean_of_lt (hs.lt_of_parent hp), ih]

/-- The beans of a hierarchy are all there. -/
theorem Sound.discriminator?_eq {b : Nat} (hb : b < s.beans.length) :
    s.discriminator? (s.bean b) = some (s.discriminator (s.bean b)) := by
  obtain ⟨r, hlt, hr, -, -⟩ := hs.exists_root hb
  have hall : ∀ ids : List Nat, (∀ id ∈ ids, id < s.beans.length) →
      ids.mapM (fun id => s.beans[id]?) = some (ids.map s.bean) := by
    intro ids hids
    induction ids with
    | nil => rfl
    | cons id ids ih =>
      rw [List.forall_mem_cons] at hids
      simp [bean_of_lt hids.1, ih hids.2]
  have hconcrete := hall (s.bean r).concrete fun id hid =>
    Sound.lt_of_below hlt ((hs.mem_concrete hlt).1 hid).1
  have hroot : s.rootFrom? s.beans.length (s.bean b) = some (s.bean r) := by
    rw [hs.rootFrom?_eq, ← hr]; rfl
  simp [discriminator?, discriminator, hroot, hr, hconcrete]

end Schema

/-- **The export of a value that conforms looks up nothing that is not there.** -/
theorem Datum.toJson?_of_conforms {s : Schema} (hs : s.Sound) {ty : Ty} {d : Datum}
    (h : Conforms s ty d) : d.toJson? s = some (d.toJson s) := by
  induction h with
  | enum hid hi =>
    simp [toJson?, toJson, Schema.enum_of_lt hid, EnumDef.itemName, hi]
  | @bean m id c vs hc hleaf hbase hlen hnull hfields ih =>
    have hms := fieldsJson?_eq ih
    have hword := hs.discriminator?_eq hc
    cases hp : (s.bean c).parent <;>
      simp [toJson?, toJson, Schema.bean_of_lt hc, hp, hword, hms]
  | seq _ ih => simp [toJson?, toJson, itemsJson?_eq ih]
  | map _ _ _ ihk ihv => simp [toJson?, toJson, entriesJson?_eq ihk ihv]
  | _ => simp [toJson?, toJson]

end GameConfig
