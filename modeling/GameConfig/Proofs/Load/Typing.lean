import GameConfig.Proofs.Datum.Conforms
import GameConfig.Proofs.Load.Step

/-
  Loaded values have the type that they were loaded as.

  A value comes from the parts of its raw tree, so conformance goes from the
  parts to the whole.

  * `load_conforms`: what loads over a sound schema conforms;
  * `load_conforms_of_build`: so it does for every accepted schema, and its
    export looks up nothing that is not there.
-/

namespace GameConfig

namespace Loader

variable {l : Loader}

theorem findItem?_lt {e : EnumDef} {word : String} {i : Nat} (h : e.findItem? word = some i) :
    i < e.items.length := by
  unfold EnumDef.findItem? at h
  split at h
  · cases h
    rename_i hi
    exact (List.findIdx?_eq_some_iff_getElem.1 hi).1
  · exact (List.findIdx?_eq_some_iff_getElem.1 h).1

/-- The bean that a word stands for is a concrete member of the family. -/
theorem resolve_mem (hs : l.schema.Sound) {id c : Nat} (hid : id < l.schema.beans.length)
    {w : Option String} (h : l.resolve id w = .ok c) : c ∈ (l.schema.bean id).concrete := by
  rcases resolve_eq_ok.1 h with ⟨hleaf, rfl⟩ | ⟨-, word, -, hc⟩
  · exact (hs.mem_concrete hid).2 ⟨.refl c, hleaf⟩
  · exact Schema.subtype?_mem hc

theorem fieldNode?_mem {α : Type} {ms : List (String × α)} {f : Field} {x : α}
    (h : l.fieldNode? ms f = some x) : ∃ k, (k, x) ∈ ms := by
  unfold fieldNode? at h
  split at h
  · rename_i n hn
    cases h
    obtain ⟨k, -, hk⟩ := Option.bind_eq_some_iff.1 hn
    exact ⟨k, Assoc.mem_of_find? hk⟩
  · split at h
    · rename_i hn
      cases h
      exact ⟨_, Assoc.mem_of_find? hn⟩
    · obtain ⟨k, -, hk⟩ := Option.bind_eq_some_iff.1 h
      exact ⟨k, Assoc.mem_of_find? hk⟩

theorem value?_mem {ms : List (String × Json)} {f : Field} {x : Json}
    (h : l.value? ms f = some x) : ∃ k, (k, x) ∈ ms := by
  unfold value? at h
  split at h
  · cases h
  · exact fieldNode?_mem h

theorem scalar_conforms {m : Mark} {k : Scalar} {x : Json} {d : Datum} (h : scalar k x = .ok d) :
    Conforms l.schema (.scalar m k) d := by
  cases k with
  | bool =>
    obtain ⟨b, -, rfl⟩ := bool_eq_ok.1 h
    exact .bool
  | integer w =>
    obtain ⟨i, -, hi, rfl⟩ := integer_eq_ok.1 h
    exact .integer hi
  | float =>
    obtain ⟨y, -, -, rfl⟩ := single_eq_ok.1 h
    exact .float
  | double =>
    obtain ⟨n, -, rfl⟩ := double_eq_ok.1 h
    exact .double
  | string =>
    obtain ⟨text, -, rfl⟩ := string_eq_ok.1 h
    exact .string
  | datetime =>
    obtain ⟨text, t, -, -, rfl⟩ := datetime_eq_ok.1 h
    exact .datetime

theorem item_conforms {m : Mark} {id : Nat} (hid : id < l.schema.enums.length) {x : Json}
    {d : Datum} (h : item id (l.schema.enum id) x = .ok d) :
    Conforms l.schema (.named m (.enum id)) d := by
  obtain ⟨word, i, -, hi, rfl⟩ := item_eq_ok.1 h
  exact .enum hid (findItem?_lt hi)

/-- The names of members load as keys that conform. -/
theorem loadKey_conforms {key : Ty} (hk : l.schema.Has key) {n : String} {d : Datum}
    (h : l.loadKey key n = .ok d) : Conforms l.schema key d := by
  obtain ⟨htext, k, -, hload⟩ := loadKey_eq_ok.1 h
  rcases eq_of_isTextKey htext with ⟨m, kind, rfl⟩ | ⟨m, id, rfl⟩
  · rw [load_scalar] at hload
    exact scalar_conforms hload
  · rw [load_enum] at hload
    exact item_conforms hk hload

/-- **What loads over a sound schema conforms to its type.** -/
theorem load_conforms (hs : l.schema.Sound) (hc : l.schema.Closed) {ty : Ty} {x : Json} {d : Datum}
    (hty : l.schema.Has ty) (h : l.load ty x = .ok d) : Conforms l.schema ty d := by
  induction x using Json.induction generalizing ty d with
  | step x ih =>
  match ty with
  | .scalar m k =>
    rw [load_scalar] at h
    exact scalar_conforms h
  | .named m (.enum id) =>
    rw [load_enum] at h
    exact item_conforms hty h
  | .named m (.bean id) =>
    obtain ⟨ms, c, vs, rfl, hres, hvs, rfl⟩ := load_bean_eq_ok.1 h
    have hmem := resolve_mem hs hty hres
    obtain ⟨habove, hleaf⟩ := (hs.mem_concrete hty).1 hmem
    obtain ⟨hlen, hvs⟩ := List.forall₂_iff_zip.1 hvs
    refine .bean (Schema.Sound.lt_of_below hty habove) hleaf (hs.isAssignable_iff.2 habove)
      hlen.symm (fun f hf => (hvs hf).1) fun f v hf => ?_
    obtain ⟨y, hy, hv⟩ := hvs hf
    obtain ⟨k, hk⟩ := value?_mem hy
    exact ih y (.member hk) (hc c f (List.of_mem_zip hf).1) hv
  | .seq m k e =>
    obtain ⟨xs, ds, rfl, hds, rfl⟩ := load_seq_eq_ok.1 h
    refine .seq fun d hd => ?_
    obtain ⟨y, hy, hload⟩ := exists_of_mem_right hds hd
    exact ih y (.item hy) hty hload
  | .map m k v =>
    obtain ⟨es, hfresh, rfl, -⟩ := load_map_eq_ok.1 h
    have hkeys : ∀ e ∈ es, Conforms l.schema k e.1 := by
      intro e he
      rcases (load_map_entry h he).1 with ⟨y, hy, hk⟩ | ⟨n, hk⟩
      · exact ih y hy hty.1 hk
      · exact loadKey_conforms hty.1 hk
    have hvalues : ∀ e ∈ es, Conforms l.schema v e.2 := by
      intro e he
      obtain ⟨y, hy, hv⟩ := (load_map_entry h he).2
      exact ih y hy hty.2 hv
    exact .map (hfresh.keysDiffer fun e he => (hkeys e he).distinct) hkeys hvalues

end Loader

/-- **Loaded values are well typed**: over every accepted schema, whatever loads as a type is a
    value of that type, and its export looks up nothing that is not there. -/
theorem load_conforms_of_build {h : History} {s : Schema} (hs : (Builder.run h).build = .ok s)
    (hc : h.Closed) {v : Option String} {ty : Ty} (hty : s.Has ty) {x : Json} {d : Datum}
    (hd : Loader.load ⟨s, v⟩ ty x = .ok d) :
    Conforms s ty d ∧ d.toJson? s = some (d.toJson s) := by
  have hsound := Schema.sound_of_build hs
  have hconf : Conforms s ty d :=
    Loader.load_conforms (l := ⟨s, v⟩) hsound (Schema.closed_of_build hc hs) hty hd
  exact ⟨hconf, Datum.toJson?_of_conforms hsound hconf⟩

/-- A kind of goods, with a color and maybe a note. -/
def goods : History :=
  let int : Ty := .scalar .plain (.integer .int)
  let note : Ty := .scalar ⟨true, []⟩ .string
  let color : Ty := .named .plain (.enum 0)
  [.beanId "Item", .enumId "Color",
    .addEnum ⟨"Color", [⟨"Red", .int 0, some "red", none⟩], false, none⟩,
    .addBean ⟨"Sword", some "Item", none, [⟨"damage", none, [], int, [], none⟩], none⟩,
    .addBean ⟨"Item", none, none,
      [⟨"note", none, [], note, [], none⟩, ⟨"color", none, [], color, [], none⟩], none⟩]

/-- A sword among items by name. -/
def sword : Json :=
  .object [("first", .object [("$type", .string "Sword"), ("damage", .ofInt 3),
    ("color", .string "red")])]

def itemsByName : Ty := .map .plain (.scalar .plain .string) (.named .plain (.bean 0))

theorem load_conforms_sword : ∃ s : Schema, (Builder.run goods).build = .ok s ∧
    ∃ d : Datum, Loader.load ⟨s, none⟩ itemsByName sword = .ok d ∧ Conforms s itemsByName d := by
  refine ⟨_, rfl, _, rfl, ?_⟩
  refine (load_conforms_of_build (h := goods) (v := none) (x := sword) rfl ?_ ?_ rfl).1
  · unfold History.Closed Builder.Has
    decide
  · unfold Schema.Has
    decide

end GameConfig
