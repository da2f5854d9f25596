import GameConfig.Descriptor.Reader
import GameConfig.Proofs.Json.Decode
import GameConfig.Proofs.Json.Text

/-
  Descriptors are read back as they were written.

  What a descriptor holds are integers of 64 bits and dictionaries of tags
  (`Descriptor.Proper`).  Each part has two facts: its shape reads what the part
  was written as (`reads`), and the written value is not nested deeper than a
  text may be (`readable`).  `Descriptor.ofJson_toJson` puts them together, for
  the value and for both of its texts.
-/

namespace GameConfig

open Decode

/-- The value of an item, if it has one, is a text or an integer of 64 bits. -/
def ItemEntry.Proper (i : ItemEntry) : Prop :=
  ∀ v, i.value = some (.int v) → Numeral.fitsInt64 v = true

/-- The tags of a field are a dictionary. -/
def FieldEntry.Proper (f : FieldEntry) : Prop := (Assoc.keys f.tags).Nodup

/-- All parts of the descriptor can be held. -/
structure Descriptor.Proper (d : Descriptor) : Prop where
  items : ∀ e ∈ d.enums, ∀ i ∈ e.items, i.Proper
  fields : ∀ b ∈ d.beans, ∀ f ∈ b.fields, f.Proper

/-! ## Parts that are read back -/

theorem ItemValue.reads {v : ItemValue} (h : ∀ n, v = .int n → Numeral.fitsInt64 n = true) :
    Reads ItemValue.decode v.toJson v := by
  cases v with
  | int n =>
    show ItemValue.decode (.number (.int n)) = _
    simp only [ItemValue.decode, sound, if_pos (h n rfl)]
  | text t => rfl

variable {origin : Origin}

theorem ItemEntry.reads {i : ItemEntry} (h : i.Proper) :
    Reads (ItemEntry.shape.read origin) i.toJson i := by
  refine Shape.reads_object (by decide) ?_
  refine .of (reads_text i.name) (.of (a := i.value) ?_ (.of (reads_ofString? i.altName)
    (.of (reads_ofString? i.comment) .nil)))
  cases hvalue : i.value with
  | none => rfl
  | some v =>
    refine reads_optional ?_ (ItemValue.reads fun n hn => h n (by rw [hvalue, hn]))
    cases v <;> exact nofun

theorem EnumEntry.reads {e : EnumEntry} (h : ∀ i ∈ e.items, i.Proper) :
    Reads ((EnumEntry.shape origin).read origin) e.toJson e := by
  have hkeys : ["name", "flags", "comment", "items"].Nodup := by decide
  exact Shape.reads_object hkeys <| .of (reads_text e.name) <| .of (reads_flag e.flags) <|
    .of (reads_ofString? e.comment) <|
    .of (reads_list_map fun i hi => ItemEntry.reads (h i hi)) .nil

theorem FieldEntry.reads {f : FieldEntry} (h : f.Proper) :
    Reads (FieldEntry.shape.read origin) f.toJson f := by
  have htags : Reads (dictionary text) (.object (f.tags.map fun t => (t.1, .string t.2)))
      f.tags := by
    refine reads_dictionary ?_ h
    rw [List.forall₂_map_left_iff, List.forall₂_same]
    exact fun t _ => ⟨rfl, reads_text t.2⟩
  exact Shape.reads_object (by decide) <| .of (reads_text f.name) <| .of (reads_text f.type) <|
    .of (reads_ofString? f.altName) <| .of (reads_list_map fun v _ => reads_text v) <|
    .of htags <| .of (reads_ofString? f.comment) .nil

theorem BeanEntry.reads {b : BeanEntry} (h : ∀ f ∈ b.fields, f.Proper) :
    Reads ((BeanEntry.shape origin).read origin) b.toJson b := by
  have hkeys : ["name", "parent", "alias", "comment", "fields"].Nodup := by decide
  exact Shape.reads_object hkeys <| .of (reads_text b.name) <| .of (reads_ofString? b.parent) <|
    .of (reads_ofString? b.altName) <| .of (reads_ofString? b.comment) <|
    .of (reads_list_map fun f hf => FieldEntry.reads (h f hf)) .nil

/-- Every mode is found under its name. -/
theorem TableMode.ofName?_name (m : TableMode) : TableMode.ofName? m.name = some m := by
  cases m <;> decide

theorem TableEntry.reads (t : TableEntry) :
    Reads ((TableEntry.shape origin).read origin) t.toJson t := by
  have hkeys : ["name", "valueType", "mode", "index", "inputFiles", "comment"].Nodup := by decide
  exact Shape.reads_object hkeys <| .of (reads_text t.name) <| .of (reads_text t.valueType) <|
    .of (reads_choice t.mode.ofName?_name) <| .of (reads_ofString? t.index) <|
    .of (reads_list_map fun f _ => reads_text f) <| .of (reads_ofString? t.comment) .nil

theorem Descriptor.reads {d : Descriptor} (h : d.Proper) :
    Reads ((Descriptor.shape origin).read origin) d.toJson d := by
  have hkeys : ["enums", "beans", "tables"].Nodup := by decide
  exact Shape.reads_object hkeys <|
    .of (reads_list_map fun e he => EnumEntry.reads (h.items e he)) <|
    .of (reads_list_map fun b hb => BeanEntry.reads (h.fields b hb)) <|
    .of (reads_list_map fun t _ => TableEntry.reads t) .nil

theorem Descriptor.decode_toJson {d : Descriptor} (h : d.Proper) :
    decode origin (.ofJson d.toJson) = .ok d := by
  have hread : Reads ((shape origin).read origin) d.toJson d := Descriptor.reads h
  rw [Reads] at hread
  rw [decode, hread]

/-! ## How deep parts are nested -/

section
variable {n : Nat}

theorem readable_ofString? (t : Option String) : (Json.ofString? t).Readable n := by
  cases t <;> constructor

theorem readable_list {α : Type} {write : α → Json} {as : List α}
    (h : ∀ a ∈ as, (write a).Readable n) : (Json.array (as.map write)).Readable (n + 1) := by
  refine .array fun x hx => ?_
  obtain ⟨a, ha, rfl⟩ := List.mem_map.1 hx
  exact h a ha

theorem ItemEntry.readable {i : ItemEntry} (h : i.Proper) : i.toJson.Readable (n + 1) := by
  have hkeys : ["name", "value", "alias", "comment"].Nodup := by decide
  refine .object hkeys ?_
  simp only [List.forall_mem_cons]
  refine ⟨.string, ?_, readable_ofString? _, readable_ofString? _, List.forall_mem_nil _⟩
  cases hvalue : i.value with
  | none => exact .null
  | some v =>
    cases v with
    | int m =>
      have hfits := h m hvalue
      simp only [Numeral.fitsInt64, Bool.and_eq_true, decide_eq_true_eq] at hfits
      exact .int hfits.1 (hfits.2.trans (by decide))
    | text t => exact .string

theorem EnumEntry.readable {e : EnumEntry} (h : ∀ i ∈ e.items, i.Proper) :
    e.toJson.Readable (n + 3) := by
  have hkeys : ["name", "flags", "comment", "items"].Nodup := by decide
  refine .object hkeys ?_
  simp only [List.forall_mem_cons]
  exact ⟨.string, .bool, readable_ofString? _,
    readable_list fun i hi => ItemEntry.readable (h i hi), List.forall_mem_nil _⟩

theorem FieldEntry.readable {f : FieldEntry} (h : f.Proper) : f.toJson.Readable (n + 2) := by
  have htags : (Json.object (f.tags.map fun t => (t.1, .string t.2))).Readable (n + 1) := by
    refine .object ?_ fun m hm => ?_
    · rw [Assoc.keys, List.map_map]
      exact h
    · obtain ⟨t, -, rfl⟩ := List.mem_map.1 hm
      exact .string
  have hkeys : ["name", "type", "alias", "variants", "tags", "comment"].Nodup := by decide
  refine .object hkeys ?_
  simp only [List.forall_mem_cons]
  exact ⟨.string, .string, readable_ofString? _, readable_list fun _ _ => .string, htags,
    readable_ofString? _, List.forall_mem_nil _⟩

theorem BeanEntry.readable {b : BeanEntry} (h : ∀ f ∈ b.fields, f.Proper) :
    b.toJson.Readable (n + 4) := by
  have hkeys : ["name", "parent", "alias", "comment", "fields"].Nodup := by decide
  refine .object hkeys ?_
  simp only [List.forall_mem_cons]
  exact ⟨.string, readable_ofString? _, readable_ofString? _, readable_ofString? _,
    readable_list fun f hf => FieldEntry.readable (h f hf), List.forall_mem_nil _⟩

theorem TableEntry.readable (t : TableEntry) : t.toJson.Readable (n + 2) := by
  have hkeys : ["name", "valueType", "mode", "index", "inputFiles", "comment"].Nodup := by decide
  refine .object hkeys ?_
  simp only [List.forall_mem_cons]
  exact ⟨.string, .string, .string, readable_ofString? _, readable_list fun _ _ => .string,
    readable_ofString? _, List.forall_mem_nil _⟩

/-- A descriptor is nested six deep. -/
theorem Descriptor.readable {d : Descriptor} (h : d.Proper) : d.toJson.Readable (n + 6) := by
  have hkeys : ["enums", "beans", "tables"].Nodup := by decide
  refine .object hkeys ?_
  simp only [List.forall_mem_cons]
  exact ⟨readable_list fun e he => EnumEntry.readable (h.items e he),
    readable_list fun b hb => BeanEntry.readable (h.fields b hb),
    readable_list fun t _ => TableEntry.readable t, List.forall_mem_nil _⟩

end

/-- **A descriptor is read back from what it was written as**: from the value, and from the compact
    and the indented text of it. -/
theorem Descriptor.ofJson_toJson {d : Descriptor} (h : d.Proper) :
    Descriptor.ofJson d.toJson = .ok d ∧ Descriptor.ofString d.toJson.compact = .ok d ∧
      Descriptor.ofString d.toJson.pretty = .ok d := by
  have hreadable : d.toJson.Readable Document.maxDepth := readable (n := 121) h
  refine ⟨decode_toJson h, ?_, ?_⟩
  · rw [ofString, Json.read_compact hreadable]
    exact decode_toJson h
  · rw [ofString, Json.read_pretty hreadable]
    exact decode_toJson h

/-- Quests with states of both kinds, a tagged field and a table of one record. -/
def quests : Descriptor where
  enums := [⟨"State", false, some "open \"or\" closed",
    [⟨"Open", some (.int (-1)), none, none⟩, ⟨"Closed", some (.text "c"), some "Done", none⟩,
      ⟨"Lost", none, none, none⟩]⟩]
  beans := [⟨"Quest", none, some "Task", none,
    [⟨"steps", "list,int", none, ["easy"], [("size", "1,3"), ("sep", "|")], none⟩]⟩]
  tables := [⟨"TbQuest", "Quest", .singleton, none, ["quest.json"], none⟩]

theorem ofJson_toJson_quests : quests.Proper ∧ Descriptor.ofJson quests.toJson = .ok quests ∧
    Descriptor.ofString quests.toJson.compact = .ok quests ∧
    Descriptor.ofString quests.toJson.pretty = .ok quests := by
  have hproper : quests.Proper := by
    constructor
    · simp [quests, ItemEntry.Proper, Numeral.fitsInt64, Numeral.minInt64, Numeral.maxInt64]
    · simp [quests, FieldEntry.Proper, Assoc.keys]
  exact ⟨hproper, Descriptor.ofJson_toJson hproper⟩

end GameConfig
