import GameConfig.Proofs.Emit.Definitions
import GameConfig.Proofs.Descriptor.History
import Mathlib

/-
  Which declarations keep their place in the document.

  Definitions are put in one after the other: the enums, then each bean with the
  definitions for files that it brings along.  Names of beans and enums differ,
  but the name of a definition for files may be one of them, and names of tables
  need not differ at all.

  * `definition?_enum`, `definition?_bean`: a declaration has its own schema
    unless a definition for files of its name comes later, then it has the last
    one;
  * `tableEntry?_eq`: a name of tables has what the last table of that name says;
  * `not_document_keeps_logs`: a bean and a table that lose their place.
-/

namespace GameConfig

namespace JsonSchemaOptions

/-- The definition that the document has under a name. -/
def definition? (o : JsonSchemaOptions) (s : Schema) (name : String) : Option Json :=
  ((o.document s).member? "definitions").bind (Json.member? name)

/-- What the document says about the table of a name. -/
def tableEntry? (o : JsonSchemaOptions) (s : Schema) (name : String) : Option Json :=
  ((o.document s).member? "tables").bind (Json.member? name)

end JsonSchemaOptions

/-- The definitions for files that the beans from number `id` on bring along, in order. -/
def laterFiles (s : Schema) (variants : Bool) (id : Nat) : List (String × Json) :=
  if variants then
    ((List.range s.beans.length).drop id).flatMap fun b => fileEntries s b (s.bean b)
  else []

section
variable {s : Schema} {o : JsonSchemaOptions}

theorem definition?_eq (name : String) :
    o.definition? s name = Assoc.find? name (definitions s o.fileVariants).reverse := by
  rw [← Assoc.find?_ofEntries_reverse]
  simp [JsonSchemaOptions.definition?, JsonSchemaOptions.document, Json.member?, Assoc.find?]

/-- The last table of a name counts. -/
theorem tableEntry?_eq (name : String) : o.tableEntry? s name =
    (s.tables.reverse.find? fun t => t.fullName == name).map (TableDef.schemaOf s) := by
  have hfind : ∀ ts : List TableDef, Assoc.find? name (ts.map fun t => (t.fullName, t.schemaOf s)) =
      (ts.find? fun t => t.fullName == name).map (TableDef.schemaOf s) := by
    intro ts
    induction ts with
    | nil => rfl
    | cons t ts ih => by_cases h : t.fullName = name <;> simp [Assoc.find?, h, ih]
  rw [← hfind, List.map_reverse, ← Assoc.find?_ofEntries_reverse]
  simp [JsonSchemaOptions.tableEntry?, JsonSchemaOptions.document, Json.member?, Assoc.find?]

/-! ## Definitions -/

theorem beanDefinitions_eq (variants : Bool) (id : Nat) (b : BeanDef) :
    beanDefinitions s variants id b =
      (b.fullName, b.schemaOf s) :: if variants then fileEntries s id b else [] := by
  cases variants <;> rfl

/-- Under a name that none of these beans has there is what they bring along for files. -/
theorem find?_beanDefinitions {name : String} (variants : Bool) (ids : List Nat)
    (h : ∀ id ∈ ids, (s.bean id).fullName ≠ name) :
    Assoc.find? name (ids.flatMap fun id => beanDefinitions s variants id (s.bean id)).reverse =
      Assoc.find? name
        (if variants then ids.flatMap fun id => fileEntries s id (s.bean id) else []).reverse := by
  induction ids with
  | nil => cases variants <;> rfl
  | cons id ids ih =>
    rw [List.forall_mem_cons] at h
    rw [List.flatMap_cons, List.reverse_append, Assoc.find?_append, ih h.2, beanDefinitions_eq]
    cases variants with
    | false => simp [Assoc.find?, h.1]
    | true => simp [Assoc.find?_append, Assoc.find?, h.1]

variable (hs : s.Sound)
include hs

/-- **An enum has its own schema unless a definition for files has its name.** -/
theorem definition?_enum {e : EnumDef} (he : e ∈ s.enums) :
    o.definition? s e.fullName =
      some ((Assoc.find? e.fullName (laterFiles s o.fileVariants 0).reverse).getD e.schemaOf) := by
  obtain ⟨id, hid, rfl⟩ := Schema.mem_enums he
  have hbeans := find?_beanDefinitions o.fileVariants (List.range s.beans.length)
    fun b hb => (hs.enum_ne_bean hid (List.mem_range.1 hb)).symm
  have hown : Assoc.find? (s.enum id).fullName
      (s.enums.map fun e => (e.fullName, e.schemaOf)).reverse = some (s.enum id).schemaOf := by
    rw [← List.map_reverse]
    refine Assoc.find?_of_forall ?_ fun y hy => ?_
    · rw [List.map_map]
      exact List.mem_map.2 ⟨_, List.mem_reverse.2 he, rfl⟩
    · obtain ⟨e', he', heq⟩ := List.mem_map.1 hy
      obtain ⟨id', hid', rfl⟩ := Schema.mem_enums (List.mem_reverse.1 he')
      rw [← (Prod.mk.inj heq).2, hs.enum_inj hid' hid (Prod.mk.inj heq).1]
  rw [definition?_eq, definitions, List.reverse_append, Assoc.find?_append, hbeans, hown,
    laterFiles, List.drop_zero]
  cases Assoc.find? (s.enum id).fullName _ <;> rfl

/-- **A bean has its own schema unless it or a later bean brings along a definition for files of
    its name.** -/
theorem definition?_bean {id : Nat} (hid : id < s.beans.length) :
    o.definition? s (s.bean id).fullName =
      some ((Assoc.find? (s.bean id).fullName (laterFiles s o.fileVariants id).reverse).getD
        ((s.bean id).schemaOf s)) := by
  -- the later beans have other names
  have hdrop : (List.range s.beans.length).drop id =
      id :: (List.range s.beans.length).drop (id + 1) := by
    rw [List.drop_eq_getElem_cons (by simpa using hid), List.getElem_range]
  have hnames : ∀ b ∈ (List.range s.beans.length).drop (id + 1),
      (s.bean b).fullName ≠ (s.bean id).fullName := by
    intro b hb hname
    obtain ⟨i, hi, rfl⟩ := List.getElem_of_mem hb
    simp only [List.getElem_drop, List.getElem_range, List.length_drop, List.length_range]
      at hi hname
    have := hs.bean_inj (by omega) hid hname
    omega
  have hlater := find?_beanDefinitions o.fileVariants _ hnames
  have hsplit : definitions s o.fileVariants =
      ((s.enums.map fun e => (e.fullName, e.schemaOf)) ++
        ((List.range s.beans.length).take id).flatMap fun b =>
          beanDefinitions s o.fileVariants b (s.bean b)) ++
      beanDefinitions s o.fileVariants id (s.bean id) ++
      ((List.range s.beans.length).drop (id + 1)).flatMap fun b =>
        beanDefinitions s o.fileVariants b (s.bean b) := by
    conv_lhs => rw [definitions, ← List.take_append_drop id (List.range s.beans.length), hdrop]
    simp
  rw [definition?_eq, hsplit, List.reverse_append, List.reverse_append, Assoc.find?_append, hlater,
    Assoc.find?_append, beanDefinitions_eq, laterFiles, hdrop]
  cases o.fileVariants with
  | false => simp [Assoc.find?]
  | true =>
    simp only [if_true, List.flatMap_cons, List.reverse_append, List.reverse_cons,
      Assoc.find?_append]
    cases Assoc.find? (s.bean id).fullName
      (((List.range s.beans.length).drop (id + 1)).flatMap fun b =>
        fileEntries s b (s.bean b)).reverse with
    | some x => rfl
    | none =>
      cases Assoc.find? (s.bean id).fullName (fileEntries s id (s.bean id)).reverse with
      | some x => rfl
      | none => simp [Assoc.find?]

end

/-- **What the document has under the names of the declarations**: an enum or a bean has its own
    schema unless a definition for files of its name is put in behind it, of which it has the last;
    and a name of tables has what the last table of that name says. -/
theorem document_keeps_of_build {d : Descriptor} {s : Schema} (hb : d.build = .ok s)
    (o : JsonSchemaOptions) :
    (∀ e ∈ s.enums, o.definition? s e.fullName =
      some ((Assoc.find? e.fullName (laterFiles s o.fileVariants 0).reverse).getD e.schemaOf)) ∧
    (∀ id < s.beans.length, o.definition? s (s.bean id).fullName =
      some ((Assoc.find? (s.bean id).fullName (laterFiles s o.fileVariants id).reverse).getD
        ((s.bean id).schemaOf s))) ∧
    ∀ name, o.tableEntry? s name =
      (s.tables.reverse.find? fun t => t.fullName == name).map (TableDef.schemaOf s) := by
  obtain ⟨g, hg, -⟩ := Descriptor.exists_history_of_build hb
  have hs := Schema.sound_of_build hg
  exact ⟨fun e he => definition?_enum hs he, fun id hid => definition?_bean hs hid, tableEntry?_eq⟩

/-- Logs in files of their own, a bean of the name that their definition for files has, and two
    tables of one name. -/
def logs : Descriptor where
  enums := []
  beans := [⟨"LogDataFile", none, none, none, []⟩, ⟨"Log", none, none, none, []⟩]
  tables := [⟨"TbLog", "Log", .list, none, [], none⟩, ⟨"TbLog", "Log", .one, none, [], none⟩]

def logsSchema : Schema where
  beans := [
    ⟨"LogDataFile", none, none, [], none, [], [], [0], [0]⟩,
    ⟨"Log", none, none, [], none, [], [], [1], [1]⟩]
  enums := []
  tables := [⟨"TbLog", 1, .list, none, [], none⟩, ⟨"TbLog", 1, .one, none, [], none⟩]
  names := [("LogDataFile", .bean 0), ("Log", .bean 1)]

theorem document_keeps_logs : logs.build = .ok logsSchema ∧
    (∀ e ∈ logsSchema.enums, JsonSchemaOptions.standard.definition? logsSchema e.fullName =
      some ((Assoc.find? e.fullName (laterFiles logsSchema true 0).reverse).getD e.schemaOf)) ∧
    (∀ id < logsSchema.beans.length,
      JsonSchemaOptions.standard.definition? logsSchema (logsSchema.bean id).fullName =
        some ((Assoc.find? (logsSchema.bean id).fullName
          (laterFiles logsSchema true id).reverse).getD
            ((logsSchema.bean id).schemaOf logsSchema))) ∧
    ∀ name, JsonSchemaOptions.standard.tableEntry? logsSchema name =
      (logsSchema.tables.reverse.find? fun t => t.fullName == name).map
        (TableDef.schemaOf logsSchema) := by
  have hbuild : logs.build = .ok logsSchema := by cbv
  exact ⟨hbuild, document_keeps_of_build hbuild .standard⟩

/-- The bean and the first table lose their place: under the name of the bean is the definition of
    logs for files, and under that of the tables is what the second one says. -/
theorem not_document_keeps_logs : logs.build = .ok logsSchema ∧
    (∃ id < logsSchema.beans.length,
      JsonSchemaOptions.standard.definition? logsSchema (logsSchema.bean id).fullName =
        some ((logsSchema.bean 1).fileSchema logsSchema) ∧
      (logsSchema.bean 1).fileSchema logsSchema ≠ (logsSchema.bean id).schemaOf logsSchema) ∧
    ∃ t ∈ logsSchema.tables,
      JsonSchemaOptions.standard.tableEntry? logsSchema t.fullName ≠
        some (t.schemaOf logsSchema) := by
  refine ⟨by cbv, ⟨0, by decide, rfl, fun h => ?_⟩, ⟨"TbLog", 1, .list, none, [], none⟩, by decide,
    fun h => ?_⟩
  · -- only the definition for files has a description
    cases congrArg (Json.member? "description") h
  · have hmode : some (Json.string "one") = some (Json.string "list") :=
      congrArg (Option.bind · (Json.member? "mode")) h
    simp at hmode

end GameConfig
