import GameConfig.Proofs.Emit.References
import GameConfig.Proofs.Schema.Discriminator
import Mathlib

/-
  Which generated files overwrite one another.

  The file of a table is called after the simple name of its value type with the
  words in lower case, while it refers to the definition of the full name.  Names
  have no dashes, so the case of all letters but the first can be told from the
  dashes; the namespace and the case of the first letter are lost.

  * `kebabCase_inj`: names in lower case with dashes;
  * `path_tableFile_inj`, `content_tableFile_inj`: what two files for tables share;
  * `files_agree_iff_of_build`: when files with one path have one content;
  * `not_files_agree_markets`: two files with one path.
-/

namespace GameConfig

open Notation

/-! ## Names with dashes -/

/-- A name with its first letter in lower case. -/
def uncapitalized (name : String) : String :=
  match name.toList with
  | [] => ""
  | c :: cs => String.ofList (Numeral.lowerAscii c :: cs)

theorem Numeral.lowerAscii_inj {c d : Char} (hc : 'A' ≤ c ∧ c ≤ 'Z') (hd : 'A' ≤ d ∧ d ≤ 'Z') :
    Numeral.lowerAscii c = Numeral.lowerAscii d ↔ c = d := by
  refine ⟨fun h => ?_, congrArg _⟩
  have hnat : ∀ e : Char, 'A' ≤ e ∧ e ≤ 'Z' → (Numeral.lowerAscii e).toNat = e.toNat + 32 := by
    intro e he
    have hle : e.toNat ≤ 90 := he.2
    rw [Numeral.lowerAscii, if_pos (by simpa using he), Char.toNat_ofNat, if_pos]
    exact .inl (by omega)
  have := congrArg Char.toNat h
  rw [hnat c hc, hnat d hd] at this
  exact Char.toNat_inj.1 (by omega)

theorem dashed_of_upper {c : Char} (h : 'A' ≤ c ∧ c ≤ 'Z') :
    dashed c = ['-', Numeral.lowerAscii c] := by
  simp [dashed, h]

theorem dashed_of_not_upper {c : Char} (h : ¬('A' ≤ c ∧ c ≤ 'Z')) : dashed c = [c] := by
  simp only [dashed, Bool.and_eq_true, decide_eq_true_eq, if_neg h]

/-- A dash in front tells a letter in upper case. -/
theorem dashed_append_inj {c d : Char} {xs ys : List Char} (hc : c ≠ '-') (hd : d ≠ '-') :
    dashed c ++ xs = dashed d ++ ys ↔ c = d ∧ xs = ys := by
  by_cases hcu : 'A' ≤ c ∧ c ≤ 'Z' <;> by_cases hdu : 'A' ≤ d ∧ d ≤ 'Z'
  · simp [dashed_of_upper hcu, dashed_of_upper hdu, Numeral.lowerAscii_inj hcu hdu]
  · have hne : c ≠ d := fun h => hdu (h ▸ hcu)
    simp [dashed_of_upper hcu, dashed_of_not_upper hdu, Ne.symm hd, hne]
  · have hne : c ≠ d := fun h => hcu (h ▸ hdu)
    simp [dashed_of_not_upper hcu, dashed_of_upper hdu, hc, hne]
  · simp [dashed_of_not_upper hcu, dashed_of_not_upper hdu]

theorem flatMap_dashed_inj {cs ds : List Char} (hc : '-' ∉ cs) (hd : '-' ∉ ds) :
    cs.flatMap dashed = ds.flatMap dashed ↔ cs = ds := by
  have hnil : ∀ e es, ([] : List Char) ≠ dashed e ++ es := by
    intro e es
    unfold dashed
    split <;> simp
  induction cs generalizing ds with
  | nil => cases ds <;> simp [hnil]
  | cons c cs ih =>
    rw [List.mem_cons, not_or] at hc
    cases ds with
    | nil => simp [(hnil _ _).symm]
    | cons d ds =>
      rw [List.mem_cons, not_or] at hd
      simp only [List.flatMap_cons, dashed_append_inj (Ne.symm hc.1) (Ne.symm hd.1), ih hc.2 hd.2,
        List.cons.injEq]

/-- **Of a name without dashes only the case of the first letter is lost.** -/
theorem kebabCase_inj {a b : String} (ha : '-' ∉ a.toList) (hb : '-' ∉ b.toList) :
    kebabCase a = kebabCase b ↔ uncapitalized a = uncapitalized b := by
  unfold kebabCase uncapitalized
  cases hca : a.toList with
  | nil => cases hcb : b.toList <;> simp
  | cons c cs =>
    cases hcb : b.toList with
    | nil => simp
    | cons d ds =>
      rw [hca, List.mem_cons, not_or] at ha
      rw [hcb, List.mem_cons, not_or] at hb
      simp only [String.ofList_inj, List.cons.injEq, flatMap_dashed_inj ha.2 hb.2]

theorem dash_not_mem_name {s : Schema} (hn : s.NamesProper) {id : Nat} (hid : id < s.beans.length) :
    '-' ∉ (s.bean id).name.toList := by
  intro h
  rcases isNameChar_of_isFullName (hn.bean id hid) (mem_simpleName h) with h | h
  · cases h
  · revert h
    decide

/-! ## Files of tables -/

namespace JsonSchemaOptions

variable {s : Schema} {o : JsonSchemaOptions} {t u : TableDef}

/-- Files of tables have one path if the simple names of the value types are equal up to the case
    of the first letter. -/
theorem path_tableFile_inj (hn : s.NamesProper) (ht : t.valueType < s.beans.length)
    (hu : u.valueType < s.beans.length) : (o.tableFile s t).path = (o.tableFile s u).path ↔
      uncapitalized (s.bean t.valueType).name = uncapitalized (s.bean u.valueType).name := by
  rw [← kebabCase_inj (dash_not_mem_name hn ht) (dash_not_mem_name hn hu)]
  simp [tableFile, String.append_left_inj, String.append_right_inj]

/-- They have one content if the value types are one. -/
theorem content_tableFile_inj (hs : s.Sound) (ht : t.valueType < s.beans.length)
    (hu : u.valueType < s.beans.length) :
    (o.tableFile s t).content = (o.tableFile s u).content ↔ t.valueType = u.valueType := by
  constructor
  · intro h
    have hschema : o.tableSchema s t = o.tableSchema s u := by
      have := read?_tableFile (o := o) (s := s) t
      rw [h, read?_tableFile u] at this
      exact (Except.ok.inj this).symm
    have href : (s.bean t.valueType).dataFileName = (s.bean u.valueType).dataFileName := by
      simpa [tableSchema, String.append_right_inj] using hschema
    exact dataFileName_inj hs ht hu href
  · intro h
    simp only [tableFile, tableSchema, h]

theorem mem_files {f : OutputFile} : f ∈ o.files s ↔
    f = ⟨o.outputFile, (o.document s).pretty⟩ ∨
      o.fileVariants = true ∧ ∃ t ∈ s.tables, o.tableFile s t = f := by
  unfold files
  cases o.fileVariants <;> simp

/-- The file of a table is in a directory, not where the whole schema is by default. -/
theorem path_tableFile_ne (h : o.outputFile = standard.outputFile) :
    (o.tableFile s t).path ≠ o.outputFile := by
  intro heq
  have hhead := congrArg (fun n => n.toList.head?) (heq.trans h)
  simp [tableFile, standard] at hhead

end JsonSchemaOptions

/-- **Files with one path have one content exactly if tables whose value types have one simple name,
    up to the case of its first letter, have one value type**, or no files are written for
    tables. -/
theorem files_agree_iff_of_build {d : Descriptor} {s : Schema} (hb : d.build = .ok s)
    {o : JsonSchemaOptions} (ho : o.outputFile = JsonSchemaOptions.standard.outputFile) :
    (∀ f ∈ o.files s, ∀ g ∈ o.files s, f.path = g.path → f.content = g.content) ↔
      (o.fileVariants = true → ∀ t ∈ s.tables, ∀ u ∈ s.tables,
        uncapitalized (s.bean t.valueType).name = uncapitalized (s.bean u.valueType).name →
        t.valueType = u.valueType) := by
  obtain ⟨h, hh, hp⟩ := Descriptor.exists_history_of_build hb
  have hs := Schema.sound_of_build hh
  have hn := Schema.namesProper_of_build hp hh
  have hlt : ∀ t ∈ s.tables, t.valueType < s.beans.length := fun t ht =>
    Schema.valueType_lt_of_build hh ht
  have hpath : ∀ t ∈ s.tables, ∀ u ∈ s.tables,
      ((o.tableFile s t).path = (o.tableFile s u).path ↔
        uncapitalized (s.bean t.valueType).name = uncapitalized (s.bean u.valueType).name) :=
    fun t ht u hu => JsonSchemaOptions.path_tableFile_inj hn (hlt t ht) (hlt u hu)
  have hcontent : ∀ t ∈ s.tables, ∀ u ∈ s.tables,
      ((o.tableFile s t).content = (o.tableFile s u).content ↔ t.valueType = u.valueType) :=
    fun t ht u hu => JsonSchemaOptions.content_tableFile_inj hs (hlt t ht) (hlt u hu)
  constructor
  · intro hagree hv t ht u hu hname
    have hfile : ∀ t ∈ s.tables, o.tableFile s t ∈ o.files s := fun t ht =>
      JsonSchemaOptions.mem_files.2 (.inr ⟨hv, t, ht, rfl⟩)
    exact (hcontent t ht u hu).1
      (hagree _ (hfile t ht) _ (hfile u hu) ((hpath t ht u hu).2 hname))
  · intro hapart f hf g hg hfg
    rcases JsonSchemaOptions.mem_files.1 hf with rfl | ⟨hv, t, ht, rfl⟩ <;>
      rcases JsonSchemaOptions.mem_files.1 hg with rfl | ⟨-, u, hu, rfl⟩
    · rfl
    · exact absurd hfg.symm (JsonSchemaOptions.path_tableFile_ne ho)
    · exact absurd hfg (JsonSchemaOptions.path_tableFile_ne ho)
    · exact (hcontent t ht u hu).2 (hapart hv t ht u hu ((hpath t ht u hu).1 hfg))

/-- Two markets that sell items of their own. -/
def markets : Descriptor where
  enums := []
  beans := [⟨"food.Item", none, none, none, []⟩, ⟨"tool.Item", none, none, none, []⟩]
  tables := [⟨"TbFood", "food.Item", .list, none, [], none⟩,
    ⟨"TbTool", "tool.Item", .list, none, [], none⟩]

def marketsSchema : Schema where
  beans := [
    ⟨"food.Item", none, none, [], none, [], [], [0], [0]⟩,
    ⟨"tool.Item", none, none, [], none, [], [], [1], [1]⟩]
  enums := []
  tables := [⟨"TbFood", 0, .list, none, [], none⟩, ⟨"TbTool", 1, .list, none, [], none⟩]
  names := [("food.Item", .bean 0), ("tool.Item", .bean 1)]

theorem files_agree_iff_markets : markets.build = .ok marketsSchema ∧
    ((∀ f ∈ JsonSchemaOptions.standard.files marketsSchema,
      ∀ g ∈ JsonSchemaOptions.standard.files marketsSchema,
        f.path = g.path → f.content = g.content) ↔
      (JsonSchemaOptions.standard.fileVariants = true →
        ∀ t ∈ marketsSchema.tables, ∀ u ∈ marketsSchema.tables,
          uncapitalized (marketsSchema.bean t.valueType).name =
            uncapitalized (marketsSchema.bean u.valueType).name →
          t.valueType = u.valueType)) := by
  have hbuild : markets.build = .ok marketsSchema := by cbv
  exact ⟨hbuild, files_agree_iff_of_build hbuild rfl⟩

/-- The schema for tools overwrites that for food. -/
theorem not_files_agree_markets : markets.build = .ok marketsSchema ∧
    ∃ f ∈ JsonSchemaOptions.standard.files marketsSchema,
      ∃ g ∈ JsonSchemaOptions.standard.files marketsSchema,
        f.path = g.path ∧ f.content ≠ g.content := by
  refine ⟨by cbv, JsonSchemaOptions.standard.tableFile marketsSchema
    ⟨"TbFood", 0, .list, none, [], none⟩, .tail _ (.head _),
    JsonSchemaOptions.standard.tableFile marketsSchema ⟨"TbTool", 1, .list, none, [], none⟩,
    .tail _ (.tail _ (.head _)), by cbv, by cbv⟩

end GameConfig
