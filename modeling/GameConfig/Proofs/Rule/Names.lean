import GameConfig.Proofs.Descriptor.History
import GameConfig.Proofs.Rule.Compile
import GameConfig.Proofs.Schema.Sound

/-
  Texts that name a bean.

  A rule about names holds a list of spellings: of the base and of each of its
  descendants the full name, and the name from inside the namespace of the base,
  as far as the bean is found by them there.  Looking a name up goes the other
  way, from any text to a bean.  The two meet, since a name leads to a bean only
  as its full name or as what the namespace of the base makes its full name.

  * `Sound.mem_spellings_iff`: the spellings of a bean are the texts that it is
    found by;
  * `Descriptor.faults_names_iff`: a text passes if and only if it is found to be
    the base or a descendant of it.
-/

namespace GameConfig

namespace Text

theorem eq_append_of_dropFront? {front cs rest : List Char} (h : dropFront? front cs = some rest) :
    cs = front ++ rest := by
  induction front generalizing cs with
  | nil =>
    cases h
    rfl
  | cons c front ih =>
    cases cs with
    | nil => cases h
    | cons d cs =>
      unfold dropFront? at h
      split at h
      · rename_i hcd
        rw [ih h, hcd, List.cons_append]
      · cases h

theorem dropFront?_eq_some_iff {front cs rest : List Char} :
    dropFront? front cs = some rest ↔ cs = front ++ rest := by
  constructor
  · exact eq_append_of_dropFront?
  · rintro rfl
    exact dropFront?_append front rest

end Text

/-- A relative name is what makes the full name behind the namespace and a dot. -/
theorem Rule.relativeName?_eq_some_iff {space full word : String} :
    Rule.relativeName? space full = some word ↔ full = space ++ "." ++ word := by
  have hlist : full = space ++ "." ++ word ↔ full.toList = space.toList ++ '.' :: word.toList := by
    rw [← String.toList_inj]
    simp
  rw [hlist, relativeName?]
  simp only [Option.map_eq_some_iff, Option.bind_eq_some_iff, Text.dropFront?_eq_some_iff]
  constructor
  · rintro ⟨_, ⟨_, hfull, rfl⟩, rfl⟩
    simpa using hfull
  · intro hfull
    exact ⟨word.toList, ⟨_, hfull, rfl⟩, String.ofList_toList⟩

namespace Schema

variable {s : Schema} (hs : s.Sound)
include hs

/-- A bean is found by its full name, or by its name from inside the namespace. -/
theorem Sound.fullName_of_findType? {space word : String} {id : Nat}
    (h : s.findType? word (some space) = some (.bean id)) :
    (s.bean id).fullName = word ∨ (s.bean id).fullName = space ++ "." ++ word := by
  unfold findType? Names.lookup at h
  split at h
  · rename_i href
    cases h
    exact .inl ((hs.beanNames _ _).1 href).2
  · dsimp only at h
    split at h
    · cases h
    · exact .inr ((hs.beanNames _ _).1 h).2

/-- **The spellings of a bean are the texts that it is found by.** -/
theorem Sound.mem_spellings_iff {space word : String} {id : Nat} :
    word ∈ Rule.spellings s space id ↔ s.findType? word (some space) = some (.bean id) := by
  unfold Rule.spellings
  rw [List.mem_filter, beq_iff_eq, List.mem_cons, Option.mem_toList,
    Rule.relativeName?_eq_some_iff]
  constructor
  · exact And.right
  · intro h
    refine ⟨?_, h⟩
    rcases hs.fullName_of_findType? h with heq | heq
    · exact .inl heq.symm
    · exact .inr heq

/-- Those of a family are the texts that are found to be a member of it. -/
theorem Sound.mem_family_spellings_iff {base : Nat} (hbase : base < s.beans.length)
    {space word : String} : word ∈ (s.bean base).family.flatMap (Rule.spellings s space) ↔
      ∃ id, s.findType? word (some space) = some (.bean id) ∧ s.isAssignable base id = true := by
  simp only [List.mem_flatMap, hs.mem_spellings_iff, hs.mem_family hbase, hs.isAssignable_iff]
  exact exists_congr fun id => and_comm

end Schema

/-- **A text names the base or a descendant of it if and only if it is found to be one** from inside
    the namespace of the base. -/
theorem Descriptor.faults_names_iff {d : Descriptor} {site : Site} (hb : d.build = .ok site.schema)
    {ty : Ty} {argument : String} {rule : Rule}
    (hc : RuleKind.constructor.compile site ty argument = .ok rule) :
    ∃ base, site.schema.findType? (Text.trimmed argument) (some site.bean.space) =
        some (.bean base) ∧
      ∀ word, Text.isBlankText word = false →
        (rule.faults site.schema (.string word) = [] ↔
          ∃ id, site.schema.findType? word (some (site.schema.bean base).space) = some (.bean id) ∧
            site.schema.isAssignable base id = true) := by
  obtain ⟨g, hg, -⟩ := exists_history_of_build hb
  have hs := Schema.sound_of_build hg
  obtain ⟨-, -, base, hbase, rfl⟩ := RuleKind.compile_constructor_eq_ok.1 hc
  refine ⟨base, hbase, fun word hword => ?_⟩
  rw [← hs.mem_family_spellings_iff (hs.lt_of_findType? hbase), ← List.contains_iff_mem]
  show Rule.nameFaults _ _ _ word = [] ↔ _
  unfold Rule.nameFaults
  rw [hword, if_neg Bool.false_ne_true]
  split
  · rename_i hmem
    exact iff_of_true rfl hmem
  · rename_i hmem
    exact iff_of_false (List.cons_ne_nil _ _) hmem

/-- A base with a descendant inside its namespace and one outside, and a bean that is called in full
    what another descendant is called from inside. -/
def figures : Descriptor where
  enums := []
  beans := [⟨"geo.Shape", none, none, none, []⟩,
    ⟨"geo.flat.Ring", some "geo.Shape", none, none, []⟩,
    ⟨"Dot", some "geo.flat.Ring", none, none, []⟩,
    ⟨"geo.Box", some "geo.Shape", none, none, []⟩,
    ⟨"Box", none, none, none, []⟩]
  tables := []

def figuresSchema : Schema where
  beans := [⟨"geo.Shape", none, none, [], none, [], [1, 3], [0, 1, 2, 3], [2, 3]⟩,
    ⟨"geo.flat.Ring", none, some 0, [], none, [], [2], [1, 2], [2]⟩,
    ⟨"Dot", none, some 1, [], none, [], [], [2], [2]⟩,
    ⟨"geo.Box", none, some 0, [], none, [], [], [3], [3]⟩,
    ⟨"Box", none, none, [], none, [], [], [4], [4]⟩]
  enums := []
  tables := []
  names := [("geo.Shape", .bean 0), ("geo.flat.Ring", .bean 1), ("Dot", .bean 2),
    ("geo.Box", .bean 3), ("Box", .bean 4)]

/-- A text field of the ring, for its rules. -/
def figuresSite : Site :=
  ⟨figuresSchema, figuresSchema.bean 1, ⟨"frame", none, [], .scalar .plain .string, [], none⟩⟩

theorem faults_names_figures :
    let rule := Rule.namesOf figuresSchema 0
    figures.build = .ok figuresSite.schema ∧
      RuleKind.constructor.compile figuresSite (.scalar .plain .string) " geo.Shape " = .ok rule ∧
      Text.isBlankText "flat.Ring" = false ∧ Text.isBlankText "Dot" = false ∧
      Text.isBlankText "Box" = false ∧
      rule.faults figuresSchema (.string "flat.Ring") = [] ∧
      rule.faults figuresSchema (.string "Dot") = [] ∧
      rule.faults figuresSchema (.string "Box") ≠ [] := by
  intro rule
  have hbuild : figures.build = .ok figuresSite.schema := by rfl
  have hcompile : RuleKind.constructor.compile figuresSite (.scalar .plain .string)
      " geo.Shape " = .ok rule := by rfl
  have hring : Text.isBlankText "flat.Ring" = false := by decide
  have hdot : Text.isBlankText "Dot" = false := by decide
  have hbox : Text.isBlankText "Box" = false := by decide
  obtain ⟨base, hbase, hfaults⟩ := Descriptor.faults_names_iff hbuild hcompile
  obtain rfl : 0 = base := TypeRef.bean.inj (Option.some.inj hbase)
  refine ⟨hbuild, hcompile, hring, hdot, hbox, ?_, ?_, ?_⟩
  · exact (hfaults "flat.Ring" hring).2 ⟨1, rfl, rfl⟩
  · exact (hfaults "Dot" hdot).2 ⟨2, rfl, rfl⟩
  · intro hnone
    -- the name in full comes first, and it is that of another bean
    obtain ⟨id, hid, hbelow⟩ := (hfaults "Box" hbox).1 hnone
    obtain rfl : 4 = id := TypeRef.bean.inj (Option.some.inj hid)
    exact absurd hbelow (by decide)

end GameConfig
