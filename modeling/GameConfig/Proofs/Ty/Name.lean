import GameConfig.Proofs.Ty.Expression
import GameConfig.Ty.Name

/-
  The names of types, read as type expressions.

  The name of a type has no parentheses, and the mark that allows null stands at
  its end.  So the mark of a container stands behind its last part and is read
  as a mark of that part; and the first comma behind `map,` ends the key type,
  which cuts a container in two.

  * `Ty.Legible`: no container allows null, and no key is a container;
  * `Notation.legible_of_read`: only such types are read from names, whatever
    marks stand behind the name;
  * `Notation.read_typeName`: such types are read from their names;
  * `Notation.read_typeName_iff`: a name is read back if and only if its type is
    legible.
-/

namespace GameConfig

open Text Notation

/-- There are no tags on any node. -/
def Ty.Untagged : Ty → Prop
  | .scalar m _ | .named m _ => m.tags = []
  | .seq m _ e => m.tags = [] ∧ e.Untagged
  | .map m k v => m.tags = [] ∧ k.Untagged ∧ v.Untagged

instance Ty.decidableUntagged : (ty : Ty) → Decidable ty.Untagged
  | .scalar m _ | .named m _ => inferInstanceAs (Decidable (m.tags = []))
  | .seq m _ e =>
    have := e.decidableUntagged
    inferInstanceAs (Decidable (m.tags = [] ∧ _))
  | .map m k v =>
    have := k.decidableUntagged
    have := v.decidableUntagged
    inferInstanceAs (Decidable (m.tags = [] ∧ _ ∧ _))

/-- No sequence or map in the type allows null, and no key in it is a sequence or a map. -/
def Ty.Legible : Ty → Prop
  | .scalar _ _ | .named _ _ => True
  | .seq m _ e => m.nullable = false ∧ e.Legible
  | .map m k v => m.nullable = false ∧ k.isCollection = false ∧ k.Legible ∧ v.Legible

instance Ty.decidableLegible : (ty : Ty) → Decidable ty.Legible
  | .scalar _ _ | .named _ _ => .isTrue trivial
  | .seq m _ e =>
    have := e.decidableLegible
    inferInstanceAs (Decidable (m.nullable = false ∧ _))
  | .map m k v =>
    have := k.decidableLegible
    have := v.decidableLegible
    inferInstanceAs (Decidable (m.nullable = false ∧ k.isCollection = false ∧ _ ∧ _))

theorem Ty.legible_of_not_isCollection {ty : Ty} (h : ty.isCollection = false) : ty.Legible := by
  cases ty with
  | scalar m k => trivial
  | named m r => trivial
  | seq m k e => cases h
  | map m k v => cases h

theorem Mark.eq_plain {m : Mark} (hn : m.nullable = false) (ht : m.tags = []) : m = .plain := by
  cases m
  cases hn
  cases ht
  rfl

theorem Mark.toList_onName (m : Mark) (name : String) :
    (m.onName name).toList = name.toList ++ nullMark m := by
  unfold onName nullMark
  split
  · exact String.toList_append
  · rw [List.append_nil]

theorem Mark.tidy_of_tags {m : Mark} (h : m.tags = []) : m.Tidy := by
  constructor <;> simp [h, Assoc.keys]

namespace Notation

/-! ## Words and commas -/

/-- What ends the part before a comma. -/
def separators : List Char := [',', '(', ')', '[', ']']

theorem IsWord.not_mem_separators {w : List Char} (hw : IsWord w) : ∀ c ∈ w, c ∉ separators := by
  intro c hc hmem
  simp only [separators, List.mem_cons, List.not_mem_nil, or_false] at hmem
  rcases hmem with rfl | rfl | rfl | rfl | rfl <;> exact hw.not_mem (by decide) rfl hc

/-- A word ends where no character of words follows. -/
theorem IsWord.leadingWord_append {w rest : List Char} (hw : IsWord w)
    (hrest : ∀ c ∈ rest.head?, (isNameChar c || c == '.') = false) :
    leadingWord (w ++ rest) = w := by
  have hall : ∀ c ∈ w, (isNameChar c || c == '.') = true := by
    intro c hc
    rcases hw.chars c hc with rfl | h
    · rfl
    · rw [h, Bool.true_or]
  have hnone : rest.takeWhile (fun c => isNameChar c || c == '.') = [] := by
    cases rest with
    | nil => rfl
    | cons c rest => exact List.takeWhile_cons_of_neg (by simpa using hrest c rfl)
  rw [leadingWord, List.takeWhile_append_of_pos hall, hnone, List.append_nil]

theorem IsWord.head?_append_ne {w : List Char} (hw : IsWord w) (rest : List Char) :
    (w ++ rest).head? ≠ some '(' := by
  intro h
  rw [List.head?_append_of_ne_nil _ hw.ne_nil] at h
  exact hw.not_mem (by decide) rfl (List.mem_of_head? h)

/-- The first comma outside all brackets stands behind what has neither. -/
theorem splitAt?_of_free {key : List Char} (hkey : ∀ c ∈ key, c ∉ separators)
    (rest : List Char) : splitAt? 0 (key ++ ',' :: rest) = some (key, rest) := by
  induction key with
  | nil => rfl
  | cons c key ih =>
    rw [List.forall_mem_cons] at hkey
    obtain ⟨hcomma, hopen, hclose, hopen', hclose'⟩ :
        c ≠ ',' ∧ c ≠ '(' ∧ c ≠ ')' ∧ c ≠ '[' ∧ c ≠ ']' := by simpa [separators] using hkey.1
    have hdepth : nesting 0 c = 0 := by simp [nesting, *]
    rw [List.cons_append, splitAt?, if_neg (fun h => hcomma h.1), hdepth, ih hkey.2]

theorem splitTop_of_free {key rest : List Char} (hkey : ∀ c ∈ key, c ∉ separators)
    (hblank : ∀ c ∈ key ++ ',' :: rest, isBlank c = false) :
    splitTop (key ++ ',' :: rest) = some (key, rest) := by
  have hk : trim key = key := trim_of_free fun c hc => hblank c (by simp [hc])
  have hr : trim rest = rest := trim_of_free fun c hc => hblank c (by simp [hc])
  rw [splitTop, splitAt?_of_free hkey]
  simp only [hk, hr]

section
variable {scope : Scope} {w rest : List Char} {ty : Ty}

/-- The word of a container is a head. -/
theorem shape_container (hw : IsWord w) (hc : (container? w).isSome = true)
    (hblank : ∀ c ∈ w ++ ',' :: rest, isBlank c = false) :
    shape (trim (w ++ ',' :: rest)) = .ok (.headed w (some rest)) := by
  have hleading : leadingWord (w ++ ',' :: rest) = w := hw.leadingWord_append (by simp; rfl)
  rw [trim_of_free hblank]
  exact shape_eq_ok.2 (.container (hw.head?_append_ne _) (by rwa [hleading])
    (splitTop_of_free hw.not_mem_separators hblank))

theorem headText_plain (word : String) : headText word .plain = word.toList := by
  simp [headText, nullMark, Mark.plain, tagsText]

theorem readHead_plain {word : String} (hw : IsWord word.toList) :
    readHead word.toList = some ⟨word.toList, .plain⟩ := by
  have h := readHead_headText (m := .plain) hw (Mark.tidy_of_tags rfl)
  rwa [headText_plain] at h

/-- A sequence is read from its word and its element type. -/
theorem read_seqName {k : SeqKind}
    (hblank : ∀ c ∈ k.name.toList ++ ',' :: rest, isBlank c = false) :
    read scope (k.name.toList ++ ',' :: rest) = .ok ty ↔
      ∃ e, read scope rest = .ok e ∧ ty = .seq .plain k e := by
  have hw := isWord_seq k
  have hc : container? k.name.toList = some (.seq k) := by cases k <;> rfl
  have hs := shape_container hw (by rw [hc]; rfl) hblank
  constructor
  · intro h
    cases read_eq_ok.1 h with
    | whole hs' => rw [hs] at hs'; cases hs'
    | name hs' => rw [hs] at hs'; cases hs'
    | seq hs' hh hc' he =>
      rw [hs] at hs'
      cases hs'
      rw [readHead_plain hw] at hh
      cases hh
      rw [hc] at hc'
      cases hc'
      exact ⟨_, read_eq_ok.2 he, rfl⟩
    | map hs' hh hc' =>
      rw [hs] at hs'
      cases hs'
      rw [readHead_plain hw] at hh
      cases hh
      rw [hc] at hc'
      cases hc'
  · rintro ⟨e, he, rfl⟩
    exact read_seq hs (readHead_plain hw) hc he

/-- A map is read from its word, what stands before the next comma and what stands behind it. -/
theorem read_mapName {key value : List Char} (hkey : ∀ c ∈ key, c ∉ separators)
    (hblank : ∀ c ∈ "map".toList ++ ',' :: (key ++ ',' :: value), isBlank c = false) :
    read scope ("map".toList ++ ',' :: (key ++ ',' :: value)) = .ok ty ↔
      ∃ k v, read scope key = .ok k ∧ read scope value = .ok v ∧ ty = .map .plain k v := by
  have hs := shape_container isWord_map rfl hblank
  have hsplit := splitTop_of_free hkey fun c hc =>
    hblank c (List.mem_append_right _ (List.mem_cons_of_mem _ hc))
  constructor
  · intro h
    cases read_eq_ok.1 h with
    | whole hs' => rw [hs] at hs'; cases hs'
    | name hs' => rw [hs] at hs'; cases hs'
    | seq hs' hh hc =>
      rw [hs] at hs'
      cases hs'
      rw [readHead_plain isWord_map] at hh
      cases hh
      cases hc
    | map hs' hh hc hr hk hv =>
      rw [hs] at hs'
      cases hs'
      rw [readHead_plain isWord_map] at hh
      cases hh
      rw [hsplit] at hr
      cases hr
      exact ⟨_, _, read_eq_ok.2 hk, read_eq_ok.2 hv, rfl⟩
  · rintro ⟨k, v, hk, hv, rfl⟩
    exact read_map hs (readHead_plain isWord_map) rfl hsplit hk hv

/-- A container without its parts is no type. -/
theorem read_container_ne_ok (hw : IsWord w) (hc : (container? w).isSome = true) :
    read scope w ≠ .ok ty := by
  have hnone : splitAt? 0 w = none := by
    cases h : splitAt? 0 w with
    | none => rfl
    | some p =>
      have hmem : ',' ∈ w := by
        rw [eq_of_splitAt? h]
        simp
      exact absurd (by decide) (hw.not_mem_separators ',' hmem)
  have htrim : trim w = w := trim_of_free fun c => hw.isBlank
  have hleading : leadingWord (w ++ []) = w := hw.leadingWord_append (by simp)
  have hparen := hw.head?_append_ne []
  rw [List.append_nil] at hleading hparen
  have hs : shape (trim w) = .error .noElement := by
    rw [htrim, shape_of_head hparen, hleading, if_pos hc, splitTop, hnone]
  intro h
  rw [read_fault hs (htrim.symm ▸ hw.ne_nil)] at h
  cases h

/-- Whatever marks stand behind a word that is no container, no container is read from it. -/
theorem not_isCollection_of_read {marks : List Char} (hw : IsWord w) (hc : container? w = none)
    (hm : ∀ c ∈ marks, c = '?') (h : read scope (w ++ marks) = .ok ty) :
    ty.isCollection = false := by
  have hblank : ∀ c ∈ w ++ marks, isBlank c = false := by
    intro c hmem
    rcases List.mem_append.1 hmem with hmem | hmem
    · exact hw.isBlank hmem
    · rw [hm c hmem]
      rfl
  have hleading : leadingWord (w ++ marks) = w := by
    refine hw.leadingWord_append fun c hfirst => ?_
    rw [hm c (List.mem_of_head? hfirst)]
    rfl
  have hs : shape (trim (w ++ marks)) = .ok (.headed (w ++ marks) none) := by
    rw [trim_of_free hblank]
    exact shape_eq_ok.2 (.alone (hw.head?_append_ne _) (by rw [hleading, hc]))
  cases read_eq_ok.1 h with
  | whole hs' => rw [hs] at hs'; cases hs'
  | name _ _ hl => rcases leaf_eq_ok.1 hl with ⟨k, -, rfl⟩ | ⟨-, -, -, ref, -, rfl⟩ <;> rfl
  | seq hs' => rw [hs] at hs'; cases hs'
  | map hs' => rw [hs] at hs'; cases hs'

end

/-! ## Names of types -/

section
variable {s : Schema} {scope : Scope} {ty : Ty}

theorem name_seq (m : Mark) (k : SeqKind) (e : Ty) : ((Ty.seq m k e).name s).toList =
    k.name.toList ++ ',' :: ((e.name s).toList ++ nullMark m) := by
  rw [Ty.name, Mark.toList_onName]
  simp

theorem name_map (m : Mark) (k v : Ty) : ((Ty.map m k v).name s).toList =
    "map".toList ++ ',' :: ((k.name s).toList ++ ',' :: ((v.name s).toList ++ nullMark m)) := by
  rw [Ty.name, Mark.toList_onName]
  simp

theorem nullMark_eq (m : Mark) : ∀ c ∈ nullMark m, c = '?' := by
  intro c hc
  unfold nullMark at hc
  split at hc
  · exact List.mem_singleton.1 hc
  · cases hc

theorem nullMark_append (m : Mark) {marks : List Char} (hm : ∀ c ∈ marks, c = '?') :
    ∀ c ∈ nullMark m ++ marks, c = '?' :=
  List.forall_mem_append.2 ⟨nullMark_eq m, hm⟩

/-- Names of types have no blanks. -/
theorem isBlank_of_mem_name (hn : ∀ r ∈ ty.refs, IsTypeName (s.refName r)) :
    ∀ c ∈ (ty.name s).toList, isBlank c = false := by
  have hmark : ∀ (m : Mark) (c : Char), c ∈ nullMark m → isBlank c = false := by
    intro m c hc
    rw [nullMark_eq m c hc]
    rfl
  induction ty with
  | scalar m k =>
    intro c hc
    rw [Ty.name, Mark.toList_onName] at hc
    rcases List.mem_append.1 hc with hc | hc
    · exact (isWord_scalar k).isBlank hc
    · exact hmark m c hc
  | named m r =>
    intro c hc
    rw [Ty.name, Mark.toList_onName] at hc
    rcases List.mem_append.1 hc with hc | hc
    · exact (hn r (List.mem_singleton_self r)).isWord.isBlank hc
    · exact hmark m c hc
  | seq m k e ih =>
    intro c hc
    rw [name_seq] at hc
    simp only [List.mem_append, List.mem_cons] at hc
    rcases hc with hc | rfl | hc | hc
    · exact (isWord_seq k).isBlank hc
    · rfl
    · exact ih hn c hc
    · exact hmark m c hc
  | map m k v ihk ihv =>
    obtain ⟨hnk, hnv⟩ := List.forall_mem_append.1 hn
    intro c hc
    rw [name_map] at hc
    simp only [List.mem_append, List.mem_cons] at hc
    rcases hc with hc | rfl | hc | rfl | hc | hc
    · exact isWord_map.isBlank hc
    · rfl
    · exact ihk hnk c hc
    · rfl
    · exact ihv hnv c hc
    · exact hmark m c hc

/-- So they have none with marks behind them. -/
theorem isBlank_of_mem_marked (hn : ∀ r ∈ ty.refs, IsTypeName (s.refName r)) {marks : List Char}
    (hm : ∀ c ∈ marks, c = '?') : ∀ c ∈ (ty.name s).toList ++ marks, isBlank c = false := by
  intro c hc
  rcases List.mem_append.1 hc with hc | hc
  · exact isBlank_of_mem_name hn c hc
  · rw [hm c hc]
    rfl

/-- The name of a type without parts is a word with its mark. -/
theorem exists_word_of_leaf (hn : ∀ r ∈ ty.refs, IsTypeName (s.refName r))
    (h : ty.isCollection = false) :
    ∃ w, IsWord w ∧ container? w = none ∧ (ty.name s).toList = w ++ nullMark ty.mark := by
  cases ty with
  | scalar m k => exact ⟨_, isWord_scalar k, container?_scalar k, Mark.toList_onName m _⟩
  | named m r =>
    have hr := hn r (List.mem_singleton_self r)
    exact ⟨_, hr.isWord, hr.container?, Mark.toList_onName m _⟩
  | seq m k e => cases h
  | map m k v => cases h

/-- The name of a container is its word, a comma and more. -/
theorem exists_word_of_container (h : ty.isCollection = true) :
    ∃ w rest, IsWord w ∧ (container? w).isSome = true ∧ (ty.name s).toList = w ++ ',' :: rest := by
  cases ty with
  | scalar m k => cases h
  | named m r => cases h
  | seq m k e => exact ⟨_, _, isWord_seq k, by cases k <;> rfl, name_seq m k e⟩
  | map m k v => exact ⟨_, _, isWord_map, rfl, name_map m k v⟩

/-- The name of a type without parts has no separators. -/
theorem not_mem_separators_of_leaf (hn : ∀ r ∈ ty.refs, IsTypeName (s.refName r))
    (h : ty.isCollection = false) : ∀ c ∈ (ty.name s).toList, c ∉ separators := by
  obtain ⟨w, hw, -, hname⟩ := exists_word_of_leaf hn h
  intro c hmem
  rw [hname] at hmem
  rcases List.mem_append.1 hmem with hmem | hmem
  · exact hw.not_mem_separators c hmem
  · rw [nullMark_eq _ c hmem]
    decide

/-- No container is read from the name of a type without parts. -/
theorem not_isCollection_of_read_leaf (hn : ∀ r ∈ ty.refs, IsTypeName (s.refName r))
    (hleaf : ty.isCollection = false) {marks : List Char} (hm : ∀ c ∈ marks, c = '?') {ty' : Ty}
    (h : read scope ((ty.name s).toList ++ marks) = .ok ty') : ty'.isCollection = false := by
  obtain ⟨w, hw, hc, hname⟩ := exists_word_of_leaf hn hleaf
  rw [hname, List.append_assoc] at h
  exact not_isCollection_of_read hw hc (nullMark_append ty.mark hm) h

/-- **Only legible types are read from names**, whatever marks stand behind the name. -/
theorem legible_of_read (hn : ∀ r ∈ ty.refs, IsTypeName (s.refName r)) {marks : List Char}
    (hm : ∀ c ∈ marks, c = '?') {ty' : Ty}
    (h : read scope ((ty.name s).toList ++ marks) = .ok ty') : ty'.Legible := by
  induction ty generalizing marks ty' with
  | scalar m k =>
    exact Ty.legible_of_not_isCollection (not_isCollection_of_read_leaf hn rfl hm h)
  | named m r =>
    exact Ty.legible_of_not_isCollection (not_isCollection_of_read_leaf hn rfl hm h)
  | seq m k e ih =>
    have hblank : ∀ c ∈ ((Ty.seq m k e).name s).toList ++ marks, isBlank c = false :=
      isBlank_of_mem_marked hn hm
    rw [name_seq, List.append_assoc, List.cons_append, List.append_assoc] at h hblank
    obtain ⟨e', he', rfl⟩ := (read_seqName hblank).1 h
    -- the mark of the sequence is read with its element type
    exact ⟨rfl, ih hn (nullMark_append m hm) he'⟩
  | map m k v ihk ihv =>
    have hblank : ∀ c ∈ ((Ty.map m k v).name s).toList ++ marks, isBlank c = false :=
      isBlank_of_mem_marked hn hm
    obtain ⟨hnk, hnv⟩ := List.forall_mem_append.1 hn
    rw [name_map] at h hblank
    simp only [List.append_assoc, List.cons_append] at h hblank
    cases hkey : k.isCollection with
    | true =>
      -- the key is cut at its first comma, and its word alone is no type
      obtain ⟨w, rest, hw, hc, hname⟩ := exists_word_of_container (s := s) hkey
      rw [hname, List.append_assoc, List.cons_append] at h hblank
      obtain ⟨k', v', hk', -, -⟩ := (read_mapName hw.not_mem_separators hblank).1 h
      exact absurd hk' (read_container_ne_ok hw hc)
    | false =>
      obtain ⟨k', v', hk', hv', rfl⟩ :=
        (read_mapName (not_mem_separators_of_leaf hnk hkey) hblank).1 h
      have hno : ∀ c ∈ ([] : List Char), c = '?' := by simp
      have hleaf : k'.isCollection = false :=
        not_isCollection_of_read_leaf hnk hkey hno (by simpa using hk')
      exact ⟨rfl, hleaf, Ty.legible_of_not_isCollection hleaf,
        ihv hnv (nullMark_append m hm) hv'⟩

/-- **Legible types are read from their names**, where the names of beans and enums resolve to
    them. -/
theorem read_typeName (hn : ∀ r ∈ ty.refs, IsTypeName (s.refName r))
    (hr : ∀ r ∈ ty.refs, scope.resolve (s.refName r) = some r) (hu : ty.Untagged)
    (hl : ty.Legible) : read scope (ty.name s).toList = .ok ty := by
  induction ty with
  | scalar m k =>
    have htext : headText k.name m = ((Ty.scalar m k).name s).toList := by
      rw [Ty.name, Mark.toList_onName, headText, hu, tagsText, List.append_nil]
    rw [← htext, read_headText (isWord_scalar k) (Mark.tidy_of_tags hu) (container?_scalar k),
      leaf_scalar]
  | named m r =>
    have hname := hn r (List.mem_singleton_self r)
    have htext : headText (s.refName r) m = ((Ty.named m r).name s).toList := by
      rw [Ty.name, Mark.toList_onName, headText, hu, tagsText, List.append_nil]
    rw [← htext, read_headText hname.isWord (Mark.tidy_of_tags hu) hname.container?,
      leaf_named hname (hr r (List.mem_singleton_self r))]
  | seq m k e ih =>
    have hblank : ∀ c ∈ ((Ty.seq m k e).name s).toList, isBlank c = false := isBlank_of_mem_name hn
    rw [Mark.eq_plain hl.1 hu.1] at hblank ⊢
    rw [name_seq] at hblank ⊢
    refine (read_seqName hblank).2 ⟨e, ?_, rfl⟩
    rw [nullMark, if_neg (by decide), List.append_nil]
    exact ih hn hr hu.2 hl.2
  | map m k v ihk ihv =>
    have hblank : ∀ c ∈ ((Ty.map m k v).name s).toList, isBlank c = false := isBlank_of_mem_name hn
    obtain ⟨hplain, hleaf, hlk, hlv⟩ := hl
    obtain ⟨hnk, hnv⟩ := List.forall_mem_append.1 hn
    obtain ⟨hrk, hrv⟩ := List.forall_mem_append.1 hr
    rw [Mark.eq_plain hplain hu.1] at hblank ⊢
    rw [name_map] at hblank ⊢
    refine (read_mapName (not_mem_separators_of_leaf hnk hleaf) hblank).2
      ⟨k, v, ihk hnk hrk hu.2.1 hlk, ?_, rfl⟩
    rw [nullMark, if_neg (by decide), List.append_nil]
    exact ihv hnv hrv hu.2.2 hlv

/-- **A name is read back if and only if its type is legible.** -/
theorem read_typeName_iff (hn : ∀ r ∈ ty.refs, IsTypeName (s.refName r))
    (hr : ∀ r ∈ ty.refs, scope.resolve (s.refName r) = some r) (hu : ty.Untagged) :
    read scope (ty.name s).toList = .ok ty ↔ ty.Legible := by
  constructor
  · intro h
    rw [← List.append_nil (ty.name s).toList] at h
    exact legible_of_read hn (by simp) h
  · exact read_typeName hn hr hu

end

end Notation

end GameConfig
