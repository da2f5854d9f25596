import GameConfig.Schema.Error
import GameConfig.Text.Blank
import GameConfig.Text.Cut
import GameConfig.Ty.Basic

/-
  Type expressions.

  A scalar or named type is its name; `?` behind it allows null, `#key=value`
  behind that adds a tag.  A container is followed by a comma and its element
  type, a map by its key type and its value type.  Parentheses hold a head
  together with its tags, or a whole type.

  * `Ty.parse` reads an expression in a `Scope`, which resolves names;
  * `splitTop` cuts at the first comma outside brackets and parentheses,
    `closing` finds the parenthesis that closes the first one.
-/

namespace GameConfig

open Text

/-- Where a type expression stands: how names resolve there, and how the place is called. -/
structure Scope where
  resolve : String → Option TypeRef
  context : String

namespace Notation

/-! ## Names -/

/-- A letter or underscore, which may begin a name. -/
def isNameStart (c : Char) : Bool :=
  ('A' ≤ c && c ≤ 'Z') || ('a' ≤ c && c ≤ 'z') || c == '_'

def isNameChar (c : Char) : Bool := isNameStart c || ('0' ≤ c && c ≤ '9')

/-- A name: a letter or underscore, then letters, digits and underscores. -/
def isName : List Char → Bool
  | [] => false
  | c :: cs => isNameStart c && cs.all isNameChar

/-- Names joined by dots. -/
def isFullName (cs : List Char) : Bool := (pieces '.' cs).all isName

theorem isNameChar_of_isName {cs : List Char} (h : isName cs = true) :
    ∀ c ∈ cs, isNameChar c = true := by
  cases cs with
  | nil => simp
  | cons c cs =>
    rw [isName, Bool.and_eq_true, List.all_eq_true] at h
    exact List.forall_mem_cons.2 ⟨by simp [isNameChar, h.1], h.2⟩

/-- The characters of a full name are those of names, and dots. -/
theorem isNameChar_of_isFullName {cs : List Char} (h : isFullName cs = true) {c : Char}
    (hc : c ∈ cs) : c = '.' ∨ isNameChar c = true := by
  by_cases hdot : c = '.'
  · exact .inl hdot
  · obtain ⟨p, hp, hcp⟩ := mem_pieces hc hdot
    exact .inr (isNameChar_of_isName (List.all_eq_true.1 h p hp) c hcp)

/-! ## Splitting -/

/-- The number of open brackets and parentheses behind a character. -/
def nesting (depth : Int) (c : Char) : Int :=
  if c = '(' ∨ c = '[' then depth + 1 else if c = ')' ∨ c = ']' then depth - 1 else depth

/-- The parts before and after the first comma at depth zero, with `depth` brackets open. -/
def splitAt? (depth : Int) : List Char → Option (List Char × List Char)
  | [] => none
  | c :: cs =>
    if c = ',' ∧ depth = 0 then some ([], cs)
    else match splitAt? (nesting depth c) cs with
      | some (before, after) => some (c :: before, after)
      | none => none

/-- The trimmed parts before and after the first comma outside brackets and parentheses. -/
def splitTop (cs : List Char) : Option (List Char × List Char) :=
  match splitAt? 0 cs with
  | some (before, after) => some (trim before, trim after)
  | none => none

/-- The number of open parentheses behind a character. -/
def parenDepth (depth : Int) (c : Char) : Int :=
  if c = '(' then depth + 1 else if c = ')' then depth - 1 else depth

/-- The parts before and after the parenthesis that brings the depth to zero. -/
def closing (depth : Int) : List Char → Option (List Char × List Char)
  | [] => none
  | c :: cs =>
    if c = ')' ∧ depth = 1 then some ([], cs)
    else match closing (parenDepth depth c) cs with
      | some (inner, after) => some (c :: inner, after)
      | none => none

theorem length_of_splitAt? {depth : Int} {cs before after : List Char}
    (h : splitAt? depth cs = some (before, after)) :
    before.length + after.length + 1 = cs.length := by
  induction cs generalizing depth before with
  | nil => simp [splitAt?] at h
  | cons c cs ih =>
    unfold splitAt? at h
    split at h
    · simp only [Option.some.injEq, Prod.mk.injEq] at h
      obtain ⟨rfl, rfl⟩ := h
      simp
    · split at h
      · rename_i b a hs
        simp only [Option.some.injEq, Prod.mk.injEq] at h
        obtain ⟨rfl, rfl⟩ := h
        have := ih hs
        simp only [List.length_cons]
        omega
      · simp at h

theorem length_of_closing {depth : Int} {cs inner after : List Char}
    (h : closing depth cs = some (inner, after)) :
    inner.length + after.length + 1 = cs.length := by
  induction cs generalizing depth inner with
  | nil => simp [closing] at h
  | cons c cs ih =>
    unfold closing at h
    split at h
    · simp only [Option.some.injEq, Prod.mk.injEq] at h
      obtain ⟨rfl, rfl⟩ := h
      simp
    · split at h
      · rename_i b a hs
        simp only [Option.some.injEq, Prod.mk.injEq] at h
        obtain ⟨rfl, rfl⟩ := h
        have := ih hs
        simp only [List.length_cons]
        omega
      · simp at h

theorem length_dropWhile_le (p : Char → Bool) (cs : List Char) :
    (cs.dropWhile p).length ≤ cs.length := by
  induction cs with
  | nil => simp
  | cons c cs ih =>
    simp only [List.dropWhile_cons]
    split
    · simp only [List.length_cons]
      omega
    · simp

theorem length_trimStart_le (cs : List Char) : (trimStart cs).length ≤ cs.length :=
  length_dropWhile_le _ _

theorem length_trimEnd_le (cs : List Char) : (trimEnd cs).length ≤ cs.length := by
  simpa [trimEnd] using length_dropWhile_le isBlank cs.reverse

theorem length_trim_le (cs : List Char) : (trim cs).length ≤ cs.length :=
  Nat.le_trans (length_trimEnd_le _) (length_trimStart_le _)

theorem length_of_splitTop {cs before after : List Char}
    (h : splitTop cs = some (before, after)) :
    before.length < cs.length ∧ after.length < cs.length := by
  unfold splitTop at h
  split at h
  · rename_i b a hs
    simp only [Option.some.injEq, Prod.mk.injEq] at h
    obtain ⟨rfl, rfl⟩ := h
    have := length_of_splitAt? hs
    have := length_trim_le b
    have := length_trim_le a
    omega
  · simp at h

/-! ## Heads -/

/-- The head of an expression: its name and mark. -/
structure Head where
  name : List Char
  mark : Mark

/-- The tags of a head, one in each segment behind a `#`. -/
def readTags (tags : Tags) : List (List Char) → Option Tags
  | [] => some tags
  | segment :: segments =>
    let (key, value) := match cut '=' segment with
      | some (k, v) => (trim k, trim v)
      | none => (trim segment, [])
    if key.isEmpty then none
    else readTags (Assoc.insert (String.ofList key) (String.ofList value) tags) segments

/-- The name of a head and whether a `?` stands behind it. -/
def readName (segment : List Char) : List Char × Bool :=
  let name := trim segment
  match name.getLast? with
  | some '?' => (trimEnd name.dropLast, true)
  | _ => (name, false)

/-- Reads a head; none if a tag has no name. -/
def readHead (cs : List Char) : Option Head :=
  match pieces '#' cs with
  | [] => none
  | first :: segments =>
    let (name, nullable) := readName first
    match readTags [] segments with
    | some tags => some ⟨name, nullable, tags⟩
    | none => none

/-- The containers and their words. -/
inductive Container where
  | seq (kind : SeqKind)
  | map
deriving DecidableEq, Repr

/-- The container that a word stands for. -/
def container? (name : List Char) : Option Container :=
  if name = ['a', 'r', 'r', 'a', 'y'] then some (.seq .array)
  else if name = ['l', 'i', 's', 't'] then some (.seq .list)
  else if name = ['s', 'e', 't'] then some (.seq .set)
  else if name = ['m', 'a', 'p'] then some .map
  else none

/-- The scalar type that a word stands for. -/
def scalar? (name : List Char) : Option Scalar :=
  Scalar.all.find? fun s => s.name.toList = name

/-- The type of a name without element types. -/
def leaf (scope : Scope) (mark : Mark) (name : List Char) : Except SchemaError Ty :=
  let word := String.ofList name
  match scalar? name with
  | some s => .ok (.scalar mark s)
  | none =>
    if (container? name).isSome then .error (.invalidType word .noElement)
    else if !isFullName name then .error (.invalidType word .malformedName)
    else match scope.resolve word with
      | some ref => .ok (.named mark ref)
      | none => .error (.unknownType word scope.context)

/-- The shapes of an expression: a whole type in parentheses, or a head that an element type
    may follow. -/
inductive Shape where
  | whole (inner : List Char)
  | headed (head : List Char) (elements : Option (List Char))

/-- The word at the start of an expression. -/
def leadingWord (cs : List Char) : List Char := cs.takeWhile fun c => isNameChar c || c == '.'

/-- Takes a trimmed expression apart. -/
def shape : List Char → Except TypeFault Shape
  | '(' :: cs =>
    match closing 1 cs with
    | none => .error .unbalanced
    | some (inner, after) =>
      match trimStart after with
      | [] => .ok (.whole inner)
      | ',' :: rest => .ok (.headed inner (some rest))
      | _ => .error .noComma
  | cs =>
    if (container? (leadingWord cs)).isSome then
      match splitTop cs with
      | some (head, rest) => .ok (.headed head (some rest))
      | none => .error .noElement
    else .ok (.headed cs none)

theorem length_of_shape_whole {cs inner : List Char} (h : shape cs = .ok (.whole inner)) :
    inner.length < cs.length := by
  unfold shape at h
  split at h
  · rename_i cs'
    split at h
    · simp at h
    · rename_i i a hc
      have := length_of_closing hc
      split at h
      · simp only [Except.ok.injEq, Shape.whole.injEq] at h
        subst h
        simp only [List.length_cons]
        omega
      · simp at h
      · simp at h
  · split at h
    · split at h <;> simp at h
    · simp at h

theorem length_of_shape_headed {cs head rest : List Char}
    (h : shape cs = .ok (.headed head (some rest))) : rest.length < cs.length := by
  unfold shape at h
  split at h
  · rename_i cs'
    split at h
    · simp at h
    · rename_i i a hc
      have hl := length_of_closing hc
      have ht := length_trimStart_le a
      split at h
      · simp at h
      · rename_i r hr
        simp only [Except.ok.injEq, Shape.headed.injEq, Option.some.injEq] at h
        obtain ⟨rfl, rfl⟩ := h
        simp only [hr, List.length_cons] at ht
        simp only [List.length_cons]
        omega
      · simp at h
  · split at h
    · split at h
      · rename_i hd r hs
        simp only [Except.ok.injEq, Shape.headed.injEq, Option.some.injEq] at h
        obtain ⟨rfl, rfl⟩ := h
        exact (length_of_splitTop hs).2
      · simp at h
    · simp at h

/-! ## Expressions -/

/-- Reads a type expression. -/
def read (scope : Scope) (expression : List Char) : Except SchemaError Ty :=
  let invalid (fault : TypeFault) : Except SchemaError Ty :=
    .error (.invalidType (String.ofList expression) fault)
  let body := trim expression
  if body.isEmpty then invalid .empty
  else
    match _hs : shape body with
    | .error fault => invalid fault
    | .ok (.whole inner) => read scope inner
    | .ok (.headed head none) =>
      match readHead head with
      | none => invalid .emptyTag
      | some h => leaf scope h.mark h.name
    | .ok (.headed head (some rest)) =>
      match readHead head with
      | none => invalid .emptyTag
      | some h =>
        match container? h.name with
        | none => invalid .notContainer
        | some (.seq kind) =>
          match read scope rest with
          | .error e => .error e
          | .ok elem => .ok (.seq h.mark kind elem)
        | some .map =>
          match _hr : splitTop rest with
          | none => invalid .noKeyAndValue
          | some (key, value) =>
            match read scope key with
            | .error e => .error e
            | .ok k =>
              match read scope value with
              | .error e => .error e
              | .ok v => .ok (.map h.mark k v)
termination_by expression.length
decreasing_by
  all_goals
    have hb := length_trim_le expression
    simp only [body] at _hs
  · have := length_of_shape_whole _hs
    omega
  · have := length_of_shape_headed _hs
    omega
  · have := length_of_shape_headed _hs
    have := length_of_splitTop _hr
    omega
  · have := length_of_shape_headed _hs
    have := length_of_splitTop _hr
    omega

end Notation

/-- Reads a type expression in a scope. -/
def Ty.parse (scope : Scope) (expression : String) : Except SchemaError Ty :=
  Notation.read scope expression.toList

end GameConfig
