import GameConfig.Descriptor.Reader
import GameConfig.Proofs.Json.Decode
import GameConfig.Proofs.Json.Front
import GameConfig.Proofs.Text.Utf8
import Mathlib

/-
  A descriptor stands at the front of its text.

  The shapes of descriptors agree on texts and on values (`agrees_shape`), so
  what a text is read as is what the value at its front is read as.  What
  stands behind that value is not looked at: the text as a whole need not be
  one JSON value.
-/

namespace GameConfig

open Text

/-- The value of a text that is one JSON value and nothing else. -/
def Json.readSymbols? (input : List Symbol) : Except Fault Json :=
  let (document, rest) := Document.read input
  match document.toJson? with
  | .error f => .error f
  | .ok j => if (Document.skipBlank rest).isEmpty then .ok j else .error .trailingCharacters

theorem Json.read?_eq (s : String) : Json.read? s = Json.readSymbols? (Text.ofString s) := rfl

/-- The value of bytes that are one JSON value and nothing else. -/
def Json.readBytes? (bytes : List Nat) : Except Fault Json := Json.readSymbols? (Utf8.symbols bytes)

open Decode

/-! ## Texts and values -/

theorem ItemValue.agrees : Agrees ItemValue.decode ItemValue.decode := by
  intro d v h
  unfold ItemValue.decode at h
  split at h
  · cases h
  split at h
  · rename_i i _
    split at h
    · rename_i hfits
      refine ⟨.number (.int i), rfl, ?_⟩
      show ItemValue.decode (.number (.int i)) = .ok v
      simp only [ItemValue.decode, sound, if_pos hfits, h]
    · cases h
  · rename_i t _
    exact ⟨.string t, rfl, h⟩
  · cases h

theorem ItemEntry.agrees_shape : ItemEntry.shape.Agrees ItemEntry.shape where
  closed := rfl
  blank := rfl
  members := .cons (Member.agrees_of agrees_text) <|
    .cons (Member.agrees_of (agrees_optional ItemValue.agrees)) <|
    .cons (Member.agrees_of (agrees_optional agrees_text)) <|
    .cons (Member.agrees_of (agrees_optional agrees_text)) .nil

theorem EnumEntry.agrees_shape : (EnumEntry.shape .text).Agrees (EnumEntry.shape .value) where
  closed := rfl
  blank := rfl
  members := .cons (Member.agrees_of agrees_text) <| .cons (Member.agrees_of agrees_flag) <|
    .cons (Member.agrees_of (agrees_optional agrees_text)) <|
    .cons (Member.agrees_of (agrees_list ItemEntry.agrees_shape.agrees_read)) .nil

theorem FieldEntry.agrees_shape : FieldEntry.shape.Agrees FieldEntry.shape where
  closed := rfl
  blank := rfl
  members := .cons (Member.agrees_of agrees_text) <| .cons (Member.agrees_of agrees_text) <|
    .cons (Member.agrees_of (agrees_optional agrees_text)) <|
    .cons (Member.agrees_of (agrees_list agrees_text)) <|
    .cons (Member.agrees_of (agrees_dictionary agrees_text)) <|
    .cons (Member.agrees_of (agrees_optional agrees_text)) .nil

theorem BeanEntry.agrees_shape : (BeanEntry.shape .text).Agrees (BeanEntry.shape .value) where
  closed := rfl
  blank := rfl
  members := .cons (Member.agrees_of agrees_text) <|
    .cons (Member.agrees_of (agrees_optional agrees_text)) <|
    .cons (Member.agrees_of (agrees_optional agrees_text)) <|
    .cons (Member.agrees_of (agrees_optional agrees_text)) <|
    .cons (Member.agrees_of (agrees_list FieldEntry.agrees_shape.agrees_read)) .nil

theorem TableEntry.agrees_shape : (TableEntry.shape .text).Agrees (TableEntry.shape .value) where
  closed := rfl
  blank := rfl
  members := .cons (Member.agrees_of agrees_text) <| .cons (Member.agrees_of agrees_text) <|
    .cons (Member.agrees_of agrees_choice) <|
    .cons (Member.agrees_of (agrees_optional agrees_text)) <|
    .cons (Member.agrees_of (agrees_list agrees_text)) <|
    .cons (Member.agrees_of (agrees_optional agrees_text)) .nil

namespace Descriptor

theorem agrees_shape : (shape .text).Agrees (shape .value) where
  closed := rfl
  blank := rfl
  members := .cons (Member.agrees_of (agrees_list EnumEntry.agrees_shape.agrees_read)) <|
    .cons (Member.agrees_of (agrees_list BeanEntry.agrees_shape.agrees_read)) <|
    .cons (Member.agrees_of (agrees_list TableEntry.agrees_shape.agrees_read)) .nil

theorem read_of_decode {origin : Origin} {doc : Document} {d : Descriptor}
    (h : decode origin doc = .ok d) : (shape origin).read origin doc = .ok d := by
  unfold decode at h
  split at h
  · rename_i hread
    rw [hread, Except.ok.inj h]
  · cases h

/-- The value of a document that is read as a descriptor is read as the same. -/
theorem ofJson_of_decode {doc : Document} {d : Descriptor} (h : decode .text doc = .ok d) :
    ∃ j, doc.toJson? = .ok j ∧ ofJson j = .ok d := by
  obtain ⟨j, hj, hreads⟩ := agrees_shape.agrees_read (read_of_decode h)
  rw [Reads] at hreads
  exact ⟨j, hj, by rw [ofJson, decode, hreads]⟩

/-- A descriptor is not a number. -/
theorem not_number_of_decode {origin : Origin} {doc : Document} {d : Descriptor}
    (h : decode origin doc = .ok d) : ¬ ∃ x, doc = .number x := by
  rintro ⟨x, rfl⟩
  cases h

/-! ## Whole texts -/

/-- A text that is read as a descriptor begins with a JSON value that is read as the same.  With
    anything else behind that value the same is read, but the text is one JSON value only if
    nothing but white space is there. -/
theorem exists_front_of_decode {input : List Symbol} {d : Descriptor}
    (h : decode .text (Document.read input).1 = .ok d) :
    ∃ (front : List Char) (rest : List Symbol) (j : Json), input = front.map some ++ rest ∧
      ofJson j = .ok d ∧ ∀ more, decode .text (Document.read (front.map some ++ more)).1 = .ok d ∧
        Json.readSymbols? (front.map some ++ more) =
          if (Document.skipBlank more).isEmpty then .ok j else .error .trailingCharacters := by
  obtain ⟨j, hj, hd⟩ := ofJson_of_decode h
  have hsplit : Document.read input = ((Document.read input).1, (Document.read input).2) := rfl
  obtain ⟨front, hinput, hfront⟩ := Document.read_front hsplit ⟨j, hj⟩
  refine ⟨front, _, j, hinput, hd, fun more => ?_⟩
  have hread := hfront more fun hnumber => absurd hnumber (not_number_of_decode h)
  constructor
  · rw [hread]
    exact h
  · rw [Json.readSymbols?, hread]
    simp only [hj]

theorem ofString_append (s t : String) :
    Text.ofString (s ++ t) = Text.ofString s ++ Text.ofString t := by
  rw [Text.ofString, String.toList_append, List.map_append]
  rfl

/-- Behind characters of a string are characters of it. -/
theorem exists_string_of_append {t : String} {front : List Char} {rest : List Symbol}
    (h : Text.ofString t = front.map some ++ rest) :
    ∃ rest', t = String.ofList front ++ rest' := by
  obtain ⟨cs, cs', hcs, hfront, -⟩ := List.map_eq_append_iff.1 h
  have hinj : Function.Injective (some : Char → Symbol) := fun a b => Option.some.inj
  refine ⟨String.ofList cs', ?_⟩
  rw [← String.ofList_append, ← List.map_injective_iff.2 hinj hfront, ← hcs, String.ofList_toList]

/-- **What is read as a descriptor begins with a JSON value that is read as the same**, whatever
    stands behind that value; it is a JSON value as a whole if and only if nothing but white space
    does. -/
theorem exists_front (t : String) (bytes : List Nat) (d : Descriptor) :
    (ofString t = .ok d → ∃ (front rest : String) (j : Json), t = front ++ rest ∧
      Json.read? front = .ok j ∧ ofJson j = .ok d ∧
      ∀ more, ofString (front ++ more) = .ok d ∧ Json.read? (front ++ more) =
        if (Document.skipBlank (Text.ofString more)).isEmpty then .ok j
        else .error .trailingCharacters) ∧
    (ofBytes bytes = .ok d → ∃ (front rest : List Nat) (j : Json), bytes = front ++ rest ∧
      Json.readBytes? front = .ok j ∧ ofJson j = .ok d ∧
      ∀ more, ofBytes (front ++ more) = .ok d ∧ Json.readBytes? (front ++ more) =
        if (Document.skipBlank (Utf8.symbols more)).isEmpty then .ok j
        else .error .trailingCharacters) := by
  constructor
  · intro h
    obtain ⟨front, rest, j, hinput, hd, hmore⟩ := exists_front_of_decode h
    have hfront : Text.ofString (String.ofList front) = front.map some := by
      rw [Text.ofString, String.toList_ofList]
    obtain ⟨rest', hrest⟩ := exists_string_of_append hinput
    refine ⟨String.ofList front, rest', j, hrest, ?_, hd, fun more => ?_⟩
    · have hwhole := (hmore []).2
      rwa [List.append_nil, ← hfront] at hwhole
    · have hread := hmore (Text.ofString more)
      rwa [← hfront, ← ofString_append] at hread
  · intro h
    obtain ⟨front, rest, j, hinput, hd, hmore⟩ := exists_front_of_decode h
    obtain ⟨x, y, hbytes, -, hx⟩ := Utf8.symbols_front hinput
    refine ⟨x, y, j, hbytes, ?_, hd, fun more => ?_⟩
    · have hwhole := (hmore (Utf8.symbols [])).2
      rw [← hx, List.append_nil, Utf8.symbols] at hwhole
      exact hwhole
    · have hread := hmore (Utf8.symbols more)
      rwa [← hx] at hread

/-- Two descriptors, one behind the other. -/
def twice : String := "\x7b\"beans\":[]\x7d \x7b\x7d"

/-- A descriptor, and a quote that is never closed. -/
def unclosed : List Nat := [0x7b, 0x7d, 0x22]

theorem exists_front_twice :
    ofString twice = .ok ⟨[], [], []⟩ ∧ ofBytes unclosed = .ok ⟨[], [], []⟩ ∧
    (∃ (front rest : String) (j : Json), twice = front ++ rest ∧ Json.read? front = .ok j ∧
      ofJson j = .ok ⟨[], [], []⟩ ∧
      ∀ more, ofString (front ++ more) = .ok ⟨[], [], []⟩ ∧ Json.read? (front ++ more) =
        if (Document.skipBlank (Text.ofString more)).isEmpty then .ok j
        else .error .trailingCharacters) ∧
    ∃ (front rest : List Nat) (j : Json), unclosed = front ++ rest ∧
      Json.readBytes? front = .ok j ∧ ofJson j = .ok ⟨[], [], []⟩ ∧
      ∀ more, ofBytes (front ++ more) = .ok ⟨[], [], []⟩ ∧ Json.readBytes? (front ++ more) =
        if (Document.skipBlank (Utf8.symbols more)).isEmpty then .ok j
        else .error .trailingCharacters := by
  have htext : ofString twice = .ok ⟨[], [], []⟩ := by cbv
  have hbytes : ofBytes unclosed = .ok ⟨[], [], []⟩ := by cbv
  have hfront := exists_front twice unclosed ⟨[], [], []⟩
  exact ⟨htext, hbytes, hfront.1 htext, hfront.2 hbytes⟩

/-- Neither is one JSON value and nothing else. -/
theorem not_whole_twice :
    ofString twice = .ok ⟨[], [], []⟩ ∧ Json.read? twice = .error .trailingCharacters ∧
    ofBytes unclosed = .ok ⟨[], [], []⟩ ∧ Json.readBytes? unclosed = .error .trailingCharacters := by
  refine ⟨by cbv, ?_, by cbv, ?_⟩
  · rw [Json.read?_eq]
    cbv
  · cbv

end Descriptor

end GameConfig
