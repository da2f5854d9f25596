import GameConfig.Json.Basic
import GameConfig.Text.Utf8

/-
  JSON text as far as it can be read.

  A `Document` is what a reader meets from front to back: the values that are
  complete, and in the place where the text stops being JSON, the `Fault`
  found there.  Nothing is read behind a fault.  So whoever walks a document in
  order meets its own objections and the text's in the order of the text.

  * `Document.read` reads one value and leaves the rest of the text;
  * `Document.ofJson` is the faultless document of a value;
  * `Document.toJson?` gives the value of a faultless document, the last of
    several members with one key winning, in the place of the first;
  * `Json.read?` reads a text that is one JSON value and nothing else.
-/

namespace GameConfig

open Text

-- powers and sums are those of the core library, whatever algebra is imported
attribute [local instance (high)] instPowNat Zero.ofOfNat0

/-- What is wrong with a JSON text at one place. -/
inductive Fault where
  | endInValue
  | endInString
  | endInList
  | endInObject
  | noValue
  | noWord
  | noColon
  | noListSeparator
  | noObjectSeparator
  | trailingComma
  | trailingCharacters
  | keyNotString
  | badNumber
  | numberTooLarge
  | badEscape
  | endOfEscape
  | loneSurrogate
  | controlCharacter
  | badEncoding
  | tooDeep
deriving DecidableEq, Repr

/-- The wording of a fault. -/
def Fault.message : Fault → String
  | endInValue => "EOF while parsing a value"
  | endInString => "EOF while parsing a string"
  | endInList => "EOF while parsing a list"
  | endInObject => "EOF while parsing an object"
  | noValue => "expected value"
  | noWord => "expected ident"
  | noColon => "expected `:`"
  | noListSeparator => "expected `,` or `]`"
  | noObjectSeparator => "expected `,` or `\x7d`"
  | trailingComma => "trailing comma"
  | trailingCharacters => "trailing characters"
  | keyNotString => "key must be a string"
  | badNumber => "invalid number"
  | numberTooLarge => "number out of range"
  | badEscape => "invalid escape"
  | endOfEscape => "unexpected end of hex escape"
  | loneSurrogate => "lone leading surrogate in hex escape"
  | controlCharacter => "control character (\\u0000-\\u001F) found while parsing a string"
  | badEncoding => "invalid unicode code point"
  | tooDeep => "recursion limit exceeded"

/-- How the members of an object end: at its brace, at a fault where a key or a brace should
    stand, at something else than a string where its first key should stand, or behind a key
    that no colon follows. -/
inductive MembersEnd (α : Type) where
  | closed
  | fault (f : Fault)
  | notKey (found : α)
  | noColon (key : String) (f : Fault)
deriving Repr

/-- A JSON text as far as it can be read. -/
inductive Document where
  | null
  | bool (value : Bool)
  | number (value : Json.Number)
  | string (value : String)
  | array (items : List Document) (ending : Option Fault)
  | object (members : List (String × Document)) (ending : MembersEnd Document)
  | broken (fault : Fault)
deriving Repr, Inhabited

namespace Document

/-! ## White space and words -/

/-- Drops the white space between the parts of a text. -/
def skipBlank : List Symbol → List Symbol
  | some ' ' :: rest => skipBlank rest
  | some '\n' :: rest => skipBlank rest
  | some '\t' :: rest => skipBlank rest
  | some '\r' :: rest => skipBlank rest
  | input => input

/-- Reads the letters of a word. -/
def readWord (found : Document) : List Char → List Symbol → Document × List Symbol
  | [], rest => (found, rest)
  | _ :: _, [] => (.broken .endInValue, [])
  | w :: ws, s :: rest => if s = some w then readWord found ws rest else (.broken .noWord, [])

/-! ## Numbers -/

def isDigit : Symbol → Bool
  | some c => Numeral.isDigit c
  | none => false

def digitOf : Symbol → Nat
  | some c => c.toNat - '0'.toNat
  | none => 0

/-- Takes up digits as long as the number fits 64 bits; gives the number and how many digits
    are left. -/
def absorb (acc : Nat) : List Symbol → Nat × Nat
  | [] => (acc, 0)
  | d :: ds =>
    let next := 10 * acc + digitOf d
    if Numeral.maxNat64 < next then (acc, ds.length + 1) else absorb next ds

/-- Ten to a power, rounded. -/
def tenTo (e : Nat) : Double := .ofRatio false ⟨10 ^ e, 1⟩

/-- The double for digits times a power of ten: the digits are rounded first, then multiplied
    or divided by the rounded power.  A second division by the largest power leaves nothing. -/
def scaleByTen (negative : Bool) (digits : Nat) (e : Int) : Except Fault Double :=
  let x : Double := .ofRatio negative ⟨digits, 1⟩
  if digits = 0 then .ok x
  else if 308 < e then .error .numberTooLarge
  else if 0 ≤ e then
    let y := x.mul (tenTo e.toNat)
    if y.isInfinite then .error .numberTooLarge else .ok y
  else if -308 ≤ e then .ok (x.div (tenTo (-e).toNat))
  else if -616 ≤ e then .ok ((x.div (tenTo 308)).div (tenTo (-e - 308).toNat))
  else .ok (.ofRank negative 0)

/-- The double and the rest of the text, or the fault. -/
def numberResult (rest : List Symbol) : Except Fault Double → Document × List Symbol
  | .ok x => (.number (.double x), rest)
  | .error f => (.broken f, [])

/-- Reads an exponent behind its letter. -/
def readExponent (negative : Bool) (digits : Nat) (e : Int) (input : List Symbol) :
    Document × List Symbol :=
  let (down, ds) := match input with
    | some '+' :: rest => (false, rest)
    | some '-' :: rest => (true, rest)
    | _ => (false, input)
  match ds with
  | [] => (.broken .endInValue, [])
  | d :: _ =>
    if isDigit d then
      let power : Int := (ds.takeWhile isDigit).foldl (fun n c => 10 * n + digitOf c) 0
      numberResult (ds.dropWhile isDigit)
        (scaleByTen negative digits (if down then e - power else e + power))
    else (.broken .badNumber, [])

/-- Reads the digits behind the point. -/
def readFraction (negative : Bool) (digits : Nat) (e : Int) (input : List Symbol) :
    Document × List Symbol :=
  match input with
  | [] => (.broken .endInValue, [])
  | d :: _ =>
    if isDigit d then
      let ds := input.takeWhile isDigit
      let rest := input.dropWhile isDigit
      let (all, left) := absorb digits ds
      let e' : Int := e - (ds.length - left : Nat)
      match rest with
      | some 'e' :: more => readExponent negative all e' more
      | some 'E' :: more => readExponent negative all e' more
      | _ => numberResult rest (scaleByTen negative all e')
    else (.broken .badNumber, [])

/-- The number of digits alone.  Minus zero and what does not fit 64 bits are doubles. -/
def wholeNumber (negative : Bool) (digits : Nat) : Json.Number :=
  if !negative then .int digits
  else if digits = 0 || 9223372036854775808 < digits then .double (.ofRatio true ⟨digits, 1⟩)
  else .int (-(digits : Int))

/-- Reads a number behind its sign. -/
def readNumber (negative : Bool) (input : List Symbol) : Document × List Symbol :=
  match input with
  | [] => (.broken .endInValue, [])
  | d :: more =>
    if !isDigit d then (.broken .badNumber, [])
    else if d = some '0' && (match more with | c :: _ => isDigit c | [] => false) then
      (.broken .badNumber, [])
    else
      let (digits, left) := absorb 0 (input.takeWhile isDigit)
      let rest := input.dropWhile isDigit
      match rest with
      | some '.' :: more => readFraction negative digits left more
      | some 'e' :: more => readExponent negative digits left more
      | some 'E' :: more => readExponent negative digits left more
      | _ =>
        if left = 0 then (.number (wholeNumber negative digits), rest)
        else numberResult rest (scaleByTen negative digits left)

/-! ## Strings -/

/-- The value of a hexadecimal digit. -/
def hexValue? : Symbol → Option Nat
  | some c =>
    if '0' ≤ c && c ≤ '9' then some (c.toNat - 48)
    else if 'a' ≤ c && c ≤ 'f' then some (c.toNat - 87)
    else if 'A' ≤ c && c ≤ 'F' then some (c.toNat - 55)
    else none
  | none => none

/-- Reads four hexadecimal digits.  The text ends too early when fewer than four bytes are
    left. -/
def readHex (input : List Symbol) : Except Fault (Nat × List Symbol) :=
  match input with
  | a :: b :: c :: d :: rest =>
    match hexValue? a, hexValue? b, hexValue? c, hexValue? d with
    | some a, some b, some c, some d => .ok (((a * 16 + b) * 16 + c) * 16 + d, rest)
    | _, _, _, _ => .error .badEscape
  | short =>
    if 4 ≤ (short.map Symbol.size).sum then .error .badEscape else .error .endInString

/-- Reads an escape behind its backslash and `u`; two surrogates make one character. -/
def readCodePoint (input : List Symbol) : Except Fault (Symbol × List Symbol) :=
  match readHex input with
  | .error f => .error f
  | .ok (n, rest) =>
    if 0xDC00 ≤ n && n ≤ 0xDFFF then .error .loneSurrogate
    else if n < 0xD800 || 0xDBFF < n then .ok (some (Char.ofNat n), rest)
    else match rest with
      | [] => .error .endInString
      | some '\\' :: [] => .error .endInString
      | some '\\' :: some 'u' :: rest =>
        match readHex rest with
        | .error f => .error f
        | .ok (m, rest) =>
          if m < 0xDC00 || 0xDFFF < m then .error .loneSurrogate
          else .ok (some (Char.ofNat ((n - 0xD800) * 1024 + (m - 0xDC00) + 0x10000)), rest)
      | _ => .error .endOfEscape

/-- Reads an escape behind its backslash. -/
def readEscape : List Symbol → Except Fault (Symbol × List Symbol)
  | [] => .error .endInString
  | some '"' :: rest => .ok (some '"', rest)
  | some '\\' :: rest => .ok (some '\\', rest)
  | some '/' :: rest => .ok (some '/', rest)
  | some 'b' :: rest => .ok (some (Char.ofNat 8), rest)
  | some 'f' :: rest => .ok (some (Char.ofNat 12), rest)
  | some 'n' :: rest => .ok (some '\n', rest)
  | some 'r' :: rest => .ok (some '\r', rest)
  | some 't' :: rest => .ok (some '\t', rest)
  | some 'u' :: rest => readCodePoint rest
  | _ => .error .badEscape

/-- The string of the symbols, unless a stray byte is among them. -/
def textOf (symbols : List Symbol) : Except Fault String :=
  match symbols.mapM id with
  | some cs => .ok (String.ofList cs)
  | none => .error .badEncoding

/-- Reads a string behind its opening quote; `acc` holds what was read, last symbol first. -/
def readString : Nat → List Symbol → List Symbol → Except Fault (String × List Symbol)
  | 0, _, _ => .error .endInString
  | _ + 1, _, [] => .error .endInString
  | _ + 1, acc, some '"' :: rest =>
    match textOf acc.reverse with
    | .ok s => .ok (s, rest)
    | .error f => .error f
  | fuel + 1, acc, some '\\' :: rest =>
    match readEscape rest with
    | .ok (c, rest) => readString fuel (c :: acc) rest
    | .error f => .error f
  | fuel + 1, acc, c :: rest =>
    match c with
    | some ch => if ch.toNat < 32 then .error .controlCharacter else readString fuel (c :: acc) rest
    | none => readString fuel (c :: acc) rest

/-- Reads a string behind its opening quote. -/
def readText (input : List Symbol) : Except Fault (String × List Symbol) :=
  readString (input.length + 1) [] input

/-! ## Values -/

/-- A value that is itself a fault. -/
def isBroken : Document → Bool
  | .broken _ => true
  | _ => false

mutual

/-- Reads a value, with arrays and objects nested at most `depth` deep. -/
def readValue : Nat → Nat → List Symbol → Document × List Symbol
  | 0, _, _ => (.broken .tooDeep, [])
  | fuel + 1, depth, input =>
    match skipBlank input with
    | [] => (.broken .endInValue, [])
    | some 'n' :: rest => readWord .null ['u', 'l', 'l'] rest
    | some 't' :: rest => readWord (.bool true) ['r', 'u', 'e'] rest
    | some 'f' :: rest => readWord (.bool false) ['a', 'l', 's', 'e'] rest
    | some '-' :: rest => readNumber true rest
    | some '"' :: rest =>
      match readText rest with
      | .ok (s, rest) => (.string s, rest)
      | .error f => (.broken f, [])
    | some '[' :: rest =>
      match depth with
      | 0 => (.broken .tooDeep, [])
      | depth + 1 =>
        let (items, ending, rest) := readItems fuel depth true rest
        (.array items ending, rest)
    | some '\x7b' :: rest =>
      match depth with
      | 0 => (.broken .tooDeep, [])
      | depth + 1 =>
        let (members, ending, rest) := readMembers fuel depth true rest
        (.object members ending, rest)
    | s :: rest => if isDigit s then readNumber false (s :: rest) else (.broken .noValue, [])

/-- Reads the items of an array; `first` until one was read. -/
def readItems : Nat → Nat → Bool → List Symbol → List Document × Option Fault × List Symbol
  | 0, _, _, _ => ([], some .tooDeep, [])
  | fuel + 1, depth, first, input =>
    match skipBlank input with
    | [] => ([], some .endInList, [])
    | some ']' :: rest => ([], none, rest)
    | s :: rest =>
      if first then readItem fuel depth (s :: rest)
      else if s = some ',' then
        match skipBlank rest with
        | [] => ([], some .endInValue, [])
        | some ']' :: _ => ([], some .trailingComma, [])
        | rest => readItem fuel depth rest
      else ([], some .noListSeparator, [])

/-- Reads an item of an array and the items behind it. -/
def readItem : Nat → Nat → List Symbol → List Document × Option Fault × List Symbol
  | 0, _, _ => ([], some .tooDeep, [])
  | fuel + 1, depth, input =>
    let (item, rest) := readValue fuel depth input
    if item.isBroken then ([item], some .endInList, [])
    else
      let (items, ending, rest) := readItems fuel depth false rest
      (item :: items, ending, rest)

/-- Reads the members of an object; `first` until one was read. -/
def readMembers : Nat → Nat → Bool → List Symbol →
    List (String × Document) × MembersEnd Document × List Symbol
  | 0, _, _, _ => ([], .fault .tooDeep, [])
  | fuel + 1, depth, first, input =>
    match skipBlank input with
    | [] => ([], .fault .endInObject, [])
    | some '\x7d' :: rest => ([], .closed, rest)
    | s :: rest =>
      if first then
        if s = some '"' then readMember fuel depth rest
        else ([], .notKey (readValue fuel depth (s :: rest)).1, [])
      else if s = some ',' then
        match skipBlank rest with
        | [] => ([], .fault .endInValue, [])
        | some '"' :: rest => readMember fuel depth rest
        | some '\x7d' :: _ => ([], .fault .trailingComma, [])
        | _ => ([], .fault .keyNotString, [])
      else ([], .fault .noObjectSeparator, [])

/-- Reads a member of an object behind the opening quote of its key, and the members behind
    it. -/
def readMember : Nat → Nat → List Symbol →
    List (String × Document) × MembersEnd Document × List Symbol
  | 0, _, _ => ([], .fault .tooDeep, [])
  | fuel + 1, depth, input =>
    match readText input with
    | .error f => ([], .fault f, [])
    | .ok (key, rest) =>
      match skipBlank rest with
      | [] => ([], .noColon key .endInObject, [])
      | some ':' :: rest =>
        let (value, rest) := readValue fuel depth rest
        if value.isBroken then ([(key, value)], .fault .endInObject, [])
        else
          let (members, ending, rest) := readMembers fuel depth false rest
          ((key, value) :: members, ending, rest)
      | _ => ([], .noColon key .noColon, [])

end

/-- How deep arrays and objects may be nested. -/
def maxDepth : Nat := 127

/-- Reads one value and leaves the rest of the text.  Every three calls take up a symbol. -/
def read (input : List Symbol) : Document × List Symbol :=
  readValue (3 * input.length + 3) maxDepth input

/-! ## Documents and values -/

mutual

/-- The document of a value. -/
def ofJson : Json → Document
  | .null => .null
  | .bool b => .bool b
  | .number n => .number n
  | .string s => .string s
  | .array items => .array (ofItems items) none
  | .object members => .object (ofMembers members) .closed

def ofItems : List Json → List Document
  | [] => []
  | x :: xs => ofJson x :: ofItems xs

def ofMembers : List (String × Json) → List (String × Document)
  | [] => []
  | (k, v) :: ms => (k, ofJson v) :: ofMembers ms

end

/-- The fault at which the members of an object end. -/
def endFault : MembersEnd Document → Option Fault
  | .closed => none
  | .fault f => some f
  | .notKey _ => some .keyNotString
  | .noColon _ f => some f

mutual

/-- The value of a document, or its first fault. -/
def toJson? : Document → Except Fault Json
  | .null => .ok .null
  | .bool b => .ok (.bool b)
  | .number n => .ok (.number n)
  | .string s => .ok (.string s)
  | .array items ending =>
    match toItems? items, ending with
    | .error f, _ => .error f
    | .ok _, some f => .error f
    | .ok xs, none => .ok (.array xs)
  | .object members ending =>
    match toMembers? members, endFault ending with
    | .error f, _ => .error f
    | .ok _, some f => .error f
    | .ok ms, none => .ok (.object (Assoc.ofEntries ms))
  | .broken f => .error f

def toItems? : List Document → Except Fault (List Json)
  | [] => .ok []
  | d :: ds =>
    match toJson? d with
    | .error f => .error f
    | .ok x =>
      match toItems? ds with
      | .error f => .error f
      | .ok xs => .ok (x :: xs)

def toMembers? : List (String × Document) → Except Fault (List (String × Json))
  | [] => .ok []
  | (k, d) :: ds =>
    match toJson? d with
    | .error f => .error f
    | .ok x =>
      match toMembers? ds with
      | .error f => .error f
      | .ok ms => .ok ((k, x) :: ms)

end

end Document

/-- The value of a text that is one JSON value and nothing else. -/
def Json.read? (s : String) : Except Fault Json :=
  let (document, rest) := Document.read (ofString s)
  match document.toJson? with
  | .error f => .error f
  | .ok j => if (Document.skipBlank rest).isEmpty then .ok j else .error .trailingCharacters

end GameConfig
