import GameConfig.Pattern.Class

/-
  Patterns as they are written.

  `Regex.read?` reads a whole text as an expression; none means that the text is
  no pattern, that it is nested more than `depthLimit` levels deep, or that the
  expression takes more than `roomLimit`.  Groups may set flags for themselves
  or, without a body, for what follows them inside the enclosing group.
-/

namespace GameConfig.Pattern

open Text

/-- How deep groups, classes, repetitions, sequences and alternatives may be nested. -/
def depthLimit : Nat := 250

/-- How much room an expression may take. -/
def roomLimit : Nat := 10485760

/-- An expression and how deep it is nested. -/
structure Parsed where
  regex : Regex
  depth : Nat

/-- What has been set and named up to a place. -/
structure Context where
  flags : Flags
  names : List (List Char)

/-- The parts one behind another; none stands for a part that only sets flags. -/
def sequence (parts : List (Option Parsed)) : Parsed :=
  let depth := parts.foldl (fun d p => max d (p.elim 0 Parsed.depth)) 0
  let join : List Parsed → Regex
    | [] => .empty
    | p :: ps => ps.foldl (fun r q => .cat q.regex r) p.regex
  ⟨join (parts.filterMap id), if 2 ≤ parts.length then depth + 1 else depth⟩

/-- The alternatives, the last one first. -/
def alternatives (last : Parsed) : List Parsed → Parsed
  | [] => last
  | before =>
    ⟨before.foldl (fun r p => .alt p.regex r) last.regex,
      before.foldl (fun d p => max d p.depth) last.depth + 1⟩

/-! ## Flags and groups -/

/-- Sets or clears a flag. -/
def setFlag? (on : Bool) (c : Char) (f : Flags) : Option Flags :=
  match c with
  | 'i' => some { f with ignoreCase := on }
  | 'm' => some { f with multiLine := on }
  | 's' => some { f with dotAll := on }
  | 'u' => some { f with unicode := on }
  | 'R' => some { f with returns := on }
  | 'x' => some { f with spaced := on }
  | 'U' => some f
  | _ => none

/-- Reads flags up to a colon or a parenthesis; `seen` holds the letters and the dash so far.
    Neither may come twice, and a dash must not be the last. -/
def flags? (f : Flags) (seen : List Char) : List Char → Option (Flags × List Char × List Char)
  | [] => none
  | c :: cs =>
    if c == ':' || c == ')' then
      if seen.head? == some '-' then none else some (f, seen, c :: cs)
    else if seen.contains c then none
    else if c == '-' then flags? f (c :: seen) cs
    else
      match setFlag? (!seen.contains '-') c f with
      | some f => flags? f (c :: seen) cs
      | none => none

/-- A character that may stand in the name of a group. -/
def isNameChar (first : Bool) (c : Char) : Bool :=
  if first then c == '_' || letterRanges.has c.toNat
  else c == '_' || c == '.' || c == '[' || c == ']' || letterRanges.has c.toNat ||
    numberRanges.has c.toNat

/-- What stands behind an opening parenthesis. -/
inductive Opening where
  /-- A group, with the context inside it. -/
  | group (inside : Context)
  /-- Flags for what follows. -/
  | setting (flags : Flags)

/-- The name of a group up to its closing angle bracket; names differ from one another. -/
def groupName? (ctx : Context) (cs : List Char) : Option (Opening × List Char) :=
  match cut '>' cs with
  | some (c :: name, rest) =>
    if isNameChar true c && name.all (isNameChar false) && !ctx.names.contains (c :: name) then
      some (.group { ctx with names := (c :: name) :: ctx.names }, rest)
    else none
  | _ => none

/-- Reads what stands behind an opening parenthesis.  There is no looking ahead or behind. -/
def opening? (ctx : Context) (cs : List Char) : Option (Opening × List Char) :=
  match ctx.flags.skip cs with
  | '?' :: '=' :: _ | '?' :: '!' :: _ | '?' :: '<' :: '=' :: _ | '?' :: '<' :: '!' :: _ => none
  | '?' :: 'P' :: '<' :: rest => groupName? ctx rest
  | '?' :: '<' :: rest => groupName? ctx rest
  | '?' :: rest =>
    match flags? ctx.flags [] rest with
    | some (f, _, ':' :: rest) => some (.group { ctx with flags := f }, rest)
    | some (f, seen, _ :: rest) => if seen.isEmpty then none else some (.setting f, rest)
    | _ => none
  | rest => some (.group ctx, rest)

/-! ## Repetitions -/

/-- Decimal digits, with the blanks around them. -/
def count? (f : Flags) (cs : List Char) : Option Nat × List Char :=
  let rec digits : Nat → List Char → List Char × List Char
    | 0, cs => ([], cs)
    | fuel + 1, cs =>
      match cs with
      | c :: rest =>
        if Numeral.isDigit c then
          let (ds, rest) := digits fuel (f.skip rest)
          (c :: ds, rest)
        else ([], cs)
      | [] => ([], [])
  let (ds, rest) := digits cs.length (trimStart cs)
  let rest := f.skip (trimStart rest)
  let n := Numeral.digitsValue 0 ds
  (if ds.isEmpty || 4294967295 < n then none else some n, rest)

/-- The bounds of a repetition behind an opening brace. -/
def bounds? (f : Flags) (cs : List Char) : Option (Nat × Option Nat × List Char) :=
  let (least, rest) := count? f (f.skip cs)
  match least, rest with
  | some n, '}' :: rest => some (n, some n, rest)
  | some n, ',' :: rest =>
    match f.skip rest with
    | '}' :: rest => some (n, none, rest)
    | rest =>
      match count? f rest with
      | (some m, '}' :: rest) => if n ≤ m then some (n, some m, rest) else none
      | _ => none
  | _, _ => none

/-- Drops the mark of a lazy repetition: it does not change which texts match. -/
def dropLazy : List Char → List Char
  | '?' :: rest => rest
  | rest => rest

/-- The parts with the last one repeated. -/
def repeatLast? (min : Nat) (max : Option Nat) :
    List (Option Parsed) → Option (List (Option Parsed))
  | some p :: before => some (some ⟨.times min max p.regex, p.depth + 1⟩ :: before)
  | _ => none

/-! ## Parts -/

/-- The characters that a dot stands for. -/
def dot? (f : Flags) : Option Regex :=
  if !f.unicode then none
  else
    let excluded : CharSet :=
      if f.dotAll then [] else if f.returns then [(10, 10), (13, 13)] else [(10, 10)]
    some (.chars (excluded.complement CharSet.greatest).toRanges)

/-- The expression of an atom. -/
def Atom.regex? (f : Flags) : Atom → Option Regex
  | char c byte =>
    if byte && !f.unicode && 128 ≤ c.toNat then none
    else some (.chars (f.fold [(c.toNat, c.toNat)]).toRanges)
  | set s => some (.chars s.toRanges)
  | look k => some (.look k)

/-- A part that is no group and no class. -/
def primitive? (f : Flags) : List Char → Option (Regex × List Char)
  | [] => none
  | '\\' :: cs => (escape? f cs).bind fun (a, rest) => (a.regex? f).map fun r => (r, rest)
  | '.' :: cs => (dot? f).map fun r => (r, cs)
  | '^' :: cs =>
    let lineStart := if f.returns then Look.returnStart else .lineStart
    some (.look (if f.multiLine then lineStart else .textStart), cs)
  | '$' :: cs =>
    let lineEnd := if f.returns then Look.returnEnd else .lineEnd
    some (.look (if f.multiLine then lineEnd else .textEnd), cs)
  | c :: cs => ((Atom.char c false).regex? f).map fun r => (r, cs)

/-- Reads alternatives up to the end or to a parenthesis that closes nothing in them.  `done`
    holds the alternatives before and `now` the parts of the current one, the last one first. -/
def readUntilClose :
    Nat → Context → List Parsed → List (Option Parsed) → List Char →
      Option (Parsed × Context × List Char)
  | 0, _, _, _, _ => none
  | fuel + 1, ctx, done, now, cs =>
    let f := ctx.flags
    let repeated (min : Nat) (max : Option Nat) (rest : List Char) :
        Option (Parsed × Context × List Char) :=
      match repeatLast? min max now with
      | some now => readUntilClose fuel ctx done now rest
      | none => none
    match f.skip cs with
    | [] => some (alternatives (sequence now) done, ctx, [])
    | ')' :: rest => some (alternatives (sequence now) done, ctx, ')' :: rest)
    | '|' :: rest => readUntilClose fuel ctx (sequence now :: done) [] rest
    | '(' :: rest =>
      match opening? ctx rest with
      | some (.setting f, rest) =>
        readUntilClose fuel { ctx with flags := f } done (none :: now) rest
      | some (.group inside, rest) =>
        match readUntilClose fuel inside [] [] rest with
        | some (body, inner, ')' :: rest) =>
          readUntilClose fuel { ctx with names := inner.names } done
            (some ⟨body.regex, body.depth + 1⟩ :: now) rest
        | _ => none
      | none => none
    | '[' :: rest =>
      match class? f rest with
      | some (s, rest) =>
        readUntilClose fuel ctx done (some ⟨.chars s.set.toRanges, s.depth⟩ :: now) rest
      | none => none
    | '?' :: rest => repeated 0 (some 1) (dropLazy rest)
    | '*' :: rest => repeated 0 none (dropLazy rest)
    | '+' :: rest => repeated 1 none (dropLazy rest)
    | '{' :: rest =>
      match bounds? f rest with
      | some (min, max, rest) => repeated min max (dropLazy (f.skip rest))
      | none => none
    | rest =>
      match primitive? f rest with
      | some (r, rest) => readUntilClose fuel ctx done (some ⟨r, 0⟩ :: now) rest
      | none => none

/-- Reads a text as an expression. -/
def Regex.read? (text : String) : Option Regex :=
  let cs := text.toList
  match readUntilClose (cs.length + 1) ⟨.standard, []⟩ [] [] cs with
  | some (p, _, []) =>
    if p.depth ≤ depthLimit && p.regex.room ≤ roomLimit then some p.regex else none
  | _ => none

end GameConfig.Pattern
