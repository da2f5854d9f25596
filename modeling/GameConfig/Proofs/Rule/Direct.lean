import GameConfig.Proofs.Load.Typing
import GameConfig.Proofs.Rule.Compile

/-
  Rules without compiling.

  Rules are compiled once and a value is walked along the trees of its fields.
  The same failures come from a walk without trees, along the declared types,
  that makes each rule at the node whose tag asks for it.

  * `interpret` is that walk; `walk?` is the walk along trees with every lookup
    checked, that of parts of trees, of beans and of the rules of fields;
  * `SameFailures`: on a value both give what `walk` gives;
  * `sameFailures_of_conforms`: so they do on a value of a type and the tree that
    is compiled from it;
  * `faults_eq_interpret_of_build`: validating what was loaded over an accepted
    schema misses no rule and is that walk.
-/

namespace GameConfig

/-! ## Walking along types -/

/-- What the rules that tags ask for have to say about a value, one made after the other. -/
def interpretTags (site : Site) (registry : Registry) (source path : String) (ty : Ty) (d : Datum) :
    Tags → Except SchemaError (List Failure)
  | [] => .ok []
  | (key, argument) :: tags => do
    let here ← match Assoc.find? key registry with
      | none => .ok []
      | some kind => do
        let rule ← kind.compile site ty argument
        .ok ((rule.faults site.schema d).map fun message =>
          ⟨path, source, rule.kind.name, message⟩)
    let rest ← interpretTags site registry source path ty d tags
    .ok (here ++ rest)

mutual

/-- The failures of a value of a type, where `own` are the tags of the field whose value it is. -/
def interpret (site : Site) (registry : Registry) (source path : String) (own : Tags) (ty : Ty) :
    Datum → Except SchemaError (List Failure)
  | .seq kind items => do
    let here ← interpretTags site registry source path ty (.seq kind items) (ty.tags ++ own)
    let parts ← match ty with
      | .seq _ k elem =>
        if k = kind then interpretItems site registry source path elem 0 items else .ok []
      | _ => .ok []
    .ok (here ++ parts)
  | .map entries => do
    let here ← interpretTags site registry source path ty (.map entries) (ty.tags ++ own)
    let parts ← match ty with
      | .map _ key value => interpretEntries site registry source path key value entries
      | _ => .ok []
    .ok (here ++ parts)
  | .bean id values => do
    let here ← interpretTags site registry source path ty (.bean id values) (ty.tags ++ own)
    let b := site.schema.bean id
    let parts ← match ty with
      | .named _ (.bean _) =>
        interpretFields site.schema b registry source path b.allFields values
      | _ => .ok []
    .ok (here ++ parts)
  | .bool b => interpretTags site registry source path ty (.bool b) (ty.tags ++ own)
  | .integer w i => interpretTags site registry source path ty (.integer w i) (ty.tags ++ own)
  | .float x => interpretTags site registry source path ty (.float x) (ty.tags ++ own)
  | .double x => interpretTags site registry source path ty (.double x) (ty.tags ++ own)
  | .string t => interpretTags site registry source path ty (.string t) (ty.tags ++ own)
  | .datetime t => interpretTags site registry source path ty (.datetime t) (ty.tags ++ own)
  | .enum id i => interpretTags site registry source path ty (.enum id i) (ty.tags ++ own)

/-- The items of a sequence from number `i` on. -/
def interpretItems (site : Site) (registry : Registry) (source path : String) (elem : Ty)
    (i : Nat) : List Datum → Except SchemaError (List Failure)
  | [] => .ok []
  | d :: ds => do
    let here ← interpret site registry source (path ++ "[" ++ integerText i ++ "]") [] elem d
    let rest ← interpretItems site registry source path elem (i + 1) ds
    .ok (here ++ rest)

/-- The keys and values of a map; both stand at the path of the key. -/
def interpretEntries (site : Site) (registry : Registry) (source path : String) (key value : Ty) :
    List (Datum × Datum) → Except SchemaError (List Failure)
  | [] => .ok []
  | (k, v) :: es => do
    let inner := path ++ "[" ++ (k.toJson site.schema).compact ++ "]"
    let ofKey ← interpret site registry source inner [] key k
    let ofValue ← interpret site registry source inner [] value v
    let rest ← interpretEntries site registry source path key value es
    .ok (ofKey ++ ofValue ++ rest)

/-- The fields of a bean with their values, where the bean is the place of their tags. -/
def interpretFields (s : Schema) (b : BeanDef) (registry : Registry) (source path : String) :
    List Field → List (Option Datum) → Except SchemaError (List Failure)
  | f :: fs, some d :: ds => do
    let here ← interpret ⟨s, b, f⟩ registry source (path ++ "." ++ f.name) f.tags f.ty d
    let rest ← interpretFields s b registry source path fs ds
    .ok (here ++ rest)
  | _ :: fs, none :: ds => interpretFields s b registry source path fs ds
  | _, _ => .ok []

end

/-- The failures of a record at a path, no rule compiled before. -/
def Record.interpret (s : Schema) (registry : Registry) (source path : String) (r : Record) :
    Except SchemaError (List Failure) :=
  let b := s.bean r.bean
  interpretFields s b registry source path b.allFields r.fields

/-! ## Walking along trees, checked -/

/-- The trees of the parts: of the elements, or of the keys and the values. -/
def RuleTree.parts : RuleTree → List RuleTree
  | .leaf _ | .bean _ => []
  | .seq _ _ elem => [elem]
  | .map _ key value => [key, value]

mutual

/-- The failures of a value of a type along a tree, none if some part of the tree, a bean or the
    rules of a field are not there. -/
def walk? (s : Schema) (set : RuleSet) (source path : String) (ty : Ty) (tree : RuleTree) :
    Datum → Option (List Failure)
  | .seq kind items =>
    match ty with
    | .seq _ k elem => do
      guard (k = kind)
      let elemTree ← tree.parts[0]?
      let inner ← walkItems? s set source path elem elemTree 0 items
      some (applyRules s source path tree.rules (.seq kind items) ++ inner)
    | _ => none
  | .map entries =>
    match ty with
    | .map _ key value => do
      let keyTree ← tree.parts[0]?
      let valueTree ← tree.parts[1]?
      let inner ← walkEntries? s set source path key value keyTree valueTree entries
      some (applyRules s source path tree.rules (.map entries) ++ inner)
    | _ => none
  | .bean id values =>
    match ty with
    | .named _ (.bean _) => do
      let b ← s.beans[id]?
      let rules ← set.beans[id]?
      let inner ← walkFields? s set source path b.allFields rules values
      some (applyRules s source path tree.rules (.bean id values) ++ inner)
    | _ => none
  | .bool b => some (applyRules s source path tree.rules (.bool b))
  | .integer w i => some (applyRules s source path tree.rules (.integer w i))
  | .float x => some (applyRules s source path tree.rules (.float x))
  | .double x => some (applyRules s source path tree.rules (.double x))
  | .string t => some (applyRules s source path tree.rules (.string t))
  | .datetime t => some (applyRules s source path tree.rules (.datetime t))
  | .enum id i => some (applyRules s source path tree.rules (.enum id i))

def walkItems? (s : Schema) (set : RuleSet) (source path : String) (elem : Ty) (tree : RuleTree)
    (i : Nat) : List Datum → Option (List Failure)
  | [] => some []
  | d :: ds => do
    let here ← walk? s set source (path ++ "[" ++ integerText i ++ "]") elem tree d
    let rest ← walkItems? s set source path elem tree (i + 1) ds
    some (here ++ rest)

def walkEntries? (s : Schema) (set : RuleSet) (source path : String) (key value : Ty)
    (keyTree valueTree : RuleTree) : List (Datum × Datum) → Option (List Failure)
  | [] => some []
  | (k, v) :: es => do
    let inner := path ++ "[" ++ (k.toJson s).compact ++ "]"
    let ofKey ← walk? s set source inner key keyTree k
    let ofValue ← walk? s set source inner value valueTree v
    let rest ← walkEntries? s set source path key value keyTree valueTree es
    some (ofKey ++ ofValue ++ rest)

/-- The fields of a bean, each with its rules and its value, none of the three too few or too
    many. -/
def walkFields? (s : Schema) (set : RuleSet) (source path : String) :
    List Field → BeanRules → List (Option Datum) → Option (List Failure)
  | f :: fs, (name, tree) :: rules, v :: vs => do
    guard (name = f.name)
    let here ← match v with
      | some d => walk? s set source (path ++ "." ++ f.name) f.ty tree d
      | none => some []
    let rest ← walkFields? s set source path fs rules vs
    some (here ++ rest)
  | [], [], [] => some []
  | _, _, _ => none

end

/-- The failures of a record at a path, none if something is not there. -/
def RuleSet.faults? (set : RuleSet) (s : Schema) (source path : String) (r : Record) :
    Option (List Failure) := do
  let b ← s.beans[r.bean]?
  let rules ← set.beans[r.bean]?
  walkFields? s set source path b.allFields rules r.fields

/-! ## Compiled sets -/

section

variable {s : Schema} {registry : Registry}

theorem compileFields_eq_ok {b : BeanDef} {fs : List Field} {rules : BeanRules} :
    RuleSet.compileFields s registry b fs = .ok rules ↔
      List.Forall₂ (fun f r => r.1 = f.name ∧ RuleTree.ofField ⟨s, b, f⟩ registry = .ok r.2)
        fs rules := by
  have hone : ∀ (f : Field) (r : String × RuleTree),
      (RuleTree.ofField ⟨s, b, f⟩ registry).map (fun tree => (f.name, tree)) = .ok r ↔
        r.1 = f.name ∧ RuleTree.ofField ⟨s, b, f⟩ registry = .ok r.2 := by
    intro f r
    cases RuleTree.ofField ⟨s, b, f⟩ registry with
    | error e => simp [Except.map]
    | ok tree => simp [Except.map, Prod.ext_iff, eq_comm]
  have hpass : Resolve.Pass (RuleSet.compileFields s registry b)
      (fun f => (RuleTree.ofField ⟨s, b, f⟩ registry).map fun tree => (f.name, tree)) := by
    refine ⟨rfl, fun f fs => ?_⟩
    rw [RuleSet.compileFields]
    cases RuleTree.ofField ⟨s, b, f⟩ registry with
    | error e => rfl
    | ok tree => cases RuleSet.compileFields s registry b fs <;> rfl
  rw [hpass.forall₂]
  simp only [hone]

theorem compileBeans_eq_ok {bs : List BeanDef} {out : List BeanRules} :
    RuleSet.compileBeans s registry bs = .ok out ↔
      List.Forall₂ (fun b rules => RuleSet.compileFields s registry b b.allFields = .ok rules)
        bs out := by
  have hpass : Resolve.Pass (RuleSet.compileBeans s registry)
      (fun b => RuleSet.compileFields s registry b b.allFields) := by
    refine ⟨rfl, fun b bs => ?_⟩
    rw [RuleSet.compileBeans]
    cases RuleSet.compileFields s registry b b.allFields with
    | error e => rfl
    | ok fields => cases RuleSet.compileBeans s registry bs <;> rfl
  exact hpass.forall₂

theorem RuleSet.compile_eq_ok {set : RuleSet} : RuleSet.compile s registry = .ok set ↔
    ∃ out, compileBeans s registry s.beans = .ok out ∧ ⟨out⟩ = set := by
  rw [compile]
  cases compileBeans s registry s.beans <;> simp [Except.map]

/-- The set has the rules of every field of a bean. -/
theorem RuleSet.bean_of_compile {set : RuleSet} (h : RuleSet.compile s registry = .ok set)
    {id : Nat} (hid : id < s.beans.length) :
    set.beans[id]? = some (set.bean id) ∧
      RuleSet.compileFields s registry (s.bean id) (s.bean id).allFields = .ok (set.bean id) := by
  obtain ⟨out, hout, rfl⟩ := compile_eq_ok.1 h
  have hall := compileBeans_eq_ok.1 hout
  have hlt : id < out.length := hall.length_eq ▸ hid
  have hrules : out[id]? = some (RuleSet.bean ⟨out⟩ id) := by
    rw [RuleSet.bean, List.getD_eq_getElem?_getD, List.getElem?_eq_getElem hlt]
    rfl
  refine ⟨hrules, ?_⟩
  have hpair := (List.forall₂_iff_get.1 hall).2 id hid hlt
  have hbean : s.beans.get ⟨id, hid⟩ = s.bean id :=
    Option.some.inj ((List.getElem?_eq_getElem hid).symm.trans (Schema.bean_of_lt hid))
  have hget : out.get ⟨id, hlt⟩ = RuleSet.bean ⟨out⟩ id :=
    Option.some.inj ((List.getElem?_eq_getElem hlt).symm.trans hrules)
  rwa [hbean, hget] at hpair

end

/-! ## Tags -/

theorem interpretTags_eq {site : Site} {registry : Registry} {ty : Ty} {tags : Tags}
    {rules : List Rule} (h : compileTags site registry ty tags = .ok rules) (source path : String)
    (d : Datum) :
    interpretTags site registry source path ty d tags =
      .ok (applyRules site.schema source path rules d) := by
  induction tags generalizing rules with
  | nil =>
    cases h
    rfl
  | cons tag tags ih =>
    rw [compileTags] at h
    rw [interpretTags]
    cases hk : Assoc.find? tag.1 registry with
    | none =>
      rw [hk] at h
      rw [ih h]
      rfl
    | some kind =>
      rw [hk] at h
      dsimp only at h
      cases hc : kind.compile site ty tag.2 with
      | error e =>
        rw [hc] at h
        cases h
      | ok rule =>
        rw [hc] at h
        cases hrest : compileTags site registry ty tags with
        | error e =>
          rw [hrest] at h
          cases h
        | ok rest =>
          rw [hrest] at h
          cases h
          rw [ih hrest]
          simp [bind, Except.bind, hc, applyRules]

/-- Tags one after the other ask for rules one after the other. -/
theorem compileTags_append {site : Site} {registry : Registry} {ty : Ty} {tags own : Tags}
    {rules more : List Rule} (h : compileTags site registry ty tags = .ok rules)
    (hown : compileTags site registry ty own = .ok more) :
    compileTags site registry ty (tags ++ own) = .ok (rules ++ more) := by
  rw [compileTags_eq_ok] at h hown ⊢
  rw [asked, List.filterMap_append]
  exact List.rel_append h hown

/-! ## Trees -/

namespace RuleTree

theorem rules_add (tree : RuleTree) (more : List Rule) :
    (tree.add more).rules = tree.rules ++ more := by
  cases tree <;> rfl

theorem add_nil (tree : RuleTree) : tree.add [] = tree := by
  cases tree <;> simp [add]

/-- The rules at the root of a tree are those that the tags at the root of the type ask for. -/
theorem rules_of_ofTy {site : Site} {registry : Registry} {ty : Ty} {tree : RuleTree}
    (h : ofTy site registry ty = .ok tree) :
    compileTags site registry ty ty.tags = .ok tree.rules := by
  match ty with
  | .scalar m k =>
    obtain ⟨rules, hrules, rfl⟩ := ofTy_scalar_eq_ok.1 h
    exact hrules
  | .named m (.enum id) =>
    obtain ⟨rules, hrules, rfl⟩ := ofTy_enum_eq_ok.1 h
    exact hrules
  | .named m (.bean id) =>
    obtain ⟨rules, hrules, rfl⟩ := ofTy_bean_eq_ok.1 h
    exact hrules
  | .seq m k elem =>
    obtain ⟨rules, e, hrules, -, rfl⟩ := ofTy_seq_eq_ok.1 h
    exact hrules
  | .map m key value =>
    obtain ⟨rules, k, v, hrules, -, -, rfl⟩ := ofTy_map_eq_ok.1 h
    exact hrules

end RuleTree

/-! ## Values -/

/-- Both walks over a value give the failures of the walk along its tree. -/
structure SameFailures (site : Site) (registry : Registry) (set : RuleSet) (source : String)
    (own : Tags) (ty : Ty) (tree : RuleTree) (d : Datum) : Prop where
  checked : ∀ path, walk? site.schema set source path ty tree d =
    some (walk site.schema set source path tree d)
  direct : ∀ path, interpret site registry source path own ty d =
    .ok (walk site.schema set source path tree d)

section

variable {site : Site} {registry : Registry} (set : RuleSet) (source : String)

theorem sameFailures_items {elem : Ty} {tree : RuleTree} {ds : List Datum}
    (h : ∀ d ∈ ds, SameFailures site registry set source [] elem tree d) (path : String) (i : Nat) :
    walkItems? site.schema set source path elem tree i ds =
        some (walkItems site.schema set source path tree i ds) ∧
      interpretItems site registry source path elem i ds =
        .ok (walkItems site.schema set source path tree i ds) := by
  induction ds generalizing i with
  | nil => exact ⟨rfl, rfl⟩
  | cons d ds ih =>
    rw [List.forall_mem_cons] at h
    obtain ⟨hchecked, hdirect⟩ := ih h.2 (i + 1)
    rw [walkItems?, interpretItems, walkItems, h.1.checked, h.1.direct, hchecked, hdirect]
    exact ⟨rfl, rfl⟩

theorem sameFailures_entries {key value : Ty} {keyTree valueTree : RuleTree} {es : Entries}
    (hk : ∀ e ∈ es, SameFailures site registry set source [] key keyTree e.1)
    (hv : ∀ e ∈ es, SameFailures site registry set source [] value valueTree e.2)
    (path : String) :
    walkEntries? site.schema set source path key value keyTree valueTree es =
        some (walkEntries site.schema set source path keyTree valueTree es) ∧
      interpretEntries site registry source path key value es =
        .ok (walkEntries site.schema set source path keyTree valueTree es) := by
  induction es with
  | nil => exact ⟨rfl, rfl⟩
  | cons e es ih =>
    rw [List.forall_mem_cons] at hk hv
    obtain ⟨hchecked, hdirect⟩ := ih hk.2 hv.2
    simp only [walkEntries?, interpretEntries, walkEntries, hk.1.checked, hk.1.direct,
      hv.1.checked, hv.1.direct, hchecked, hdirect]
    exact ⟨rfl, rfl⟩

theorem sameFailures_fields {s : Schema} {b : BeanDef} {fs : List Field} {rules : BeanRules}
    {vs : List (Option Datum)}
    (hr : List.Forall₂ (fun f r => r.1 = f.name ∧
      RuleTree.ofField ⟨s, b, f⟩ registry = .ok r.2) fs rules)
    (hlen : vs.length = fs.length)
    (hv : ∀ f d, (f, some d) ∈ fs.zip vs → ∀ {inner more},
      RuleTree.ofTy ⟨s, b, f⟩ registry f.ty = .ok inner →
        compileTags ⟨s, b, f⟩ registry f.ty f.tags = .ok more →
          SameFailures ⟨s, b, f⟩ registry set source f.tags f.ty (inner.add more) d)
    (path : String) :
    walkFields? s set source path fs rules vs = some (walkFields s set source path rules vs) ∧
      interpretFields s b registry source path fs vs =
        .ok (walkFields s set source path rules vs) := by
  induction hr generalizing vs with
  | nil =>
    obtain rfl := List.eq_nil_of_length_eq_zero hlen
    exact ⟨rfl, rfl⟩
  | @cons f r fs rules hfr _ ih =>
    obtain ⟨name, tree⟩ := r
    obtain ⟨rfl, htree⟩ : name = f.name ∧ _ := hfr
    cases vs with
    | nil => cases hlen
    | cons v vs =>
      obtain ⟨hchecked, hdirect⟩ := @ih vs (Nat.succ.inj hlen)
        fun g d hg => hv g d (List.mem_cons_of_mem _ hg)
      cases v with
      | none =>
        rw [walkFields?, interpretFields, walkFields, hchecked, hdirect]
        exact ⟨by simp, rfl⟩
      | some d =>
        obtain ⟨inner, more, hinner, hmore, rfl⟩ := RuleTree.ofField_eq_ok.1 htree
        have hd := hv f d (by simp) hinner hmore
        rw [walkFields?, interpretFields, walkFields, hchecked, hdirect]
        have hc := hd.checked (path ++ "." ++ f.name)
        have hi := hd.direct (path ++ "." ++ f.name)
        dsimp only at hc hi
        rw [hi]
        exact ⟨by simp [hc], rfl⟩

/-- The rules at the root of a tree are run where they are made. -/
theorem interpretTags_root {ty : Ty} {own : Tags} {inner : RuleTree} {more : List Rule}
    (htree : RuleTree.ofTy site registry ty = .ok inner)
    (hmore : compileTags site registry ty own = .ok more) (path : String) (d : Datum) :
    interpretTags site registry source path ty d (ty.tags ++ own) =
      .ok (applyRules site.schema source path (inner.add more).rules d) := by
  rw [RuleTree.rules_add]
  exact interpretTags_eq (compileTags_append (RuleTree.rules_of_ofTy htree) hmore) source path d

end

/-- **A value of a type has the same failures by its tree and by its type**, and its walk along
    the tree meets no part of the tree, no bean and no rules that are not there. -/
theorem sameFailures_of_conforms {s : Schema} {registry : Registry} {set : RuleSet}
    (hset : RuleSet.compile s registry = .ok set) {ty : Ty} {d : Datum} (hd : Conforms s ty d)
    (source : String) {b : BeanDef} {f : Field} {own : Tags} {inner : RuleTree} {more : List Rule}
    (htree : RuleTree.ofTy ⟨s, b, f⟩ registry ty = .ok inner)
    (hmore : compileTags ⟨s, b, f⟩ registry ty own = .ok more) :
    SameFailures ⟨s, b, f⟩ registry set source own ty (inner.add more) d := by
  induction hd generalizing b f own inner more with
  | @bean m id c vs hc _ _ hlen _ _ ih =>
    have hroot := interpretTags_root source htree hmore
    obtain ⟨rules, -, rfl⟩ := RuleTree.ofTy_bean_eq_ok.1 htree
    obtain ⟨hrules, hcompiled⟩ := RuleSet.bean_of_compile hset hc
    have hfields := sameFailures_fields set source (compileFields_eq_ok.1 hcompiled) hlen
      fun g d hg => ih g d hg
    constructor
    · intro path
      simp [RuleTree.add, walk?, walk, Schema.bean_of_lt hc, hrules, (hfields path).1]
    · intro path
      simp [interpret, hroot, (hfields path).2, bind, Except.bind, walk, RuleTree.add]
  | @seq m k elem xs _ ih =>
    have hroot := interpretTags_root source htree hmore
    obtain ⟨rules, e, -, he, rfl⟩ := RuleTree.ofTy_seq_eq_ok.1 htree
    have helems : ∀ x ∈ xs, SameFailures ⟨s, b, f⟩ registry set source [] elem e x := by
      intro x hx
      -- no tags of a field come to those of an element
      rw [← e.add_nil]
      exact ih x hx he rfl
    have hitems := sameFailures_items set source helems
    constructor
    · intro path
      simp [RuleTree.add, RuleTree.parts, walk?, walk, (hitems path 0).1]
    · intro path
      simp [interpret, hroot, (hitems path 0).2, bind, Except.bind, walk, RuleTree.add]
  | @map m key value es _ _ _ ihk ihv =>
    have hroot := interpretTags_root source htree hmore
    obtain ⟨rules, k, v, -, hk, hv, rfl⟩ := RuleTree.ofTy_map_eq_ok.1 htree
    have hkeys : ∀ e ∈ es, SameFailures ⟨s, b, f⟩ registry set source [] key k e.1 := by
      intro e he
      rw [← k.add_nil]
      exact ihk e he hk rfl
    have hvalues : ∀ e ∈ es, SameFailures ⟨s, b, f⟩ registry set source [] value v e.2 := by
      intro e he
      rw [← v.add_nil]
      exact ihv e he hv rfl
    have hentries := sameFailures_entries set source hkeys hvalues
    constructor
    · intro path
      simp [RuleTree.add, RuleTree.parts, walk?, walk, (hentries path).1]
    · intro path
      simp [interpret, hroot, (hentries path).2, bind, Except.bind, walk, RuleTree.add]
  | _ =>
    have hroot := interpretTags_root source htree hmore
    constructor
    · intro path
      simp only [walk?, walk]
    · intro path
      simp only [interpret, hroot, walk]

/-- **Validating a loaded record is interpreting its tags**: over every accepted schema whose
    rules compile, the walk along the compiled rules meets nothing that is not there, and it finds
    what the walk finds that compiles and runs each tag where it stands. -/
theorem faults_eq_interpret_of_build {h : History} {s : Schema} (hs : (Builder.run h).build = .ok s)
    (hc : h.Closed) {registry : Registry} {set : RuleSet}
    (hset : RuleSet.compile s registry = .ok set) {v : Option String} {id : Nat}
    (hid : id < s.beans.length) {x : Json} {r : Record} (hr : Loader.loadBean ⟨s, v⟩ id x = .ok r)
    (source path : String) :
    set.faults? s source path r = some (set.faults s source path r) ∧
      r.interpret s registry source path = .ok (set.faults s source path r) := by
  have hty : s.Has (.named .plain (.bean id)) := hid
  have hconf : Conforms s (.named .plain (.bean id)) (.bean r.bean r.fields) :=
    Loader.load_conforms (l := ⟨s, v⟩) (Schema.sound_of_build hs) (Schema.closed_of_build hc hs)
      hty (Loader.load_of_loadBean hr)
  cases hconf with
  | bean hlt _ _ hlen _ hfields =>
    obtain ⟨hrules, hcompiled⟩ := RuleSet.bean_of_compile hset hlt
    have h := sameFailures_fields set source (compileFields_eq_ok.1 hcompiled) hlen
      (fun f d hf => sameFailures_of_conforms hset (hfields f d hf) source) path
    refine ⟨?_, h.2⟩
    simp [RuleSet.faults?, RuleSet.faults, Schema.bean_of_lt hlt, hrules, h.1]

/-- Crates of items with names, some of them gems with colors. -/
def crates : History :=
  let text (size : String) : Ty := .scalar ⟨false, [("size", size)]⟩ .string
  let colors : Ty := .seq ⟨false, [("size", "[1,2]")]⟩ .list (text "2")
  let items : Ty := .seq .plain .array (.named .plain (.bean 0))
  [.addBean ⟨"Item", none, none,
      [⟨"name", none, [], text "[1,3]", [("set", "ab,cd")], none⟩], none⟩,
    .addBean ⟨"Gem", some "Item", none, [⟨"colors", none, [], colors, [], none⟩], none⟩,
    .addBean ⟨"Crate", none, none, [⟨"items", none, [], items, [("size", "[2,5]")], none⟩], none⟩]

/-- A crate with one gem, its name too long and with a color too many. -/
def crate : Json :=
  .object [("items", .array [.object [("$type", .string "Gem"), ("name", .string "abcd"),
    ("colors", .array [.string "x", .string "yy", .string "z"])]])]

theorem faults_eq_interpret_crate : ∃ s set r, (Builder.run crates).build = .ok s ∧
    RuleSet.compile s .standard = .ok set ∧ Loader.loadBean ⟨s, none⟩ 2 crate = .ok r ∧
    (set.faults s "crates.json" "TbCrate[0]" r).map Failure.path =
      ["TbCrate[0].items", "TbCrate[0].items[0].name", "TbCrate[0].items[0].name",
        "TbCrate[0].items[0].colors", "TbCrate[0].items[0].colors[0]",
        "TbCrate[0].items[0].colors[2]"] ∧
    set.faults? s "crates.json" "TbCrate[0]" r = some (set.faults s "crates.json" "TbCrate[0]" r) ∧
    r.interpret s .standard "crates.json" "TbCrate[0]" =
      .ok (set.faults s "crates.json" "TbCrate[0]" r) := by
  refine ⟨_, _, _, rfl, rfl, rfl, ?_, ?_⟩
  · decide +kernel
  · refine @faults_eq_interpret_of_build crates _ rfl ?_ _ _ rfl none 2 ?_ crate _ rfl _ _
    · unfold History.Closed Builder.Has
      decide
    · decide

end GameConfig
