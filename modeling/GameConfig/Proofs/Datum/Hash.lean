import GameConfig.Datum.Hash
import GameConfig.Proofs.Datum.Equivalence

/-
  Hashing respects equality.

  Equal values feed a hasher the same words, as long as equal floating-point
  numbers do.  So an index that compares a key only with keys of the same hash,
  and with whatever others it comes across, finds what comparing with all keys
  finds.

  * `feed_congr`: equal values feed the same words;
  * `find?_visited`: what an index finds;
  * `feed_eq_of_same` puts them together.
-/

namespace GameConfig

-- powers are those of the core library, whatever algebra is imported
attribute [local instance (high)] instPowNat

namespace Datum

variable {h : HashScheme}

/-! ## Words of equal values -/

/-- Every value equal to this one feeds the same words. -/
def Feeds (h : HashScheme) (a : Datum) : Prop := ∀ b : Datum, a.same b = true → a.feed h = b.feed h

theorem feedItems_congr {xs ys : List Datum} (hx : ∀ x ∈ xs, Feeds h x)
    (hs : sameItems xs ys = true) :
    xs.length = ys.length ∧ feedItems h xs = feedItems h ys := by
  induction xs generalizing ys with
  | nil =>
    cases ys with
    | nil => exact ⟨rfl, rfl⟩
    | cons y ys => simp [sameItems] at hs
  | cons x xs ih =>
    cases ys with
    | nil => simp [sameItems] at hs
    | cons y ys =>
      rw [List.forall_mem_cons] at hx
      rw [sameItems, Bool.and_eq_true] at hs
      obtain ⟨hlen, hfeed⟩ := ih hx.2 hs.2
      exact ⟨congrArg Nat.succ hlen, by rw [feedItems, feedItems, hx.1 y hs.1, hfeed]⟩

theorem feedFields_congr {vs ws : List (Option Datum)} (hv : ∀ x, some x ∈ vs → Feeds h x)
    (hs : sameFields vs ws = true) :
    vs.length = ws.length ∧ feedFields h vs = feedFields h ws := by
  induction vs generalizing ws with
  | nil =>
    cases ws with
    | nil => exact ⟨rfl, rfl⟩
    | cons w ws => simp [sameFields] at hs
  | cons v vs ih =>
    have hrest : ∀ x, some x ∈ vs → Feeds h x := fun x hx => hv x (List.mem_cons_of_mem _ hx)
    cases v with
    | none =>
      rcases ws with _ | ⟨_ | w, ws⟩
      · simp [sameFields] at hs
      · rw [sameFields] at hs
        obtain ⟨hlen, hfeed⟩ := ih hrest hs
        exact ⟨congrArg Nat.succ hlen, by rw [feedFields, feedFields, hfeed]⟩
      · simp [sameFields] at hs
    | some x =>
      rcases ws with _ | ⟨_ | w, ws⟩
      · simp [sameFields] at hs
      · simp [sameFields] at hs
      · rw [sameFields, Bool.and_eq_true] at hs
        obtain ⟨hlen, hfeed⟩ := ih hrest hs.2
        have hword := hv x (List.mem_cons_self ..) w hs.1
        exact ⟨congrArg Nat.succ hlen, by rw [feedFields, feedFields, hword, hfeed]⟩

/-- **Equal values feed the same words.** -/
theorem feed_congr (hl : h.Lawful) (a : Datum) : Feeds h a := by
  induction a using Datum.induction with
  | step a ih =>
    intro b hs
    cases a with
    | bean id vs =>
      cases b with
      | bean jd ws =>
        simp only [same, Bool.and_eq_true, beq_iff_eq] at hs
        obtain ⟨rfl, hs⟩ := hs
        obtain ⟨hlen, hfeed⟩ :=
          feedFields_congr (fun x hx => ih x (List.mem_filterMap.2 ⟨some x, hx, rfl⟩)) hs
        rw [feed, feed, hlen, hfeed]
      | _ => simp [same] at hs
    | seq k xs =>
      cases b with
      | seq l ys =>
        simp only [same, Bool.and_eq_true, beq_iff_eq] at hs
        obtain ⟨rfl, hs⟩ := hs
        have hitems : ∀ x ∈ xs, Feeds h x := ih
        obtain ⟨hlen, hfeed⟩ := feedItems_congr hitems hs
        rw [feed, feed, hlen, hfeed]
      | _ => simp [same] at hs
    | map es =>
      cases b with
      | map fs =>
        rw [same_map_iff] at hs
        rw [feed, feed, Entries.feed, Entries.feed, hs.1]
      | _ => simp [same] at hs
    | float x =>
      cases b with
      | float y => rw [feed, feed, hl.float x y (by simpa [same] using hs)]
      | _ => simp [same] at hs
    | double x =>
      cases b with
      | double y => rw [feed, feed, hl.double x y (by simpa [same] using hs)]
      | _ => simp [same] at hs
    | _ =>
      -- the other kinds are equal only to themselves
      cases b <;> simp [same] at hs
      all_goals simp [hs]

/-! ## Lookups -/

/-- An index that visits every entry whose key has the hash of the one looked for finds what a
    search through all entries finds, whatever entries it visits besides. -/
theorem find?_visited {β : Type} (hl : h.Lawful) (code : List HashWord → Nat) {key : Datum}
    {es visited : List (Datum × β)} (hkey : key.Distinct) (hes : ∀ e ∈ es, e.1.Distinct)
    (hdiffer : es.Pairwise fun e f => e.1.same f.1 = false ∧ f.1.same e.1 = false)
    (hsub : ∀ e ∈ visited, e ∈ es)
    (hall : ∀ e ∈ es, code (e.1.feed h) = code (key.feed h) → e ∈ visited) :
    visited.find? (fun e => key.same e.1) = es.find? fun e => key.same e.1 := by
  cases hfind : es.find? fun e => key.same e.1 with
  | none =>
    rw [List.find?_eq_none] at hfind ⊢
    exact fun e he => hfind e (hsub e he)
  | some e =>
    have he := List.mem_of_find?_eq_some hfind
    have hsame : key.same e.1 = true := by simpa using List.find?_some hfind
    have hvisited : e ∈ visited := hall e he (by rw [feed_congr hl key e.1 hsame])
    cases hfirst : visited.find? fun e => key.same e.1 with
    | none => exact absurd hsame (List.find?_eq_none.1 hfirst e hvisited)
    | some f =>
      have hf := hsub f (List.mem_of_find?_eq_some hfirst)
      have hsame' : key.same f.1 = true := by simpa using List.find?_some hfirst
      -- no two keys are equal to the one that is looked for
      rw [← same_congr hkey (hes e he) (hes f hf) hsame] at hsame'
      rw [eq_of_same_of_pairwise hdiffer he hf hsame']

/-! ## Hashing -/

/-- **Equal values feed a hasher the same words, and so do equal maps.**  Therefore an index by
    hash, whatever it makes of the words and whatever else it visits, finds the entry whose key
    is equal to the one looked for. -/
theorem feed_eq_of_same (hl : h.Lawful) :
    (∀ a b : Datum, a.same b = true → a.feed h = b.feed h) ∧
    (∀ es fs : Entries, (map es).same (map fs) = true → es.feed = fs.feed) ∧
    ∀ (β : Type) (code : List HashWord → Nat) (key : Datum) (es visited : List (Datum × β)),
      key.Distinct → (∀ e ∈ es, e.1.Distinct) →
      es.Pairwise (fun e f => e.1.same f.1 = false ∧ f.1.same e.1 = false) →
      (∀ e ∈ visited, e ∈ es) →
      (∀ e ∈ es, code (e.1.feed h) = code (key.feed h) → e ∈ visited) →
      visited.find? (fun e => key.same e.1) = es.find? fun e => key.same e.1 := by
  refine ⟨fun a b hs => feed_congr hl a b hs, fun es fs hs => ?_, ?_⟩
  · rw [Entries.feed, Entries.feed, (same_map_iff.1 hs).1]
  · intro β code key es visited hkey hes hdiffer hsub hall
    exact find?_visited hl code hkey hes hdiffer hsub hall

end Datum

/-! ## A scheme -/

/-- The sign, the exponent and the significand in the bits of a double; the two zeros have one
    word, and so has everything that is not a number. -/
def Binary.hashBits {l : Layout} : Binary l → Nat
  | nan => 0x7ff8000000000000
  | ranked negative rank =>
    let fraction := rank.val % 2 ^ l.fractionBits
    let stored := rank.val / 2 ^ l.fractionBits
    let significand := if stored = 0 then 2 * fraction else 2 ^ l.fractionBits + fraction
    let exponent : Int := stored - (2 ^ (l.exponentBits - 1) - 1 + l.fractionBits : Nat)
    let positive := !negative || rank.val == 0
    let unit := 2 ^ Layout.double.fractionBits
    significand % unit + (exponent % 2048).toNat * unit + (if positive then 2048 * unit else 0)

theorem Binary.hashBits_congr {l : Layout} {x y : Binary l} (hs : x.same y = true) :
    x.hashBits = y.hashBits := by
  rcases Binary.same_iff.1 hs with rfl | ⟨s, t, rfl, rfl⟩
  · rfl
  · simp [Binary.hashBits, Binary.ofRank]

/-- Floating-point numbers feed their bits, times their written form. -/
def HashScheme.bits : HashScheme where
  float x := [.unsigned 64 x.hashBits]
  double x := [.unsigned 64 x.hashBits]
  datetime t := [.text t.toText]

theorem HashScheme.lawful_bits : HashScheme.bits.Lawful where
  float _ _ hs := congrArg (fun n => [HashWord.unsigned 64 n]) (Binary.hashBits_congr hs)
  double _ _ hs := congrArg (fun n => [HashWord.unsigned 64 n]) (Binary.hashBits_congr hs)

namespace Datum

/-- A holder of a purse, of nothing, and of a number that is zero with this sign. -/
def holder (purse : Entries) (negative : Bool) : Datum :=
  bean 3 [some (map purse), none, some (double (.ofRank negative 0)), some (float .nan)]

theorem feed_eq_of_same_holder :
    HashScheme.bits.Lawful ∧
      (holder (purse false) false).same (holder (purse true).reverse true) = true ∧
      (holder (purse false) false).feed .bits = (holder (purse true).reverse true).feed .bits := by
  have hsame : (holder (purse false) false).same (holder (purse true).reverse true) = true := by
    simp [holder, purse, same, sameFields, within, sameItems, Binary.same, Binary.ofRank,
      Binary.key]
  exact ⟨HashScheme.lawful_bits, hsame, (feed_eq_of_same HashScheme.lawful_bits).1 _ _ hsame⟩

end Datum

end GameConfig
