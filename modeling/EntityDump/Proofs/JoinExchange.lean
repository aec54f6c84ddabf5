import EntityDump.Proofs.Filter.Literal
import EntityDump.Proofs.Join
import Mathlib.Data.Multiset.Bind
/-!
# Joins with the sides exchanged

A join treats its sides differently: it goes through the elements on the left and their keys, repeated ones too,
and finds each element on the right once under a key. So a pair is given as often as the left element's keys, with
repetitions, are keys of the right one (`joinPairs_perm`). If no element has a key twice this number stays the same
when the sides are exchanged, and so the pairs are the same up to their order (`joinPairs_exchange_perm`), also under
a filter whose conditions name the other side each. `join_exchange` says so of the join of two sources.
-/

namespace EntityDump

open Json.Grammar (Derives IsBlank)
open scoped List

/-! ### Exchanged filters -/

/-- The other element of a pair. -/
def Side.exchange : Side → Side
  | .left => .right
  | .right => .left

namespace Condition

/-- The same condition on the other element. -/
def exchange (c : Condition) : Condition :=
  { c with side := c.side.exchange }

/-- A condition that changes sides holds of the exchanged pair. -/
lemma holdsOfPair_exchange (c : Condition) (left right : Json) :
    c.exchange.holdsOfPair right left = c.holdsOfPair left right := by
  obtain ⟨side, path, operator, literal⟩ := c
  cases side with
  | left => rfl
  | right => rfl

end Condition

/-- Conditions on the other elements accept a pair the other way round. -/
lemma FilterSet.acceptsPair_exchange {filter exchanged : FilterSet}
    (h : exchanged.conditions = filter.conditions.map Condition.exchange) (left right : Json) :
    exchanged.acceptsPair right left = filter.acceptsPair left right := by
  rw [acceptsPair, acceptsPair, h, List.all_map]
  congr 1
  funext c
  exact c.holdsOfPair_exchange left right

/-! ### Loops in another order -/

section Loops

variable {α β γ : Type}

/-- Two nested loops give the same if the outer one becomes the inner one. -/
lemma perm_flatMap_comm (as : List α) (bs : List β) (f : α → β → List γ) :
    (as.flatMap fun a => bs.flatMap fun b => f a b).Perm (bs.flatMap fun b => as.flatMap fun a => f a b) := by
  have hcomm := Multiset.bind_bind (as : Multiset α) (bs : Multiset β) (f := fun a b => (f a b : Multiset γ))
  simp only [Multiset.coe_bind] at hcomm
  exact Multiset.coe_eq_coe.1 hcomm

/-- Items are filtered and mapped one by one. -/
lemma map_filter_eq_flatMap (p : α → Bool) (f : α → β) (as : List α) :
    (as.filter p).map f = as.flatMap fun a => if p a then [f a] else [] := by
  induction as with
  | nil => rfl
  | cons a as ih =>
    rw [List.flatMap_cons, ← ih, List.filter_cons]
    split <;> rfl

end Loops

section Pairs

variable {leftPath rightPath : Path} {filter exchanged : FilterSet} {lefts rights : List Json}
  {left right : Json}

/-- The keys of the left element, with repetitions, that the right element has too. -/
def sharedKeys (leftPath rightPath : Path) (left right : Json) : List String :=
  (joinKeys leftPath left).filter fun key => key ∈ joinKeys rightPath right

/-- Without repetitions both elements have the same keys in common with the other one. -/
lemma sharedKeys_perm (hleft : (joinKeys leftPath left).Nodup) (hright : (joinKeys rightPath right).Nodup) :
    (sharedKeys leftPath rightPath left right).Perm (sharedKeys rightPath leftPath right left) := by
  refine (List.perm_ext_iff_of_nodup (hleft.filter _) (hright.filter _)).2 fun key => ?_
  simp only [List.mem_filter, decide_eq_true_eq, and_comm]

/-- How often a join gives a pair. -/
def pairCount (leftPath rightPath : Path) (filter : FilterSet) (left right : Json) : ℕ :=
  if filter.acceptsPair left right then (sharedKeys leftPath rightPath left right).length else 0

/-- Exchanged elements stand in as many pairs. -/
lemma pairCount_exchange (hfilter : exchanged.conditions = filter.conditions.map Condition.exchange)
    (hleft : (joinKeys leftPath left).Nodup) (hright : (joinKeys rightPath right).Nodup) :
    pairCount rightPath leftPath exchanged right left = pairCount leftPath rightPath filter left right := by
  rw [pairCount, pairCount, FilterSet.acceptsPair_exchange hfilter, (sharedKeys_perm hleft hright).length_eq]

/-- For one left element the loop over its keys gives each pair as often as keys are shared. -/
lemma flatMap_keys_eq_replicate :
    ((joinKeys leftPath left).flatMap fun key =>
      if decide (key ∈ joinKeys rightPath right ∧ filter.acceptsPair left right = true) then [(left, right)] else []) =
      List.replicate (pairCount leftPath rightPath filter left right) (left, right) := by
  rw [← map_filter_eq_flatMap _ fun _ => (left, right), List.map_const', pairCount]
  split
  · next haccepts => simp [sharedKeys, haccepts]
  · next haccepts => simp [haccepts]

/-- The loops of a join give each pair as often as it counts, in some order. -/
theorem joinPairs_perm (leftPath rightPath : Path) (filter : FilterSet) (lefts rights : List Json) :
    (joinPairs leftPath rightPath filter lefts rights).Perm
      (lefts.flatMap fun left => rights.flatMap fun right =>
        List.replicate (pairCount leftPath rightPath filter left right) (left, right)) := by
  refine List.Perm.flatMap_left lefts fun left _ => ?_
  simp only [map_filter_eq_flatMap]
  refine (perm_flatMap_comm _ _ _).trans (List.Perm.of_eq ?_)
  congr 1
  funext right
  exact flatMap_keys_eq_replicate

/-- With the sides exchanged, the loops of a join give the exchanged pairs, if no element has a key twice. -/
theorem joinPairs_exchange_perm (hfilter : exchanged.conditions = filter.conditions.map Condition.exchange)
    (hlefts : ∀ left ∈ lefts, (joinKeys leftPath left).Nodup)
    (hrights : ∀ right ∈ rights, (joinKeys rightPath right).Nodup) :
    ((joinPairs leftPath rightPath filter lefts rights).map Prod.swap).Perm
      (joinPairs rightPath leftPath exchanged rights lefts) := by
  have hswap : ((lefts.flatMap fun left => rights.flatMap fun right =>
      List.replicate (pairCount leftPath rightPath filter left right) (left, right)).map Prod.swap) =
      lefts.flatMap fun left => rights.flatMap fun right =>
        List.replicate (pairCount leftPath rightPath filter left right) (right, left) := by
    simp only [List.map_flatMap, List.map_replicate, Prod.swap_prod_mk]
  have hcounts : (rights.flatMap fun right => lefts.flatMap fun left =>
      List.replicate (pairCount leftPath rightPath filter left right) (right, left)).Perm
      (rights.flatMap fun right => lefts.flatMap fun left =>
        List.replicate (pairCount rightPath leftPath exchanged right left) (right, left)) := by
    refine List.Perm.flatMap_left rights fun right hright => List.Perm.flatMap_left lefts fun left hleft => ?_
    rw [pairCount_exchange hfilter (hlefts left hleft) (hrights right hright)]
  calc (joinPairs leftPath rightPath filter lefts rights).map Prod.swap
    _ ~ (lefts.flatMap fun left => rights.flatMap fun right =>
          List.replicate (pairCount leftPath rightPath filter left right) (left, right)).map Prod.swap :=
        (joinPairs_perm leftPath rightPath filter lefts rights).map Prod.swap
    _ = lefts.flatMap fun left => rights.flatMap fun right =>
          List.replicate (pairCount leftPath rightPath filter left right) (right, left) := hswap
    _ ~ rights.flatMap fun right => lefts.flatMap fun left =>
          List.replicate (pairCount leftPath rightPath filter left right) (right, left) := perm_flatMap_comm _ _ _
    _ ~ rights.flatMap fun right => lefts.flatMap fun left =>
          List.replicate (pairCount rightPath leftPath exchanged right left) (right, left) := hcounts
    _ ~ joinPairs rightPath leftPath exchanged rights lefts :=
        (joinPairs_perm rightPath leftPath exchanged rights lefts).symm

end Pairs

/-! ### The join of two sources -/

/-- An item with both elements, each under the name of the other one. -/
def exchangeItem (item : Json) : Json :=
  .object [("left", (item.field? "right").getD .null), ("right", (item.field? "left").getD .null)]

/-- An item of two whole elements becomes that of the exchanged ones. -/
lemma exchangeItem_joinItem (left right : Json) :
    exchangeItem (joinItem [] left right) = joinItem [] right left := by
  rfl

/-- The options of a join with the keys exchanged and another filter. -/
def JoinOptions.exchange (options : JoinOptions) (filter : Option String) : JoinOptions :=
  { options with leftKey := options.rightKey, rightKey := options.leftKey, filter := filter }

/-- For two sources that can be read and given keys that no element has twice, a join with the sources, the keys and
the side of each condition exchanged counts as many pairs. If the limit has room for all of them and no fields are asked
for, its items are the same in some order, with left and right exchanged in each. -/
theorem join_exchange (engine : Engine) (left right : Source) (options : JoinOptions)
    (expression : Option String) (leftKey rightKey : String) (leftPath rightPath : Path)
    (filter exchanged : FilterSet) (select : List SideProjection) (lefts rights : List Json)
    (hlefts : left.elements engine.config.stream engine.directory = .ok lefts)
    (hrights : right.elements engine.config.stream engine.directory = .ok rights)
    (hleftKey : options.leftKey = some leftKey) (hrightKey : options.rightKey = some rightKey)
    (hleftPath : Path.parse leftKey = .ok leftPath) (hrightPath : Path.parse rightKey = .ok rightPath)
    (hfilter : engine.pairFilter options.filter = .ok filter)
    (hexchanged : engine.pairFilter expression = .ok exchanged)
    (hconditions : exchanged.conditions = filter.conditions.map Condition.exchange)
    (hselect : options.select.mapM SideProjection.parse = .ok select)
    (hleftNodup : ∀ element ∈ lefts, (joinKeys leftPath element).Nodup)
    (hrightNodup : ∀ element ∈ rights, (joinKeys rightPath element).Nodup) :
    ∃ result result', engine.join left right options = .ok result ∧
      engine.join right left (options.exchange expression) = .ok result' ∧
      result.totalMatched = result'.totalMatched ∧
      (options.select = [] → result.totalMatched ≤ options.limit.getD engine.config.query.defaultLimit →
        (result.items.map exchangeItem).Perm result'.items) := by
  have hkeys : engine.joinKeys left right options.leftKey options.rightKey = .ok ⟨leftKey, rightKey, none⟩ := by
    rw [hleftKey, hrightKey]
    rfl
  have hkeys' : engine.joinKeys right left (options.exchange expression).leftKey
      (options.exchange expression).rightKey = .ok ⟨rightKey, leftKey, none⟩ := by
    rw [JoinOptions.exchange, hleftKey, hrightKey]
    rfl
  obtain ⟨result, hjoin, -, hmatched, hitems, -⟩ :=
    exists_join_of_joinKeys hkeys hleftPath hrightPath hfilter hselect hlefts hrights
  obtain ⟨result', hjoin', -, hmatched', hitems', -⟩ :=
    exists_join_of_joinKeys hkeys' hrightPath hleftPath hexchanged hselect hrights hlefts
  -- The items are pairs in another order, so they agree only while the limit cuts off none.
  have hpairs := joinPairs_exchange_perm hconditions hleftNodup hrightNodup
  have htotal : result.totalMatched = result'.totalMatched := by
    rw [hmatched, hmatched', ← hpairs.length_eq, List.length_map]
  refine ⟨result, result', hjoin, hjoin', htotal, fun hfields hroom => ?_⟩
  obtain rfl : [] = select := by
    rw [hfields] at hselect
    exact Except.ok.inj hselect
  have hroom' : result'.totalMatched ≤ (options.exchange expression).limit.getD engine.config.query.defaultLimit :=
    htotal ▸ hroom
  rw [hmatched] at hroom
  rw [hmatched'] at hroom'
  have hexchange : (exchangeItem ∘ fun pair : Json × Json => joinItem [] pair.1 pair.2) =
      (fun pair => joinItem [] pair.1 pair.2) ∘ Prod.swap := by
    funext pair
    exact exchangeItem_joinItem pair.1 pair.2
  rw [hitems, hitems', List.take_of_length_le hroom, List.take_of_length_le hroom', List.map_map, hexchange,
    ← List.map_map]
  exact hpairs.map _

/-- A file with the text `[true]` and one with the text `[[true,null,true]]`. -/
def twoArrays : Directory :=
  ⟨[("a", [0x5b, 0x74, 0x72, 0x75, 0x65, 0x5d]),
    ("b", [0x5b, 0x5b, 0x74, 0x72, 0x75, 0x65, 0x2c, 0x6e, 0x75, 0x6c, 0x6c, 0x2c,
      0x74, 0x72, 0x75, 0x65, 0x5d, 0x5d])]⟩

lemma elements_twoArrays :
    (Source.rootArray "a").elements {} twoArrays = .ok [.bool true] ∧
      (Source.rootArray "b").elements {} twoArrays = .ok [.array [.bool true, .null, .bool true]] := by
  have hblank : IsBlank [] := by simp [IsBlank]
  have htrue : Derives [0x74, 0x72, 0x75, 0x65] (.element (.scalar (.bool true))) :=
    .element hblank (.scalar .true) hblank
  have hnull : Derives [0x6e, 0x75, 0x6c, 0x6c] (.element (.scalar .null)) :=
    .element hblank (.scalar .null) hblank
  have hleft : Derives [0x5b, 0x74, 0x72, 0x75, 0x65, 0x5d] (.value (.array [.scalar (.bool true)])) :=
    .array (.lastItem htrue)
  have hitem : Derives [0x5b, 0x74, 0x72, 0x75, 0x65, 0x2c, 0x6e, 0x75, 0x6c, 0x6c, 0x2c,
      0x74, 0x72, 0x75, 0x65, 0x5d]
      (.value (.array [.scalar (.bool true), .scalar .null, .scalar (.bool true)])) :=
    .array (.item htrue (.item hnull (.lastItem htrue)))
  have hright : Derives [0x5b, 0x5b, 0x74, 0x72, 0x75, 0x65, 0x2c, 0x6e, 0x75, 0x6c, 0x6c, 0x2c,
      0x74, 0x72, 0x75, 0x65, 0x5d, 0x5d]
      (.value (.array [.array [.scalar (.bool true), .scalar .null, .scalar (.bool true)]])) :=
    .array (.lastItem (.element hblank hitem hblank))
  exact ⟨Source.elements_of_isText (.rootArray "a") {} twoArrays (by decide) (.element hblank hleft hblank) (by decide),
    Source.elements_of_isText (.rootArray "b") {} twoArrays (by decide) (.element hblank hright hblank) (by decide)⟩

/-- The path of the elements themselves. -/
lemma parse_wholeElement : Path.parse "" = .ok ⟨"", []⟩ :=
  Path.parse_of_scan (by decide) (by decide +kernel)

/-- The elements of one file are the first items of the other's, of which the third item is true. -/
def twoArraysOptions : JoinOptions :=
  { leftKey := some "", rightKey := some "[0]", filter := some "b.[2] = true" }

/-- A join of two files with a key that each element has once and a condition on one side. -/
theorem join_exchange_of_twoArrays :
    ∃ result result',
      Engine.join ⟨{}, twoArrays⟩ (.rootArray "a") (.rootArray "b") twoArraysOptions = .ok result ∧
      Engine.join ⟨{}, twoArrays⟩ (.rootArray "b") (.rootArray "a")
        (twoArraysOptions.exchange (some "a.[2] = true")) = .ok result' ∧
      result.totalMatched = 1 ∧ result'.totalMatched = 1 ∧ (result.items.map exchangeItem).Perm result'.items := by
  obtain ⟨hlefts, hrights⟩ := elements_twoArrays
  have hfirst : Path.parse "[0]" = .ok ⟨"[0]", [.index 0]⟩ :=
    Path.parse_of_scan (by decide) (by decide +kernel)
  have hthird : Path.parse "[2]" = .ok ⟨"[2]", [.index 2]⟩ :=
    Path.parse_of_scan (by decide) (by decide +kernel)
  have hread : ∀ (side : Side) (before : List Char), side.Named true before →
      ¬ FilterSet.separator <:+: before ++ "[2]".toList →
      FilterSet.parse false true [String.ofList before ++ "[2]" ++ " " ++ Operator.equal.symbol ++ " " ++ "true"] =
        .ok { conditions := [⟨side, ⟨"[2]", [.index 2]⟩, .equal, .bool true⟩] } := fun side before hnamed hsep =>
    FilterSet.parse_spaced false hnamed hthird (by decide +kernel) (by decide) (by decide) hsep (by decide)
  have hfilter : Engine.pairFilter ⟨{}, twoArrays⟩ (some "b.[2] = true") =
      .ok { conditions := [⟨.right, ⟨"[2]", [.index 2]⟩, .equal, .bool true⟩] } :=
    hread .right ['b', '.'] Side.named_right (by decide)
  have hexchanged : Engine.pairFilter ⟨{}, twoArrays⟩ (some "a.[2] = true") =
      .ok { conditions := [⟨.left, ⟨"[2]", [.index 2]⟩, .equal, .bool true⟩] } :=
    hread .left ['a', '.'] Side.named_left (by decide)
  obtain ⟨result, result', hjoin, hjoin', htotal, hitems⟩ := join_exchange ⟨{}, twoArrays⟩ (.rootArray "a")
    (.rootArray "b") twoArraysOptions (some "a.[2] = true") "" "[0]" _ _ _ _ [] _ _ hlefts hrights rfl rfl
    parse_wholeElement hfirst hfilter hexchanged rfl rfl (by decide +kernel) (by decide +kernel)
  have hone : (joinPairs ⟨"", []⟩ ⟨"[0]", [.index 0]⟩
      { conditions := [⟨.right, ⟨"[2]", [.index 2]⟩, .equal, .bool true⟩] } [.bool true]
      [.array [.bool true, .null, .bool true]]).length = 1 := by decide +kernel
  have hmatched : result.totalMatched = 1 := by
    have hkeys : Engine.joinKeys ⟨{}, twoArrays⟩ (.rootArray "a") (.rootArray "b") twoArraysOptions.leftKey
        twoArraysOptions.rightKey = .ok ⟨"", "[0]", none⟩ := rfl
    obtain ⟨counted, hcounted, -, hmatched, -⟩ :=
      exists_join_of_joinKeys hkeys parse_wholeElement hfirst hfilter rfl hlefts hrights
    rw [Except.ok.inj (hjoin.symm.trans hcounted), hmatched, hone]
  exact ⟨result, result', hjoin, hjoin', hmatched, htotal ▸ hmatched, hitems rfl (by rw [hmatched]; decide)⟩

end EntityDump
