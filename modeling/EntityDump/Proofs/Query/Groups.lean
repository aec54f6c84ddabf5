import EntityDump.Proofs.Path.Selection
import EntityDump.Proofs.Query.Agreement
import Mathlib
/-!
# Groups

A grouping tells how often each key occurs among the keys of the elements that pass. The answer is a `Tally.Of`
these keys: every key that occurs, with its count, in order of its rank. The rank puts different keys in a strict
order, so keys have only one such list (`Tally.Of.unique`), however their map lists its entries and in whatever
order the elements come (`Engine.groupBy_tallies_keys`). A path without wildcards gives every element one key, and
then the counts add up to the number of elements.
-/

namespace EntityDump

open Json.Grammar (Derives IsBlank IsDigit IsDigits IsNumber IsNumberOf)

/-! ### Sums by keys -/

/-- The weights of items add up to the same if the items are taken key by key. -/
lemma sum_map_filter_eq {ι κ : Type} [DecidableEq κ] {key : ι → κ} {keys : List κ} {items : List ι}
    (hnodup : keys.Nodup) (hkeys : ∀ item ∈ items, key item ∈ keys) (weight : ι → ℕ) :
    (keys.map fun k => ((items.filter (key · = k)).map weight).sum).sum = (items.map weight).sum := by
  induction items with
  | nil => simp
  | cons item items ih =>
    -- the weight of the first item is added under its key alone
    have hfirst : (keys.map fun k => if k = key item then weight item else 0).sum = weight item := by
      rw [List.sum_map_eq_nsmul_single (key item) _ fun k hk _ => if_neg hk,
        List.count_eq_one_of_mem hnodup (hkeys item List.mem_cons_self), if_pos rfl, one_nsmul]
    have hsplit : ∀ k, (((item :: items).filter (key · = k)).map weight).sum =
        (if k = key item then weight item else 0) + ((items.filter (key · = k)).map weight).sum := by
      intro k
      by_cases hk : key item = k
      · simp [hk]
      · simp [hk, Ne.symm hk]
    have hrest := ih fun item' hitem' => hkeys item' (List.mem_cons_of_mem item hitem')
    simp only [hsplit]
    rw [List.sum_map_add, hfirst, hrest, List.map_cons, List.sum_cons]

/-! ### Loops over what passes -/

/-- If a step changes a part of the state for accepted items only, a loop changes it as a loop over these. -/
lemma foldl_eq_foldl_filter {σ τ ι : Type} {accepts : ι → Bool} {step : σ → ι → σ} (part : σ → τ)
    (take : τ → ι → τ)
    (hstep : ∀ s item, part (step s item) = if accepts item then take (part s) item else part s)
    (items : List ι) (s : σ) :
    part (items.foldl step s) = (items.filter accepts).foldl take (part s) := by
  rw [List.foldl_filter]
  exact (List.foldl_hom part fun s item => (hstep s item).symm).symm

/-! ### Keys of an element -/

/-- A path without wildcards gives each element one key. -/
lemma length_groupKeys {path : Path} (h : path.hasWildcard = false) (element : Json) :
    (groupKeys path element).length = 1 := by
  have hle := Path.length_select_le_one h element
  unfold groupKeys
  generalize path.select element = selected at hle
  cases selected with
  | nil => rfl
  | cons value rest => simpa using hle

namespace Tally

/-! ### Counts of keys -/

/-- Counting a key changes its own count alone. -/
lemma getElem?_bump (t : Tally) (key k : String) :
    (t.bump key)[k]? = if key = k then some (t[k]?.getD 0 + 1) else t[k]? := by
  rw [bump, Std.TreeMap.getElem?_alter]
  by_cases h : key = k
  · subst h
    simp
  · simp [h]

/-- Keys that are counted add their occurrences to what was counted before. -/
lemma getElem?_bumpAll (t : Tally) (keys : List String) (k : String) :
    (t.bumpAll keys)[k]? = if k ∈ keys then some (t[k]?.getD 0 + keys.count k) else t[k]? := by
  unfold bumpAll
  induction keys generalizing t with
  | nil => rfl
  | cons key keys ih =>
    rw [List.foldl_cons, ih, getElem?_bump, List.count_cons]
    by_cases hkey : key = k
    · subst hkey
      by_cases hmem : key ∈ keys
      · simp [hmem, Nat.add_assoc, Nat.add_comm]
      · simp [hmem, List.count_eq_zero_of_not_mem hmem]
    · have hne : k ≠ key := fun heq => hkey heq.symm
      simp [hkey, hne]

/-! ### Ranks -/

/-- A group ranks no lower than another if its count is the higher, or the same for a value that is not greater. -/
lemma ranksNoLower_iff {a b : String × ℕ} :
    ranksNoLower a b = true ↔ b.2 < a.2 ∨ a.2 = b.2 ∧ a.1 ≤ b.1 := by
  simp [ranksNoLower]

/-- What ranks no lower than another ranks no lower than all below this. -/
lemma ranksNoLower_trans (a b c : String × ℕ) (hab : ranksNoLower a b = true)
    (hbc : ranksNoLower b c = true) : ranksNoLower a c = true := by
  rw [ranksNoLower_iff] at hab hbc ⊢
  rcases hab with hab | ⟨hab, hab'⟩
  · exact .inl (by omega)
  · rcases hbc with hbc | ⟨hbc, hbc'⟩
    · exact .inl (by omega)
    · exact .inr ⟨hab.trans hbc, hab'.trans hbc'⟩

/-- Of two groups one ranks no lower than the other. -/
lemma ranksNoLower_total (a b : String × ℕ) : (ranksNoLower a b || ranksNoLower b a) = true := by
  rw [Bool.or_eq_true, ranksNoLower_iff, ranksNoLower_iff]
  rcases Nat.lt_trichotomy a.2 b.2 with h | h | h
  · exact .inr (.inl h)
  · rcases le_total a.1 b.1 with hle | hle
    · exact .inl (.inr ⟨h, hle⟩)
    · exact .inr (.inr ⟨h.symm, hle⟩)
  · exact .inl (.inl h)

/-- One entry ranks before another: its count is greater, or the counts are equal and its key is less. -/
def Before (a b : String × ℕ) : Prop :=
  b.2 < a.2 ∨ a.2 = b.2 ∧ a.1 < b.1

/-- No group stands both before and behind another. -/
lemma Before.asymm {a b : String × ℕ} (h : Before a b) : ¬ Before b a := by
  rintro (hcount | ⟨hcount, hkey⟩)
  · rcases h with h | ⟨h, -⟩ <;> omega
  · rcases h with h | ⟨-, h⟩
    · omega
    · exact lt_asymm h hkey

/-- The list of each key that occurs among some keys, with how often it does, in order of rank. -/
structure Of (keys : List String) (groups : List (String × ℕ)) : Prop where
  mem_iff : ∀ key count, (key, count) ∈ groups ↔ key ∈ keys ∧ count = keys.count key
  ranked : groups.Pairwise Before

section Of

variable {keys keys' : List String} {groups groups' entries : List (String × ℕ)}

/-- No group is listed twice. -/
lemma Of.nodup (h : Of keys groups) : groups.Nodup := by
  refine h.ranked.imp ?_
  rintro a b hab rfl
  exact hab.asymm hab

/-- There is one such list for given keys. -/
lemma Of.unique (h : Of keys groups) (h' : Of keys groups') : groups = groups' := by
  have hperm : groups.Perm groups' := by
    rw [List.perm_ext_iff_of_nodup h.nodup h'.nodup]
    rintro ⟨key, count⟩
    rw [h.mem_iff, h'.mem_iff]
  exact List.Perm.eq_of_pairwise (fun _ _ _ _ hab hba => absurd hba hab.asymm) h.ranked h'.ranked hperm

/-- The order of the keys does not matter. -/
lemma Of.perm (h : Of keys groups) (hkeys : keys.Perm keys') : Of keys' groups where
  mem_iff key count := by rw [h.mem_iff, hkeys.mem_iff, hkeys.count_eq]
  ranked := h.ranked

/-- Entries with a key each are ranked strictly, in whatever order they are listed. -/
lemma pairwise_rank (hnodup : (entries.map Prod.fst).Nodup) : (rank entries).Pairwise Before := by
  have hsorted := List.pairwise_mergeSort ranksNoLower_trans ranksNoLower_total entries
  have hdistinct : (rank entries).Pairwise fun a b => a.1 ≠ b.1 :=
    List.pairwise_map.1 ((List.mergeSort_perm entries _).map Prod.fst |>.nodup_iff.2 hnodup)
  refine (hsorted.and hdistinct).imp ?_
  rintro a b ⟨hle, hne⟩
  rw [ranksNoLower_iff] at hle
  exact hle.imp_right fun ⟨hcount, hkey⟩ => ⟨hcount, lt_of_le_of_ne hkey hne⟩

/-- Each key that occurs with its count, listed in any order and then ranked. -/
lemma of_rank (hnodup : (entries.map Prod.fst).Nodup)
    (hmem : ∀ key count, (key, count) ∈ entries ↔ key ∈ keys ∧ count = keys.count key) :
    Of keys (rank entries) where
  mem_iff key count := by rw [rank, List.mem_mergeSort, hmem]
  ranked := pairwise_rank hnodup

/-- The entries of a map have different keys. -/
lemma nodup_keys_toList {β : Type} (m : Std.TreeMap String β) : (m.toList.map Prod.fst).Nodup := by
  rw [Std.TreeMap.map_fst_toList_eq_keys]
  exact Std.TreeMap.nodup_keys

/-- What a tally counted, ranked. -/
lemma of_ranked (keys : List String) : Of keys (bumpAll {} keys).ranked := by
  refine of_rank (nodup_keys_toList _) ?_
  intro key count
  rw [Std.TreeMap.mem_toList_iff_getElem?_eq_some, getElem?_bumpAll]
  by_cases hkey : key ∈ keys
  · simp [hkey, eq_comm]
  · simp [hkey]

/-- The keys of the list are those that occur, each once. -/
lemma Of.nodup_keys (h : Of keys groups) : (groups.map Prod.fst).Nodup := by
  refine List.Nodup.map_on ?_ h.nodup
  rintro ⟨key, count⟩ hmem ⟨key', count'⟩ hmem' (rfl : key = key')
  rw [((h.mem_iff key count).1 hmem).2, ((h.mem_iff key count').1 hmem').2]

/-- There is a group for each key that occurs, and for no other. -/
lemma Of.mem_keys_iff (h : Of keys groups) (key : String) : key ∈ groups.map Prod.fst ↔ key ∈ keys := by
  simp [h.mem_iff]

/-- There are as many groups as different keys. -/
lemma Of.length_eq (h : Of keys groups) : groups.length = keys.toFinset.card := by
  rw [← List.length_map Prod.fst, ← List.toFinset_card_of_nodup h.nodup_keys]
  congr 1
  ext key
  rw [List.mem_toFinset, List.mem_toFinset, h.mem_keys_iff]

/-- The counts add up to the number of keys. -/
lemma Of.sum_counts (h : Of keys groups) : (groups.map Prod.snd).sum = keys.length := by
  have hcounts : groups.map Prod.snd =
      (groups.map Prod.fst).map fun k => ((keys.filter (· = k)).map fun _ => 1).sum := by
    rw [List.map_map]
    refine List.map_congr_left ?_
    rintro ⟨key, count⟩ hmem
    obtain ⟨-, rfl⟩ := (h.mem_iff key count).1 hmem
    simp [List.count_eq_length_filter, beq_eq_decide]
  rw [hcounts, sum_map_filter_eq h.nodup_keys fun key hkey => (h.mem_keys_iff key).2 hkey]
  simp

end Of

end Tally

/-! ### Groupings -/

/-- An element that passes is counted under its keys, and no other is. -/
lemma GroupCounts.tally_step (path : Path) (filter : FilterSet) (c : GroupCounts) (element : Json) :
    (step path filter c element).tally =
      if filter.accepts element then c.tally.bumpAll (groupKeys path element) else c.tally := by
  unfold step
  split <;> rfl

/-- The keys of the elements that pass are counted. -/
lemma GroupCounts.tally_foldl_step (path : Path) (filter : FilterSet) (elements : List Json)
    (c : GroupCounts) :
    (elements.foldl (step path filter) c).tally =
      c.tally.bumpAll ((elements.filter filter.accepts).flatMap (groupKeys path)) := by
  rw [Tally.bumpAll, List.foldl_flatMap]
  exact foldl_eq_foldl_filter tally _ (tally_step path filter) elements c

namespace Engine

variable {engine : Engine} {source : Source} {elements : List Json} {text : String} {path : Path}
  {expression : Option String} {filter : FilterSet}

/-- The grouping of a source that can be read. -/
lemma groupBy_eq_ok (helements : source.elements engine.config.stream engine.directory = .ok elements)
    (hpath : Path.parse text = .ok path) (hfilter : engine.filter expression = .ok filter) :
    engine.groupBy source text expression = .ok
      ⟨(Tally.bumpAll {} ((elements.filter filter.accepts).flatMap (groupKeys path))).ranked,
        (elements.filter filter.accepts).length, elements.length, filter.filterIgnored⟩ := by
  obtain ⟨hscanned, htotal⟩ := (GroupCounts.counts filter path).foldl elements {}
  have htally := GroupCounts.tally_foldl_step path filter elements {}
  unfold groupBy
  simp only [hpath, hfilter, scan_eq_ok helements, bind, Except.bind, pure, Except.pure, htally, hscanned,
    htotal, Nat.zero_add, List.countP_eq_length_filter]

/-- A grouping lists the keys of the elements that pass, each with the number of its occurrences, by descending
count and then ascending key. The list is the same in whatever order the entries of the map are listed before they
are ranked, and in whatever order the elements come. Without wildcards in the path the counts add up to the number
of elements that pass. -/
theorem groupBy_tallies_keys (engine : Engine) (source : Source) (text : String)
    (expression : Option String)
    (helements : source.elements engine.config.stream engine.directory = .ok elements)
    (hpath : Path.parse text = .ok path) (hfilter : engine.filter expression = .ok filter) :
    let found := elements.filter filter.accepts
    let keys := found.flatMap (groupKeys path)
    ∃ r, engine.groupBy source text expression = .ok r ∧ Tally.Of keys r.groups ∧
      r.uniqueValues = keys.toFinset.card ∧ r.total = found.length ∧ r.scanned = elements.length ∧
      (path.hasWildcard = false → (r.groups.map Prod.snd).sum = r.total) ∧
      (∀ entries : List (String × ℕ), (entries.map Prod.fst).Nodup →
        (∀ key count, (key, count) ∈ entries ↔ key ∈ keys ∧ count = keys.count key) →
          Tally.rank entries = r.groups) ∧
      ∀ (directory : Directory) (source' : Source) (elements' : List Json),
        source'.elements engine.config.stream directory = .ok elements' → elements'.Perm elements →
          groupBy { engine with directory := directory } source' text expression = .ok r := by
  intro found keys
  have hgroups : Tally.Of keys (Tally.bumpAll {} keys).ranked := Tally.of_ranked keys
  refine ⟨_, groupBy_eq_ok helements hpath hfilter, hgroups, hgroups.length_eq, rfl, rfl, ?_, ?_, ?_⟩
  · intro hwildcard
    rw [hgroups.sum_counts, List.length_flatMap]
    simp [length_groupKeys hwildcard, found]
  · -- A tally is determined by its keys, whatever order its entries had.
    intro entries hnodup hmem
    exact (Tally.of_rank hnodup hmem).unique hgroups
  · intro directory source' elements' helements' hperm
    have hfound : (elements'.filter filter.accepts).Perm found := hperm.filter _
    have hsame := (Tally.of_ranked ((elements'.filter filter.accepts).flatMap (groupKeys path))).perm
      (hfound.flatMap_right _)
    have hgroupBy : groupBy { engine with directory := directory } source' text expression = .ok _ :=
      groupBy_eq_ok helements' hpath hfilter
    rwa [hsame.unique hgroups, hfound.length_eq, hperm.length_eq] at hgroupBy

end Engine

/-- A file with the text `[[[true,true],5],[null,7]]`. -/
def numberedItems : Directory :=
  ⟨[("a", [0x5b, 0x5b, 0x5b, 0x74, 0x72, 0x75, 0x65, 0x2c, 0x74, 0x72, 0x75, 0x65, 0x5d, 0x2c, 0x35, 0x5d, 0x2c,
    0x5b, 0x6e, 0x75, 0x6c, 0x6c, 0x2c, 0x37, 0x5d, 0x5d])]⟩

/-- The items of that file. -/
def numberedElements : List Json :=
  [.array [.array [.bool true, .bool true], .number (.int 5)], .array [.null, .number (.int 7)]]

lemma elements_numberedItems : (Source.rootArray "a").elements {} numberedItems = .ok numberedElements := by
  have hblank : IsBlank [] := by simp [IsBlank]
  have hnumber : ∀ b, IsDigit b → IsNumber [b] := fun b hdigit =>
    have hdigits : IsDigits [b] := ⟨List.cons_ne_nil b [], fun c hc => List.mem_singleton.1 hc ▸ hdigit⟩
    .mk (.inl rfl) ⟨hdigits, fun _ => rfl⟩ .absent .absent
  have hfive : IsNumberOf [0x35] (.int 5) := ⟨hnumber 0x35 ⟨by decide, by decide⟩, rfl⟩
  have hseven : IsNumberOf [0x37] (.int 7) := ⟨hnumber 0x37 ⟨by decide, by decide⟩, rfl⟩
  have htrue : Derives [0x74, 0x72, 0x75, 0x65] (.element (.scalar (.bool true))) :=
    .element hblank (.scalar .true) hblank
  have hnull : Derives [0x6e, 0x75, 0x6c, 0x6c] (.element (.scalar .null)) :=
    .element hblank (.scalar .null) hblank
  have hkeys : Derives [0x5b, 0x74, 0x72, 0x75, 0x65, 0x2c, 0x74, 0x72, 0x75, 0x65, 0x5d]
      (.element (.array [.scalar (.bool true), .scalar (.bool true)])) :=
    .element hblank (.array (.item htrue (.lastItem htrue))) hblank
  have hfirst : Derives
      [0x5b, 0x5b, 0x74, 0x72, 0x75, 0x65, 0x2c, 0x74, 0x72, 0x75, 0x65, 0x5d, 0x2c, 0x35, 0x5d]
      (.element (.array [.array [.scalar (.bool true), .scalar (.bool true)], .scalar (.number (.int 5))])) :=
    .element hblank (.array (.item hkeys (.lastItem (.element hblank (.scalar (.number hfive)) hblank)))) hblank
  have hsecond : Derives [0x5b, 0x6e, 0x75, 0x6c, 0x6c, 0x2c, 0x37, 0x5d]
      (.element (.array [.scalar .null, .scalar (.number (.int 7))])) :=
    .element hblank (.array (.item hnull (.lastItem (.element hblank (.scalar (.number hseven)) hblank)))) hblank
  exact Source.elements_of_isText (.rootArray "a") {} numberedItems (by decide)
    (.element hblank (.array (.item hfirst (.lastItem hsecond))) hblank) (by decide)

/-- The path `[0][*]`. -/
lemma parse_firstItems : Path.parse "[0][*]" = .ok ⟨"[0][*]", [.index 0, .wildcard]⟩ :=
  Path.parse_of_scan (by decide) (by decide +kernel)

/-- A key that one element has twice counts twice, and the other element has none. -/
theorem Engine.groupBy_tallies_keys_of_repeated :
    ∃ r, Engine.groupBy ⟨{}, numberedItems⟩ (.rootArray "a") "[0][*]" none = .ok r ∧
      r.groups = [("true", 2), ("undefined", 1)] ∧ r.total = 2 := by
  have hfilter : filter ⟨{}, numberedItems⟩ none = .ok {} := rfl
  obtain ⟨r, hr, -, -, htotal, -, -, hrank, -⟩ := groupBy_tallies_keys ⟨{}, numberedItems⟩ (.rootArray "a")
    "[0][*]" none elements_numberedItems parse_firstItems hfilter
  have hkeys : (numberedElements.filter (FilterSet.accepts {})).flatMap
      (groupKeys ⟨"[0][*]", [.index 0, .wildcard]⟩) = ["true", "true", "undefined"] := by decide +kernel
  refine ⟨r, hr, ?_, htotal⟩
  -- the map may list its entries in another order
  rw [← hrank [("undefined", 1), ("true", 2)] (by decide) ?_]
  · simp [Tally.rank, Tally.ranksNoLower, List.mergeSort]
  · intro key count
    rw [hkeys]
    constructor
    · intro hmem
      obtain ⟨rfl, rfl⟩ | ⟨rfl, rfl⟩ : key = "undefined" ∧ count = 1 ∨ key = "true" ∧ count = 2 := by
        simpa using hmem
      · decide
      · decide
    · rintro ⟨hkey, rfl⟩
      obtain rfl | rfl : key = "true" ∨ key = "undefined" := by simpa using hkey
      · decide
      · decide

end EntityDump
