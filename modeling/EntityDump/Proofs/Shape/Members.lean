import EntityDump.Proofs.Shape.Fields
import Mathlib.Data.List.Perm.Subperm
/-!
# Merging the members of unions

A shape that is no union counts as its own only member. So every shape is known from its members, of which
there is at most one of each kind, in order of the kinds (`Members`), and a merge of two shapes merges the
members kind by kind: `member?_merge`. The same holds of the items of arrays, where there may be none.
-/

namespace EntityDump.Shape

variable {a b m x : Shape} {k : ShapeKind} {ms ms' xs : List Shape}

/-- The members of a shape: of a union those that it has, and otherwise the shape itself. -/
def members : Shape → List Shape
  | union members => members
  | s => [s]

/-- The member of a kind. -/
def memberOf? (k : ShapeKind) (ms : List Shape) : Option Shape :=
  ms.find? (·.kind == k)

/-- The member of a kind that a shape has. -/
def member? (s : Shape) (k : ShapeKind) : Option Shape :=
  memberOf? k s.members

/-- Members as a union has them: none is a union, and they stand in order of their kinds, one of each. -/
structure Members (ms : List Shape) : Prop where
  ordered : ms.Pairwise fun a b => a.kind.rank < b.kind.rank
  ne_union : ∀ m ∈ ms, m.kind ≠ .union

/-- Shapes whose members are in order, and which are unions only if there are several of them. -/
structure Regular (s : Shape) : Prop where
  members : Members s.members
  length : s.kind = .union → 2 ≤ s.members.length

/-! ### Members by their kind -/

/-- No two kinds have the same place in the order. -/
lemma rank_injective : Function.Injective ShapeKind.rank := by
  intro a b h
  cases a <;> cases b <;> first | rfl | cases h

/-- A shape that is no union is its own only member. -/
lemma members_of_ne_union (h : a.kind ≠ .union) : a.members = [a] := by
  cases a <;> first | rfl | exact absurd rfl h

/-- A shape that is no union is a list of members by itself. -/
lemma members_single (h : a.kind ≠ .union) : Members [a] :=
  ⟨List.pairwise_singleton _ _, by simpa using h⟩

/-- Every shape that is no union is regular. -/
lemma regular_of_ne_union (h : a.kind ≠ .union) : Regular a :=
  ⟨members_of_ne_union h ▸ members_single h, fun hunion => absurd hunion h⟩

/-- Members are of different kinds. -/
lemma Members.nodup_kinds (h : Members ms) : (ms.map kind).Nodup :=
  List.pairwise_map.2 (h.ordered.imp fun hlt heq => by simp [heq] at hlt)

/-- The member of a kind is the only one. -/
lemma Members.memberOf?_eq_some_iff (h : Members ms) : memberOf? k ms = some m ↔ m ∈ ms ∧ m.kind = k := by
  have hkinds := h.nodup_kinds
  clear h
  induction ms with
  | nil => simp [memberOf?]
  | cons x ms ih =>
    rw [List.map_cons, List.nodup_cons] at hkinds
    have hrest := ih hkinds.2
    rw [memberOf?, List.find?_cons, ← memberOf?]
    by_cases hx : x.kind = k
    · subst hx
      simp only [beq_self_eq_true, Option.some.injEq, List.mem_cons]
      constructor
      · rintro rfl
        exact ⟨.inl rfl, rfl⟩
      · rintro ⟨rfl | hm, hkind⟩
        · rfl
        · exact absurd (hkind ▸ List.mem_map_of_mem hm) hkinds.1
    · simp only [beq_eq_false_iff_ne.2 hx, hrest, List.mem_cons]
      constructor
      · exact fun ⟨hm, hkind⟩ => ⟨.inr hm, hkind⟩
      · rintro ⟨rfl | hm, hkind⟩
        · exact absurd hkind hx
        · exact ⟨hm, hkind⟩

/-- A kind has no member exactly if it is not among the kinds. -/
lemma memberOf?_eq_none_iff : memberOf? k ms = none ↔ k ∉ ms.map kind := by
  simp [memberOf?]

/-- The kinds of members are known from which there are. -/
lemma Members.kinds_eq (h : Members ms) (h' : Members ms')
    (hkinds : ∀ k, k ∈ ms.map kind ↔ k ∈ ms'.map kind) : ms.map kind = ms'.map kind := by
  have hperm := (List.perm_ext_iff_of_nodup h.nodup_kinds h'.nodup_kinds).2 hkinds
  have hordered : ∀ {ms : List Shape}, Members ms → (ms.map kind).Pairwise fun k l => k.rank < l.rank :=
    fun h => List.pairwise_map.2 h.ordered
  exact hperm.eq_of_pairwise (fun k l _ _ hkl hlk => absurd hkl (Nat.lt_asymm hlk)) (hordered h)
    (hordered h')

/-- Members are known from the member of each kind. -/
lemma Members.ext (h : Members ms) (h' : Members ms') (hmember : ∀ k, memberOf? k ms = memberOf? k ms') :
    ms = ms' := by
  have hmem : ∀ m, m ∈ ms ↔ m ∈ ms' := fun m => by
    have hms := h.memberOf?_eq_some_iff (k := m.kind) (m := m)
    have hms' := h'.memberOf?_eq_some_iff (k := m.kind) (m := m)
    rw [hmember] at hms
    simpa using hms.symm.trans hms'
  have hperm := (List.perm_ext_iff_of_nodup h.nodup_kinds.of_map h'.nodup_kinds.of_map).2 hmem
  exact hperm.eq_of_pairwise (fun a b _ _ hab hba => absurd hab (Nat.lt_asymm hba)) h.ordered h'.ordered

/-- The member of a kind in a regular shape is the only one of this kind. -/
lemma Regular.member?_eq_some_iff (h : Regular a) : a.member? k = some m ↔ m ∈ a.members ∧ m.kind = k :=
  h.members.memberOf?_eq_some_iff

/-- A shape is known from the member of each kind. -/
lemma Regular.ext (ha : Regular a) (hb : Regular b) (h : ∀ k, a.member? k = b.member? k) : a = b := by
  have hmembers : a.members = b.members := ha.members.ext hb.members h
  by_cases hua : a.kind = .union <;> by_cases hub : b.kind = .union
  · cases a <;> cases hua
    cases b <;> cases hub
    exact congrArg union hmembers
  · have := ha.length hua
    rw [hmembers, members_of_ne_union hub] at this
    simp at this
  · have := hb.length hub
    rw [← hmembers, members_of_ne_union hua] at this
    simp at this
  · simpa [members_of_ne_union hua, members_of_ne_union hub] using hmembers

/-! ### Merging shapes of one kind -/

section Same

variable (maxSamples : Nat)

/-- Two objects merge field by field. If either was cut nothing is joined, and fields are those of the side that
has some. -/
lemma mergeSame_object (fields mine : List Field) (cut mineCut : Bool) :
    mergeSame maxSamples (object fields cut) (object mine mineCut) =
      if mineCut || cut then object (if mine.isEmpty then fields else mine) true
      else object (joinFields maxSamples mine fields) false := rfl

/-- Objects that were cut have no fields to join. -/
lemma joinFields_of_cut {fields mine : List Field} {cut : Bool} (hfields : cut = true → fields = [])
    (hmine : cut = true → mine = []) (hcut : cut = true) : joinFields maxSamples mine fields = [] := by
  rw [hfields hcut, hmine hcut]
  rfl

/-- Two truncated objects without fields merge like any others. -/
lemma mergeSame_object_of_cut {fields mine : List Field} {cut : Bool} (hfields : cut = true → fields = [])
    (hmine : cut = true → mine = []) :
    mergeSame maxSamples (object fields cut) (object mine cut) =
      object (joinFields maxSamples mine fields) cut := by
  rw [mergeSame_object]
  cases cut with
  | false => rfl
  | true =>
    rw [hfields rfl, hmine rfl]
    rfl

/-- Items of arrays merge where both arrays have some, and are otherwise those of the one that has. -/
lemma mergeItems_eq (items mine : Option Shape) :
    mergeItems maxSamples items mine = Option.merge (merge maxSamples) mine items := by
  match items, mine with
  | none, none => rfl
  | none, some _ => rfl
  | some _, none => rfl
  | some node, some _ => cases node <;> rfl

/-- Two arrays merge their bounds of length and their items, and the merge is cut if either was. -/
lemma mergeSame_array (minLen maxLen mineMin mineMax : Nat) (items mine : Option Shape)
    (cut mineCut : Bool) :
    mergeSame maxSamples (array minLen maxLen items cut) (array mineMin mineMax mine mineCut) =
      array (min mineMin minLen) (max mineMax maxLen)
        (Option.merge (merge maxSamples) mine items) (mineCut || cut) := by
  rw [← mergeItems_eq]
  rfl

/-- A merge of the same kind keeps the kind. -/
lemma kind_mergeSame (incoming mine : Shape) : (mergeSame maxSamples incoming mine).kind = mine.kind := by
  cases incoming <;> cases mine <;> first | rfl | skip
  rw [mergeSame_object]
  split <;> rfl

/-- Shapes of one kind that are no unions. -/
lemma merge_of_kind_eq (h : b.kind = a.kind) (hunion : a.kind ≠ .union) :
    a.merge maxSamples b = mergeSame maxSamples b a := by
  cases a <;> first | exact absurd rfl hunion | exact if_pos h.symm

/-- Two shapes of one kind that are no unions merge to a shape of this kind. -/
lemma kind_merge_of_kind_eq (h : b.kind = a.kind) (hunion : a.kind ≠ .union) :
    (a.merge maxSamples b).kind = a.kind := by
  rw [merge_of_kind_eq _ h hunion, kind_mergeSame]

end Same

/-! ### Adding members -/

section Add

variable (maxSamples : Nat)

/-- A shape that is no union is added to the member of its kind, or as a new member. -/
lemma addTo_of_ne_union (h : x.kind ≠ .union) :
    addTo maxSamples x ms = addMember ms x (mergeSame maxSamples x) := by
  cases x <;> first | rfl | exact absurd rfl h

lemma mergeMembers_nil : mergeMembers maxSamples [] ms = ms := rfl

lemma mergeMembers_cons :
    mergeMembers maxSamples (x :: xs) ms = mergeMembers maxSamples xs (addTo maxSamples x ms) := by
  cases x <;> rfl

/-- Merging a shape adds its members to those that are there. -/
lemma members_merge (a b : Shape) :
    (a.merge maxSamples b).members = mergeMembers maxSamples b.members a.members := by
  by_cases ha : a.kind = .union
  · cases a <;> cases ha
    cases b <;> rfl
  rw [members_of_ne_union ha]
  by_cases h : b.kind = a.kind
  · have hb : b.kind ≠ .union := h ▸ ha
    have hmerged : (a.merge maxSamples b).kind ≠ .union := by rwa [kind_merge_of_kind_eq _ h ha]
    rw [members_of_ne_union hmerged, merge_of_kind_eq _ h ha, members_of_ne_union hb, mergeMembers_cons,
      addTo_of_ne_union _ hb, mergeMembers_nil, addMember]
    simp [List.findIdx?_cons, h]
  · have hmerge : a.merge maxSamples b = union (addTo maxSamples b [a]) := by
      cases a <;> first | exact absurd rfl ha | exact if_neg (Ne.symm h)
    rw [hmerge]
    cases b <;> rfl

/-- Where there is a member of the kind, adding another changes that one. -/
lemma addMember_of_mem (hms : Members ms) (hm : m ∈ ms) (hkind : m.kind = x.kind)
    (same : Shape → Shape) :
    addMember ms x same = ms.map fun m => if m.kind = x.kind then same m else m := by
  have hkinds := hms.nodup_kinds
  clear hms
  have hfind : ∃ i, (ms.findIdx? fun m => m.kind == x.kind) = some i ∧
      ms.modify i same = ms.map fun m => if m.kind = x.kind then same m else m := by
    induction ms with
    | nil => simp at hm
    | cons y ms ih =>
      rw [List.map_cons, List.nodup_cons] at hkinds
      by_cases hy : y.kind = x.kind
      · refine ⟨0, by simp [List.findIdx?_cons, hy], ?_⟩
        have hrest : (ms.map fun m => if m.kind = x.kind then same m else m) = ms := by
          conv_rhs => rw [← List.map_id ms]
          refine List.map_congr_left fun m hm => if_neg fun h => hkinds.1 ?_
          rw [hy, ← h]
          exact List.mem_map_of_mem hm
        simp [hy, hrest]
      · have hm : m ∈ ms := (List.mem_cons.1 hm).resolve_left fun h => hy (h ▸ hkind)
        obtain ⟨i, hi, hmodify⟩ := ih hm hkinds.2
        exact ⟨i + 1, by simp [List.findIdx?_cons, hy, hi], by simp [hy, hmodify]⟩
  obtain ⟨i, hi, hmodify⟩ := hfind
  rw [addMember, hi]
  exact hmodify

/-- A member of a new kind is put in its place. -/
lemma addMember_of_not_mem (h : x.kind ∉ ms.map kind) (same : Shape → Shape) :
    addMember ms x same = (ms ++ [x]).mergeSort fun a b => a.kind.rank ≤ b.kind.rank := by
  have hfind : (ms.findIdx? fun m => m.kind == x.kind) = none := by
    rw [List.findIdx?_eq_none_iff]
    exact fun m hm => beq_eq_false_iff_ne.2 fun hkind => h (hkind ▸ List.mem_map_of_mem hm)
  rw [addMember, hfind]

variable {same : Shape → Shape}

/-- A change of the member of one kind keeps the kinds of all. -/
lemma kind_change (hsame : ∀ m, (same m).kind = m.kind) (x m : Shape) :
    (if m.kind = x.kind then same m else m).kind = m.kind := by
  split
  · exact hsame m
  · rfl

/-- A change that keeps kinds changes the member found in the same way. -/
lemma memberOf?_map (hsame : ∀ m, (same m).kind = m.kind) :
    memberOf? k (ms.map same) = (memberOf? k ms).map same := by
  have hkind : (fun m : Shape => m.kind == k) ∘ same = fun m => m.kind == k := funext fun m => by
    rw [Function.comp_apply, hsame]
  rw [memberOf?, List.find?_map, hkind, memberOf?]

/-- The member of a kind is of this kind. -/
lemma kind_of_memberOf? (h : memberOf? k ms = some m) : m.kind = k := by
  simpa using List.find?_some h

/-- Members with one more are in order again. -/
lemma Members.addMember (hms : Members ms) (hx : x.kind ≠ .union) (hsame : ∀ m, (same m).kind = m.kind) :
    Members (addMember ms x same) := by
  by_cases hmem : x.kind ∈ ms.map kind
  · obtain ⟨m, hm, hkind⟩ := List.mem_map.1 hmem
    rw [addMember_of_mem hms hm hkind]
    constructor
    · rw [List.pairwise_map]
      simpa only [kind_change hsame] using hms.ordered
    · intro m' hm'
      obtain ⟨m, hm, rfl⟩ := List.mem_map.1 hm'
      rw [kind_change hsame]
      exact hms.ne_union m hm
  · rw [addMember_of_not_mem hmem]
    have hperm := List.mergeSort_perm (ms ++ [x]) fun a b => decide (a.kind.rank ≤ b.kind.rank)
    constructor
    · -- The list is sorted, and no two of its members have the same kind.
      have hsorted : ((ms ++ [x]).mergeSort fun a b => decide (a.kind.rank ≤ b.kind.rank)).Pairwise
          fun a b => decide (a.kind.rank ≤ b.kind.rank) = true :=
        List.pairwise_mergeSort (fun a b c => by simpa using Nat.le_trans)
          (fun a b => by simpa using Nat.le_total _ _) _
      have hkinds : ((ms ++ [x]).map kind).Nodup := by
        rw [List.map_append, List.map_singleton]
        exact hms.nodup_kinds.append (List.nodup_singleton _) (by simpa using hmem)
      have hnodup := List.pairwise_map.1 ((hperm.map kind).nodup_iff.2 hkinds)
      refine (hsorted.and hnodup).imp fun {a b} ⟨hle, hne⟩ => ?_
      exact Nat.lt_of_le_of_ne (of_decide_eq_true hle) fun h => hne (rank_injective h)
    · intro m hm
      rcases List.mem_append.1 (hperm.mem_iff.1 hm) with hm | hm
      · exact hms.ne_union m hm
      · rwa [List.mem_singleton.1 hm]

/-- Adding a member changes what there is of its kind alone. -/
lemma memberOf?_addMember (hms : Members ms) (hx : x.kind ≠ .union)
    (hsame : ∀ m, (same m).kind = m.kind) (k : ShapeKind) :
    memberOf? k (addMember ms x same) =
      if x.kind = k then some ((memberOf? k ms).elim x same) else memberOf? k ms := by
  -- A member of the kind is changed in its place; a new one is sorted in among the others.
  by_cases hmem : x.kind ∈ ms.map kind
  · obtain ⟨m, hm, hkind⟩ := List.mem_map.1 hmem
    rw [addMember_of_mem hms hm hkind, memberOf?_map (kind_change hsame x)]
    split
    · next hk =>
      subst hk
      simp [hms.memberOf?_eq_some_iff.2 ⟨hm, hkind⟩, hkind]
    · next hk =>
      cases hfind : memberOf? k ms with
      | none => rfl
      | some m' =>
        have hne : m'.kind ≠ x.kind := fun h => hk (h ▸ kind_of_memberOf? hfind)
        simp [hne]
  · have hadded := hms.addMember hx hsame
    rw [addMember_of_not_mem hmem] at hadded ⊢
    refine Option.ext fun m => ?_
    rw [hadded.memberOf?_eq_some_iff, (List.mergeSort_perm _ _).mem_iff, List.mem_append,
      List.mem_singleton]
    split
    · next hk =>
      subst hk
      rw [memberOf?_eq_none_iff.2 hmem, Option.elim_none, Option.some.injEq]
      constructor
      · rintro ⟨hm | rfl, hkind⟩
        · exact absurd (hkind ▸ List.mem_map_of_mem hm) hmem
        · rfl
      · rintro rfl
        exact ⟨.inr rfl, rfl⟩
    · next hk =>
      rw [hms.memberOf?_eq_some_iff]
      constructor
      · rintro ⟨hm | rfl, hkind⟩
        · exact ⟨hm, hkind⟩
        · exact absurd hkind hk
      · exact fun ⟨hm, hkind⟩ => ⟨.inl hm, hkind⟩

/-- Members stay in order, one of a kind, when others are merged into them. -/
lemma Members.mergeMembers (hms : Members ms) (hxs : ∀ x ∈ xs, x.kind ≠ .union) :
    Members (mergeMembers maxSamples xs ms) := by
  induction xs generalizing ms with
  | nil => exact hms
  | cons x xs ih =>
    obtain ⟨hx, hxs⟩ := List.forall_mem_cons.1 hxs
    rw [mergeMembers_cons, addTo_of_ne_union _ hx]
    exact ih (hms.addMember hx fun m => kind_mergeSame _ _ _) hxs

/-- Of each kind the members of both are merged. -/
lemma memberOf?_mergeMembers (hms : Members ms) (hxs : Members xs) (k : ShapeKind) :
    memberOf? k (mergeMembers maxSamples xs ms) =
      Option.merge (merge maxSamples) (memberOf? k ms) (memberOf? k xs) := by
  have hkinds := hxs.nodup_kinds
  have hunion := hxs.ne_union
  clear hxs
  induction xs generalizing ms with
  | nil => cases h : memberOf? k ms <;> simpa [mergeMembers_nil, memberOf?] using h
  | cons x xs ih =>
    obtain ⟨hx, hxs⟩ := List.forall_mem_cons.1 hunion
    rw [List.map_cons, List.nodup_cons] at hkinds
    have hsame : ∀ m, (mergeSame maxSamples x m).kind = m.kind := fun m => kind_mergeSame _ _ _
    rw [mergeMembers_cons, addTo_of_ne_union _ hx, ih (hms.addMember hx hsame) hkinds.2 hxs,
      memberOf?_addMember hms hx hsame]
    by_cases hk : x.kind = k
    · subst hk
      rw [if_pos rfl, memberOf?_eq_none_iff.2 hkinds.1]
      have hhead : memberOf? x.kind (x :: xs) = some x := by simp [memberOf?]
      rw [hhead]
      cases hfind : memberOf? x.kind ms with
      | none => rfl
      | some m =>
        have hm := kind_of_memberOf? hfind
        simp [merge_of_kind_eq maxSamples hm.symm (hm ▸ hx)]
    · have htail : memberOf? k (x :: xs) = memberOf? k xs := by simp [memberOf?, hk]
      rw [if_neg hk, htail]

end Add

/-! ### Merging shapes -/

section Merge

variable (maxSamples : Nat)

/-- A merge merges the members of each kind. -/
theorem member?_merge (ha : Regular a) (hb : Regular b) (k : ShapeKind) :
    (a.merge maxSamples b).member? k =
      Option.merge (merge maxSamples) (a.member? k) (b.member? k) := by
  rw [member?, members_merge, memberOf?_mergeMembers _ ha.members hb.members, member?, member?]

/-- A merged shape has the kinds of both. -/
lemma kind_mem_merge (ha : Regular a) (hb : Regular b) :
    k ∈ (a.merge maxSamples b).members.map kind ↔ k ∈ a.members.map kind ∨ k ∈ b.members.map kind := by
  have h := member?_merge maxSamples ha hb k
  simp only [member?] at h
  rw [← not_iff_not, not_or, ← memberOf?_eq_none_iff, ← memberOf?_eq_none_iff, ← memberOf?_eq_none_iff, h]
  cases memberOf? k a.members <;> cases memberOf? k b.members <;> simp

/-- The kind of a shape that is no union is among the kinds of its members. -/
lemma kind_mem_members (h : a.kind ≠ .union) : a.kind ∈ a.members.map kind := by
  rw [members_of_ne_union h]
  simp

/-- A merge is a union only of several members. -/
theorem Regular.merge (ha : Regular a) (hb : Regular b) : Regular (a.merge maxSamples b) := by
  refine ⟨?_, fun hunion => ?_⟩
  · rw [members_merge]
    exact ha.members.mergeMembers _ hb.members.ne_union
  have hlength : ∀ kinds : List ShapeKind, kinds.Nodup →
      (∀ k ∈ kinds, k ∈ a.members.map kind ∨ k ∈ b.members.map kind) →
      kinds.length ≤ (a.merge maxSamples b).members.length := fun kinds hnodup hkinds => by
    have hsub : kinds ⊆ (a.merge maxSamples b).members.map kind :=
      fun k hk => (kind_mem_merge maxSamples ha hb).2 (hkinds k hk)
    simpa using (hnodup.subperm hsub).length_le
  by_cases hua : a.kind = .union
  · have := hlength _ ha.members.nodup_kinds fun k hk => .inl hk
    rw [List.length_map] at this
    exact Nat.le_trans (ha.length hua) this
  by_cases hub : b.kind = .union
  · have := hlength _ hb.members.nodup_kinds fun k hk => .inr hk
    rw [List.length_map] at this
    exact Nat.le_trans (hb.length hub) this
  · have hne : a.kind ≠ b.kind := fun h => hua (kind_merge_of_kind_eq maxSamples h.symm hua ▸ hunion)
    refine hlength [a.kind, b.kind] (by simpa using hne) fun k hk => ?_
    rcases List.mem_pair.1 hk with rfl | rfl
    · exact .inl (kind_mem_members hua)
    · exact .inr (kind_mem_members hub)

end Merge

end EntityDump.Shape
