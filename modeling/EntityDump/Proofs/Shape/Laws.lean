import EntityDump.Proofs.Shape.Normal
/-!
# The laws of merging

Shapes that builders took under the same options (`Inferred`) merge as in a join: grouping and repetition
make no difference, and the order none but for the order of fields and the choice of examples (`Alike`).
This is `merge_laws`.

Each law is proved for normal shapes that stand at the same depth. What meets in a merge are the members of
one kind, so in the induction on one of the shapes a union passes the law on to its members
(`merge_assoc_of_members`, `alike_merge_of_members`), and any other shape meets shapes of its own kind alone.
-/

namespace EntityDump.Shape

open Json (Event)
open Json.Fields (find?)

/-- A double that is a number. -/
def IsNumber (x : Float) : Prop :=
  x.isNaN = false

/-- The shape of some events, whose numbers are finite. -/
def Inferred (options : ShapeOptions) (s : Shape) : Prop :=
  ∃ events : List Event,
    (∀ x, .scalar (.number (.float x)) ∈ events → Numeric.isFinite x = true) ∧
      (({ options := options } : ShapeBuilder).pushAll events).root = some s

/-- Inferred shapes are normal. -/
lemma Inferred.normal {options : ShapeOptions} {s : Shape} (h : Inferred options s) :
    Normal options IsNumber 0 s := by
  obtain ⟨events, hfinite, hs⟩ := h
  refine normal_of_pushAll (fun n hn => Numeric.isNaN_toFloat fun x hx => hfinite x (hx ▸ hn)) hs

variable {options : ShapeOptions} {maxSamples depth : Nat} {a b c : Shape}

/-! ### Associativity -/

section Associativity

variable {fields fields' fields'' : List Field}

/-- Whether a field is optional and what it holds, in three objects. -/
lemma joinField_assoc {f g h : Option (Bool × Shape)}
    (hnode : ∀ x ∈ f, ∀ y ∈ g, ∀ z ∈ h, (x.2.merge maxSamples y.2).merge maxSamples z.2 =
      x.2.merge maxSamples (y.2.merge maxSamples z.2)) :
    joinField maxSamples (joinField maxSamples f g) h =
      joinField maxSamples f (joinField maxSamples g h) := by
  cases f <;> cases g <;> cases h <;> simp_all [joinField, Bool.or_assoc]

/-- Fields join in any grouping if their nodes merge in any. -/
lemma joinFields_assoc (hnodup : (keys fields).Nodup) (hnodup' : (keys fields').Nodup)
    (hnodup'' : (keys fields'').Nodup)
    (hnode : ∀ f ∈ fields, ∀ g ∈ fields', ∀ h ∈ fields'',
      (f.2.2.merge maxSamples g.2.2).merge maxSamples h.2.2 =
        f.2.2.merge maxSamples (g.2.2.merge maxSamples h.2.2)) :
    joinFields maxSamples (joinFields maxSamples fields fields') fields'' =
      joinFields maxSamples fields (joinFields maxSamples fields' fields'') := by
  have hleft := nodup_keys_joinFields maxSamples hnodup hnodup'
  have hright := nodup_keys_joinFields maxSamples hnodup' hnodup''
  refine fields_ext ?_ (nodup_keys_joinFields _ hleft hnodup'') fun key => ?_
  · rw [keys_joinFields _ hnodup'', keys_joinFields _ hnodup', keys_joinFields _ hright,
      keys_joinFields _ hnodup'', List.filter_append, List.append_assoc, List.filter_filter]
    congr 2
    refine List.filter_congr fun key _ => ?_
    by_cases h : key ∈ keys fields <;> by_cases h' : key ∈ keys fields' <;> simp [h, h']
  · rw [find?_joinFields _ hnodup'', find?_joinFields _ hnodup', find?_joinFields _ hright,
      find?_joinFields _ hnodup'']
    refine joinField_assoc fun x hx y hy z hz => ?_
    exact hnode _ (mem_of_find?_eq_some hx) _ (mem_of_find?_eq_some hy) _ (mem_of_find?_eq_some hz)

end Associativity

/-- Of things that may not be there, those that are there are merged. -/
lemma optionMerge_assoc {x y z : Option Shape}
    (h : ∀ a ∈ x, ∀ b ∈ y, ∀ c ∈ z, (a.merge maxSamples b).merge maxSamples c =
      a.merge maxSamples (b.merge maxSamples c)) :
    Option.merge (merge maxSamples) (Option.merge (merge maxSamples) x y) z =
      Option.merge (merge maxSamples) x (Option.merge (merge maxSamples) y z) := by
  cases x <;> cases y <;> cases z <;> simp_all [Option.merge]

/-- Merges can be regrouped if those of the members of one kind can. -/
lemma merge_assoc_of_members (ha : Regular a) (hb : Regular b) (hc : Regular c)
    (h : ∀ x ∈ a.members, ∀ y ∈ b.members, ∀ z ∈ c.members, y.kind = x.kind → z.kind = x.kind →
      (x.merge maxSamples y).merge maxSamples z = x.merge maxSamples (y.merge maxSamples z)) :
    (a.merge maxSamples b).merge maxSamples c = a.merge maxSamples (b.merge maxSamples c) := by
  have hab := ha.merge maxSamples hb
  have hbc := hb.merge maxSamples hc
  refine (hab.merge maxSamples hc).ext (ha.merge maxSamples hbc) fun k => ?_
  rw [member?_merge _ hab hc, member?_merge _ ha hb, member?_merge _ ha hbc, member?_merge _ hb hc]
  refine optionMerge_assoc fun x hx y hy z hz => ?_
  obtain ⟨hx, hxkind⟩ := ha.member?_eq_some_iff.1 hx
  obtain ⟨hy, hykind⟩ := hb.member?_eq_some_iff.1 hy
  obtain ⟨hz, hzkind⟩ := hc.member?_eq_some_iff.1 hz
  exact h x hx y hy z hz (hykind.trans hxkind.symm) (hzkind.trans hxkind.symm)

/-- Only the members of its own kind meet a shape that is no union. -/
lemma merge_assoc_of_same (hunion : c.kind ≠ .union) (ha : Normal options IsNumber depth a)
    (hb : Normal options IsNumber depth b) (hc : Normal options IsNumber depth c)
    (h : ∀ x y, Normal options IsNumber depth x → Normal options IsNumber depth y →
      x.kind = c.kind → y.kind = c.kind →
      mergeSame options.maxSamples c (mergeSame options.maxSamples y x) =
        mergeSame options.maxSamples (mergeSame options.maxSamples c y) x) :
    (a.merge options.maxSamples b).merge options.maxSamples c =
      a.merge options.maxSamples (b.merge options.maxSamples c) := by
  refine merge_assoc_of_members ha.regular hb.regular hc.regular
    fun x hx y hy z hz hyx hzx => ?_
  rw [members_of_ne_union hunion, List.mem_singleton] at hz
  subst hz
  have hxunion : x.kind ≠ .union := hzx ▸ hunion
  have hyunion : y.kind ≠ .union := hyx ▸ hxunion
  have hzy : z.kind = y.kind := hzx.trans hyx.symm
  rw [merge_of_kind_eq _ hyx hxunion, merge_of_kind_eq _ hzy hyunion,
    merge_of_kind_eq _ (by rw [kind_mergeSame, hzx]) (by rwa [kind_mergeSame]),
    merge_of_kind_eq _ (by rw [kind_mergeSame, hyx]) hxunion]
  exact h x y (ha.of_mem_members hx) (hb.of_mem_members hy) hzx.symm hzy.symm

/-- Merges of normal shapes can be regrouped. -/
theorem Normal.merge_assoc (ha : Normal options IsNumber depth a) (hb : Normal options IsNumber depth b)
    (hc : Normal options IsNumber depth c) :
    (a.merge options.maxSamples b).merge options.maxSamples c =
      a.merge options.maxSamples (b.merge options.maxSamples c) := by
  -- The induction is on the shape merged in last, as a merge goes down the shape that comes in.
  induction c using Shape.induction generalizing a b depth with
  | object fields cut ih =>
    refine merge_assoc_of_same (by simp [kind]) ha hb hc fun x y hx hy hxkind hykind => ?_
    cases x <;> cases hxkind
    cases y <;> cases hykind
    cases hx with
    | object hcut hfieldsCut hkeys hfields =>
    cases hy with
    | object hcut' hfieldsCut' hkeys' hfields' =>
    cases hc with
    | object hcut'' hfieldsCut'' hkeys'' hfields'' =>
    subst hcut hcut' hcut''
    -- An object that was cut has no fields, so fields are joined in the same way with it as without.
    have hxy := joinFields_of_cut options.maxSamples hfieldsCut' hfieldsCut
    have hyz := joinFields_of_cut options.maxSamples hfieldsCut'' hfieldsCut'
    rw [mergeSame_object_of_cut _ hfieldsCut' hfieldsCut, mergeSame_object_of_cut _ hfieldsCut'' hxy,
      mergeSame_object_of_cut _ hfieldsCut'' hfieldsCut', mergeSame_object_of_cut _ hyz hfieldsCut,
      joinFields_assoc hkeys hkeys' hkeys'' fun f hf g hg h hh =>
        ih h hh (hfields f hf) (hfields' g hg) (hfields'' h hh)]
  | array minLen maxLen items cut ih =>
    refine merge_assoc_of_same (by simp [kind]) ha hb hc fun x y hx hy hxkind hykind => ?_
    cases x <;> cases hxkind
    cases y <;> cases hykind
    cases hx with
    | array _ _ _ hx =>
    cases hy with
    | array _ _ _ hy =>
    cases hc with
    | array _ _ _ hc =>
    simp only [mergeSame_array]
    rw [optionMerge_assoc fun x hx' y hy' z hz' => ih z hz' (hx x hx') (hy y hy') (hc z hz'),
      Nat.min_assoc, Nat.max_assoc, Bool.or_assoc]
  | string patterns examples =>
    refine merge_assoc_of_same (by simp [kind]) ha hb hc fun x y hx hy hxkind hykind => ?_
    cases x <;> cases hxkind
    cases y <;> cases hykind
    cases hy with
    | string _ hexamples =>
      exact congrArg₂ Shape.string (mergePatterns_assoc _ _ _) (mergeExamples_assoc hexamples _ _)
  | number min max integer =>
    refine merge_assoc_of_same (by simp [kind]) ha hb hc fun x y hx hy hxkind hykind => ?_
    cases x <;> cases hxkind
    cases y <;> cases hykind
    cases hx with
    | number hmin hmax =>
    cases hy with
    | number hmin' hmax' =>
    cases hc with
    | number hmin'' hmax'' =>
    change Shape.number _ _ _ = Shape.number _ _ _
    rw [Numeric.lesser_assoc hmin hmin' hmin'', Numeric.greater_assoc hmax hmax' hmax'', Bool.and_assoc]
  | boolean =>
    refine merge_assoc_of_same (by simp [kind]) ha hb hc fun x y hx hy hxkind hykind => ?_
    rfl
  | null =>
    refine merge_assoc_of_same (by simp [kind]) ha hb hc fun x y hx hy hxkind hykind => ?_
    rfl
  | union members ih =>
    refine merge_assoc_of_members ha.regular hb.regular hc.regular fun x hx y hy z hz _ _ => ?_
    exact ih z hz (ha.of_mem_members hx) (hb.of_mem_members hy) (hc.of_mem_members hz)

/-! ### Idempotence -/

/-- Fields joined with themselves stay the same if their nodes do. -/
lemma joinFields_self {fields : List Field} (hnodup : (keys fields).Nodup)
    (hnode : ∀ f ∈ fields, f.2.2.merge maxSamples f.2.2 = f.2.2) :
    joinFields maxSamples fields fields = fields := by
  refine fields_ext ?_ (nodup_keys_joinFields _ hnodup hnodup) fun key => ?_
  · rw [keys_joinFields _ hnodup]
    simp
  · rw [find?_joinFields _ hnodup]
    cases hfind : find? key fields with
    | none => rfl
    | some value =>
      have hvalue := hnode (key, value) (mem_of_find?_eq_some hfind)
      simp [joinField, hvalue]

/-- Merging a normal shape into itself changes nothing. -/
theorem Normal.merge_self {bound : Float → Prop} (ha : Normal options bound depth a) :
    a.merge options.maxSamples a = a := by
  induction a using Shape.induction generalizing depth with
  | object fields cut ih =>
    cases ha with
    | object _ hcut hkeys hfields =>
      rw [merge_of_kind_eq _ rfl (by simp [kind]), mergeSame_object_of_cut _ hcut hcut,
        joinFields_self hkeys fun f hf => ih f hf (hfields f hf)]
  | array minLen maxLen items cut ih =>
    cases ha with
    | array _ _ _ hitems =>
      rw [merge_of_kind_eq _ rfl (by simp [kind]), mergeSame_array, min_self, max_self, Bool.or_self]
      cases items with
      | none => rfl
      | some node => rw [Option.merge, ih node rfl (hitems node rfl)]
  | string patterns examples =>
    cases ha with
    | string hlisted _ => exact congrArg₂ Shape.string (mergePatterns_self hlisted) (mergeExamples_self _ _)
  | number min max integer =>
    rw [merge_of_kind_eq _ rfl (by simp [kind])]
    change Shape.number _ _ _ = _
    rw [Numeric.lesser_self, Numeric.greater_self, Bool.and_self]
  | boolean => rfl
  | null => rfl
  | union members ih =>
    -- A union is known from its members, and each of them is merged into itself.
    have hregular := ha.regular
    refine (hregular.merge _ hregular).ext hregular fun k => ?_
    rw [member?_merge _ hregular hregular]
    cases hm : (Shape.union members).member? k with
    | none => rfl
    | some m =>
      have hmem := (hregular.member?_eq_some_iff.1 hm).1
      rw [Option.merge, ih m hmem (ha.of_mem_members hmem)]

/-! ### Commutativity -/

/-- Shapes that are the same up to the order of fields, and up to which examples of strings are kept, in
which order. Of those there are as many on either side, and the same ones if fewer than the limit. -/
inductive Alike (maxSamples : Nat) : Shape → Shape → Prop
  | object {fields fields' : List Field} {cut : Bool} : (keys fields).Perm (keys fields') →
      (∀ f ∈ fields, ∀ g ∈ fields', f.1 = g.1 → f.2.1 = g.2.1) →
      (∀ f ∈ fields, ∀ g ∈ fields', f.1 = g.1 → Alike maxSamples f.2.2 g.2.2) →
      Alike maxSamples (.object fields cut) (.object fields' cut)
  | array {minLen maxLen : Nat} {items items' : Option Shape} {cut : Bool} :
      items.isSome = items'.isSome → (∀ node ∈ items, ∀ node' ∈ items', Alike maxSamples node node') →
      Alike maxSamples (.array minLen maxLen items cut) (.array minLen maxLen items' cut)
  | string {patterns : List Pattern} {examples examples' : List String} :
      examples.length = examples'.length → (examples.length < maxSamples → examples.Perm examples') →
      Alike maxSamples (.string patterns examples) (.string patterns examples')
  | number {min max min' max' : Float} {integer : Bool} : min == min' → max == max' →
      Alike maxSamples (.number min max integer) (.number min' max' integer)
  | boolean : Alike maxSamples .boolean .boolean
  | null : Alike maxSamples .null .null
  | union {members members' : List Shape} : members.map kind = members'.map kind →
      (∀ m ∈ members, ∀ m' ∈ members', m.kind = m'.kind → Alike maxSamples m m') →
      Alike maxSamples (.union members) (.union members')

/-- Shapes are alike if their members of each kind are. -/
lemma alike_of_members (ha : Regular a) (hb : Regular b)
    (hkinds : ∀ k, k ∈ a.members.map kind ↔ k ∈ b.members.map kind)
    (h : ∀ x ∈ a.members, ∀ y ∈ b.members, x.kind = y.kind → Alike maxSamples x y) :
    Alike maxSamples a b := by
  have hkinds := ha.members.kinds_eq hb.members hkinds
  have hlength : a.members.length = b.members.length := by simpa using congrArg List.length hkinds
  by_cases hua : a.kind = .union <;> by_cases hub : b.kind = .union
  · cases a <;> cases hua
    cases b <;> cases hub
    exact .union hkinds h
  · have := ha.length hua
    rw [hlength, members_of_ne_union hub] at this
    simp at this
  · have := hb.length hub
    rw [← hlength, members_of_ne_union hua] at this
    simp at this
  · rw [members_of_ne_union hua, members_of_ne_union hub] at h hkinds
    exact h a (by simp) b (by simp) (by simpa using hkinds)

/-- A normal shape is like itself. -/
lemma Normal.alike_refl (ha : Normal options IsNumber depth a) : Alike maxSamples a a := by
  induction a using Shape.induction generalizing depth with
  | object fields cut ih =>
    cases ha with
    | object _ _ hkeys hfields =>
      -- Fields with one key are the same field.
      have hunique : ∀ f ∈ fields, ∀ g ∈ fields, f.1 = g.1 → f = g := fun f hf g hg hkey =>
        List.inj_on_of_nodup_map hkeys hf hg hkey
      refine .object (.refl _) (fun f hf g hg hkey => ?_) fun f hf g hg hkey => ?_
      · rw [hunique f hf g hg hkey]
      · obtain rfl := hunique f hf g hg hkey
        exact ih f hf (hfields f hf)
  | array minLen maxLen items cut ih =>
    cases ha with
    | array _ _ _ hitems =>
      refine .array rfl fun node hnode node' hnode' => ?_
      obtain rfl : node = node' := Option.some.inj (hnode.symm.trans hnode')
      exact ih node hnode (hitems node hnode)
  | string patterns examples => exact .string rfl fun _ => .refl _
  | number min max integer =>
    cases ha with
    | number hmin hmax =>
      exact .number ((Numeric.beq_iff_rank_eq hmin hmin).2 rfl) ((Numeric.beq_iff_rank_eq hmax hmax).2 rfl)
  | boolean => exact .boolean
  | null => exact .null
  | union members ih =>
    cases ha with
    | union hmembers _ hnormal =>
      refine .union rfl fun m hm m' hm' hkind => ?_
      obtain rfl : m = m' := List.inj_on_of_nodup_map hmembers.nodup_kinds hm hm' hkind
      exact ih m hm (hnormal m hm)

/-- Of shapes that may not be there, those that are there are alike in either order. -/
lemma alike_optionMerge {x y : Option Shape} (hx : ∀ u ∈ x, Normal options IsNumber depth u)
    (hy : ∀ v ∈ y, Normal options IsNumber depth v)
    (h : ∀ u ∈ x, ∀ v ∈ y,
      Alike options.maxSamples (u.merge options.maxSamples v) (v.merge options.maxSamples u)) :
    ∀ s ∈ Option.merge (merge options.maxSamples) x y,
      ∀ t ∈ Option.merge (merge options.maxSamples) y x, Alike options.maxSamples s t := by
  intro s hs t ht
  cases x with
  | none =>
    cases y with
    | none => cases hs
    | some v =>
      obtain rfl := Option.some.inj hs
      obtain rfl := Option.some.inj ht
      exact (hy _ rfl).alike_refl
  | some u =>
    cases y with
    | none =>
      obtain rfl := Option.some.inj hs
      obtain rfl := Option.some.inj ht
      exact (hx _ rfl).alike_refl
    | some v =>
      obtain rfl := Option.some.inj hs
      obtain rfl := Option.some.inj ht
      exact h u rfl v rfl

/-- Merges of normal shapes are alike if those of the members of one kind are. -/
lemma alike_merge_of_members (ha : Normal options IsNumber depth a)
    (hb : Normal options IsNumber depth b)
    (h : ∀ x ∈ a.members, ∀ y ∈ b.members, x.kind = y.kind →
      Alike options.maxSamples (x.merge options.maxSamples y) (y.merge options.maxSamples x)) :
    Alike options.maxSamples (a.merge options.maxSamples b) (b.merge options.maxSamples a) := by
  have hab := ha.regular.merge options.maxSamples hb.regular
  have hba := hb.regular.merge options.maxSamples ha.regular
  refine alike_of_members hab hba (fun k => ?_) fun x hx y hy hkind => ?_
  · rw [kind_mem_merge _ ha.regular hb.regular, kind_mem_merge _ hb.regular ha.regular, or_comm]
  have hx := hab.member?_eq_some_iff.2 ⟨hx, hkind⟩
  have hy := hba.member?_eq_some_iff.2 ⟨hy, rfl⟩
  rw [member?_merge _ ha.regular hb.regular] at hx
  rw [member?_merge _ hb.regular ha.regular] at hy
  refine alike_optionMerge (fun u => ha.of_member?) (fun v => hb.of_member?) (fun u hu v hv => ?_)
    x hx y hy
  obtain ⟨hu, hukind⟩ := ha.regular.member?_eq_some_iff.1 hu
  obtain ⟨hv, hvkind⟩ := hb.regular.member?_eq_some_iff.1 hv
  exact h u hu v hv (hukind.trans hvkind.symm)

/-- Only the member of its own kind meets a shape that is no union. -/
lemma alike_merge_of_same (hunion : b.kind ≠ .union) (ha : Normal options IsNumber depth a)
    (hb : Normal options IsNumber depth b)
    (h : ∀ x, Normal options IsNumber depth x → x.kind = b.kind →
      Alike options.maxSamples (mergeSame options.maxSamples b x) (mergeSame options.maxSamples x b)) :
    Alike options.maxSamples (a.merge options.maxSamples b) (b.merge options.maxSamples a) := by
  refine alike_merge_of_members ha hb fun x hx y hy hkind => ?_
  rw [members_of_ne_union hunion, List.mem_singleton] at hy
  subst hy
  rw [merge_of_kind_eq _ hkind.symm (hkind ▸ hunion), merge_of_kind_eq _ hkind hunion]
  exact h x (ha.of_mem_members hx) hkind

/-- The fields of two objects, merged in either order. -/
lemma alike_joinFields {fields fields' : List Field} (cut : Bool)
    (hfields : (keys fields).Nodup ∧ ∀ f ∈ fields, Normal options IsNumber depth f.2.2)
    (hfields' : (keys fields').Nodup ∧ ∀ f ∈ fields', Normal options IsNumber depth f.2.2)
    (h : ∀ f ∈ fields, ∀ g ∈ fields', Alike options.maxSamples
      (f.2.2.merge options.maxSamples g.2.2) (g.2.2.merge options.maxSamples f.2.2)) :
    Alike options.maxSamples (.object (joinFields options.maxSamples fields fields') cut)
      (.object (joinFields options.maxSamples fields' fields) cut) := by
  obtain ⟨hkeys, hnormal⟩ := hfields
  obtain ⟨hkeys', hnormal'⟩ := hfields'
  have hnodup := nodup_keys_joinFields options.maxSamples hkeys hkeys'
  have hnodup' := nodup_keys_joinFields options.maxSamples hkeys' hkeys
  have hfield : ∀ f ∈ joinFields options.maxSamples fields fields',
      ∀ g ∈ joinFields options.maxSamples fields' fields, f.1 = g.1 →
        f.2.1 = g.2.1 ∧ Alike options.maxSamples f.2.2 g.2.2 := by
    rintro ⟨key, f⟩ hf ⟨_, g⟩ hg rfl
    have hf := find?_eq_some_of_mem hnodup hf
    have hg := find?_eq_some_of_mem hnodup' hg
    rw [find?_joinFields _ hkeys'] at hf
    rw [find?_joinFields _ hkeys] at hg
    -- The field is on the left alone, on the right alone, or on both sides.
    rcases of_joinField_eq_some _ hf with
      ⟨x, hx, hy, rfl⟩ | ⟨y, hx, hy, rfl⟩ | ⟨x, y, hx, hy, rfl⟩ <;> rw [hx, hy] at hg <;>
      obtain rfl := Option.some.inj hg
    · exact ⟨rfl, (hnormal (key, x) (mem_of_find?_eq_some hx)).alike_refl⟩
    · exact ⟨rfl, (hnormal' (key, y) (mem_of_find?_eq_some hy)).alike_refl⟩
    · exact ⟨Bool.or_comm _ _, h (key, x) (mem_of_find?_eq_some hx) (key, y) (mem_of_find?_eq_some hy)⟩
  refine .object ?_ (fun f hf g hg hkey => (hfield f hf g hg hkey).1)
    fun f hf g hg hkey => (hfield f hf g hg hkey).2
  rw [List.perm_ext_iff_of_nodup hnodup hnodup']
  intro key
  rw [keys_joinFields _ hkeys', keys_joinFields _ hkeys]
  by_cases hkey : key ∈ keys fields <;> by_cases hkey' : key ∈ keys fields' <;> simp [hkey, hkey']

/-- Merges of normal shapes are alike in either order. -/
theorem Normal.alike_merge (ha : Normal options IsNumber depth a)
    (hb : Normal options IsNumber depth b) :
    Alike options.maxSamples (a.merge options.maxSamples b) (b.merge options.maxSamples a) := by
  -- Both orders go down the same kinds, so the induction on one side reaches the parts of the other.
  induction b using Shape.induction generalizing a depth with
  | object fields cut ih =>
    refine alike_merge_of_same (by simp [kind]) ha hb fun x hx hkind => ?_
    cases x <;> cases hkind
    cases hx with
    | object hcut hfieldsCut hkeys hfields =>
    cases hb with
    | object hcut' hfieldsCut' hkeys' hfields' =>
    subst hcut hcut'
    rw [mergeSame_object_of_cut _ hfieldsCut' hfieldsCut, mergeSame_object_of_cut _ hfieldsCut hfieldsCut']
    exact alike_joinFields _ ⟨hkeys, hfields⟩ ⟨hkeys', hfields'⟩ fun f hf g hg =>
      ih g hg (hfields f hf) (hfields' g hg)
  | array minLen maxLen items cut ih =>
    refine alike_merge_of_same (by simp [kind]) ha hb fun x hx hkind => ?_
    cases x <;> cases hkind
    cases hx with
    | array _ _ _ hx =>
    cases hb with
    | array _ _ _ hitems =>
    rw [mergeSame_array, mergeSame_array, min_comm, max_comm, Bool.or_comm]
    refine .array ?_ (alike_optionMerge hx hitems fun u hu v hv => ih v hv (hx u hu) (hitems v hv))
    simp only [Option.isSome_merge, Bool.or_comm]
  | string patterns examples =>
    refine alike_merge_of_same (by simp [kind]) ha hb fun x hx hkind => ?_
    cases x <;> cases hkind
    cases hx with
    | string _ hmine =>
    cases hb with
    | string _ hexamples =>
    change Alike _ (.string _ _) (.string _ _)
    rw [mergePatterns_comm]
    exact .string (length_mergeExamples_comm hmine hexamples) (perm_mergeExamples_comm hmine hexamples)
  | number min max integer =>
    refine alike_merge_of_same (by simp [kind]) ha hb fun x hx hkind => ?_
    cases x <;> cases hkind
    cases hx with
    | number hmin hmax =>
    cases hb with
    | number hmin' hmax' =>
    change Alike _ (.number _ _ _) (.number _ _ _)
    rw [Bool.and_comm]
    exact .number (Numeric.lesser_comm hmin hmin') (Numeric.greater_comm hmax hmax')
  | boolean =>
    refine alike_merge_of_same (by simp [kind]) ha hb fun x hx hkind => ?_
    cases x <;> cases hkind
    exact .boolean
  | null =>
    refine alike_merge_of_same (by simp [kind]) ha hb fun x hx hkind => ?_
    cases x <;> cases hkind
    exact .null
  | union members ih =>
    refine alike_merge_of_members ha hb fun x hx y hy _ => ?_
    exact ih y hy (ha.of_mem_members hx) (hb.of_mem_members hy)

/-! ### The laws -/

/-- Shapes that were taken under the same options merge as in a join: grouping and repetition make no
difference at all, and the order makes none beyond that of the fields and which examples of strings are
kept. -/
theorem merge_laws (ha : Inferred options a) (hb : Inferred options b) (hc : Inferred options c) :
    (a.merge options.maxSamples b).merge options.maxSamples c =
        a.merge options.maxSamples (b.merge options.maxSamples c) ∧
      a.merge options.maxSamples a = a ∧
      Alike options.maxSamples (a.merge options.maxSamples b) (b.merge options.maxSamples a) :=
  ⟨ha.normal.merge_assoc hb.normal hc.normal, ha.normal.merge_self, ha.normal.alike_merge hb.normal⟩

/-- Two objects with another order of fields and other strings, and an array between them. -/
theorem merge_laws_of_mixed :
    let options : ShapeOptions := { maxSamples := 1 }
    let a := Shape.object [("x", false, .string [] ["p"]), ("y", false, .boolean)] false
    let b := Shape.array 1 1 (some .null) false
    let c := Shape.object [("y", false, .null), ("x", false, .string [] ["q"])] false
    Inferred options a ∧ Inferred options b ∧ Inferred options c ∧
      (a.merge 1 b).merge 1 c = a.merge 1 (b.merge 1 c) ∧ a.merge 1 a = a ∧
      Alike 1 (a.merge 1 b) (b.merge 1 a) := by
  intro options a b c
  have ha : Inferred options a :=
    ⟨[.objectStart, .key "x", .scalar (.string "p"), .key "y", .scalar (.bool true), .objectEnd],
      by simp, rfl⟩
  have hb : Inferred options b := ⟨[.arrayStart, .scalar .null, .arrayEnd], by simp, rfl⟩
  have hc : Inferred options c :=
    ⟨[.objectStart, .key "y", .scalar .null, .key "x", .scalar (.string "q"), .objectEnd],
      by simp, rfl⟩
  exact ⟨ha, hb, hc, merge_laws ha hb hc⟩

end EntityDump.Shape
