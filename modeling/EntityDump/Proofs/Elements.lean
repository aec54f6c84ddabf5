import EntityDump.Elements
import EntityDump.Proofs.Json.Assembly
import EntityDump.Proofs.Tokenizer.Recognition
/-!
# Elements of a document

The elements that a source gives of a well-formed document are the items of the first array, in order of the
text, that the keys lead to (`Document.itemsAt`). Where no object repeats a key, this is the array that one
finds in the value of the whole document by following the keys (`arrayAt?_value`).

While an extractor seeks, its ancestors and its pending key tell how much of the path still lies ahead
(`Sought`), and an array is the target if nothing does. So a document below a position gives the items
of the first array that the rest of the path leads to, and otherwise leaves the extractor seeking at the
same position (`pushAll_events_of_sought`).
-/

namespace EntityDump

open Json (Event Assembler Document)
open Json.Grammar (IsText)

/-! ### Selecting from a document -/

namespace Json

/-- The array that object keys lead to in a value. -/
def arrayAt? : List String → Json → Option (List Json)
  | [], .array items => some items
  | [], _ => none
  | key :: keys, value => (value.field? key).bind (arrayAt? keys)

namespace Document

/-- The arrays that object keys lead to through objects alone, in order of the text. -/
def arraysAt : List String → Document → List (List Document)
  | [], .array items => [items]
  | key :: keys, .object fields =>
    fields.flatMap fun field => if field.1 = key then arraysAt keys field.2 else []
  | _, _ => []

/-- The items of the first array that object keys lead to; none if there is no such array. -/
def itemsAt (keys : List String) (d : Document) : List Document :=
  (d.arraysAt keys).head?.getD []

/-- No object repeats a key. -/
inductive Distinct : Document → Prop
  | scalar (s : Scalar) : Distinct (.scalar s)
  | array {items : List Document} : (∀ d ∈ items, Distinct d) → Distinct (.array items)
  | object {fields : List (String × Document)} : (fields.map (·.1)).Nodup →
      (∀ field ∈ fields, Distinct field.2) → Distinct (.object fields)

/-- Among fields without repeated keys, a key has the value of its only field. -/
lemma find?_foldl_insert {fields : List (String × Document)} (h : (fields.map (·.1)).Nodup)
    (key : String) (done : List (String × Json)) :
    Fields.find? key ((fieldValues fields).foldl
        (fun acc field => Fields.insert field.1 field.2 acc) done) =
      ((fields.find? (·.1 = key)).map fun field => field.2.value).or (Fields.find? key done) := by
  induction fields generalizing done with
  | nil => simp [fieldValues]
  | cons field fields ih =>
    obtain ⟨k, d⟩ := field
    rw [List.map_cons, List.nodup_cons] at h
    obtain ⟨hnot, h⟩ := h
    rw [fieldValues, List.foldl_cons, ih h, Fields.find?_insert]
    by_cases hk : k = key
    · -- The key stands in no other field.
      subst hk
      have hnone : fields.find? (·.1 = k) = none := by
        refine List.find?_eq_none.2 fun field hfield hkey => hnot ?_
        exact List.mem_map.2 ⟨field, hfield, by simpa using hkey⟩
      simp [hnone]
    · simp [hk]

/-- Among fields without repeated keys, a path leads through the only field of its key. -/
lemma flatMap_arraysAt {fields : List (String × Document)} (h : (fields.map (·.1)).Nodup)
    (key : String) (keys : List String) :
    (fields.flatMap fun field => if field.1 = key then arraysAt keys field.2 else []) =
      ((fields.find? (·.1 = key)).map fun field => arraysAt keys field.2).getD [] := by
  induction fields with
  | nil => rfl
  | cons field fields ih =>
    rw [List.map_cons, List.nodup_cons] at h
    obtain ⟨hnot, h⟩ := h
    rw [List.flatMap_cons, ih h]
    by_cases hk : field.1 = key
    · have hnone : fields.find? (·.1 = key) = none := by
        refine List.find?_eq_none.2 fun field' hfield hkey => hnot ?_
        exact List.mem_map.2 ⟨field', hfield, by simpa [hk] using hkey⟩
      simp [hk, hnone]
    · simp [hk]

/-- Where no object repeats a key, following the keys in the value leads to the same array. -/
theorem arrayAt?_value {d : Document} (h : d.Distinct) (keys : List String) :
    d.value.arrayAt? keys = (d.arraysAt keys).head?.map itemValues := by
  induction keys generalizing d with
  | nil =>
    cases d with
    | scalar s => cases s <;> rfl
    | array items => simp [value, arrayAt?, arraysAt]
    | object fields => simp [value, arrayAt?, arraysAt]
  | cons key keys ih =>
    cases h with
    | scalar s => cases s <;> simp [value, arrayAt?, arraysAt, Scalar.toJson, field?]
    | array => simp [value, arrayAt?, arraysAt, field?]
    | @object fields hnodup hfields =>
      rw [value, arrayAt?, field?, Fields.ofList, find?_foldl_insert hnodup, arraysAt,
        flatMap_arraysAt hnodup]
      cases hfind : fields.find? (·.1 = key) with
      | none => simp [Fields.find?]
      | some field => simp [ih (hfields field (List.mem_of_find?_eq_some hfind))]

end Document

end Json

/-! ### Following events -/

namespace Extractor

variable {target : List String}

/-- Takes events in order and collects the items that they complete. -/
def pushAll (target : List String) (x : Extractor) : List Event → Extractor × List Json
  | [] => (x, [])
  | event :: events =>
    let (x, item) := x.push target event
    let (x, items) := pushAll target x events
    (x, item.toList ++ items)

lemma pushAll_cons (x : Extractor) (event : Event) (events : List Event) :
    pushAll target x (event :: events) =
      ((pushAll target (x.push target event).1 events).1,
        (x.push target event).2.toList ++ (pushAll target (x.push target event).1 events).2) := rfl

/-- Two runs of events are taken one after the other, and so are the items. -/
lemma pushAll_append (x : Extractor) (events events' : List Event) :
    pushAll target x (events ++ events') =
      ((pushAll target (pushAll target x events).1 events').1,
        (pushAll target x events).2 ++ (pushAll target (pushAll target x events).1 events').2) := by
  induction events generalizing x with
  | nil => rfl
  | cons event events ih => rw [List.cons_append, pushAll_cons, ih, pushAll_cons, List.append_assoc]

/-- Behind the target nothing is given. -/
lemma pushAll_draining (events : List Event) : pushAll target .draining events = (.draining, []) := by
  induction events with
  | nil => rfl
  | cons event events ih => simp [pushAll_cons, push, ih]

/-- Inside the target what is assembled is given. -/
lemma pushAll_streaming {a a' : Assembler} {events : List Event} {values : List Json}
    (h : a.Collects events a' values) :
    pushAll target (.streaming a) events = (.streaming a', values) := by
  induction h with
  | nil => rfl
  | @cons a a' e events values hidle _ ih =>
    have hopen : closesTarget a e = false := by
      cases e <;> simp [closesTarget, hidle]
    simp [pushAll_cons, push, hopen, ih]

/-- The items of the target are given one after another. -/
lemma pushAll_itemEvents (items : List Document) :
    pushAll target (.streaming {}) (Document.itemEvents items) =
      (.streaming {}, Document.itemValues items) := by
  induction items with
  | nil => rfl
  | cons item items ih =>
    rw [Document.itemEvents, pushAll_append, pushAll_streaming (Assembler.collects_events item {})]
    simp only [Assembler.complete]
    rw [ih]
    rfl

/-! ### Seeking -/

/-- The keys lead on to the target from where a value stands under the given key, inside the given
containers. -/
def LeadsOn (target : List String) (ancestors : List Ancestor) (key : Option String)
    (keys : List String) : Prop :=
  (∀ a ∈ ancestors, a.kind = .object) ∧
    none :: target.map some = ancestors.map (·.key) ++ key :: keys.map some

/-- The keys that lead on to the target from where a value stands, or that none do. -/
def Sought (target : List String) (ancestors : List Ancestor) (key : Option String) :
    Option (List String) → Prop
  | some keys => LeadsOn target ancestors key keys
  | none => ∀ keys, ¬ LeadsOn target ancestors key keys

/-- The keys that lead on from a field. -/
def descend (name : String) : Option (List String) → Option (List String)
  | some (key :: keys) => if name = key then some keys else none
  | _ => none

/-- The arrays below a position to which its keys lead, if there are any. -/
def arraysBelow (d : Document) : Option (List String) → List (List Document)
  | some keys => d.arraysAt keys
  | none => []

/-- Where an extractor stands behind a value that holds the given arrays to choose from, and what it has
given: the items of the first one. -/
def found (ancestors : List Ancestor) : List (List Document) → Extractor × List Json
  | [] => (.seeking ancestors none, [])
  | items :: _ => (.draining, Document.itemValues items)

section Sought

variable {ancestors : List Ancestor} {key : Option String} {keys : List String}
  {sought : Option (List String)}

/-- An array is the target if no key lies ahead. -/
lemma isTarget_iff (hroot : ancestors = [] → key = none) :
    isTarget target ancestors key = true ↔ LeadsOn target ancestors key [] := by
  cases target with
  | nil =>
    simp only [isTarget, List.isEmpty_iff, LeadsOn, List.map_nil]
    constructor
    · rintro rfl
      simp [hroot rfl]
    · rintro ⟨-, hpath⟩
      have hlength := congrArg List.length hpath
      simp only [List.length_cons, List.length_nil, List.length_append, List.length_map] at hlength
      exact List.length_eq_zero_iff.1 (by omega)
  | cons name target =>
    simp only [isTarget, LeadsOn, Bool.and_eq_true, List.all_eq_true, beq_iff_eq, List.map_nil]
    exact and_congr_right fun _ => eq_comm

/-- The keys that lead on are determined. -/
lemma LeadsOn.unique {keys' : List String} (h : LeadsOn target ancestors key keys)
    (h' : LeadsOn target ancestors key keys') : keys = keys' := by
  have hpath := h.2.symm.trans h'.2
  rw [List.append_cancel_left_eq, List.cons.injEq] at hpath
  exact (List.map_inj_right fun _ _ => Option.some.inj).1 hpath.2

/-- From a field of an object the keys lead on to where the object's do behind the name of the field. -/
lemma leadsOn_field_iff {name : String} :
    LeadsOn target (ancestors ++ [⟨.object, key⟩]) (some name) keys ↔
      LeadsOn target ancestors key (name :: keys) := by
  simp [LeadsOn, or_imp, forall_and]

/-- Below an array no key leads on. -/
lemma sought_item : Sought target (ancestors ++ [⟨.array, key⟩]) none none := by
  rintro keys ⟨hkinds, -⟩
  have hkind := hkinds ⟨.array, key⟩ (by simp)
  cases hkind

/-- In a field of an object the keys behind its name are sought. -/
lemma Sought.field (h : Sought target ancestors key sought) (name : String) :
    Sought target (ancestors ++ [⟨.object, key⟩]) (some name) (descend name sought) := by
  have hnone : (∀ keys, ¬ LeadsOn target ancestors key (name :: keys)) →
      Sought target (ancestors ++ [⟨.object, key⟩]) (some name) none :=
    fun hnot keys hkeys => hnot keys (leadsOn_field_iff.1 hkeys)
  rcases sought with _ | _ | ⟨key', keys⟩
  · exact hnone fun keys => h (name :: keys)
  · exact hnone fun keys hkeys => absurd (LeadsOn.unique h hkeys) (by simp)
  · rw [descend]
    split
    · next hname =>
      subst hname
      exact leadsOn_field_iff.2 h
    · next hname =>
      exact hnone fun keys' hkeys => hname (List.cons.inj (LeadsOn.unique h hkeys)).1.symm

end Sought

/-! ### Documents below a position -/

/-- Behind an array that is not the target nothing was given. -/
lemma pushAll_itemEvents_of_sought {ancestors : List Ancestor} {items : List Document}
    (hitems : ∀ d ∈ items, pushAll target (.seeking ancestors none) d.events = found ancestors []) :
    pushAll target (.seeking ancestors none) (Document.itemEvents items) = found ancestors [] := by
  induction items with
  | nil => rfl
  | cons item items ih =>
    obtain ⟨hitem, hitems⟩ := List.forall_mem_cons.1 hitems
    rw [Document.itemEvents, pushAll_append, hitem]
    simp only [found]
    rw [ih hitems]
    rfl

/-- Of the arrays in several fields the first one counts. -/
lemma pushAll_fieldEvents_of_sought {ancestors : List Ancestor} {fields : List (String × Document)}
    {arrays : String × Document → List (List Document)}
    (hfields : ∀ field ∈ fields,
      pushAll target (.seeking ancestors (some field.1)) field.2.events =
        found ancestors (arrays field)) :
    pushAll target (.seeking ancestors none) (Document.fieldEvents fields) =
      found ancestors (fields.flatMap arrays) := by
  induction fields with
  | nil => rfl
  | cons field fields ih =>
    obtain ⟨name, d⟩ := field
    obtain ⟨hfield, hfields⟩ := List.forall_mem_cons.1 hfields
    rw [Document.fieldEvents, pushAll_cons, List.flatMap_cons]
    simp only [push, seek]
    rw [pushAll_append, hfield]
    cases harrays : arrays (name, d) with
    | nil =>
      rw [found, ih hfields, List.nil_append]
      rfl
    | cons items rest => simp [found, pushAll_draining]

/-- A document below a position gives the items of the first array that the keys sought lead to; and without
such an array the extractor goes on seeking behind the document. -/
theorem pushAll_events_of_sought (d : Document) {ancestors : List Ancestor} {key : Option String}
    {sought : Option (List String)} (hroot : ancestors = [] → key = none)
    (h : Sought target ancestors key sought) :
    pushAll target (.seeking ancestors key) d.events = found ancestors (arraysBelow d sought) := by
  -- By induction on the document, for all ancestors: what is sought below a key is what is sought here without it.
  induction d using Document.induction generalizing ancestors key sought with
  | scalar s =>
    have hnone : arraysBelow (.scalar s) sought = [] := by
      rcases sought with _ | _ | _ <;> simp [arraysBelow, Document.arraysAt]
    rw [hnone, Document.events]
    rfl
  | array items ih =>
    rw [Document.events, pushAll_cons]
    simp only [push, seek]
    by_cases htarget : isTarget target ancestors key = true
    · have hhere := (isTarget_iff hroot).1 htarget
      have hsought : sought = some [] := by
        cases sought with
        | none => exact absurd hhere (h [])
        | some keys => exact congrArg some (LeadsOn.unique h hhere)
      rw [if_pos htarget, pushAll_append, pushAll_itemEvents, hsought]
      simp [arraysBelow, Document.arraysAt, found, push, closesTarget, Assembler.isIdle, pushAll]
    · have hnone : arraysBelow (.array items) sought = [] := by
        rcases sought with _ | _ | ⟨key, keys⟩
        · rfl
        · exact absurd ((isTarget_iff hroot).2 h) htarget
        · rfl
      have hitems : pushAll target (.seeking (ancestors ++ [⟨.array, key⟩]) none)
          (Document.itemEvents items) = found (ancestors ++ [⟨.array, key⟩]) [] :=
        pushAll_itemEvents_of_sought fun d hd => ih d hd (by simp) sought_item
      rw [if_neg htarget, pushAll_append, hitems, hnone]
      simp [found, push, seek, pushAll]
  | object fields ih =>
    have harrays : arraysBelow (.object fields) sought =
        fields.flatMap fun field => arraysBelow field.2 (descend field.1 sought) := by
      rcases sought with _ | _ | ⟨name, keys⟩
      · simp [arraysBelow, descend]
      · simp [arraysBelow, descend, Document.arraysAt]
      · rw [arraysBelow, Document.arraysAt]
        congr 1
        funext field
        rw [descend]
        split <;> rfl
    have hfields : pushAll target (.seeking (ancestors ++ [⟨.object, key⟩]) none)
        (Document.fieldEvents fields) = found (ancestors ++ [⟨.object, key⟩])
          (fields.flatMap fun field => arraysBelow field.2 (descend field.1 sought)) :=
      pushAll_fieldEvents_of_sought fun field hfield => ih field hfield (by simp) (h.field field.1)
    rw [Document.events, pushAll_cons]
    simp only [push, seek]
    rw [pushAll_append, hfields, harrays]
    cases fields.flatMap fun field => arraysBelow field.2 (descend field.1 sought) with
    | nil => simp [found, push, seek, pushAll]
    | cons items rest => simp [found, pushAll_draining]

/-- A whole document gives the items of the first array that the keys of the target lead to. -/
theorem pushAll_events (d : Document) :
    (pushAll target .start d.events).2 = Document.itemValues (d.itemsAt target) := by
  have hroot : Sought target [] none (some target) := ⟨by simp, rfl⟩
  rw [start, pushAll_events_of_sought d (by simp) hroot, arraysBelow, Document.itemsAt]
  cases d.arraysAt target <;> rfl

end Extractor

/-! ### Folding elements -/

section Fold

variable {σ : Type}

/-- Takes one event of a document, where the step does not look at how far the source has been read. -/
def Extraction.take (target : List String) (step : σ → Nat → Json → σ) (x : Extraction σ)
    (event : Event) : Extraction σ :=
  match x.extractor.push target event with
  | (extractor, none) => { x with extractor := extractor }
  | (extractor, some element) =>
    ⟨extractor, x.elements + 1, step x.state x.elements element⟩

/-- Folds what elements there are, each with its index. -/
def foldIndexed (step : σ → Nat → Json → σ) (elements : List Json) (index : Nat) (init : σ) : σ :=
  (elements.zipIdx index).foldl (fun state element => step state element.2 element.1) init

variable (target : List String) (step : σ → Nat → Json → σ)

/-- A step that does not look at how far the source has been read. -/
lemma extractionStep_eq_take :
    (Source.extractionStep target fun state index element _ => step state index element) =
      fun x event _ => Extraction.take target step x event := by
  funext x event r
  unfold Source.extractionStep Extraction.take
  rcases x.extractor.push target event with ⟨extractor, _ | element⟩ <;> rfl

/-- Where the index is not looked at, a fold over the elements is left. -/
lemma foldIndexed_eq_foldl (step : σ → Json → σ) (elements : List Json) (index : Nat) (init : σ) :
    foldIndexed (fun state _ element => step state element) elements index init =
      elements.foldl step init := by
  unfold foldIndexed
  induction elements generalizing index init with
  | nil => rfl
  | cons element elements ih => rw [List.zipIdx_cons, List.foldl_cons, ih, List.foldl_cons]

/-- Folding events folds the elements that they complete. -/
lemma foldl_take (events : List Event) (x : Extraction σ) :
    events.foldl (Extraction.take target step) x =
      ⟨(x.extractor.pushAll target events).1,
        x.elements + (x.extractor.pushAll target events).2.length,
        foldIndexed step (x.extractor.pushAll target events).2 x.elements x.state⟩ := by
  induction events generalizing x with
  | nil => rfl
  | cons event events ih =>
    rw [List.foldl_cons, ih, Extractor.pushAll_cons]
    unfold Extraction.take
    cases hitem : x.extractor.push target event with
    | mk extractor item =>
      cases item with
      | none => rfl
      | some element =>
        simp only [foldIndexed, Option.toList_some, List.cons_append, List.nil_append,
          List.length_cons, List.zipIdx_cons, List.foldl_cons, Extraction.mk.injEq, true_and, and_true]
        omega

/-- The fold of a well-formed document's bytes is the fold of the items of the target. -/
lemma foldBytes_eq_of_isText (init : σ) (config : StreamConfig) {bytes : List UInt8} {d : Document}
    (htext : IsText bytes d) (hmax : bytes.length ≤ config.maxTokenBytes) :
    let result := Reading.foldBytes
      (Source.extractionStep target fun state index element _ => step state index element) config
      bytes { state := init }
    result.1.state = foldIndexed step (Document.itemValues (d.itemsAt target)) 0 init ∧
      result.1.elements = (d.itemsAt target).length ∧ result.2.2 = .ok () := by
  dsimp only
  rw [extractionStep_eq_take]
  obtain ⟨hstate, hend⟩ := Reading.foldBytes_eq_complete (Extraction.take target step) config bytes
    { state := init } hmax
  rw [hstate, hend, Tokenizer.outcome_of_isText htext, foldl_take, Extractor.pushAll_events,
    Document.itemValues_eq_map]
  exact ⟨rfl, by simp, rfl⟩

/-- The fold of a source whose document is well-formed. -/
theorem Source.fold_of_isText (s : Source) (init : σ) (config : StreamConfig)
    (directory : Directory) {bytes : List UInt8} {d : Document}
    (hopen : directory.open? s.path = some bytes) (htext : IsText bytes d)
    (hmax : bytes.length ≤ config.maxTokenBytes) :
    s.fold config directory step init =
      .ok (foldIndexed step (Document.itemValues (d.itemsAt s.subPathKeys)) 0 init) := by
  have hfold := foldBytes_eq_of_isText s.subPathKeys step init config htext hmax
  unfold Source.fold Reading.foldFile
  rw [hopen]
  dsimp only at hfold ⊢
  generalize Reading.foldBytes _ config bytes _ = result at hfold ⊢
  obtain ⟨x, r, ending⟩ := result
  obtain ⟨hstate, -, rfl⟩ := hfold
  simp only [Except.map, ← hstate]

/-- The elements of a source whose document is well-formed. -/
lemma Source.elements_of_isText (s : Source) (config : StreamConfig) (directory : Directory)
    {bytes : List UInt8} {d : Document} (hopen : directory.open? s.path = some bytes)
    (htext : IsText bytes d) (hmax : bytes.length ≤ config.maxTokenBytes) :
    s.elements config directory = .ok (Document.itemValues (d.itemsAt s.subPathKeys)) := by
  rw [Source.elements, s.fold_of_isText _ [] config directory hopen htext hmax,
    foldIndexed_eq_foldl fun acc element => element :: acc]
  simp [Except.map]

end Fold

/-- Reading a well-formed document in chunks of any size gives, in order and with their indices, the
items of the first array that the keys of the target lead to, each with the value that an assembler
gives it, and nothing where there is no such array; these are the elements of every source whose file
and keys they are. Where no object repeats a key they are the array that the keys lead to in the value
of the whole document. -/
theorem elements_eq_itemsAt {σ : Type} (target : List String) (step : σ → Nat → Json → σ) (init : σ)
    (config : StreamConfig) (bytes : List UInt8) (d : Document) (htext : IsText bytes d)
    (hmax : bytes.length ≤ config.maxTokenBytes) :
    let result := Reading.foldBytes
      (Source.extractionStep target fun state index element _ => step state index element) config
      bytes { state := init }
    let elements := (d.itemsAt target).map Document.value
    (result.1.state = foldIndexed step elements 0 init ∧ result.1.elements = elements.length ∧
        result.2.2 = .ok ()) ∧
      (∀ item ∈ d.itemsAt target, Assembler.pushAll {} item.events = ({}, [item.value])) ∧
      (∀ (s : Source) (directory : Directory), s.subPathKeys = target →
        directory.open? s.path = some bytes → s.elements config directory = .ok elements) ∧
      Assembler.pushAll {} d.events = ({}, [d.value]) ∧
      (d.Distinct → elements = (d.value.arrayAt? target).getD []) := by
  dsimp only
  obtain ⟨hstate, hcount, hend⟩ := foldBytes_eq_of_isText target step init config htext hmax
  have hvalues := Document.itemValues_eq_map (d.itemsAt target)
  refine ⟨⟨hvalues ▸ hstate, by rw [hcount, List.length_map], hend⟩,
    fun item _ => Assembler.pushAll_events item, ?_, Assembler.pushAll_events d, fun hdistinct => ?_⟩
  · rintro s directory rfl hopen
    rw [s.elements_of_isText config directory hopen htext hmax, hvalues]
  · rw [Document.arrayAt?_value hdistinct, Document.itemsAt]
    cases d.arraysAt target with
    | nil => rfl
    | cons items rest => simp [Document.itemValues_eq_map]

/-- The document `{"a":[true]}`, read five bytes at a time. -/
theorem elements_of_single_field :
    IsText [0x7b, 0x22, 0x61, 0x22, 0x3a, 0x5b, 0x74, 0x72, 0x75, 0x65, 0x5d, 0x7d]
        (.object [("a", .array [.scalar (.bool true)])]) ∧
      (Reading.foldBytes (Source.extractionStep ["a"] fun acc index element _ => (index, element) :: acc)
          { chunkSize := 5, maxTokenBytes := 12 }
          [0x7b, 0x22, 0x61, 0x22, 0x3a, 0x5b, 0x74, 0x72, 0x75, 0x65, 0x5d, 0x7d]
          { state := [] }).1.state = [(0, .bool true)] := by
  have hblank : Json.Grammar.IsBlank [] := by simp [Json.Grammar.IsBlank]
  have hchars : Json.Grammar.IsChars [0x61] :=
    .unescaped (c := 'a') (by decide) (by decide) (by decide) .nil
  have hkey : Json.Grammar.IsStringOf [0x22, 0x61, 0x22] "a" := ⟨.mk hchars, by decide⟩
  have hitem : Json.Grammar.Derives [0x74, 0x72, 0x75, 0x65] (.element (.scalar (.bool true))) :=
    .element hblank (.scalar .true) hblank
  have harray : Json.Grammar.Derives [0x5b, 0x74, 0x72, 0x75, 0x65, 0x5d]
      (.value (.array [.scalar (.bool true)])) := .array (.lastItem hitem)
  have hmember : Json.Grammar.Derives
      [0x22, 0x61, 0x22, 0x3a, 0x5b, 0x74, 0x72, 0x75, 0x65, 0x5d]
      (.member "a" (.array [.scalar (.bool true)])) :=
    .member hblank hkey hblank (.element hblank harray hblank)
  have hobject : Json.Grammar.Derives
      [0x7b, 0x22, 0x61, 0x22, 0x3a, 0x5b, 0x74, 0x72, 0x75, 0x65, 0x5d, 0x7d]
      (.value (.object [("a", .array [.scalar (.bool true)])])) := .object (.lastField hmember)
  have htext : IsText [0x7b, 0x22, 0x61, 0x22, 0x3a, 0x5b, 0x74, 0x72, 0x75, 0x65, 0x5d, 0x7d]
      (.object [("a", .array [.scalar (.bool true)])]) := .element hblank hobject hblank
  have hrun := elements_eq_itemsAt ["a"] (fun acc index element => (index, element) :: acc) []
    { chunkSize := 5, maxTokenBytes := 12 } _ _ htext (by decide)
  exact ⟨htext, hrun.1.1⟩

/-- A file with the text `[[true],null,[false]]`. -/
def threeItems : Directory :=
  ⟨[("a", [0x5b, 0x5b, 0x74, 0x72, 0x75, 0x65, 0x5d, 0x2c, 0x6e, 0x75, 0x6c, 0x6c, 0x2c, 0x5b, 0x66, 0x61, 0x6c,
    0x73, 0x65, 0x5d, 0x5d])]⟩

lemma elements_threeItems :
    (Source.rootArray "a").elements {} threeItems = .ok [.array [.bool true], .null, .array [.bool false]] := by
  have hblank : Json.Grammar.IsBlank [] := by simp [Json.Grammar.IsBlank]
  have htrue : Json.Grammar.Derives [0x5b, 0x74, 0x72, 0x75, 0x65, 0x5d]
      (.value (.array [.scalar (.bool true)])) := .array (.lastItem (.element hblank (.scalar .true) hblank))
  have hnull : Json.Grammar.Derives [0x6e, 0x75, 0x6c, 0x6c] (.value (.scalar .null)) := .scalar .null
  have hfalse : Json.Grammar.Derives [0x5b, 0x66, 0x61, 0x6c, 0x73, 0x65, 0x5d]
      (.value (.array [.scalar (.bool false)])) := .array (.lastItem (.element hblank (.scalar .false) hblank))
  exact Source.elements_of_isText (.rootArray "a") {} threeItems (by decide)
    (.element hblank (.array (.item (.element hblank htrue hblank)
      (.item (.element hblank hnull hblank) (.lastItem (.element hblank hfalse hblank))))) hblank) (by decide)

end EntityDump
