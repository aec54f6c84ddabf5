import EntityDump.Proofs.Tokenizer.Pieces
import EntityDump.Proofs.Tokenizer.Position
/-!
# Recognizing JSON

A tokenizer accepts the texts of the grammar and no others, and lists the document that a text denotes.

A text of the grammar is read to its end, and gives the events of its document: `leads_of_derives`, by
induction on the derivation. The other way round, a run that comes to its end has read an element of the
grammar: `elementNext`, by induction on the number of bytes that are left, since what stands inside a
container is shorter than the container.
-/

namespace EntityDump

open Json (Event Document Scalar)
open Json.Grammar

namespace Tokenizer

/-! ### Texts of the grammar are read -/

/-- No byte of a number stands first. -/
def EndsNumber (rest : List UInt8) : Prop :=
  ∀ b ∈ rest.head?, Lexeme.isNumberByte b = false

/-- Where the bytes stand first, a run leads on to what stands behind them and gives the events of the
phrase that they are. Items and members are read together with the bracket behind them. -/
def Leads (text : List UInt8) : Phrase → Prop
  | .value d | .element d => ∀ (t : Tokenizer) (rest : List UInt8) (stack : List Container),
      t.Holds (text ++ rest) stack .value → EndsNumber rest →
      ∃ t' : Tokenizer, t'.Holds rest stack (expectAfter stack) ∧ t.Gives d.events t'
  | .items items => ∀ (t : Tokenizer) (rest : List UInt8) (stack : List Container),
      t.Holds (text ++ 0x5d :: rest) (.array :: stack) .value →
      ∃ t' : Tokenizer, t'.Holds rest stack (expectAfter stack) ∧
        t.Gives (Document.itemEvents items ++ [.arrayEnd]) t'
  | .member key d => ∀ (t : Tokenizer) (rest : List UInt8) (stack : List Container),
      t.Holds (text ++ rest) stack .key → EndsNumber rest →
      ∃ t' : Tokenizer, t'.Holds rest stack (expectAfter stack) ∧ t.Gives (.key key :: d.events) t'
  | .members fields => ∀ (t : Tokenizer) (rest : List UInt8) (stack : List Container),
      t.Holds (text ++ 0x7d :: rest) (.object :: stack) .key →
      ∃ t' : Tokenizer, t'.Holds rest stack (expectAfter stack) ∧
        t.Gives (Document.fieldEvents fields ++ [.objectEnd]) t'

/-- A blank ends a number, and so does what ends one behind blanks. -/
lemma endsNumber_append {blank rest : List UInt8} (h : IsBlank blank) (hrest : EndsNumber rest) :
    EndsNumber (blank ++ rest) := by
  cases blank with
  | nil => exact hrest
  | cons b blank =>
    intro x hx
    obtain rfl : b = x := by simpa using hx
    rcases h b (by simp) with rfl | rfl | rfl | rfl <;> decide

/-- A byte that is not of a number ends one. -/
lemma endsNumber_cons {b : UInt8} (h : Lexeme.isNumberByte b = false) (rest : List UInt8) :
    EndsNumber (b :: rest) := by
  intro x hx
  obtain rfl : b = x := by simpa using hx
  exact h

/-- What stands first in a scalar is neither a blank nor a closing bracket. -/
lemma exists_first_of_isScalar {token : List UInt8} {s : Scalar} (h : IsScalar token s) :
    ∃ b tail, token = b :: tail ∧ Lexeme.isBlank b = false ∧ b ≠ 0x5d ∧ b ≠ 0x7d := by
  cases h with
  | null => exact ⟨_, _, rfl, by decide⟩
  | true => exact ⟨_, _, rfl, by decide⟩
  | false => exact ⟨_, _, rfl, by decide⟩
  | number hn =>
    obtain ⟨b, tail, rfl, hb⟩ := Lexeme.exists_beginsNumber hn.1
    have hne := fun x hx => Lexeme.ne_of_beginsNumber (x := x) hb hx
    exact ⟨b, tail, rfl, Lexeme.isBlank_of_beginsNumber hb, hne _ rfl, hne _ rfl⟩
  | string hs =>
    obtain ⟨⟨_⟩, -⟩ := hs
    exact ⟨_, _, rfl, by decide⟩

/-- What stands first in a phrase behind blanks is no closing bracket. -/
lemma exists_first_of_derives {text : List UInt8} {phrase : Phrase} (h : Derives text phrase) :
    ∃ blank b tail, text = blank ++ b :: tail ∧ IsBlank blank ∧ Lexeme.isBlank b = false ∧
      b ≠ 0x5d ∧ b ≠ 0x7d := by
  have hnil : IsBlank [] := by simp [IsBlank]
  induction h with
  | scalar hs =>
    obtain ⟨b, tail, rfl, hb⟩ := exists_first_of_isScalar hs
    exact ⟨[], b, tail, rfl, hnil, hb⟩
  | emptyArray => exact ⟨[], _, _, rfl, hnil, by decide⟩
  | array => exact ⟨[], _, _, rfl, hnil, by decide⟩
  | emptyObject => exact ⟨[], _, _, rfl, hnil, by decide⟩
  | object => exact ⟨[], _, _, rfl, hnil, by decide⟩
  | @element before _ after _ hblank _ _ ih =>
    obtain ⟨blank, b, tail, rfl, hblank', hb⟩ := ih
    refine ⟨before ++ blank, b, tail ++ after, ?_, List.forall_mem_append.2 ⟨hblank, hblank'⟩, hb⟩
    rw [List.append_assoc, List.append_assoc, List.cons_append]
  | lastItem _ ih => exact ih
  | item _ _ ih =>
    obtain ⟨blank, b, tail, rfl, hb⟩ := ih
    exact ⟨blank, b, _, by rw [List.append_assoc, List.cons_append], hb⟩
  | member hblank hkey =>
    obtain ⟨⟨_⟩, -⟩ := hkey
    exact ⟨_, _, _, rfl, hblank, by decide⟩
  | lastField _ ih => exact ih
  | field _ _ ih =>
    obtain ⟨blank, b, tail, rfl, hb⟩ := ih
    exact ⟨blank, b, _, by rw [List.append_assoc, List.cons_append], hb⟩

/-- A container is read where its inside is. -/
lemma leads_container (kind : Container) (events : List Event) {t : Tokenizer}
    {text rest : List UInt8} {stack : List Container}
    (h : t.Holds ((kind.opening :: (text ++ [kind.closing])) ++ rest) stack .value)
    (hinside : ∀ u : Tokenizer, u.Holds (text ++ kind.closing :: rest) (kind :: stack) kind.expectFirst →
      ∃ t' : Tokenizer, t'.Holds rest stack (expectAfter stack) ∧ u.Gives (events ++ [kind.endEvent]) t') :
    ∃ t' : Tokenizer, t'.Holds rest stack (expectAfter stack) ∧
      t.Gives (kind.startEvent :: (events ++ [kind.endEvent])) t' := by
  simp only [List.cons_append, List.append_assoc, List.nil_append] at h
  obtain ⟨u, hu, hopen⟩ := h.gives_open
  obtain ⟨t', ht', hgives⟩ := hinside u hu
  exact ⟨t', ht', hopen.trans hgives⟩

/-- Behind blanks an empty container closes. -/
lemma leads_empty {kind : Container} {u : Tokenizer} {blank rest : List UInt8}
    {stack : List Container} (hblank : IsBlank blank)
    (hu : u.Holds (blank ++ kind.closing :: rest) (kind :: stack) kind.expectFirst) :
    ∃ t' : Tokenizer, t'.Holds rest stack (expectAfter stack) ∧ u.Gives ([] ++ [kind.endEvent]) t' := by
  obtain ⟨v, hv, hskip⟩ := hu.gives_blank hblank
  obtain ⟨t', ht', hclose⟩ := hv.gives_close kind (.inl rfl)
  exact ⟨t', ht', hskip.trans hclose⟩

/-- The inside of a container that is not empty is read as anywhere in the container. -/
lemma leads_first (kind : Container) {u : Tokenizer} {text rest : List UInt8}
    {stack : List Container} {phrase : Phrase} {events : List Event} (hderives : Derives text phrase)
    (hread : ∀ v : Tokenizer, v.Holds (text ++ kind.closing :: rest) (kind :: stack) kind.expectNext →
      ∃ t' : Tokenizer, t'.Holds rest stack (expectAfter stack) ∧ v.Gives events t')
    (hu : u.Holds (text ++ kind.closing :: rest) (kind :: stack) kind.expectFirst) :
    ∃ t' : Tokenizer, t'.Holds rest stack (expectAfter stack) ∧ u.Gives events t' := by
  obtain ⟨blank, b, tail, rfl, hblank, hb, hbracket, hbrace⟩ := exists_first_of_derives hderives
  have hclosing : b ≠ kind.closing := by
    cases kind
    · exact hbrace
    · exact hbracket
  simp only [List.append_assoc, List.cons_append] at hu hread
  obtain ⟨v, hv, hskip⟩ := hu.gives_first hblank hb hclosing
  obtain ⟨t', ht', hgives⟩ := hread v hv
  exact ⟨t', ht', hskip.trans hgives⟩

/-- What the grammar derives is read. -/
theorem leads_of_derives {text : List UInt8} {phrase : Phrase} (h : Derives text phrase) :
    Leads text phrase := by
  -- The induction is on the derivation, for every tokenizer: a phrase is read anywhere in the containers around it.
  induction h with
  | scalar hs => exact fun t rest stack ht hrest => ht.gives_scalar hs hrest
  | emptyArray hblank =>
    intro t rest stack ht _
    exact leads_container .array [] ht fun u hu => leads_empty hblank hu
  | array htext ih =>
    intro t rest stack ht _
    exact leads_container .array _ ht fun u hu =>
      leads_first .array htext (fun v => ih v rest stack) hu
  | emptyObject hblank =>
    intro t rest stack ht _
    exact leads_container .object [] ht fun u hu => leads_empty hblank hu
  | object htext ih =>
    intro t rest stack ht _
    exact leads_container .object _ ht fun u hu =>
      leads_first .object htext (fun v => ih v rest stack) hu
  | element hbefore _ hafter ih =>
    intro t rest stack ht hrest
    simp only [List.append_assoc] at ht
    obtain ⟨u, hu, hskip⟩ := ht.gives_blank hbefore
    obtain ⟨v, hv, hgives⟩ := ih u _ stack hu (endsNumber_append hafter hrest)
    obtain ⟨t', ht', hskip'⟩ := hv.gives_blank hafter
    refine ⟨t', ht', ?_⟩
    simpa using (hskip.trans hgives).trans hskip'
  | lastItem _ ih =>
    intro t rest stack ht
    obtain ⟨u, hu, hgives⟩ := ih t _ _ ht (endsNumber_cons (by decide) rest)
    obtain ⟨t', ht', hclose⟩ := Holds.gives_close .array hu (.inr rfl)
    refine ⟨t', ht', ?_⟩
    simpa [Document.itemEvents, Container.endEvent] using hgives.trans hclose
  | item _ _ ih ih' =>
    intro t rest stack ht
    simp only [List.append_assoc, List.cons_append] at ht
    obtain ⟨u, hu, hgives⟩ := ih t _ _ ht (endsNumber_cons (by decide) _)
    obtain ⟨v, hv, hcomma⟩ := Holds.gives_comma hu
    obtain ⟨t', ht', hgives'⟩ := ih' v rest stack hv
    refine ⟨t', ht', ?_⟩
    simpa [Document.itemEvents] using (hgives.trans hcomma).trans hgives'
  | member hbefore hkey hafter _ ih =>
    intro t rest stack ht hrest
    simp only [List.append_assoc, List.cons_append] at ht
    obtain ⟨u, hu, hskip⟩ := ht.gives_blank hbefore
    obtain ⟨v, hv, hgives⟩ := hu.gives_key hkey
    obtain ⟨v, hv, hskip'⟩ := hv.gives_blank hafter
    obtain ⟨w, hw, hcolon⟩ := hv.gives_colon
    obtain ⟨t', ht', hvalue⟩ := ih w rest stack hw hrest
    refine ⟨t', ht', ?_⟩
    simpa using (((hskip.trans hgives).trans hskip').trans hcolon).trans hvalue
  | lastField _ ih =>
    intro t rest stack ht
    obtain ⟨u, hu, hgives⟩ := ih t _ _ ht (endsNumber_cons (by decide) rest)
    obtain ⟨t', ht', hclose⟩ := Holds.gives_close .object hu (.inr rfl)
    refine ⟨t', ht', ?_⟩
    simpa [Document.fieldEvents, Container.endEvent] using hgives.trans hclose
  | field _ _ ih ih' =>
    intro t rest stack ht
    simp only [List.append_assoc, List.cons_append] at ht
    obtain ⟨u, hu, hgives⟩ := ih t _ _ ht (endsNumber_cons (by decide) _)
    obtain ⟨v, hv, hcomma⟩ := Holds.gives_comma hu
    obtain ⟨t', ht', hgives'⟩ := ih' v rest stack hv
    refine ⟨t', ht', ?_⟩
    simpa [Document.fieldEvents] using (hgives.trans hcomma).trans hgives'

/-! ### What is read is a text of the grammar -/

/-- Where an entry of a container may stand, a run that comes to its end has one before it, up to the
next byte that is no blank. -/
def EntryNext {α : Type} (kind : Container) (IsEntry : List UInt8 → α → Prop) (bytes : List UInt8) :
    Prop :=
  ∀ (t : Tokenizer) (stack : List Container), t.Holds bytes stack kind.expectNext → t.Finishes →
    ∃ (text rest : List UInt8) (entry : α) (t' : Tokenizer), bytes = text ++ rest ∧
      IsEntry text entry ∧ (∀ b ∈ rest.head?, Lexeme.isBlank b = false) ∧
      t'.Holds rest stack (expectAfter stack) ∧ t'.Finishes

/-- An element of the grammar, the entry of an array. -/
def IsElement (text : List UInt8) (d : Document) : Prop :=
  Derives text (.element d)

/-- A member of the grammar, the entry of an object. -/
def IsMember (text : List UInt8) (field : String × Document) : Prop :=
  Derives text (.member field.1 field.2)

section Soundness

variable {bytes : List UInt8} {n : Nat}

/-- Behind what stands in a container comes a comma or the closing bracket. -/
lemma Holds.behind_cases_of_finishes {kind : Container} {t : Tokenizer} {stack : List Container}
    (h : t.Holds bytes (kind :: stack) .commaOrClose)
    (hblank : ∀ b ∈ bytes.head?, Lexeme.isBlank b = false) (hfin : t.Finishes) :
    ∃ (rest : List UInt8) (t' : Tokenizer), t'.Finishes ∧
      ((bytes = 0x2c :: rest ∧ t'.Holds rest (kind :: stack) kind.expectNext) ∨
        (bytes = kind.closing :: rest ∧ t'.Holds rest stack (expectAfter stack))) := by
  cases bytes with
  | nil => exact absurd hfin (h.not_finishes_of_nil (by simp))
  | cons b rest =>
    rcases h.behind_cases (hblank b rfl) hfin with ⟨rfl, t', ht', hfin'⟩ | ⟨rfl, t', ht', hfin'⟩
    · exact ⟨rest, t', hfin', .inl ⟨rfl, ht'⟩⟩
    · exact ⟨rest, t', hfin', .inr ⟨rfl, ht'⟩⟩

/-- Behind the first entry of a container come the other entries and the closing bracket. -/
lemma entries_of_entryNext {α : Type} {kind : Container} {IsEntry : List UInt8 → α → Prop}
    (IsEntries : List UInt8 → List α → Prop)
    (hlast : ∀ text entry, IsEntry text entry → IsEntries text [entry])
    (hcons : ∀ text rest entry entries, IsEntry text entry → IsEntries rest entries →
      IsEntries (text ++ 0x2c :: rest) (entry :: entries))
    (hentry : ∀ s : List UInt8, s.length ≤ n → EntryNext kind IsEntry s) (hn : bytes.length ≤ n)
    (t : Tokenizer) (stack : List Container) (h : t.Holds bytes (kind :: stack) kind.expectNext)
    (hfin : t.Finishes) :
    ∃ (text rest : List UInt8) (entries : List α) (t' : Tokenizer),
      bytes = text ++ kind.closing :: rest ∧ IsEntries text entries ∧
        t'.Holds rest stack (expectAfter stack) ∧ t'.Finishes := by
  induction hlen : bytes.length using Nat.strongRecOn generalizing bytes t with
  | _ k ih =>
    obtain ⟨text, rest, entry, t', rfl, htext, hhead, h', hfin'⟩ := hentry bytes hn t _ h hfin
    obtain ⟨rest, u, hfin, ⟨rfl, hu⟩ | ⟨rfl, hu⟩⟩ := h'.behind_cases_of_finishes hhead hfin'
    · simp only [List.length_append, List.length_cons] at hlen hn
      obtain ⟨text', rest, entries, t', rfl, hentries, h, hfin⟩ :=
        ih rest.length (by omega) (by omega) u hu hfin rfl
      exact ⟨_, rest, entry :: entries, t', by simp, hcons _ _ _ _ htext hentries, h, hfin⟩
    · exact ⟨text, rest, [entry], u, rfl, hlast _ _ htext, hu, hfin⟩

/-- Behind a key come a colon and an element. -/
lemma memberNext_of_elementNext (hn : bytes.length ≤ n)
    (helement : ∀ s : List UInt8, s.length < n → EntryNext .array IsElement s) :
    EntryNext .object IsMember bytes := by
  intro t stack h hfin
  obtain ⟨before, bytes, t, rfl, hbefore, hhead, h, hfin⟩ := h.exists_blank hfin
  cases bytes with
  | nil => exact absurd hfin (h.not_finishes_of_nil (by simp [Container.expectNext]))
  | cons b bytes =>
    obtain ⟨token, rest, key, t, hsplit, hkey, h, hfin⟩ := h.key_cases (hhead b rfl) hfin
    rw [hsplit] at hn ⊢
    obtain ⟨after, rest, t, rfl, hafter, hhead, h, hfin⟩ := h.exists_blank hfin
    cases rest with
    | nil => exact absurd hfin (h.not_finishes_of_nil (by simp))
    | cons b rest =>
      obtain ⟨rfl, t, h, hfin⟩ := h.colon_cases (hhead b rfl) hfin
      simp only [List.length_append, List.length_cons] at hn
      obtain ⟨text, rest, d, t', rfl, htext, hhead, h, hfin⟩ :=
        helement rest (by omega) t stack h hfin
      exact ⟨_, rest, (key, d), t', by simp, .member hbefore hkey hafter htext, hhead, h, hfin⟩

/-- Behind an opening bracket come the inside of a container and its closing bracket. -/
lemma container_of_elementNext {kind : Container} (hn : bytes.length < n)
    (helement : ∀ s : List UInt8, s.length < n → EntryNext .array IsElement s) (t : Tokenizer)
    (stack : List Container) (h : t.Holds bytes (kind :: stack) kind.expectFirst)
    (hfin : t.Finishes) :
    ∃ (text rest : List UInt8) (d : Document) (t' : Tokenizer), kind.opening :: bytes = text ++ rest ∧
      Derives text (.value d) ∧ t'.Holds rest stack (expectAfter stack) ∧ t'.Finishes := by
  obtain ⟨blank, bytes', u, hbytes, hblank, hhead, hu, hfin'⟩ := h.exists_blank hfin
  cases bytes' with
  | nil => exact absurd hfin' (hu.not_finishes_of_nil (by cases kind <;> simp [Container.expectFirst]))
  | cons b rest =>
    -- An empty container is a phrase of its own; any other is read as in its middle.
    by_cases hb : b = kind.closing
    · subst hb
      obtain ⟨t', ht', hclose⟩ := hu.gives_close kind (.inl rfl)
      refine ⟨kind.opening :: (blank ++ [kind.closing]), rest, ?_⟩
      have hfin := hclose.finishes_iff.1 hfin'
      cases kind with
      | object => exact ⟨.object [], t', by simp [hbytes], .emptyObject hblank, ht', hfin⟩
      | array => exact ⟨.array [], t', by simp [hbytes], .emptyArray hblank, ht', hfin⟩
    · obtain ⟨v, hv, hfirst⟩ := Holds.gives_first (hbytes ▸ h) hblank (hhead b rfl) hb
      rw [← hbytes] at hv
      have hfin := hfirst.finishes_iff.1 hfin
      have helement' : ∀ s : List UInt8, s.length ≤ bytes.length → EntryNext .array IsElement s :=
        fun s hs => helement s (by omega)
      cases kind with
      | object =>
        have hmember : ∀ s : List UInt8, s.length ≤ bytes.length → EntryNext .object IsMember s :=
          fun s hs => memberNext_of_elementNext hs fun s' hs' => helement' s' (by omega)
        obtain ⟨text, rest, fields, t', htext, hfields, ht', hfin⟩ :=
          entries_of_entryNext (fun text fields => Derives text (.members fields))
            (fun _ _ h => .lastField h) (fun _ _ _ _ h h' => .field h h') hmember (Nat.le_refl _) v
            stack hv hfin
        exact ⟨0x7b :: (text ++ [0x7d]), rest, _, t', by simp [htext, Container.opening, Container.closing],
          .object hfields, ht', hfin⟩
      | array =>
        obtain ⟨text, rest, items, t', htext, hitems, ht', hfin⟩ :=
          entries_of_entryNext (fun text items => Derives text (.items items))
            (fun _ _ h => .lastItem h) (fun _ _ _ _ h h' => .item h h') helement' (Nat.le_refl _) v
            stack hv hfin
        exact ⟨0x5b :: (text ++ [0x5d]), rest, _, t', by simp [htext, Container.opening, Container.closing],
          .array hitems, ht', hfin⟩

/-- Where a value may stand, a run that comes to its end has an element of the grammar before it. -/
theorem elementNext (bytes : List UInt8) : EntryNext .array IsElement bytes := by
  induction hlen : bytes.length using Nat.strongRecOn generalizing bytes with
  | _ n ih =>
    intro t stack h hfin
    obtain ⟨before, bytes, t, rfl, hbefore, hhead, h, hfin⟩ := h.exists_blank hfin
    -- What is left to find is the value; the blanks behind it belong to the element.
    suffices hvalue : ∃ (text rest : List UInt8) (d : Document) (t' : Tokenizer), bytes = text ++ rest ∧
        Derives text (.value d) ∧ t'.Holds rest stack (expectAfter stack) ∧ t'.Finishes by
      obtain ⟨text, rest, d, t', rfl, htext, h, hfin⟩ := hvalue
      obtain ⟨after, rest, u, rfl, hafter, hhead, h, hfin⟩ := h.exists_blank hfin
      exact ⟨_, rest, d, u, by simp, .element hbefore htext hafter, hhead, h, hfin⟩
    cases bytes with
    | nil => exact absurd hfin (h.not_finishes_of_nil (by simp [Container.expectNext]))
    | cons b bytes =>
      rcases h.value_cases (hhead b rfl) hfin with ⟨kind, t', rfl, h', hfin'⟩ |
        ⟨token, rest, s, t', hsplit, hs, h', hfin'⟩
      · simp only [List.length_append, List.length_cons] at hlen
        have helement : ∀ s : List UInt8, s.length < n → EntryNext .array IsElement s :=
          fun s hs => ih _ hs s rfl
        exact container_of_elementNext (by omega) helement t' stack h' hfin'
      · exact ⟨token, rest, .scalar s, t', hsplit, .scalar hs, h', hfin'⟩

end Soundness

/-! ### Whole texts -/

/-- Before its text a tokenizer holds all of it. -/
lemma holds_limited (maxTokenBytes : Nat) (bytes : List UInt8) :
    ((limited maxTokenBytes).complete bytes).Holds bytes [] .value :=
  ⟨rfl, rfl, rfl, rfl⟩

/-- A text is read to its end, and gives the events of its document. -/
theorem outcome_of_isText {bytes : List UInt8} {d : Document} (h : IsText bytes d)
    (maxTokenBytes : Nat) : ((limited maxTokenBytes).complete bytes).outcome = (d.events, .finished) := by
  have ht := holds_limited maxTokenBytes bytes
  obtain ⟨t', ht', hgives⟩ := leads_of_derives h _ [] [] (by simpa using ht) (by simp [EndsNumber])
  rw [hgives, ht'.outcome_of_finished]
  simp [prepend]

/-- Bytes that are read to their end are a text. -/
theorem isText_of_finishes {bytes : List UInt8} {maxTokenBytes : Nat}
    (h : ((limited maxTokenBytes).complete bytes).Finishes) : ∃ d, IsText bytes d := by
  obtain ⟨text, rest, d, t', rfl, htext, hhead, ht', hfin⟩ :=
    elementNext bytes _ [] (holds_limited maxTokenBytes bytes) h
  obtain rfl := ht'.eq_nil_of_finished hhead hfin
  exact ⟨d, by simpa [IsText, IsElement] using htext⟩

end Tokenizer

/-- However bytes are handed over, a tokenizer comes to their end if and only if they are a text of the
grammar, and then it gives the events of the document that they denote; it ends any other bytes with a
fault. -/
theorem follow_eq_finished_iff_isText (m : Nat) (calls : List Tokenizer.Call)
    (hm : (Tokenizer.fed calls).length ≤ m) :
    (((Tokenizer.limited m).follow calls).2 = .finished ↔ ∃ d, IsText (Tokenizer.fed calls) d) ∧
      (∀ d, IsText (Tokenizer.fed calls) d →
        (Tokenizer.limited m).follow calls = (d.events, .finished)) ∧
      ((¬ ∃ d, IsText (Tokenizer.fed calls) d) →
        ∃ e, ((Tokenizer.limited m).follow calls).2 = .error e) := by
  rw [Tokenizer.follow_eq_complete _ calls (Tokenizer.awaits_limited hm)]
  have hsound : ((Tokenizer.limited m).complete (Tokenizer.fed calls)).outcome.2 = .finished →
      ∃ d, IsText (Tokenizer.fed calls) d := Tokenizer.isText_of_finishes
  refine ⟨⟨hsound, ?_⟩, fun d hd => Tokenizer.outcome_of_isText hd m, fun hnot => ?_⟩
  · rintro ⟨d, hd⟩
    rw [Tokenizer.outcome_of_isText hd m]
  · rcases Tokenizer.outcome_of_ended ((Tokenizer.limited m).complete (Tokenizer.fed calls)) rfl with
      hfin | herror
    · exact absurd (hsound hfin) hnot
    · exact herror

/-- The text `[true]`, cut inside the word. -/
theorem follow_array_of_true :
    (Tokenizer.fed [.feed [0x5b, 0x74, 0x72], .pull, .feed [0x75, 0x65, 0x5d]]).length ≤ 6 ∧
      IsText (Tokenizer.fed [.feed [0x5b, 0x74, 0x72], .pull, .feed [0x75, 0x65, 0x5d]])
        (.array [.scalar (.bool true)]) ∧
      (Tokenizer.limited 6).follow [.feed [0x5b, 0x74, 0x72], .pull, .feed [0x75, 0x65, 0x5d]] =
        ([.arrayStart, .scalar (.bool true), .arrayEnd], .finished) := by
  have hblank : IsBlank [] := by simp [IsBlank]
  have hitem : Derives [0x74, 0x72, 0x75, 0x65] (.element (.scalar (.bool true))) :=
    .element hblank (.scalar .true) hblank
  have harray : Derives [0x5b, 0x74, 0x72, 0x75, 0x65, 0x5d] (.value (.array [.scalar (.bool true)])) :=
    .array (.lastItem hitem)
  have htext : IsText [0x5b, 0x74, 0x72, 0x75, 0x65, 0x5d] (.array [.scalar (.bool true)]) :=
    .element hblank harray hblank
  have hrun := (follow_eq_finished_iff_isText 6
    [.feed [0x5b, 0x74, 0x72], .pull, .feed [0x75, 0x65, 0x5d]] (by decide)).2.1 _ htext
  refine ⟨by decide, htext, hrun.trans ?_⟩
  simp [Document.events, Document.itemEvents, Scalar.toJson]

end EntityDump
