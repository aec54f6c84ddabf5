import EntityDump.Lookup.Session
import Mathlib.Logic.Relation
/-!
# Dialogues with a knowledge base

What comes out for names that are looked up one after another, said of the lines alone (`Dialogue`): the first
line that belongs to a request decides it, and the lines behind it are left for the next one. A session asks for
the names in order and ends with what the dialogue says (`askAll_iff_dialogue`).

Lines that belong to no request to come are noise, and may be inserted anywhere (`askAll_insert`): what is
asked before the place has its answers before it, and what is asked behind it passes the line over. A line that is
not text is not passed over; it ends the dialogue.
-/

namespace EntityDump

open Text (decodeUtf8 trimmed isBlankString)

/-- A line as it is read, with its line break. -/
abbrev Line := List UInt8

/-! ### What a line holds -/

namespace Line

/-- The line is text. -/
def IsText (line : Line) : Prop :=
  ∃ text, decodeUtf8 line = .ok text

/-- The line decodes as a response. -/
def Holds (line : Line) (response : Response) : Prop :=
  ∃ text, decodeUtf8 line = .ok text ∧ Response.read? (trimmed text) = some response

/-- The line is text and says nothing to a request: it is no response, or one with another id. -/
structure PassesOver (id : Nat) (line : Line) : Prop where
  isText : line.IsText
  other : ∀ response, line.Holds response → ∃ other, response.id = some other ∧ other ≠ id

end Line

namespace Response

/-- The response has the id of a request, or none. -/
def IsFor (response : Response) (id : Nat) : Prop :=
  response.id = none ∨ response.id = some id

/-- A response counts as the answer exactly if it is for the request. -/
lemma answers_iff (response : Response) (id : Nat) : response.answers id = true ↔ response.IsFor id := by
  unfold answers IsFor
  cases response.id with
  | none => simp
  | some other => simp

/-- A response is passed over exactly if it names another request. -/
lemma answers_eq_false_iff (response : Response) (id : Nat) :
    response.answers id = false ↔ ∃ other, response.id = some other ∧ other ≠ id := by
  unfold answers
  cases response.id with
  | none => simp
  | some other => simp

end Response

namespace Session

section Reply

variable {id : Nat} {line : Line} {response : Response}

/-- A line with a response for another request is passed over, and one for this request says what the response
says. -/
lemma reply?_of_holds (h : line.Holds response) :
    reply? id line =
      if response.answers id then
        some (match response.error with
          | some message => .error (.refused message)
          | none => .ok response.symbol?)
      else none := by
  obtain ⟨text, htext, hread⟩ := h
  unfold reply?
  simp only [htext, hread]
  cases response.answers id <;> cases response.error <;> rfl

/-- A line that is passed over says nothing. -/
lemma reply?_eq_none (h : line.PassesOver id) : reply? id line = none := by
  obtain ⟨text, htext⟩ := h.isText
  cases hread : Response.read? (trimmed text) with
  | none =>
    unfold reply?
    simp only [htext, hread]
  | some response =>
    have hholds : line.Holds response := ⟨text, htext, hread⟩
    rw [reply?_of_holds hholds, (response.answers_eq_false_iff id).2 (h.other response hholds)]
    rfl

/-- A line is passed over, or holds a response for the request, or is not text. -/
lemma line_cases (id : Nat) (line : Line) :
    line.PassesOver id ∨ (∃ response, line.Holds response ∧ response.IsFor id) ∨
      ∃ fault, decodeUtf8 line = .error fault := by
  cases htext : decodeUtf8 line with
  | error fault => exact .inr (.inr ⟨fault, rfl⟩)
  | ok text =>
    by_cases hfor : ∃ response, line.Holds response ∧ response.IsFor id
    · exact .inr (.inl hfor)
    · refine .inl ⟨⟨text, htext⟩, fun response hholds => ?_⟩
      have hother : response.answers id = false := by
        rw [Bool.eq_false_iff, Ne, response.answers_iff]
        exact fun h => hfor ⟨response, hholds, h⟩
      exact (response.answers_eq_false_iff id).1 hother

/-- A line that is not passed over says something. -/
lemma exists_reply? (h : ¬ line.PassesOver id) : ∃ answer, reply? id line = some answer := by
  rcases line_cases id line with hpasses | ⟨response, hholds, hfor⟩ | ⟨fault, hfault⟩
  · exact absurd hpasses h
  · rw [reply?_of_holds hholds, (response.answers_iff id).2 hfor]
    exact ⟨_, rfl⟩
  · unfold reply?
    rw [hfault]
    exact ⟨_, rfl⟩

end Reply

/-! ### Dialogues -/

/-- What comes out for names that are asked with ids from a first one on, and how many of them are asked, by the
lines of the knowledge base. -/
inductive Dialogue (staysOpen : Bool) (limit : Duration) :
    Nat → List String → List Line → Nat → Except Error (List LookupOutcome) → Prop where
  /-- All names are done. -/
  | done (id : Nat) (lines : List Line) : Dialogue staysOpen limit id [] lines 0 (.ok [])
  /-- The first line for the name answers it. -/
  | answered {id : Nat} {name : String} {names : List String} {passed rest : List Line} {line : Line}
      {response : Response} {asked : Nat} {result : Except Error (List LookupOutcome)}
      {outcome : LookupOutcome} (hpassed : ∀ l ∈ passed, l.PassesOver id) (hline : line.Holds response)
      (hfor : response.IsFor id) (herror : response.error = none) (hname : outcome.typeName = name)
      (hsymbol : outcome.symbol = if response.found then response.symbol else none)
      (hrest : Dialogue staysOpen limit (id + 1) names rest asked result) :
      Dialogue staysOpen limit id (name :: names) (passed ++ line :: rest) (asked + 1)
        (result.map (outcome :: ·))
  /-- The first line for the name is an error. -/
  | refused {id : Nat} {name : String} {names : List String} {passed rest : List Line} {line : Line}
      {response : Response} {message : String} (hpassed : ∀ l ∈ passed, l.PassesOver id)
      (hline : line.Holds response) (hfor : response.IsFor id) (herror : response.error = some message) :
      Dialogue staysOpen limit id (name :: names) (passed ++ line :: rest) 1
        (.error (.lookup (.refused message)))
  /-- A line that is not text comes first. -/
  | unreadable {id : Nat} {name : String} {names : List String} {passed rest : List Line} {line : Line}
      {fault : Text.Utf8Fault} (hpassed : ∀ l ∈ passed, l.PassesOver id)
      (hline : decodeUtf8 line = .error fault) :
      Dialogue staysOpen limit id (name :: names) (passed ++ line :: rest) 1
        (.error (.lookup (.notText fault)))
  /-- No line is for the name. -/
  | silent {id : Nat} {name : String} {names : List String} {lines : List Line}
      (hpassed : ∀ l ∈ lines, l.PassesOver id) :
      Dialogue staysOpen limit id (name :: names) lines 1
        (.error (if staysOpen then .lookupTimeout limit else .lookup .exited))

section FirstReply

variable {id : Nat} {passed rest : List Line} {line : Line}

/-- Lines that are passed over leave those behind them. -/
lemma firstReply?_append (hpassed : ∀ l ∈ passed, l.PassesOver id) (lines : List Line) :
    firstReply? id (passed ++ lines) = firstReply? id lines := by
  induction passed with
  | nil => rfl
  | cons l passed ih =>
    rw [List.cons_append, firstReply?, reply?_eq_none (hpassed l (List.mem_cons_self ..))]
    exact ih fun l hl => hpassed l (List.mem_cons_of_mem _ hl)

/-- Either all lines are passed over, or a first one is not. -/
lemma lines_cases (id : Nat) (lines : List Line) :
    (∀ l ∈ lines, l.PassesOver id) ∨ ∃ passed line rest, lines = passed ++ line :: rest ∧
      (∀ l ∈ passed, l.PassesOver id) ∧ ¬ line.PassesOver id := by
  induction lines with
  | nil => exact .inl (by simp)
  | cons line lines ih =>
    by_cases hline : line.PassesOver id
    · rcases ih with hall | ⟨passed, first, rest, rfl, hpassed, hfirst⟩
      · exact .inl (List.forall_mem_cons.2 ⟨hline, hall⟩)
      · exact .inr ⟨line :: passed, first, rest, rfl, List.forall_mem_cons.2 ⟨hline, hpassed⟩, hfirst⟩
    · exact .inr ⟨[], line, lines, rfl, by simp, hline⟩

end FirstReply

/-! ### Sessions -/

section Ask

variable {s : Session} {name : String} {passed rest : List Line}
  {line : Line}

/-- The session after a request, with the lines that are left. -/
def asked (s : Session) (name : String) (rest : List Line) : Session :=
  { s with lines := rest, nextId := s.nextId + 1, requests := requestLine s.nextId name :: s.requests }

/-- The first line that is not passed over gives the answer. -/
lemma firstReply?_eq {answer : Except LookupFault (Option Symbol)}
    (hlines : s.lines = passed ++ line :: rest) (hpassed : ∀ l ∈ passed, l.PassesOver s.nextId)
    (hreply : reply? s.nextId line = some answer) : firstReply? s.nextId s.lines = (some answer, rest) := by
  rw [hlines, firstReply?_append hpassed, firstReply?, hreply]

/-- The first line that is not passed over answers a request. -/
lemma ask_of_answer {symbol : Option Symbol} (hlines : s.lines = passed ++ line :: rest)
    (hpassed : ∀ l ∈ passed, l.PassesOver s.nextId) (hreply : reply? s.nextId line = some (.ok symbol)) :
    s.ask name = (.ok symbol, s.asked name rest) := by
  rw [ask, firstReply?_eq hlines hpassed hreply]
  rfl

/-- The first line that is not passed over fails a request. -/
lemma ask_of_fault {fault : LookupFault} (hlines : s.lines = passed ++ line :: rest)
    (hpassed : ∀ l ∈ passed, l.PassesOver s.nextId)
    (hreply : reply? s.nextId line = some (.error fault)) :
    s.ask name = (.error (.lookup fault), s.asked name rest) := by
  rw [ask, firstReply?_eq hlines hpassed hreply]
  rfl

/-- If all lines are passed over a request has no answer. -/
lemma ask_of_silence (hpassed : ∀ l ∈ s.lines, Line.PassesOver s.nextId l) :
    s.ask name =
      (.error (if s.staysOpen then .lookupTimeout s.limit else .lookup .exited), s.asked name []) := by
  have hfirst : firstReply? s.nextId s.lines = (none, []) := by
    rw [← List.append_nil s.lines, firstReply?_append hpassed, firstReply?]
  unfold ask asked
  rw [hfirst]
  cases s.staysOpen <;> rfl

/-- An error ends the run. -/
lemma askAll_of_error {names : List String} {e : Error} {s' : Session}
    (h : s.ask name = (.error e, s')) : askAll (name :: names) s = (.error e, s') := by
  rw [askAll, h]

/-- An answer stands before those to the names behind it. -/
lemma askAll_of_ok {names : List String} {symbol : Option Symbol} {s' : Session}
    (h : s.ask name = (.ok symbol, s')) :
    askAll (name :: names) s =
      ((askAll names s').1.map (⟨name, symbol⟩ :: ·), (askAll names s').2) := by
  rw [askAll, h]

end Ask

section Run

variable {staysOpen : Bool} {limit : Duration} {id asked : Nat} {names : List String} {lines : List Line}
  {result : Except Error (List LookupOutcome)}

/-- The requests for names, numbered from a first one on. -/
def requestsFrom (id : Nat) (names : List String) : List String :=
  (names.zipIdx id).map fun name => requestLine name.2 name.1

/-- There is a dialogue about any names and lines. -/
lemma exists_dialogue (staysOpen : Bool) (limit : Duration) (id : Nat) (names : List String)
    (lines : List Line) : ∃ asked result, Dialogue staysOpen limit id names lines asked result := by
  induction names generalizing id lines with
  | nil => exact ⟨0, _, .done id lines⟩
  | cons name names ih =>
    rcases lines_cases id lines with hpassed | ⟨passed, line, rest, rfl, hpassed, hline⟩
    · exact ⟨1, _, .silent hpassed⟩
    · rcases line_cases id line with hpasses | ⟨response, hholds, hfor⟩ | ⟨fault, hfault⟩
      · exact absurd hpasses hline
      · cases herror : response.error with
        | some message => exact ⟨1, _, .refused hpassed hholds hfor herror⟩
        | none =>
          obtain ⟨asked, result, hrest⟩ := ih (id + 1) rest
          let outcome : LookupOutcome := ⟨name, if response.found then response.symbol else none⟩
          have hname : outcome.typeName = name := rfl
          exact ⟨asked + 1, _, hrest.answered hpassed hholds hfor herror hname rfl⟩
      · exact ⟨1, _, .unreadable hpassed hfault⟩

/-- A session ends with what the dialogue says, and asks for as many names as it says. -/
lemma askAll_of_dialogue (h : Dialogue staysOpen limit id names lines asked result)
    (requests : List String) :
    (askAll names ⟨lines, staysOpen, limit, id, requests⟩).1 = result ∧
      (askAll names ⟨lines, staysOpen, limit, id, requests⟩).2.requestLines =
        requests.reverse ++ requestsFrom id (names.take asked) := by
  induction h generalizing requests with
  | done id lines => exact ⟨rfl, (List.append_nil _).symm⟩
  | @answered id name names passed rest line response asked result outcome hpassed hline hfor herror
      hname hsymbol hrest ih =>
    subst hname
    have hreply : reply? id line = some (.ok outcome.symbol) := by
      rw [reply?_of_holds hline, (response.answers_iff id).2 hfor, herror, hsymbol]
      rfl
    obtain ⟨hresult, hrequests⟩ := ih (requestLine id outcome.typeName :: requests)
    rw [askAll_of_ok (ask_of_answer rfl hpassed hreply)]
    refine ⟨congrArg (Except.map (outcome :: ·)) hresult, hrequests.trans ?_⟩
    simp [requestsFrom]
  | @refused id name names passed rest line response message hpassed hline hfor herror =>
    have hreply : reply? id line = some (.error (.refused message)) := by
      rw [reply?_of_holds hline, (response.answers_iff id).2 hfor, herror]
      rfl
    rw [askAll_of_error (ask_of_fault rfl hpassed hreply)]
    exact ⟨rfl, List.reverse_cons⟩
  | @unreadable id name names passed rest line fault hpassed hline =>
    have hreply : reply? id line = some (.error (.notText fault)) := by
      unfold reply?
      rw [hline]
    rw [askAll_of_error (ask_of_fault rfl hpassed hreply)]
    exact ⟨rfl, List.reverse_cons⟩
  | silent hpassed =>
    rw [askAll_of_error (ask_of_silence hpassed)]
    exact ⟨rfl, List.reverse_cons⟩

/-- A dialogue that fails fails as a lookup. -/
lemma kind_of_dialogue {e : Error} (h : Dialogue staysOpen limit id names lines asked result)
    (hresult : result = .error e) : e.kind = .lookup := by
  induction h with
  | done => cases hresult
  | @answered _ _ _ _ _ _ _ _ result _ _ _ _ _ _ _ _ ih =>
    cases result with
    | error e' => exact ih hresult
    | ok outcomes => cases hresult
  | refused => cases hresult; rfl
  | unreadable => cases hresult; rfl
  | silent =>
    cases hresult
    cases staysOpen <;> rfl

end Run

/-! ### Noise -/

/-- A line that says nothing to the names to come, when the first ones of some names have their answers. -/
inductive Noise (names answered : Nat) (line : Line) : Prop where
  | blank {text : String} (htext : decodeUtf8 line = .ok text) (hblank : isBlankString text)
  | undecodable {text : String} (htext : decodeUtf8 line = .ok text)
      (hread : Response.read? (trimmed text) = none)
  /-- The id is that of no name. -/
  | foreign {response : Response} {id : Nat} (hholds : line.Holds response) (hid : response.id = some id)
      (hforeign : id < 1 ∨ names < id)
  /-- The id is that of a name that has its answer. -/
  | stale {response : Response} {id : Nat} (hholds : line.Holds response) (hid : response.id = some id)
      (hstale : id ≤ answered)

/-- Noise is inserted between lines, behind the answers of the first ones of some names. -/
inductive Inserts (staysOpen : Bool) (limit : Duration) (names : List String) :
    List Line → List Line → Prop where
  | mk {before behind : List Line} {noise : Line} {answered : Nat} {outcomes : List LookupOutcome}
      (hbefore : (askAll (names.take answered) ⟨before, staysOpen, limit, 1, []⟩).1 = .ok outcomes)
      (hnoise : Noise names.length answered noise) :
      Inserts staysOpen limit names (before ++ behind) (before ++ noise :: behind)

section Noise

variable {staysOpen : Bool} {limit : Duration} {names : List String} {line noise : Line}

/-- A blank line holds no response. -/
lemma read?_of_isBlankString {text : String} (h : isBlankString text) :
    Response.read? (trimmed text) = none := by
  have htrim : Text.trim text.toList = [] := List.isEmpty_iff.1 h
  have hparse : Json.Raw.parse? (String.ofList []) = none := by
    have htext : (String.ofList []).toUTF8.toList = [] := by decide +kernel
    rw [Json.Raw.parse?, htext, Json.Raw.dropBlanks, List.dropWhile_nil, Json.Raw.takeValue]
  rw [trimmed, htrim, Response.read?, hparse, Option.bind_none]

/-- A line holds one response at most. -/
lemma holds_inj {response response' : Response} (h : line.Holds response) (h' : line.Holds response') :
    response = response' := by
  obtain ⟨text, htext, hread⟩ := h
  obtain ⟨text', htext', hread'⟩ := h'
  obtain rfl := Except.ok.inj (htext.symm.trans htext')
  exact Option.some.inj (hread.symm.trans hread')

/-- Text without a response is passed over. -/
lemma passesOver_of_read? {id : Nat} {text : String} (htext : decodeUtf8 line = .ok text)
    (hread : Response.read? (trimmed text) = none) : line.PassesOver id := by
  refine ⟨⟨text, htext⟩, ?_⟩
  rintro response ⟨text', htext', hread'⟩
  obtain rfl := Except.ok.inj (htext.symm.trans htext')
  rw [hread] at hread'
  cases hread'

/-- A response with an id is passed over by every other request. -/
lemma passesOver_of_id {id other : Nat} {response : Response} (hholds : line.Holds response)
    (hid : response.id = some other) (hne : other ≠ id) : line.PassesOver id := by
  refine ⟨⟨_, hholds.choose_spec.1⟩, fun response' hholds' => ?_⟩
  obtain rfl := holds_inj hholds hholds'
  exact ⟨other, hid, hne⟩

/-- Noise is passed over by every request to come. -/
lemma Noise.passesOver {count answered id : Nat} (h : Noise count answered noise) (hlt : answered < id)
    (hle : id ≤ count) : noise.PassesOver id := by
  cases h with
  | blank htext hblank => exact passesOver_of_read? htext (read?_of_isBlankString hblank)
  | undecodable htext hread => exact passesOver_of_read? htext hread
  | foreign hholds hid hforeign => exact passesOver_of_id hholds hid (by omega)
  | stale hholds hid hstale => exact passesOver_of_id hholds hid (by omega)

/-- A line that the names to come pass over changes nothing, if the first names have their answers before it. -/
lemma askAll_insert_of_passesOver {answered id : Nat} {before behind : List Line} {requests : List String}
    {outcomes : List LookupOutcome}
    (hbefore : (askAll (names.take answered) ⟨before, staysOpen, limit, id, requests⟩).1 = .ok outcomes)
    (hnoise : ∀ k, id + answered ≤ k → k < id + names.length → noise.PassesOver k) :
    (askAll names ⟨before ++ noise :: behind, staysOpen, limit, id, requests⟩).1 =
      (askAll names ⟨before ++ behind, staysOpen, limit, id, requests⟩).1 := by
  -- A name takes what it passes over and its answer, so the noise stays before or behind what is left.
  induction names generalizing answered id before requests outcomes with
  | nil => rfl
  | cons name names ih =>
    rcases lines_cases id before with hpassed | ⟨passed, line, rest, rfl, hpassed, hline⟩
    · -- Nothing before the noise is for the first name, so that the noise is not stale.
      have hnone : answered = 0 := by
        cases answered with
        | zero => rfl
        | succ answered =>
          rw [List.take_succ_cons, askAll_of_error (ask_of_silence hpassed)] at hbefore
          cases hbefore
      subst hnone
      have hall : ∀ l ∈ before ++ [noise], l.PassesOver id := by
        intro l hl
        rcases List.mem_append.1 hl with hl | hl
        · exact hpassed l hl
        · rw [List.mem_singleton.1 hl]
          exact hnoise id (Nat.le_refl _) (by rw [List.length_cons]; omega)
      have hask : ∀ passed : List Line, (∀ l ∈ passed, l.PassesOver id) →
          ask ⟨passed ++ behind, staysOpen, limit, id, requests⟩ name =
            ask ⟨behind, staysOpen, limit, id, requests⟩ name := by
        intro passed h
        unfold ask
        dsimp only
        rw [firstReply?_append h]
      have hshift : before ++ noise :: behind = (before ++ [noise]) ++ behind := by simp
      rw [hshift, askAll, askAll, hask _ hall, hask _ hpassed]
    · obtain ⟨answer, hreply⟩ := exists_reply? hline
      have hsplit : ∀ tail, (passed ++ line :: rest) ++ tail = passed ++ line :: (rest ++ tail) := by simp
      rw [hsplit, hsplit]
      cases answer with
      | error fault =>
        rw [askAll_of_error (ask_of_fault rfl hpassed hreply),
          askAll_of_error (ask_of_fault rfl hpassed hreply)]
      | ok symbol =>
        rw [askAll_of_ok (ask_of_answer rfl hpassed hreply), askAll_of_ok (ask_of_answer rfl hpassed hreply)]
        dsimp only
        refine congrArg (Except.map (LookupOutcome.mk name symbol :: ·)) ?_
        rw [List.length_cons] at hnoise
        cases answered with
        | zero =>
          have hlater : ∀ k, id + 1 + 0 ≤ k → k < id + 1 + names.length → noise.PassesOver k := by
            intro k hle hlt
            exact hnoise k (by omega) (by omega)
          exact ih (by rw [List.take_zero, askAll]) hlater
        | succ answered =>
          have hlater : ∀ k, id + 1 + answered ≤ k → k < id + 1 + names.length → noise.PassesOver k := by
            intro k hle hlt
            exact hnoise k (by omega) (by omega)
          rw [List.take_succ_cons, askAll_of_ok (ask_of_answer rfl hpassed hreply)] at hbefore
          cases hrest : (askAll (names.take answered)
              (asked ⟨passed ++ line :: rest, staysOpen, limit, id, requests⟩ name rest)).1 with
          | error e =>
            rw [hrest] at hbefore
            cases hbefore
          | ok outcomes => exact ih hrest hlater

/-- Noise that is inserted changes nothing. -/
lemma askAll_of_inserts {lines lines' : List Line} (h : Inserts staysOpen limit names lines lines') :
    (askAll names ⟨lines', staysOpen, limit, 1, []⟩).1 =
      (askAll names ⟨lines, staysOpen, limit, 1, []⟩).1 := by
  obtain ⟨hbefore, hnoise⟩ := h
  exact askAll_insert_of_passesOver hbefore fun k hle hlt => hnoise.passesOver (by omega) (by omega)

end Noise

/-! ### The lookup of some names -/

/-- The lookup of some names comes out as the dialogue about them says, and as no other way. The requests are for
the names in order, numbered from one, as many as the dialogue asks. A lookup that fails has an error of its own
kind. Noise between the lines, however much, changes nothing. -/
theorem askAll_dialogue (staysOpen : Bool) (limit : Duration) (names : List String) (lines : List Line) :
    let run (lines : List Line) := askAll names ⟨lines, staysOpen, limit, 1, []⟩
    (∃ asked, Dialogue staysOpen limit 1 names lines asked (run lines).1 ∧
      (run lines).2.requestLines = requestsFrom 1 (names.take asked)) ∧
    (∀ asked result, Dialogue staysOpen limit 1 names lines asked result → result = (run lines).1) ∧
    (∀ e, (run lines).1 = .error e → e.kind = .lookup) ∧
    ∀ lines', Relation.ReflTransGen (Inserts staysOpen limit names) lines lines' →
      (run lines').1 = (run lines).1 := by
  intro run
  obtain ⟨asked, result, hdialogue⟩ := exists_dialogue staysOpen limit 1 names lines
  obtain ⟨hresult, hrequests⟩ := askAll_of_dialogue hdialogue []
  refine ⟨⟨asked, ?_, hrequests⟩, fun asked' result' h => ?_, fun e he => ?_, fun lines' h => ?_⟩
  · exact hresult ▸ hdialogue
  · exact (askAll_of_dialogue h []).1.symm
  · exact kind_of_dialogue hdialogue (hresult.symm.trans he)
  · induction h with
    | refl => rfl
    | tail _ hinserts ih => exact (askAll_of_inserts hinserts).trans ih

/-- The line `{}` holds a response to every request, which has found nothing. -/
lemma holds_emptyObject : Line.Holds [0x7b, 0x7d, 0x0a] {} := by
  have htext : decodeUtf8 [0x7b, 0x7d, 0x0a] = .ok "{}\n" := by rfl
  have htrim : trimmed "{}\n" = "{}" := by decide +kernel
  have hparse : Json.Raw.parse? "{}" = some (.object []) := by
    have hbytes : "{}".toUTF8.toList = [0x7b, 0x7d] := by decide +kernel
    have hvalue : Json.Raw.takeValue [0x7b, 0x7d] = some (.object [], []) := by
      rw [Json.Raw.takeValue]
      rfl
    have hblanks : Json.Raw.dropBlanks [0x7b, 0x7d] = [0x7b, 0x7d] := by decide
    rw [Json.Raw.parse?, hbytes, hblanks, hvalue]
    rfl
  refine ⟨_, htext, ?_⟩
  rw [htrim, Response.read?, hparse]
  rfl

/-- A blank line before the answer to a single name. -/
theorem askAll_dialogue_of_blank_line :
    (askAll ["A"] ⟨[[0x0a], [0x7b, 0x7d, 0x0a]], false, ⟨0⟩, 1, []⟩).1 = .ok [⟨"A", none⟩] := by
  obtain ⟨-, hunique, -, hnoise⟩ := askAll_dialogue false ⟨0⟩ ["A"] [[0x7b, 0x7d, 0x0a]]
  have hpassed : ∀ l ∈ ([] : List Line), l.PassesOver 1 := by simp
  have hsymbol : (LookupOutcome.mk "A" none).symbol =
      if ({} : Response).found then ({} : Response).symbol else none := rfl
  have hdialogue : Dialogue false ⟨0⟩ 1 ["A"] [[0x7b, 0x7d, 0x0a]] 1 (.ok [⟨"A", none⟩]) :=
    .answered hpassed holds_emptyObject (.inl rfl) rfl rfl hsymbol (.done 2 [])
  have htext : decodeUtf8 [0x0a] = .ok "\n" := by rfl
  have hbefore : (askAll (["A"].take 0) ⟨[], false, ⟨0⟩, 1, []⟩).1 = .ok [] := rfl
  have hblank : Inserts false ⟨0⟩ ["A"] [[0x7b, 0x7d, 0x0a]] [[0x0a], [0x7b, 0x7d, 0x0a]] :=
    .mk hbefore (.blank htext (by decide +kernel))
  rw [hnoise _ (.single hblank), ← hunique _ _ hdialogue]

/-- A line that is not text does not decode as a response, and still changes what comes out. -/
theorem not_askAll_dialogue_of_bytes :
    ¬ ∀ (names : List String) (line : Line) (lines : List Line), (∀ response, ¬ line.Holds response) →
      (askAll names ⟨line :: lines, false, ⟨0⟩, 1, []⟩).1 =
        (askAll names ⟨lines, false, ⟨0⟩, 1, []⟩).1 := by
  intro h
  obtain ⟨fault, hfault⟩ : ∃ fault, decodeUtf8 [0xff, 0x0a] = .error fault := ⟨_, rfl⟩
  have hfound : reply? 1 [0x7b, 0x7d, 0x0a] = some (.ok none) := by
    rw [reply?_of_holds holds_emptyObject]
    rfl
  have hunread : reply? 1 [0xff, 0x0a] = some (.error (.notText fault)) := by
    unfold reply?
    rw [hfault]
  have hpassed : ∀ l ∈ ([] : List Line), l.PassesOver 1 := by simp
  have hsame := h ["A"] [0xff, 0x0a] [[0x7b, 0x7d, 0x0a]] ?_
  · rw [askAll_of_error (ask_of_fault rfl hpassed hunread),
      askAll_of_ok (ask_of_answer rfl hpassed hfound)] at hsame
    cases hsame
  · rintro response ⟨text, htext, -⟩
    rw [hfault] at htext
    cases htext

end Session

end EntityDump
