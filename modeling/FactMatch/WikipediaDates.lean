import FactMatch.Basic

/-!
# WikipediaDates — `ExtractWikipediaDates.run`

The extractor reads English Wikipedia documents and keeps those of humans that lack a date of
birth or of death.  It cuts a window of tokens from the start of the article's bold title to
the next sentence break, and matches the birth (and death) dates in the window.  For each match
it writes a fact record `{item, facts, provenance}` under the item's id.  Here the regular
expression is a parameter (`ExtractEnv.matchDates`): a function from the window's text to the
groups it captures, `m.group(i)`.  `DatesPattern` models the expression `run` compiles
(`recMatch`).

`window_valid`: the window is a range of the document's tokens, non-empty whenever the document
has a token.  `run_records`: the records come in input order, at most one per document, each
under its item's id, for a human, with a birth date only for an item without one unless the
record also carries a death date; `records` counts them.  `run_skips`: no record comes from a
document with an empty text, or whose window the expression does not match, or whose window
mentions `(baptised` or `throne`.
-/

namespace FactMatch

namespace WikipediaDates

/-- A token of a `sling.Document`: its byte offset in the text and the break level before it. -/
structure Token where
  start : Int
  brk : Int
  deriving DecidableEq, Repr

/-- A document record as `sling.Document(parsed_record)` reads it: the `text` and `url` slots,
the tokens, and `doc.phrase(begin, end)`. -/
structure Document where
  text : String
  url : String
  tokens : List Token
  phrase : Nat → Nat → String

/-- What `run` reads of a knowledge-base item: its name, `item(P31)`, and whether `item[P569]`
and `item[P570]` are set. -/
structure KbItem where
  name : String
  instanceOf : List String
  hasDateOfBirth : Bool
  hasDateOfDeath : Bool

/-- The services `run` uses: the knowledge base by item id, `rec.match(text)` as the groups of
the match (`m.group(i)`, `none` for a group that did not take part), and `Date.value()`. -/
structure ExtractEnv where
  kb : String → KbItem
  matchDates : String → Option (Nat → Option String)
  dateValue : Date → Int

/-- A record of `birth-death-dates.rec`: `{item, facts: {prop: value}, provenance: {url,
method}}`. -/
structure DatesRecord where
  item : String
  facts : List (String × Int)
  url : String
  method : String
  deriving DecidableEq, Repr

/-- `self.months`. -/
def months : String → Option Int
  | "January" => some 1
  | "February" => some 2
  | "March" => some 3
  | "April" => some 4
  | "May" => some 5
  | "June" => some 6
  | "July" => some 7
  | "August" => some 8
  | "September" => some 9
  | "October" => some 10
  | "November" => some 11
  | "December" => some 12
  | _ => none

/-- `self.months[name]` of a captured group. -/
def monthOf : Option String → Except String Int
  | some name =>
    match months name with
    | some month => pure month
    | none => throw ("KeyError: " ++ name)
  | none => throw "KeyError: None"

/-- The number a non-empty string of decimal digits denotes; `none` for any other string. -/
def parseDigits (s : String) : Option Nat :=
  if s.isEmpty then none
  else s.toList.foldl (fun acc c => acc.bind fun n =>
    if c.isDigit then some (10 * n + (c.toNat - '0'.toNat)) else none) (some 0)

/-- `int(group)` of a captured group.  The groups the expression captures are strings of
digits, on which `parseDigits` is Python's `int`. -/
def toInt : Option String → Except String Int
  | some s =>
    match parseDigits s with
    | some n => pure n
    | none => throw ("ValueError: invalid literal for int() with base 10: " ++ s)
  | none => throw "TypeError: int() argument must be a string or a number, not NoneType"

/-- Whether a captured group is a non-empty string, as `if m.group(i):` tests it. -/
def truthy : Option String → Bool
  | some s => !s.isEmpty
  | none => false

/-- `date_from_match(offset, match)`: the date `DD MONTH YYYY` when group `1 + offset` is set,
else `MONTH DD, YYYY`, as `sling.Date(year, month, day)`. -/
def dateFromMatch (offset : Nat) (group : Nat → Option String) : Except String Date := do
  if truthy (group (1 + offset)) then
    -- DD MONTH YYYY format
    let year ← toInt (group (3 + offset))
    let month ← monthOf (group (2 + offset))
    let day ← toInt (group (1 + offset))
    pure ⟨year, month, day, .day⟩
  else
    -- MONTH DD, YYYY format
    let year ← toInt (group (6 + offset))
    let month ← monthOf (group (4 + offset))
    let day ← toInt (group (5 + offset))
    pure ⟨year, month, day, .day⟩

/-- The bytes of a text, as a Python 2 `str` holds them. -/
def utf8 (s : String) : List UInt8 := s.toUTF8.data.toList

/-- The offset of the first occurrence of `sub` in `s`, if any. -/
def findFrom (sub : List UInt8) : List UInt8 → Option Nat
  | [] => if sub = [] then some 0 else none
  | b :: bs => if sub.isPrefixOf (b :: bs) then some 0 else (findFrom sub bs).map (· + 1)

/-- `s.find(sub)` on the bytes of the two strings: the offset of the first occurrence, `-1`
without one. -/
def find (s sub : String) : Int :=
  ((findFrom sub.toUTF8.data.toList s.toUTF8.data.toList).map Int.ofNat).getD (-1)

/-- `while i < len(doc.tokens) and cond(doc.tokens[i]): i += 1`, with `rest` the tokens from
`i` on. -/
def advanceWhile (cond : Token → Bool) : List Token → Nat → Nat
  | [], i => i
  | t :: rest, i => if cond t then advanceWhile cond rest (i + 1) else i

/-- The bounds `run` passes to `doc.phrase`: from the token before the first one (from index 1)
that starts after `start_index`, to 15 tokens past the next break of level 3 or more, cut at the
end of the document.  `max(0, first - 1)` is `first - 1` in natural numbers. -/
def window (tokens : List Token) (startIndex : Int) : Nat × Nat :=
  let first := advanceWhile (fun t => t.start ≤ startIndex) (tokens.drop 1) 1
  let last := advanceWhile (fun t => t.brk < 3) (tokens.drop first) first
  (first - 1, min tokens.length (last + 15))

/-- The window's text, `doc.phrase(max(0, first - 1), min(len(doc.tokens), last + 15))`. -/
def windowText (doc : Document) : String :=
  doc.phrase (window doc.tokens (find doc.text "<b>" + 3)).1
    (window doc.tokens (find doc.text "<b>" + 3)).2

/-- One iteration of the loop of `run` over the documents: the record it writes, if any. -/
def extractDocument (env : ExtractEnv) (itemId : String) (doc : Document) :
    Except String (Option DatesRecord) := do
  let item := env.kb itemId
  if "Q5" ∉ item.instanceOf then return none
  if item.hasDateOfBirth ∧ item.hasDateOfDeath then return none
  if doc.text.isEmpty then return none
  let startIndex := find doc.text "<b>" + 3
  let text := doc.phrase (window doc.tokens startIndex).1 (window doc.tokens startIndex).2
  match env.matchDates text with
  | none => return none
  | some group =>
    if find text "(baptised" ≥ 0 ∨ find text "throne" ≥ 0 then return none
    let method := "English Wikipedia dates for '" ++ item.name ++ "'"
    -- Birth date only match
    if truthy (group 1) || truthy (group 4) then
      if item.hasDateOfBirth then return none
      let birth ← dateFromMatch 0 group
      return some ⟨itemId, [("P569", env.dateValue birth)], doc.url, method⟩
    else
      let birth ← dateFromMatch 6 group
      let death ← dateFromMatch 12 group
      return some
        ⟨itemId, [("P569", env.dateValue birth), ("P570", env.dateValue death)], doc.url, method⟩

/-- The loop of `run` over the documents of the ten input files: the records written, under
their keys, and the counter `records`. -/
def runLoop (env : ExtractEnv) :
    List (String × DatesRecord) × Nat → List (String × Document) →
      Except String (List (String × DatesRecord) × Nat)
  | (written, records), [] => pure (written, records)
  | (written, records), (itemId, doc) :: docs => do
    match ← extractDocument env itemId doc with
    | none => runLoop env (written, records) docs
    | some record => runLoop env (written ++ [(itemId, record)], records + 1) docs

/-- `ExtractWikipediaDates.run` on the documents of its input files, in order. -/
def run (env : ExtractEnv) (docs : List (String × Document)) :
    Except String (List (String × DatesRecord) × Nat) :=
  runLoop env ([], 0) docs

/-! ## 1. The token window -/

/-- The loop stops at the first token, from `i` on, that fails `cond`. -/
theorem advanceWhile_eq (cond : Token → Bool) (rest : List Token) (i : Nat) :
    advanceWhile cond rest i = i + (rest.takeWhile cond).length := by
  induction rest generalizing i with
  | nil => rfl
  | cons t rest ih =>
    simp only [advanceWhile, List.takeWhile_cons]
    cases cond t
    · rfl
    · simp only [if_true, ih, List.length_cons]
      omega

/-- **The window is a range of tokens.**  The bounds `run` passes to `doc.phrase` are in order
and within the document, and the range is non-empty whenever the document has a token. -/
theorem window_valid (tokens : List Token) (startIndex : Int) :
    (window tokens startIndex).1 ≤ (window tokens startIndex).2 ∧
      (window tokens startIndex).2 ≤ tokens.length ∧
      (0 < tokens.length → (window tokens startIndex).1 < (window tokens startIndex).2) := by
  have htitle := ((List.takeWhile_sublist (fun t : Token => decide (t.start ≤ startIndex))
    (l := tokens.drop 1)).length_le).trans_eq (List.length_drop 1 tokens)
  simp only [window, advanceWhile_eq]
  omega

/-! ## 2. The records written -/

/-- What a record written for the document `doc` of the item `itemId` carries: it is keyed by
the item, which is a human without both dates; it has the document's url and the method naming
the item; and it proposes a birth date, for an item without one, or a birth and a death date. -/
def RecordOk (env : ExtractEnv) (itemId : String) (doc : Document) (record : DatesRecord) :
    Prop :=
  record.item = itemId ∧ "Q5" ∈ (env.kb itemId).instanceOf ∧
    ¬((env.kb itemId).hasDateOfBirth ∧ (env.kb itemId).hasDateOfDeath) ∧
    record.url = doc.url ∧
    record.method = "English Wikipedia dates for '" ++ (env.kb itemId).name ++ "'" ∧
    ((∃ birth, record.facts = [("P569", birth)] ∧ (env.kb itemId).hasDateOfBirth = false) ∨
      ∃ birth death, record.facts = [("P569", birth), ("P570", death)])

theorem extractDocument_recordOk {env : ExtractEnv} {itemId : String} {doc : Document}
    {record : DatesRecord} (h : extractDocument env itemId doc = .ok (some record)) :
    RecordOk env itemId doc record := by
  simp only [extractDocument, bind, Except.bind, pure, Except.pure] at h
  -- every early `return none` contradicts `h`
  split at h <;> try cases h
  rename_i hq
  split at h <;> try cases h
  rename_i hboth
  split at h <;> try cases h
  split at h <;> try cases h
  split at h <;> try cases h
  split at h
  · -- a birth date only
    split at h <;> try cases h
    rename_i hdob
    split at h <;> cases h
    exact ⟨rfl, not_not.1 hq, hboth, rfl, rfl, .inl ⟨_, rfl, Bool.eq_false_iff.2 hdob⟩⟩
  · -- a birth and a death date
    split at h <;> try cases h
    split at h <;> cases h
    exact ⟨rfl, not_not.1 hq, hboth, rfl, rfl, .inr ⟨_, _, rfl⟩⟩

/-- The facts of a written record are the dates `date_from_match` returns on the groups of the
window's match: `date_from_match(0, m)` when group 1 or 4 is set, else `date_from_match(6, m)`
and `date_from_match(12, m)`. -/
theorem extractDocument_facts {env : ExtractEnv} {itemId : String} {doc : Document}
    {record : DatesRecord} (h : extractDocument env itemId doc = .ok (some record)) :
    ∃ group, env.matchDates (windowText doc) = some group ∧
      (((truthy (group 1) || truthy (group 4)) = true ∧ ∃ birth,
          dateFromMatch 0 group = .ok birth ∧ record.facts = [("P569", env.dateValue birth)]) ∨
        ((truthy (group 1) || truthy (group 4)) = false ∧ ∃ birth death,
          dateFromMatch 6 group = .ok birth ∧ dateFromMatch 12 group = .ok death ∧
          record.facts = [("P569", env.dateValue birth), ("P570", env.dateValue death)])) := by
  simp only [extractDocument, bind, Except.bind, pure, Except.pure] at h
  split at h <;> try cases h
  split at h <;> try cases h
  split at h <;> try cases h
  split at h <;> try cases h
  rename_i group hgroup
  split at h <;> try cases h
  split at h
  · -- a birth date only
    next hcond =>
    split at h <;> try cases h
    split at h <;> cases h
    rename_i birth hbirth
    exact ⟨group, hgroup, .inl ⟨hcond, birth, hbirth, rfl⟩⟩
  · -- a birth and a death date
    next hcond =>
    split at h <;> try cases h
    split at h <;> cases h
    rename_i birth hbirth _ death hdeath
    exact ⟨group, hgroup, .inr ⟨Bool.eq_false_iff.2 hcond, birth, death, hbirth, hdeath, rfl⟩⟩

/-! ## 3. The loop over the documents -/

/-- Each record the loop writes is the one `extractDocument` writes for one of the documents,
under its item id, in the order of the documents. -/
theorem runLoop_written (env : ExtractEnv) (docs : List (String × Document))
    (written : List (String × DatesRecord)) (records : Nat)
    {written' : List (String × DatesRecord)} {records' : Nat}
    (h : runLoop env (written, records) docs = .ok (written', records')) :
    ∃ new, written' = written ++ new ∧ records' = records + new.length ∧
      (new.map (·.1)).Sublist (docs.map (·.1)) ∧
      ∀ p ∈ new, ∃ doc, (p.1, doc) ∈ docs ∧ extractDocument env p.1 doc = .ok (some p.2) := by
  induction docs generalizing written records with
  | nil => cases h; exact ⟨[], by simp, rfl, List.nil_sublist _, by simp⟩
  | cons d docs ih =>
    obtain ⟨itemId, doc⟩ := d
    obtain ⟨r, hx, h⟩ := bind_eq_ok.1 h
    cases r with
    | none =>
      obtain ⟨new, rfl, rfl, hsub, hok⟩ := ih written records h
      exact ⟨new, rfl, rfl, hsub.cons _, fun p hp => (hok p hp).imp fun _ h => ⟨.tail _ h.1, h.2⟩⟩
    | some record =>
      obtain ⟨new, rfl, rfl, hsub, hok⟩ := ih _ _ h
      refine ⟨(itemId, record) :: new, by simp, by simp; omega, hsub.cons₂ _, ?_⟩
      rintro p (_ | ⟨_, hp⟩)
      · exact ⟨doc, .head _, hx⟩
      · exact (hok p hp).imp fun _ h => ⟨.tail _ h.1, h.2⟩

theorem runLoop_records (env : ExtractEnv) (docs : List (String × Document))
    (written : List (String × DatesRecord)) (records : Nat)
    {written' : List (String × DatesRecord)} {records' : Nat}
    (h : runLoop env (written, records) docs = .ok (written', records')) :
    ∃ new, written' = written ++ new ∧ records' = records + new.length ∧
      (new.map (·.1)).Sublist (docs.map (·.1)) ∧
      ∀ p ∈ new, ∃ doc, (p.1, doc) ∈ docs ∧ RecordOk env p.1 doc p.2 := by
  obtain ⟨new, h₁, h₂, hsub, hnew⟩ := runLoop_written env docs written records h
  refine ⟨new, h₁, h₂, hsub, fun p hp => ?_⟩
  obtain ⟨doc, hd, hx⟩ := hnew p hp
  exact ⟨doc, hd, extractDocument_recordOk hx⟩

/-- **The records `run` writes.**  Whenever `run` returns, its records come in input order, at
most one per document, and `records` counts them; each is keyed by its document's item, a human
without both dates, carries the document's url, and proposes a birth date for an item without
one, or a birth and a death date. -/
theorem run_records (env : ExtractEnv) (docs : List (String × Document))
    {written : List (String × DatesRecord)} {records : Nat}
    (h : run env docs = .ok (written, records)) :
    records = written.length ∧ (written.map (·.1)).Sublist (docs.map (·.1)) ∧
      ∀ p ∈ written, ∃ doc, (p.1, doc) ∈ docs ∧ RecordOk env p.1 doc p.2 := by
  obtain ⟨new, rfl, rfl, hsub, hok⟩ := runLoop_records env docs [] 0 h
  exact ⟨by simp, by simpa using hsub, by simpa using hok⟩

/-- A human `Q1` with neither date, whose article gives both. -/
def exampleExtractEnv : ExtractEnv where
  kb _ := ⟨"Q1", ["Q5"], false, false⟩
  matchDates _ := some fun
    | 7 => some "10" | 8 => some "December" | 9 => some "1815"
    | 13 => some "27" | 14 => some "November" | 15 => some "1852"
    | _ => none
  dateValue d := d.year * 10000 + d.month * 100 + d.day

/-- The article of `Q1`, as one phrase. -/
def exampleDocument : Document where
  text := "<b>Q1</b> (10 December 1815 - 27 November 1852)"
  url := "Q1"
  tokens := [⟨0, 0⟩, ⟨3, 1⟩, ⟨10, 1⟩]
  phrase _ _ := "Q1 (10 December 1815 - 27 November 1852)"

theorem run_records_Q1 :
    ∃ written records, run exampleExtractEnv [("Q1", exampleDocument)] = .ok (written, records) ∧
      records = written.length ∧ (written.map (·.1)).Sublist ([("Q1", exampleDocument)].map (·.1)) ∧
      ∀ p ∈ written, ∃ doc, (p.1, doc) ∈ [("Q1", exampleDocument)] ∧
        RecordOk exampleExtractEnv p.1 doc p.2 :=
  ⟨_, _, rfl, run_records exampleExtractEnv [("Q1", exampleDocument)] rfl⟩

/-! ## 4. What `run` skips -/

/-- `findFrom` finds nothing exactly when `sub` does not occur. -/
theorem findFrom_eq_none_iff (sub s : List UInt8) : findFrom sub s = none ↔ ¬ sub <:+: s := by
  induction s with
  | nil => by_cases h : sub = [] <;> simp [findFrom, h]
  | cons b bs ih =>
    rw [List.infix_cons_iff, ← List.isPrefixOf_iff_prefix]
    by_cases h : sub.isPrefixOf (b :: bs) <;> simp [findFrom, h, ih]

/-- `s.find(sub)` is negative exactly when `sub` does not occur in `s`. -/
theorem find_lt_zero_iff (s sub : String) : find s sub < 0 ↔ ¬ utf8 sub <:+: utf8 s := by
  rw [← findFrom_eq_none_iff]
  show ((findFrom (utf8 sub) (utf8 s)).map Int.ofNat).getD (-1) < 0 ↔ _
  cases findFrom (utf8 sub) (utf8 s) with
  | none => simp
  | some n => exact iff_of_false (Int.not_lt.2 (Int.ofNat_nonneg n)) nofun

theorem extractDocument_skips {env : ExtractEnv} {itemId : String} {doc : Document}
    {record : DatesRecord} (h : extractDocument env itemId doc = .ok (some record)) :
    doc.text.isEmpty = false ∧ (env.matchDates (windowText doc)).isSome ∧
      ¬ utf8 "(baptised" <:+: utf8 (windowText doc) ∧
      ¬ utf8 "throne" <:+: utf8 (windowText doc) := by
  simp only [extractDocument, bind, Except.bind, pure, Except.pure] at h
  -- the early returns before the window is matched contradict `h`
  split at h <;> try cases h
  split at h <;> try cases h
  split at h <;> try cases h
  rename_i hempty
  split at h <;> try cases h
  rename_i group hgroup
  split at h
  · cases h
  rename_i hfind
  simp only [not_or, ge_iff_le, Int.not_le, find_lt_zero_iff] at hfind
  exact ⟨Bool.eq_false_iff.2 hempty, by simp [windowText, hgroup], hfind⟩

/-- **What `run` never writes.**  Every record `run` writes comes from one of the documents: one
with a non-empty text, whose window the expression matches, and whose window contains neither
`(baptised` nor `throne`. -/
theorem run_skips (env : ExtractEnv) (docs : List (String × Document))
    {written : List (String × DatesRecord)} {records : Nat}
    (h : run env docs = .ok (written, records)) :
    ∀ p ∈ written, ∃ doc, (p.1, doc) ∈ docs ∧ doc.text.isEmpty = false ∧
      (env.matchDates (windowText doc)).isSome ∧
      ¬ utf8 "(baptised" <:+: utf8 (windowText doc) ∧
      ¬ utf8 "throne" <:+: utf8 (windowText doc) := by
  obtain ⟨new, rfl, -, -, hnew⟩ := runLoop_written env docs [] 0 h
  intro p hp
  obtain ⟨doc, hd, hx⟩ := hnew p (by simpa using hp)
  exact ⟨doc, hd, extractDocument_skips hx⟩

theorem run_skips_Q1 :
    ∃ written records, run exampleExtractEnv [("Q1", exampleDocument)] = .ok (written, records) ∧
      ∀ p ∈ written, ∃ doc, (p.1, doc) ∈ [("Q1", exampleDocument)] ∧ doc.text.isEmpty = false ∧
        (exampleExtractEnv.matchDates (windowText doc)).isSome ∧
        ¬ utf8 "(baptised" <:+: utf8 (windowText doc) ∧
        ¬ utf8 "throne" <:+: utf8 (windowText doc) :=
  ⟨_, _, rfl, run_skips exampleExtractEnv [("Q1", exampleDocument)] rfl⟩

end WikipediaDates

end FactMatch
