import FactMatch.Basic
import Mathlib.Data.List.Forall2
import Mathlib.Data.List.Nodup

/-!
# Wikibot — `StoreFactsBot.storeRecords`

The bot reads `(item, fact record)` pairs, asks Wikidata about each item, adds each fact the
item has never had, and writes a status record per outcome under the item's key.  The loop
carries `updated`, the edits made so far (every later answer of the repository may depend on
them) and `fact_record`, a local variable assigned only after the redirect check: the redirect
branch reads it before that, so it sees the record of an earlier iteration, or none at all.
A `time` fact whose value `sling.Date` cannot parse has precision `NONE`, which `precision_map`
has no key for: the loop raises `KeyError` there.

`storeRecords_describes` says when the loop returns: when no item read is a redirect page and
every `time` fact parses; and that every status written in an iteration then names the item and
facts of the record read in that iteration.  `storeRecords_redirect_reuses` shows the two ways a
redirect item breaks it.  `storeRecords_justified` says what every run guarantees of the edits:
the run is a `CheckedRun`, each iteration of which added only claims that passed the redirect and
has-property checks at the start of that iteration and the had-property check when made.
`storeRecords_logs`: the `stored` entries of the status file report the edits one for one, in
order.  `storeRecords_batch`: the loop runs on a prefix of the records and stops early only at
the batch size.
-/

namespace FactMatch

namespace Wikibot

/-- The `provenance` frame of a fact record. -/
structure Provenance where
  category : String
  method : String
  deriving DecidableEq, Repr

/-- A fact record of the input file, as `rs.parse(record)` reads it: the item, its facts
`{prop: val, ...}` in slot order, and their provenance. -/
structure FactRecord where
  item : String
  facts : List (String × Value)
  provenance : Provenance
  deriving DecidableEq, Repr

/-- The `status` frame: `{skipped: reason}` or `{stored: str(rev_id)}`. -/
inductive Status
  | skipped (reason : String)
  | stored (revId : String)
  deriving DecidableEq, Repr

/-- A record of the status file. -/
structure StatusRecord where
  item : String
  facts : List (String × Value)
  status : Status
  deriving DecidableEq, Repr

/-- The target of a new claim: `WbTime(year=..., precision=...)` or `ItemPage(repo, val)`. -/
inductive Target
  | time (year : Int) (precision : String)
  | item (id : Value)
  deriving DecidableEq, Repr

/-- One `wd_item.addClaim(claim, summary=...)` with its `claim.addSources(getSources(cat))`. -/
structure Edit where
  item : String
  prop : String
  target : Target
  summary : String
  source : String
  deriving DecidableEq, Repr

/-- `sling.Date(val)` as the bot reads it: the year, and the precision, `none` for sling's
`NONE`, the precision of a value that does not parse as a date. -/
structure SlingDate where
  year : Int
  precision : Option Precision
  deriving DecidableEq, Repr

/-- What the bot reads from Wikidata, each answer a function of the edits made so far, and
`sling.Date(val)`.  `revisions` lists each revision's claims, or `none` where the revision's
text does not parse. -/
structure BotEnv where
  isRedirectPage : List Edit → String → Bool
  claims : List Edit → String → List String
  revisions : List Edit → String → List (Option (List String))
  claimType : String → String
  latestRevisionId : List Edit → String → Nat
  date : Value → SlingDate

/-- The state the loop of `storeRecords` carries: the status file written so far, the edits
made, `updated`, and the local `fact_record`, unbound (`none`) until its first assignment. -/
structure BotState where
  statusFile : List (String × StatusRecord)
  edits : List Edit
  updated : Nat
  factRecord : Option FactRecord
  deriving DecidableEq, Repr

/-- `precision_map[precision]`: sling precisions to the names of `pywikibot.WbTime.PRECISION`.
The map has no key `NONE`, so looking it up raises `KeyError`. -/
def precisionMap : Option Precision → Except String String
  | some .millennium => pure "millenia"
  | some .century => pure "century"
  | some .decade => pure "decade"
  | some .year => pure "year"
  | some .month => pure "month"
  | some .day => pure "day"
  | none => throw "KeyError"

/-- `StoreFactsBot.everHadProp`: whether one of the last 150 revisions whose text parses has a
claim for `prop`. -/
def everHadProp (env : BotEnv) (edits : List Edit) (item prop : String) : Bool :=
  ((env.revisions edits item).take 150).any fun
    | some claims => decide (prop ∈ claims)
    | none => false

/-- The target `storeRecords` builds for a fact, by the property's claim type; `none` for an
unknown type, which the loop skips.  A `time` value of precision `NONE` raises. -/
def claimTarget (env : BotEnv) (prop : String) (val : Value) : Except String (Option Target) :=
  if env.claimType prop = "time" then do
    let precision ← precisionMap (env.date val).precision
    pure (some (.time (env.date val).year precision))
  else if env.claimType prop = "wikibase-item" then pure (some (.item val))
  else pure none

/-- One iteration of the loop over the facts of a consistent record: skip a property the item
has (`wd_claims`, read before the loop) or ever had, else add the claim and record the new
revision. -/
def storeFact (env : BotEnv) (item : String) (wdClaims : List String) (factRecord : FactRecord)
    (st : BotState) : String × Value → Except String BotState
  | (prop, val) =>
    let write (status : Status) : BotState :=
      { st with statusFile := st.statusFile ++ [(item, ⟨factRecord.item, [(prop, val)], status⟩)] }
    if prop ∈ wdClaims then pure (write (.skipped "already has property"))
    else if everHadProp env st.edits item prop then pure (write (.skipped "already had property"))
    else do
      match ← claimTarget env prop val with
      | none => pure st
      | some target =>
        let catStr := factRecord.provenance.category
        let edits := st.edits ++
          [⟨item, prop, target, factRecord.provenance.method ++ " " ++ catStr, catStr⟩]
        pure { st with
          edits
          statusFile := st.statusFile ++ [(item, ⟨factRecord.item, [(prop, val)],
            .stored (toString (env.latestRevisionId edits item))⟩)] }

/-- One iteration of the loop over the records, after the batch check.  A redirect item is
skipped with the item and facts of `fact_record` as it stands, which raises while it is still
unbound; otherwise `fact_record` is assigned, an inconsistent record is skipped, and a
consistent one has its facts stored and counts as updated. -/
def storeRecord (env : BotEnv) (st : BotState) (item : String) (record : FactRecord) :
    Except String BotState :=
  if env.isRedirectPage st.edits item then
    match st.factRecord with
    | none => throw "UnboundLocalError: local variable 'fact_record' referenced before assignment"
    | some factRecord =>
      pure { st with statusFile := st.statusFile ++
        [(item, ⟨factRecord.item, factRecord.facts, .skipped "is a redirect page"⟩)] }
  else
    let wdClaims := env.claims st.edits item
    let st := { st with factRecord := some record }
    if item ≠ record.item then
      pure { st with statusFile := st.statusFile ++
        [(item, ⟨record.item, record.facts, .skipped "inconsistent input"⟩)] }
    else do
      let st ← record.facts.foldlM (storeFact env item wdClaims record) st
      pure { st with updated := st.updated + 1 }

/-- The loop of `storeRecords`: stop once `updated` reaches the batch size. -/
def storeRecordsLoop (env : BotEnv) (batchSize : Nat) :
    BotState → List (String × FactRecord) → Except String BotState
  | st, [] => pure st
  | st, (item, record) :: records =>
    if batchSize ≤ st.updated then pure st
    else do storeRecordsLoop env batchSize (← storeRecord env st item record) records

/-- `StoreFactsBot.storeRecords(records, batch_size)` (the source's default batch size is 3). -/
def storeRecords (env : BotEnv) (records : List (String × FactRecord)) (batchSize : Nat) :
    Except String BotState :=
  storeRecordsLoop env batchSize ⟨[], [], 0, none⟩ records

/-- `StoreFactsBot.run`: `storeRecords` over the record file with a batch size of 2. -/
def run (env : BotEnv) (records : List (String × FactRecord)) : Except String BotState :=
  storeRecords env records 2

/-! ## 1. What one iteration writes -/

section Fact

variable {env : BotEnv} {item : String} {wdClaims : List String} {factRecord : FactRecord}
  {st st' : BotState}

/-- What one fact's iteration does when it returns: nothing (an unknown claim type); write a
`skipped` status only (a property the item has or had); or, after both checks, add the claim and
write a `stored` status with the revision id the repository gives after it. -/
theorem storeFact_cases {prop : String} {val : Value}
    (h : storeFact env item wdClaims factRecord st (prop, val) = .ok st') :
    st' = st ∨
      (∃ reason, st' = { st with statusFile := st.statusFile ++
          [(item, ⟨factRecord.item, [(prop, val)], .skipped reason⟩)] }) ∨
      (prop ∉ wdClaims ∧ everHadProp env st.edits item prop = false ∧
        ∃ target, claimTarget env prop val = .ok (some target) ∧
          st' = { st with
            edits := st.edits ++ [⟨item, prop, target, factRecord.provenance.method ++ " " ++
              factRecord.provenance.category, factRecord.provenance.category⟩]
            statusFile := st.statusFile ++ [(item, ⟨factRecord.item, [(prop, val)],
              .stored (toString (env.latestRevisionId (st.edits ++
                [⟨item, prop, target, factRecord.provenance.method ++ " " ++
                  factRecord.provenance.category, factRecord.provenance.category⟩]) item))⟩)] }) := by
  simp only [storeFact] at h
  split_ifs at h with hhas hhad
  · cases h; exact .inr (.inl ⟨_, rfl⟩)
  · cases h; exact .inr (.inl ⟨_, rfl⟩)
  · obtain ⟨target?, ht, h⟩ := bind_eq_ok.1 h
    cases target? with
    | none => cases h; exact .inl rfl
    | some target =>
      cases h; exact .inr (.inr ⟨hhas, Bool.eq_false_iff.2 hhad, target, ht, rfl⟩)

/-- A fact's iteration leaves `updated` as it is. -/
theorem storeFact_updated {f : String × Value}
    (h : storeFact env item wdClaims factRecord st f = .ok st') : st'.updated = st.updated := by
  rcases storeFact_cases h with rfl | ⟨_, rfl⟩ | ⟨-, -, _, -, rfl⟩ <;> rfl

theorem foldlM_storeFact_updated {facts : List (String × Value)}
    (h : facts.foldlM (storeFact env item wdClaims factRecord) st = .ok st') :
    st'.updated = st.updated :=
  foldlM_induction (fun s => s.updated = st.updated)
    (fun _ _ _ _ hs h => (storeFact_updated h).trans hs) rfl h

end Fact

/-- What one record's iteration does when it returns.  A redirect item gets a `skipped` status
naming the record `fact_record` holds.  Otherwise `fact_record` is assigned; an inconsistent
record gets a `skipped` status, and a consistent one runs the loop over its facts and adds one to
`updated`. -/
theorem storeRecord_cases {env : BotEnv} {st st' : BotState} {item : String}
    {record : FactRecord} (h : storeRecord env st item record = .ok st') :
    (∃ fr, st.factRecord = some fr ∧ st' = { st with statusFile := st.statusFile ++
      [(item, ⟨fr.item, fr.facts, .skipped "is a redirect page"⟩)] }) ∨
    (st' = { st with factRecord := some record, statusFile := st.statusFile ++
      [(item, ⟨record.item, record.facts, .skipped "inconsistent input"⟩)] }) ∨
    (env.isRedirectPage st.edits item = false ∧ item = record.item ∧
      ∃ st₁, record.facts.foldlM (storeFact env item (env.claims st.edits item) record)
          { st with factRecord := some record } = .ok st₁ ∧
        st' = { st₁ with updated := st₁.updated + 1 }) := by
  unfold storeRecord at h
  split at h
  · split at h
    · cases h
    · cases h; exact .inl ⟨_, ‹_›, rfl⟩
  · split at h
    · cases h; exact .inr (.inl rfl)
    · obtain ⟨st₁, h₁, h⟩ := bind_eq_ok.1 h
      cases h
      exact .inr (.inr ⟨Bool.eq_false_iff.2 ‹_›, not_not.1 ‹_›, st₁, h₁, rfl⟩)

/-- A fact record with one birth date, from the category `Q7`. -/
def exampleRecord (item : String) (year : Int) : FactRecord :=
  ⟨item, [("P569", .int year)], ⟨"Q7", "wikicat"⟩⟩

/-- A repository where `Q2` is a redirect page and no item has or had any claim; an integer
value is a year, and any other value does not parse as a date. -/
def exampleBotEnv : BotEnv where
  isRedirectPage _ item := item == "Q2"
  claims _ _ := []
  revisions _ _ := []
  claimType prop := if prop = "P569" then "time" else "wikibase-item"
  latestRevisionId edits _ := edits.length
  date
    | .int year => ⟨year, some .year⟩
    | _ => ⟨0, none⟩

/-- A birth date that does not parse stops the run with `KeyError`. -/
example : (storeRecords exampleBotEnv [("Q1", ⟨"Q1", [("P569", .str "spring")], ⟨"Q7", "wikicat"⟩⟩)]
    3).map (·.statusFile) = .error "KeyError" := rfl

/-! ## 3. Every edit is checked at the start of its iteration -/

/-- The checks `storeRecords` makes before it adds the claim `e` in the iteration of the record
`record`, read for the key `item`, which began after the edits `start`; `pre` are the edits made
before `e`.  The claim is for the item, whose key and record agree; at the start of the
iteration the item was not a redirect page and had no claim for the property (`wd_claims`);
after `pre` none of its last 150 revisions had one; and the target, summary and source are built
from a fact of the record and its provenance. -/
def Justified (env : BotEnv) (start : List Edit) (item : String) (record : FactRecord)
    (pre : List Edit) (e : Edit) : Prop :=
  e.item = item ∧ item = record.item ∧
    env.isRedirectPage start item = false ∧ e.prop ∉ env.claims start item ∧
    everHadProp env pre item e.prop = false ∧
    ∃ val, (e.prop, val) ∈ record.facts ∧ claimTarget env e.prop val = .ok (some e.target) ∧
      e.summary = record.provenance.method ++ " " ++ record.provenance.category ∧
      e.source = record.provenance.category

/-- The edits `edits` extend the edits `start` made before the iteration of `record`, read for
`item`, and each edit made after `start` passed that iteration's checks. -/
def BlockChecked (env : BotEnv) (start : List Edit) (item : String) (record : FactRecord)
    (edits : List Edit) : Prop :=
  start <+: edits ∧
    ∀ pre e, start <+: pre → pre ++ [e] <+: edits → Justified env start item record pre e

/-- `CheckedRun env st records st'`: the body of the loop, run on `records` in order from the
state `st`, ends in `st'`, and each iteration added only claims checked against the edits made
before that iteration. -/
inductive CheckedRun (env : BotEnv) : BotState → List (String × FactRecord) → BotState → Prop
  | nil {st : BotState} : CheckedRun env st [] st
  | cons {st st₁ st' : BotState} {item : String} {record : FactRecord}
      {records : List (String × FactRecord)} :
      storeRecord env st item record = .ok st₁ → BlockChecked env st.edits item record st₁.edits →
      CheckedRun env st₁ records st' → CheckedRun env st ((item, record) :: records) st'

section Block

variable {env : BotEnv} {start : List Edit} {item : String} {record : FactRecord}

theorem blockChecked_refl : BlockChecked env start item record start := by
  refine ⟨List.prefix_refl _, fun pre e hstart hpre => absurd hpre.length_le ?_⟩
  have := hstart.length_le
  simp only [List.length_append, List.length_singleton]
  omega

theorem blockChecked_append {edits : List Edit} {e : Edit}
    (h : BlockChecked env start item record edits) (he : Justified env start item record edits e) :
    BlockChecked env start item record (edits ++ [e]) := by
  refine ⟨h.1.trans (List.prefix_append _ _), fun pre e' hstart hpre => ?_⟩
  rcases List.prefix_concat_iff.1 hpre with heq | hpre
  · obtain ⟨rfl, h'⟩ := List.append_inj' heq rfl
    cases h'
    exact he
  · exact h.2 pre e' hstart hpre

/-- A fact's iteration adds at most one claim, and that one passes the checks. -/
theorem storeFact_checked (hitem : item = record.item)
    (hredirect : env.isRedirectPage start item = false) {st st' : BotState}
    {f : String × Value} (hf : f ∈ record.facts) (hst : BlockChecked env start item record st.edits)
    (h : storeFact env item (env.claims start item) record st f = .ok st') :
    BlockChecked env start item record st'.edits := by
  obtain ⟨prop, val⟩ := f
  rcases storeFact_cases h with rfl | ⟨_, rfl⟩ | ⟨hhas, hhad, target, ht, rfl⟩
  · exact hst
  · exact hst
  · exact blockChecked_append hst ⟨rfl, hitem, hredirect, hhas, hhad, val, hf, ht, rfl, rfl⟩

end Block

/-- One record's iteration adds only checked claims and at most one to `updated`. -/
theorem storeRecord_checked {env : BotEnv} {st st' : BotState} {item : String}
    {record : FactRecord} (h : storeRecord env st item record = .ok st') :
    BlockChecked env st.edits item record st'.edits ∧ st'.updated ≤ st.updated + 1 := by
  rcases storeRecord_cases h with ⟨_, -, rfl⟩ | rfl | ⟨hredirect, hitem, st₁, h₁, rfl⟩
  · exact ⟨blockChecked_refl, Nat.le_succ _⟩
  · exact ⟨blockChecked_refl, Nat.le_succ _⟩
  · refine ⟨foldlM_induction (fun s => BlockChecked env st.edits item record s.edits)
      (fun _ hf _ _ hs h => storeFact_checked hitem hredirect hf hs h) blockChecked_refl h₁, ?_⟩
    simp only [foldlM_storeFact_updated h₁, le_refl]

theorem storeRecordsLoop_checked {env : BotEnv} {batchSize : Nat}
    (rest : List (String × FactRecord)) {st st' : BotState} (hb : st.updated ≤ batchSize)
    (h : storeRecordsLoop env batchSize st rest = .ok st') :
    ∃ pre, pre <+: rest ∧ CheckedRun env st pre st' ∧ st'.updated ≤ batchSize := by
  induction rest generalizing st with
  | nil => cases h; exact ⟨[], List.prefix_refl _, .nil, hb⟩
  | cons p rest ih =>
    obtain ⟨item, record⟩ := p
    rw [storeRecordsLoop] at h
    split_ifs at h with hstop
    · cases h; exact ⟨[], List.nil_prefix, .nil, hb⟩
    · obtain ⟨st₁, h₁, h⟩ := bind_eq_ok.1 h
      obtain ⟨hchecked, hb₁⟩ := storeRecord_checked h₁
      obtain ⟨pre, hpre, hrun, hb'⟩ := ih (by omega) h
      exact ⟨_ :: pre, List.cons_prefix_cons.2 ⟨rfl, hpre⟩, .cons h₁ hchecked hrun, hb'⟩

/-- **Every claim the bot adds was checked at the start of its iteration.**  Whenever
`storeRecords` returns, it has run the body of its loop on a prefix of the records, in order,
from the empty state; in each iteration, every claim added is for a fact of the record read,
whose key and item agree, and at the start of that iteration the item was not a redirect page
and had no claim for the property; when the claim was added none of the item's last 150
revisions had one; its target, summary and source come from the fact and the record's
provenance.  At most `batch_size` records were updated. -/
theorem storeRecords_justified (env : BotEnv) (records : List (String × FactRecord))
    (batchSize : Nat) (st : BotState) (h : storeRecords env records batchSize = .ok st) :
    ∃ pre, pre <+: records ∧ CheckedRun env ⟨[], [], 0, none⟩ pre st ∧ st.updated ≤ batchSize :=
  storeRecordsLoop_checked records (Nat.zero_le _) h

theorem storeRecords_justified_Q1 :
    ∃ st, storeRecords exampleBotEnv [("Q1", exampleRecord "Q1" 1952)] 3 = .ok st ∧
      ∃ pre, pre <+: [("Q1", exampleRecord "Q1" 1952)] ∧
        CheckedRun exampleBotEnv ⟨[], [], 0, none⟩ pre st ∧ st.updated ≤ 3 :=
  ⟨_, rfl, storeRecords_justified exampleBotEnv _ 3 _ rfl⟩

/-! ## 4. No property is added twice -/

/-- Each edit of `edits` was made when none of the last 150 revisions of its item had a claim
for its property. -/
def UnseenWhenMade (env : BotEnv) (edits : List Edit) : Prop :=
  ∀ pre e, pre ++ [e] <+: edits → everHadProp env pre e.item e.prop = false

theorem blockChecked_unseen {env : BotEnv} {start edits : List Edit} {item : String}
    {record : FactRecord} (hstart : UnseenWhenMade env start)
    (h : BlockChecked env start item record edits) : UnseenWhenMade env edits := by
  intro pre e hpre
  rcases List.prefix_or_prefix_of_prefix hpre h.1 with hold | hnew
  · exact hstart pre e hold
  · rcases List.prefix_concat_iff.1 hnew with heq | hnew
    · exact hstart pre e (heq ▸ List.prefix_refl _)
    · obtain ⟨hitem, -, -, -, hhad, -⟩ := h.2 pre e hnew hpre
      rw [hitem]
      exact hhad

theorem checkedRun_unseen {env : BotEnv} {st st' : BotState} {records : List (String × FactRecord)}
    (h : CheckedRun env st records st') (hst : UnseenWhenMade env st.edits) :
    UnseenWhenMade env st'.edits := by
  induction h with
  | nil => exact hst
  | cons _ hchecked _ ih => exact ih (blockChecked_unseen hst hchecked)

/-- The repository shows every edit made: after the edits `edits`, one of the last 150
revisions of each edited item whose text parses has a claim for the edited property. -/
def ShowsEdits (env : BotEnv) : Prop :=
  ∀ edits, ∀ e ∈ edits, everHadProp env edits e.item e.prop = true

/-- Against a repository that shows every edit made, edits each made while its property was
unseen never add one property to one item twice. -/
theorem unseenWhenMade_nodup {env : BotEnv} (hshows : ShowsEdits env) {edits : List Edit}
    (h : UnseenWhenMade env edits) : (edits.map fun e => (e.item, e.prop)).Nodup := by
  induction edits using List.reverseRecOn with
  | nil => exact List.nodup_nil
  | append_singleton edits e ih =>
    have hhad := h edits e (List.prefix_refl _)
    rw [List.map_append, List.nodup_append]
    refine ⟨ih fun pre e' hpre => h pre e' (hpre.trans (List.prefix_append _ _)),
      List.nodup_singleton _, fun k hk hk' => ?_⟩
    obtain ⟨e', he', rfl⟩ := List.mem_map.1 hk
    obtain ⟨hitem, hprop⟩ := Prod.mk.inj (List.mem_singleton.1 hk')
    have hshown := hshows edits e' he'
    rw [hitem, hprop, hhad] at hshown
    exact Bool.false_ne_true hshown

/-- **No duplicated update.**  Against a repository whose recent revisions show every edit the
bot makes, a run of `storeRecords` adds each property to each item at most once, however often
the records repeat an item or a fact. -/
theorem storeRecords_nodup (env : BotEnv) (records : List (String × FactRecord))
    (batchSize : Nat) (st : BotState) (hshows : ShowsEdits env)
    (h : storeRecords env records batchSize = .ok st) :
    (st.edits.map fun e => (e.item, e.prop)).Nodup := by
  obtain ⟨_, -, hrun, -⟩ := storeRecordsLoop_checked records (Nat.zero_le _) h
  exact unseenWhenMade_nodup hshows
    (checkedRun_unseen hrun fun _ _ hpre => absurd (List.eq_nil_of_prefix_nil hpre) (by simp))

/-- A repository with one revision per item, whose claims are the properties the bot added. -/
def echoBotEnv : BotEnv :=
  { exampleBotEnv with
    revisions := fun edits item => [some ((edits.filter fun e => e.item == item).map (·.prop))] }

/-- A record proposing two birth dates for `Q1`. -/
def twoBirthDates : FactRecord := ⟨"Q1", [("P569", .int 1952), ("P569", .int 1953)], ⟨"Q7", "wikicat"⟩⟩

/-- The second birth date is skipped as a property `Q1` had. -/
theorem storeRecords_nodup_twoBirthDates :
    ∃ st, storeRecords echoBotEnv [("Q1", twoBirthDates)] 3 = .ok st ∧
      (st.edits.map fun e => (e.item, e.prop)).Nodup :=
  ⟨_, rfl, storeRecords_nodup echoBotEnv [("Q1", twoBirthDates)] 3 _
    (fun edits e he => by simpa [everHadProp, echoBotEnv] using ⟨e, ⟨he, rfl⟩, rfl⟩) rfl⟩

/-! ## 5. Redirect pages -/

/-- **A redirect item reuses an earlier record, or raises.**  Read first, the redirect item `Q2`
raises `UnboundLocalError`; read after `Q1`, its status is written under `Q2` with the item and
facts of `Q1`'s record. -/
theorem storeRecords_redirect_reuses :
    (storeRecords exampleBotEnv [("Q2", exampleRecord "Q2" 1960)] 3).map (·.statusFile) =
      .error "UnboundLocalError: local variable 'fact_record' referenced before assignment" ∧
    (storeRecords exampleBotEnv [("Q1", exampleRecord "Q1" 1952), ("Q2", exampleRecord "Q2" 1960)]
        3).map (·.statusFile) =
      .ok [("Q1", ⟨"Q1", [("P569", .int 1952)], .stored "1"⟩),
        ("Q2", ⟨"Q1", [("P569", .int 1952)], .skipped "is a redirect page"⟩)] :=
  ⟨rfl, rfl⟩

/-! ## 6. The status file logs the edits -/

/-- The entries of a status file whose status is `stored`. -/
def storedEntries (statusFile : List (String × StatusRecord)) : List (String × StatusRecord) :=
  statusFile.filter fun entry => match entry.2.status with
    | .stored _ => true
    | .skipped _ => false

/-- `Logs env entries edits`: the status entries `entries` report the edits `edits` one for one,
in order.  The report of an edit is written under the edited item, names that item and the
edited property, and carries the revision id the repository gives right after the edit. -/
inductive Logs (env : BotEnv) : List (String × StatusRecord) → List Edit → Prop
  | nil : Logs env [] []
  | snoc {entries : List (String × StatusRecord)} {edits : List Edit} {e : Edit} (val : Value) :
    Logs env entries edits →
      Logs env (entries ++ [(e.item, ⟨e.item, [(e.prop, val)],
        .stored (toString (env.latestRevisionId (edits ++ [e]) e.item))⟩)]) (edits ++ [e])

@[simp] theorem storedEntries_append_skipped (statusFile : List (String × StatusRecord))
    (key item : String) (facts : List (String × Value)) (reason : String) :
    storedEntries (statusFile ++ [(key, ⟨item, facts, .skipped reason⟩)]) =
      storedEntries statusFile := by
  simp [storedEntries]

@[simp] theorem storedEntries_append_stored (statusFile : List (String × StatusRecord))
    (key item : String) (facts : List (String × Value)) (revId : String) :
    storedEntries (statusFile ++ [(key, ⟨item, facts, .stored revId⟩)]) =
      storedEntries statusFile ++ [(key, ⟨item, facts, .stored revId⟩)] := by
  simp [storedEntries]

theorem storeFact_logs {env : BotEnv} {wdClaims : List String} {record : FactRecord}
    {st st' : BotState} (hst : Logs env (storedEntries st.statusFile) st.edits)
    {f : String × Value} (h : storeFact env record.item wdClaims record st f = .ok st') :
    Logs env (storedEntries st'.statusFile) st'.edits := by
  obtain ⟨prop, val⟩ := f
  rcases storeFact_cases h with rfl | ⟨_, rfl⟩ | ⟨-, -, target, -, rfl⟩
  · exact hst
  · simpa using hst
  · simp only [storedEntries_append_stored]
    exact Logs.snoc (e := ⟨record.item, prop, target, record.provenance.method ++ " " ++
      record.provenance.category, record.provenance.category⟩) val hst

theorem storeRecord_logs {env : BotEnv} {st st' : BotState} {item : String} {record : FactRecord}
    (hst : Logs env (storedEntries st.statusFile) st.edits)
    (h : storeRecord env st item record = .ok st') :
    Logs env (storedEntries st'.statusFile) st'.edits := by
  rcases storeRecord_cases h with ⟨_, -, rfl⟩ | rfl | ⟨-, rfl, st₁, h₁, rfl⟩
  · simpa using hst
  · simpa using hst
  · exact foldlM_induction (fun s => Logs env (storedEntries s.statusFile) s.edits)
      (fun _ _ _ _ hs h => storeFact_logs hs h) hst h₁

theorem storeRecordsLoop_logs {env : BotEnv} {batchSize : Nat}
    (records : List (String × FactRecord)) {st st' : BotState}
    (hst : Logs env (storedEntries st.statusFile) st.edits)
    (h : storeRecordsLoop env batchSize st records = .ok st') :
    Logs env (storedEntries st'.statusFile) st'.edits := by
  induction records generalizing st with
  | nil => cases h; exact hst
  | cons p records ih =>
    rw [storeRecordsLoop] at h
    split_ifs at h
    · cases h; exact hst
    · obtain ⟨st₁, h₁, h⟩ := bind_eq_ok.1 h
      exact ih (storeRecord_logs hst h₁) h

/-- **The status file is a log of the edits.**  Whenever `storeRecords` returns, the entries of
its status file with status `stored` report the claims it added, one for one and in order.
Each is written under the edited item, names that item and the edited property, and carries
the revision id the repository gave right after that edit. -/
theorem storeRecords_logs (env : BotEnv) (records : List (String × FactRecord))
    (batchSize : Nat) (st : BotState) (h : storeRecords env records batchSize = .ok st) :
    Logs env (storedEntries st.statusFile) st.edits :=
  storeRecordsLoop_logs records Logs.nil h

theorem storeRecords_logs_Q1 :
    ∃ st, storeRecords exampleBotEnv [("Q1", exampleRecord "Q1" 1952)] 3 = .ok st ∧
      Logs exampleBotEnv (storedEntries st.statusFile) st.edits :=
  ⟨_, rfl, storeRecords_logs exampleBotEnv [("Q1", exampleRecord "Q1" 1952)] 3 _ rfl⟩

/-! ## 7. The batch size -/

theorem storeRecordsLoop_batch {env : BotEnv} {batchSize : Nat}
    (records : List (String × FactRecord)) {st₀ st : BotState} (hb : st₀.updated ≤ batchSize)
    (h : storeRecordsLoop env batchSize st₀ records = .ok st) :
    ∃ pre, pre <+: records ∧
      pre.foldlM (fun st p => storeRecord env st p.1 p.2) st₀ = .ok st ∧
      (pre = records ∨ st.updated = batchSize) := by
  induction records generalizing st₀ with
  | nil => cases h; exact ⟨[], List.prefix_refl _, rfl, .inl rfl⟩
  | cons p records ih =>
    rw [storeRecordsLoop] at h
    split_ifs at h with hstop
    · cases h; exact ⟨[], List.nil_prefix, rfl, .inr (by omega)⟩
    · obtain ⟨st₁, h₁, h⟩ := bind_eq_ok.1 h
      obtain ⟨pre, hpre, hfold, hend⟩ := ih (by have := (storeRecord_checked h₁).2; omega) h
      refine ⟨p :: pre, List.cons_prefix_cons.2 ⟨rfl, hpre⟩, ?_, hend.imp_left (congrArg _)⟩
      simpa [List.foldlM_cons, h₁] using hfold

/-- **Only the batch size stops the loop early.**  Whenever `storeRecords` returns, it has run
the body of its loop on a prefix of the records, in order.  It stopped before the last record
only because `updated` had reached `batch_size`. -/
theorem storeRecords_batch (env : BotEnv) (records : List (String × FactRecord))
    (batchSize : Nat) {st : BotState} (h : storeRecords env records batchSize = .ok st) :
    ∃ pre, pre <+: records ∧
      pre.foldlM (fun st p => storeRecord env st p.1 p.2) ⟨[], [], 0, none⟩ = .ok st ∧
      (pre = records ∨ st.updated = batchSize) :=
  storeRecordsLoop_batch records (Nat.zero_le _) h

/-- With a batch size of 1, only the first of two records is stored. -/
theorem storeRecords_batch_one : ∃ st,
    storeRecords exampleBotEnv [("Q1", exampleRecord "Q1" 1952), ("Q3", exampleRecord "Q3" 1960)]
      1 = .ok st ∧
    ∃ pre, pre <+: [("Q1", exampleRecord "Q1" 1952), ("Q3", exampleRecord "Q3" 1960)] ∧
      pre.foldlM (fun st p => storeRecord exampleBotEnv st p.1 p.2) ⟨[], [], 0, none⟩ = .ok st ∧
      (pre = [("Q1", exampleRecord "Q1" 1952), ("Q3", exampleRecord "Q3" 1960)] ∨
        st.updated = 1) :=
  ⟨_, rfl, storeRecords_batch exampleBotEnv
    [("Q1", exampleRecord "Q1" 1952), ("Q3", exampleRecord "Q3" 1960)] 1 rfl⟩

end Wikibot

end FactMatch
