import FactMatch.Date
import FactMatch.Matcher

/-!
# ForItem — `FactMatcher._existing_facts` and `FactMatcher.for_item`

`forItem` asserts that the proposed value is a frame, fetches the existing targets of the path
without closure backoff, and returns the first match type whose test holds: `NEW` for no
target, then `EXACT`, `SUBSUMES_EXISTING`, `SUBSUMED_BY_EXISTING`, and `CONFLICT` or `ADDITIONAL`
by the path alone.  Every test is an existential over the existing targets, so the result only
moves earlier in that order as targets are added (`forItem_antitone`).  Swapping the proposed
and the single existing value swaps the two subsumption results except where `subsumes` holds
both ways (`forItem_swap`), and a proposed date finer than the existing one is
`SUBSUMED_BY_EXISTING` (`forItem_finer_date`).
-/

namespace FactMatch

/-- `FactMatcher._existing_facts(store, item, prop, closure)`: the targets of the facts of
`item` whose property path is `prop`; `prop[0]` of an empty path is an `IndexError`. -/
def existingFacts (env : Env) (item : Value) (prop : List Value) (closure : Bool) :
    Except String (List Value) :=
  match prop with
  | [] => throw "IndexError: list index out of range"
  | pid :: _ =>
    pure ((env.factsFor item [pid] closure).filterMap fun fact =>
      if fact.dropLast = prop then fact.getLast? else none)

/-- Lines 214–260 of `for_item`, once the existing targets `exactFacts` of the path `prop` are
known: the type of the match of `value` against them. -/
def matchType (env : Env) (m : FactMatcher) (prop : List Value) (value : Value)
    (exactFacts : List Value) : FactMatchType :=
  let dateValued := m.dateValued prop.getLast!
  let proposedDate := env.date value
  let existingDates := exactFacts.map env.date
  if exactFacts.length = 0 then .new
  else if value ∈ exactFacts then .exact
  else if dateValued ∧
      existingDates.any (fun e => env.dateValue e = env.dateValue proposedDate) then .exact
  -- Check whether the proposed fact subsumes an existing fact.
  else if (if dateValued then existingDates.any (fun e => finerDate e proposedDate)
      else exactFacts.any fun e => e.isFrame && subsumes env m prop.getLast! value e) then
    .subsumesExisting
  -- Check whether the proposed fact is subsumed by an existing fact.
  else if (if dateValued then existingDates.any (fun e => finerDate proposedDate e)
      else exactFacts.any fun e => e.isFrame && subsumes env m prop.getLast! e value) then
    .subsumedByExisting
  -- Check for conflicts in case of unique-valued properties.
  else if prop.length = 1 ∧ prop.head! ∈ m.uniqueProperties then .conflict
  else .additional

/-- `FactMatcher.for_item(item, prop, value)` for a pid path `prop`. -/
def forItem (env : Env) (m : FactMatcher) (item : Value) (prop : List Value) (value : Value) :
    Except String FactMatchType := do
  unless value.isFrame do throw "AssertionError"
  let exactFacts ← existingFacts env item prop false
  pure (matchType env m prop value exactFacts)

/-! ## 1. `for_item` on a frame -/

theorem forItem_frame (env : Env) (m : FactMatcher) (item : Value) (prop : List Value)
    (q : String) :
    forItem env m item prop (.frame q) =
      (existingFacts env item prop false).map (matchType env m prop (.frame q)) := by
  simp only [forItem, Value.isFrame_frame, if_true]
  cases existingFacts env item prop false <;> rfl

/-! ## 2. The precedence of the match types -/

/-- The order in which `for_item` tries the match types; `CONFLICT` and `ADDITIONAL` are decided
by the path alone and share the last place. -/
def FactMatchType.precedence : FactMatchType → Nat
  | .new => 0
  | .exact => 1
  | .subsumesExisting => 2
  | .subsumedByExisting => 3
  | .conflict => 4
  | .additional => 4

/-- The first of `EXACT`, `SUBSUMES_EXISTING` and `SUBSUMED_BY_EXISTING` whose test holds, else
`fallback`. -/
def firstMatch (exact subsumesExisting subsumedByExisting : Bool) (fallback : FactMatchType) :
    FactMatchType :=
  if exact then .exact
  else if subsumesExisting then .subsumesExisting
  else if subsumedByExisting then .subsumedByExisting
  else fallback

/-- Making tests true only moves `firstMatch` earlier. -/
theorem firstMatch_precedence_le {a₁ a₂ a₃ b₁ b₂ b₃ : Bool} {fallback : FactMatchType}
    (hf : 4 ≤ fallback.precedence) (h₁ : a₁ → b₁) (h₂ : a₂ → b₂) (h₃ : a₃ → b₃) :
    (firstMatch b₁ b₂ b₃ fallback).precedence ≤ (firstMatch a₁ a₂ a₃ fallback).precedence := by
  unfold firstMatch
  split_ifs <;> simp_all [FactMatchType.precedence] <;> omega

/-- `for_item` on a non-empty list of existing targets: each test is an `any` over the targets. -/
theorem matchType_of_ne_nil (env : Env) (m : FactMatcher) (prop : List Value) (value : Value)
    {E : List Value} (hE : E ≠ []) :
    matchType env m prop value E =
      firstMatch
        (decide (value ∈ E) || m.dateValued prop.getLast! &&
          E.any fun e => env.dateValue (env.date e) = env.dateValue (env.date value))
        (E.any fun e => if m.dateValued prop.getLast! then finerDate (env.date e) (env.date value)
          else e.isFrame && subsumes env m prop.getLast! value e)
        (E.any fun e => if m.dateValued prop.getLast! then finerDate (env.date value) (env.date e)
          else e.isFrame && subsumes env m prop.getLast! e value)
        (if prop.length = 1 ∧ prop.head! ∈ m.uniqueProperties then .conflict else .additional) := by
  by_cases hv : value ∈ E <;> cases hdv : m.dateValued prop.getLast! <;>
    simp [matchType, firstMatch, hE, hdv, hv, List.any_map, Function.comp_def]

theorem any_of_subset {l₁ l₂ : List Value} (h : ∀ x ∈ l₁, x ∈ l₂) {f : Value → Bool}
    (h₁ : l₁.any f = true) : l₂.any f = true := by
  obtain ⟨x, hx, hf⟩ := List.any_eq_true.1 h₁
  exact List.any_eq_true.2 ⟨x, h x hx, hf⟩

/-- **Adding existing targets only moves `for_item` earlier.**  With `E₁` among the targets of
`E₂`, the match against `E₂` comes no later in the order `EXACT`, `SUBSUMES_EXISTING`,
`SUBSUMED_BY_EXISTING`, `CONFLICT`/`ADDITIONAL` than the match against `E₁`. -/
theorem matchType_antitone (env : Env) (m : FactMatcher) (prop : List Value) (value : Value)
    {E₁ E₂ : List Value} (hE : E₁ ≠ []) (hsub : ∀ x ∈ E₁, x ∈ E₂) :
    (matchType env m prop value E₂).precedence ≤ (matchType env m prop value E₁).precedence := by
  have hE₂ : E₂ ≠ [] := fun h => hE (List.eq_nil_iff_forall_not_mem.2 fun x hx => by
    simpa [h] using hsub x hx)
  rw [matchType_of_ne_nil env m prop value hE, matchType_of_ne_nil env m prop value hE₂]
  apply firstMatch_precedence_le (by split <;> simp [FactMatchType.precedence])
  · simp only [Bool.or_eq_true, decide_eq_true_eq, Bool.and_eq_true]
    exact Or.imp (hsub value) (And.imp_right (any_of_subset hsub))
  · exact any_of_subset hsub
  · exact any_of_subset hsub

/-- The match only depends on the set of existing targets. -/
theorem matchType_congr (env : Env) (m : FactMatcher) (prop : List Value) (value : Value)
    {E₁ E₂ : List Value} (hE : E₁ ≠ []) (h₁₂ : ∀ x ∈ E₁, x ∈ E₂) (h₂₁ : ∀ x ∈ E₂, x ∈ E₁) :
    matchType env m prop value E₁ = matchType env m prop value E₂ := by
  have hE₂ : E₂ ≠ [] := fun h => hE (List.eq_nil_iff_forall_not_mem.2 fun x hx => by
    simpa [h] using h₁₂ x hx)
  have hany : ∀ f : Value → Bool, E₁.any f = E₂.any f := fun f =>
    Bool.eq_iff_iff.2 ⟨any_of_subset h₁₂, any_of_subset h₂₁⟩
  rw [matchType_of_ne_nil env m prop value hE, matchType_of_ne_nil env m prop value hE₂,
    hany, hany, hany]
  congr 2
  exact decide_eq_decide.2 ⟨h₁₂ value, h₂₁ value⟩

/-- **`for_item` against two extractor outputs.**  If the existing targets `E₁` of the path under
`F₁` are non-empty and all among the targets `E₂` under `F₂`, `for_item` under `F₂` returns a
match no later in the precedence than under `F₁`, and the same match when the two sets of
targets are equal: order, duplicates and the tuples of other paths do not matter. -/
theorem forItem_antitone (env : Env) (m : FactMatcher) (item : Value) (P : List Value)
    (q : String) (F₁ F₂ : Value → List Value → Bool → List (List Value)) (E₁ E₂ : List Value)
    (h₁ : existingFacts { env with factsFor := F₁ } item P false = .ok E₁)
    (h₂ : existingFacts { env with factsFor := F₂ } item P false = .ok E₂)
    (hE : E₁ ≠ []) (hsub : ∀ x ∈ E₁, x ∈ E₂) :
    ∃ t₁ t₂, forItem { env with factsFor := F₁ } m item P (.frame q) = .ok t₁ ∧
      forItem { env with factsFor := F₂ } m item P (.frame q) = .ok t₂ ∧
      t₂.precedence ≤ t₁.precedence ∧ ((∀ x ∈ E₂, x ∈ E₁) → t₁ = t₂) := by
  refine ⟨matchType env m P (.frame q) E₁, matchType env m P (.frame q) E₂, ?_, ?_,
    matchType_antitone env m P _ hE hsub, matchType_congr env m P _ hE hsub⟩ <;>
    simp only [forItem_frame, h₁, h₂] <;> rfl

/-- A second extractor output adds `Q1` and a tuple of another path to the targets `[Q3]`. -/
theorem forItem_antitone_P17 :
    ∃ t₁ t₂,
      forItem { exampleEnv with factsFor := fun _ _ _ => [[.frame "P17", .frame "Q3"]] }
        exampleMatcher (.frame "Q5") [.frame "P17"] (.frame "Q1") = .ok t₁ ∧
      forItem { exampleEnv with factsFor := fun _ _ _ =>
          [[.frame "P31", .frame "Q5"], [.frame "P17", .frame "Q1"], [.frame "P17", .frame "Q3"]] }
        exampleMatcher (.frame "Q5") [.frame "P17"] (.frame "Q1") = .ok t₂ ∧
      t₂.precedence ≤ t₁.precedence ∧
      ((∀ x ∈ [Value.frame "Q1", .frame "Q3"], x ∈ [Value.frame "Q3"]) → t₁ = t₂) :=
  forItem_antitone exampleEnv exampleMatcher (.frame "Q5") [.frame "P17"] "Q1" _ _
    [.frame "Q3"] [.frame "Q1", .frame "Q3"] rfl rfl (by simp) (by decide)

/-! ## 3. Swapping the proposed and the existing value -/

theorem firstMatch_eq_subsumesExisting {a b c : Bool} {fallback : FactMatchType}
    (hf : 4 ≤ fallback.precedence) :
    firstMatch a b c fallback = .subsumesExisting ↔ a = false ∧ b = true := by
  unfold firstMatch
  split_ifs <;> simp_all
  rintro rfl; simp [FactMatchType.precedence] at hf

theorem firstMatch_eq_subsumedByExisting {a b c : Bool} {fallback : FactMatchType}
    (hf : 4 ≤ fallback.precedence) :
    firstMatch a b c fallback = .subsumedByExisting ↔ a = false ∧ b = false ∧ c = true := by
  unfold firstMatch
  split_ifs <;> simp_all
  rintro rfl; simp [FactMatchType.precedence] at hf

/-- `for_item` of `v` against the single existing target `e`. -/
theorem matchType_singleton (env : Env) (m : FactMatcher) (P : List Value) (v e : Value) :
    matchType env m P v [e] =
      firstMatch
        (decide (v = e) || m.dateValued P.getLast! &&
          env.dateValue (env.date e) = env.dateValue (env.date v))
        (if m.dateValued P.getLast! then finerDate (env.date e) (env.date v)
          else e.isFrame && subsumes env m P.getLast! v e)
        (if m.dateValued P.getLast! then finerDate (env.date v) (env.date e)
          else e.isFrame && subsumes env m P.getLast! e v)
        (if P.length = 1 ∧ P.head! ∈ m.uniqueProperties then .conflict else .additional) := by
  simp [matchType_of_ne_nil env m P v (List.cons_ne_nil e [])]

/-- **Swapping a proposed and an existing frame.**  With the single existing target `e`,
`for_item` of `v` is `SUBSUMES_EXISTING` iff, with the single target `v`, `for_item` of `e` is
`SUBSUMED_BY_EXISTING`, unless the path ends in an item-valued property for which `subsumes`
holds both ways (alias-equal frames, or frames on a cycle of the closure relation); then both
calls return `SUBSUMES_EXISTING`.  On dates the two tests never hold together. -/
theorem forItem_swap (env : Env) (m : FactMatcher) (item : Value) (P : List Value)
    (v e : String) (hve : v ≠ e) (Fe Fv : Value → List Value → Bool → List (List Value))
    (he : existingFacts { env with factsFor := Fe } item P false = .ok [.frame e])
    (hv : existingFacts { env with factsFor := Fv } item P false = .ok [.frame v]) :
    (¬(m.dateValued P.getLast! = false ∧ subsumes env m P.getLast! (.frame v) (.frame e) ∧
        subsumes env m P.getLast! (.frame e) (.frame v)) →
      (forItem { env with factsFor := Fe } m item P (.frame v) = .ok .subsumesExisting ↔
        forItem { env with factsFor := Fv } m item P (.frame e) = .ok .subsumedByExisting)) ∧
    (m.dateValued P.getLast! = false → subsumes env m P.getLast! (.frame v) (.frame e) →
      subsumes env m P.getLast! (.frame e) (.frame v) →
      forItem { env with factsFor := Fe } m item P (.frame v) = .ok .subsumesExisting ∧
        forItem { env with factsFor := Fv } m item P (.frame e) = .ok .subsumesExisting) := by
  have hl : forItem { env with factsFor := Fe } m item P (.frame v) =
      .ok (matchType env m P (.frame v) [.frame e]) := by simp only [forItem_frame, he]; rfl
  have hr : forItem { env with factsFor := Fv } m item P (.frame e) =
      .ok (matchType env m P (.frame e) [.frame v]) := by simp only [forItem_frame, hv]; rfl
  have hf : 4 ≤ (if P.length = 1 ∧ P.head! ∈ m.uniqueProperties then FactMatchType.conflict
      else .additional).precedence := by split <;> simp [FactMatchType.precedence]
  have hev : Value.frame e ≠ Value.frame v := fun h => hve (Value.frame.inj h).symm
  simp only [hl, hr, Except.ok.injEq, matchType_singleton,
    firstMatch_eq_subsumesExisting hf, firstMatch_eq_subsumedByExisting hf]
  cases hdv : m.dateValued P.getLast!
  · simp [hve, hev]
    exact fun h1 h2 => ⟨h1, h2⟩
  · have ha : (decide (Value.frame e = .frame v) ||
        decide (env.dateValue (env.date (.frame v)) = env.dateValue (env.date (.frame e)))) =
        (decide (Value.frame v = .frame e) ||
          decide (env.dateValue (env.date (.frame e)) = env.dateValue (env.date (.frame v)))) := by
      simp [eq_comm]
    simp only [if_true, Bool.true_and, ha]
    exact ⟨fun _ => ⟨fun ⟨hx, hfiner⟩ => ⟨hx, finerDate_asymm hfiner, hfiner⟩,
      fun ⟨hx, _, hfiner⟩ => ⟨hx, hfiner⟩⟩, fun h => nomatch h⟩

/-- `exampleEnv` where `Q1` lies strictly above `Q3` along `P279`, and nothing else is related. -/
def subclassEnv : Env :=
  { exampleEnv with
    inClosure := fun R coarse fine =>
      decide ((R, coarse, fine) = (.frame "P279", .frame "Q1", .frame "Q3")) }

/-- Against an existing `Q3`, the proposed `Q1` subsumes it, and against an existing `Q1`, the
proposed `Q3` is subsumed by it. -/
theorem forItem_swap_Q1_Q3 :
    forItem { subclassEnv with factsFor := fun _ _ _ => [[.frame "P17", .frame "Q3"]] }
        exampleMatcher (.frame "Q5") [.frame "P17"] (.frame "Q1") = .ok .subsumesExisting ∧
      forItem { subclassEnv with factsFor := fun _ _ _ => [[.frame "P17", .frame "Q1"]] }
        exampleMatcher (.frame "Q5") [.frame "P17"] (.frame "Q3") = .ok .subsumedByExisting :=
  have hswap := (forItem_swap subclassEnv exampleMatcher (.frame "Q5") [.frame "P17"] "Q1" "Q3"
    (by decide) (fun _ _ _ => [[.frame "P17", .frame "Q3"]])
    (fun _ _ _ => [[.frame "P17", .frame "Q1"]]) rfl rfl).1 (by decide)
  have hl : forItem { subclassEnv with factsFor := fun _ _ _ => [[.frame "P17", .frame "Q3"]] }
      exampleMatcher (.frame "Q5") [.frame "P17"] (.frame "Q1") = .ok .subsumesExisting := rfl
  ⟨hl, hswap.1 hl⟩

/-- **A finer proposed date is subsumed by the existing one.**  On a date-valued path with the
single existing target `e`, a proposed `v` whose date is strictly finer than that of `e`, and of
another value, is `SUBSUMED_BY_EXISTING`: `_finer_date` is asymmetric, so the test for
`SUBSUMES_EXISTING`, `_finer_date(e, v)`, fails. -/
theorem forItem_finer_date (env : Env) (m : FactMatcher) (item : Value) (P : List Value)
    (v e : String) (F : Value → List Value → Bool → List (List Value))
    (he : existingFacts { env with factsFor := F } item P false = .ok [.frame e])
    (hdate : m.dateValued P.getLast! = true) (hve : v ≠ e)
    (hvalue : env.dateValue (env.date (.frame e)) ≠ env.dateValue (env.date (.frame v)))
    (hfiner : finerDate (env.date (.frame v)) (env.date (.frame e)) = true) :
    forItem { env with factsFor := F } m item P (.frame v) = .ok .subsumedByExisting := by
  have hback := finerDate_asymm hfiner
  have hev : Value.frame v ≠ .frame e := fun h => hve (Value.frame.inj h)
  simp only [forItem_frame, he]
  simp [Except.map, matchType_singleton, firstMatch, hdate, hev, hvalue, hback, hfiner]

/-- Frames `1990` (a year) and `1990-03` (a month), valued as `yyyymmdd`. -/
def birthDateEnv : Env :=
  { exampleEnv with
    date := fun d => if d = .frame "1990-03" then ⟨1990, 3, 0, .month⟩ else ⟨1990, 0, 0, .year⟩
    dateValue := fun d => d.year * 10000 + d.month * 100 + d.day }

/-- An existing birth date of 1990 and a proposed one of March 1990. -/
theorem forItem_finer_date_March1990 :
    forItem { birthDateEnv with factsFor := fun _ _ _ => [[.frame "P569", .frame "1990"]] }
      exampleMatcher (.frame "Q5") [.frame "P569"] (.frame "1990-03") = .ok .subsumedByExisting :=
  forItem_finer_date birthDateEnv exampleMatcher (.frame "Q5") [.frame "P569"] "1990-03" "1990"
    (fun _ _ _ => [[.frame "P569", .frame "1990"]]) rfl rfl (by decide) (by decide) rfl

/-- `Q2` redirects to `Q1`: each subsumes the other, and both calls return
`SUBSUMES_EXISTING`. -/
theorem forItem_swap_alias :
    FactMatcher.init exampleKb = .ok exampleMatcher ∧
      forItem { exampleEnv with factsFor := fun _ _ _ => [[.frame "P17", .frame "Q2"]] }
        exampleMatcher (.frame "Q5") [.frame "P17"] (.frame "Q1") = .ok .subsumesExisting ∧
      forItem { exampleEnv with factsFor := fun _ _ _ => [[.frame "P17", .frame "Q1"]] }
        exampleMatcher (.frame "Q5") [.frame "P17"] (.frame "Q2") = .ok .subsumesExisting :=
  ⟨rfl, rfl, rfl⟩

end FactMatch
