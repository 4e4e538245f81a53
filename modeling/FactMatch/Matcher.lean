import FactMatch.Basic

/-!
# Matcher — the knowledge base, `FactMatcher.__init__` and `FactMatcher.subsumes`

`FactMatcher.init` scans the properties listed as roles of `/w/entity` once and sorts them into
date-, location- and unique-valued properties; `closureProperties` then sends every location
property to `P131` (located in) and `P69` (educated at) to `P361` (part of).  `subsumes` resolves
both frames and follows that closure relation, or `P279` / `P749` for a property with none.

`init_spec` is the postcondition of the scan: each set is exactly the properties with the
defining slots, and `subsumes` is reachability over the relation the property is assigned.
`init_returns_iff` says when the scan returns at all.
-/

namespace FactMatch

/-- A SLING knowledge base as `FactMatcher` reads it: the slots of every frame, in order, by frame
id, and `kb.resolve`, which maps a frame to the frame it redirects or was merged to. -/
structure Kb where
  slots : String → List (Value × Value)
  resolve : Value → Value

namespace Kb

/-- `for role, value in frame`: the slots of a frame; a literal has none. -/
def slotsOf (kb : Kb) : Value → List (Value × Value)
  | .frame id => kb.slots id
  | _ => []

/-- `frame(role)`: the values of the slots of `frame` with role `role`, in order. -/
def values (kb : Kb) (frame role : Value) : List Value :=
  (kb.slotsOf frame).filterMap fun s => if s.1 = role then some s.2 else none

/-- `frame[role]`, also `frame.role`: the first value of `role`, `None` when there is none. -/
def get (kb : Kb) (frame role : Value) : Option Value := (kb.values frame role).head?

end Kb

/-- The services a `FactMatcher` runs against: the knowledge base, the fact extractor
(`sling.FactExtractor`), and the two parts of `sling.Date` that `for_item` calls. -/
structure Env where
  kb : Kb
  /-- `facts_for(store, item, pids, closure)`: fact tuples, each a property path followed by its
  target. -/
  factsFor : Value → List Value → Bool → List (List Value)
  /-- `in_closure(store, property, coarse, fine)`. -/
  inClosure : Value → Value → Value → Bool
  /-- `sling.Date(x)`. -/
  date : Value → Date
  /-- `sling.Date.value()`: one comparable number for a date. -/
  dateValue : Date → Int

/-- The property index of a `FactMatcher`. -/
structure FactMatcher where
  uniqueProperties : List Value
  dateProperties : List Value
  locationProperties : List Value
  closureProperties : Value → Option Value

/-! ## 1. The scan of `__init__` -/

/-- `constraint_type == unique or constraint_type["is"] == unique`; subscripting a literal is a
`TypeError`. -/
def isUniqueConstraint (kb : Kb) (constraintType : Value) : Except String Bool :=
  if constraintType = .frame "Q19474404" then pure true
  else if constraintType.isFrame then
    pure (kb.get constraintType (.frame "is") = some (.frame "Q19474404"))
  else throw "TypeError: a literal constraint has no 'is' slot"

/-- The loop over `prop(constraint_role)`. -/
def scanConstraints (kb : Kb) (prop : Value) :
    List Value → List Value → Except String (List Value)
  | unique, [] => pure unique
  | unique, c :: cs => do
    let isUnique ← isUniqueConstraint kb c
    scanConstraints kb prop (if isUnique then unique.insert prop else unique) cs

/-- The loop over the slots of an item-valued `prop`, looking for a subproperty of `P276`. -/
def scanSubproperties (kb : Kb) (prop : Value) (location : List Value)
    (slots : List (Value × Value)) : List Value :=
  slots.foldl (fun l s =>
    if s.1 = .frame "P1647" ∧ kb.resolve s.2 = .frame "P276" then l.insert prop else l) location

/-- One iteration of the loop of `__init__` over the roles of `/w/entity`; `prop.target` of a
literal is an `AttributeError`. -/
def scanProperty (kb : Kb) (sets : List Value × List Value × List Value) (prop : Value) :
    Except String (List Value × List Value × List Value) := do
  let (unique, date, location) := sets
  unless prop.isFrame do throw "AttributeError: a literal role has no 'target'"
  let date :=
    if kb.get prop (.frame "target") = some (.frame "/w/time") then date.insert prop else date
  let location :=
    if kb.get prop (.frame "target") = some (.frame "/w/item") then
      scanSubproperties kb prop location (kb.slotsOf prop)
    else location
  let unique ← scanConstraints kb prop unique (kb.values prop (.frame "P2302"))
  pure (unique, date, location)

/-- The loop of `__init__` over the properties listed as roles of `/w/entity`. -/
def scanProperties (kb : Kb) :
    List Value × List Value × List Value → List Value →
      Except String (List Value × List Value × List Value)
  | sets, [] => pure sets
  | sets, prop :: props => do scanProperties kb (← scanProperty kb sets prop) props

/-- "Set closure properties": `P131` for every location property, then `P69 -> P361`. -/
def setClosureProperties (locationProperties : List Value) : Value → Option Value :=
  Function.update
    (locationProperties.foldl (fun m p => Function.update m p (some (.frame "P131")))
      fun _ => none)
    (.frame "P69") (some (.frame "P361"))

/-- `FactMatcher.__init__(kb, extractor)`. -/
def FactMatcher.init (kb : Kb) : Except String FactMatcher := do
  let (unique, date, location) ←
    scanProperties kb ([], [], []) (kb.values (.frame "/w/entity") (.frame "role"))
  pure
    { uniqueProperties := unique
      dateProperties := date
      locationProperties := location
      closureProperties := setClosureProperties location }

/-! ## 2. What the scan computes -/

/-- `prop.target == w_time`. -/
def IsDateProperty (kb : Kb) (p : Value) : Prop :=
  kb.get p (.frame "target") = some (.frame "/w/time")

/-- `prop.target == w_item` and some `P1647` (subproperty of) slot resolves to `P276`
(location). -/
def IsLocationProperty (kb : Kb) (p : Value) : Prop :=
  kb.get p (.frame "target") = some (.frame "/w/item") ∧
    ∃ v, (.frame "P1647", v) ∈ kb.slotsOf p ∧ kb.resolve v = .frame "P276"

/-- Some `P2302` (property constraint) of `p` is `Q19474404` (single-value constraint), directly
or as the `is` of a qualified constraint. -/
def IsUniqueProperty (kb : Kb) (p : Value) : Prop :=
  ∃ c ∈ kb.values p (.frame "P2302"),
    c = .frame "Q19474404" ∨ kb.get c (.frame "is") = some (.frame "Q19474404")

theorem mem_scanSubproperties {kb : Kb} {prop p : Value} {l : List Value}
    {slots : List (Value × Value)} :
    p ∈ scanSubproperties kb prop l slots ↔
      p ∈ l ∨ p = prop ∧ ∃ v, (.frame "P1647", v) ∈ slots ∧ kb.resolve v = .frame "P276" := by
  induction slots generalizing l with
  | nil => simp [scanSubproperties]
  | cons s slots ih =>
    obtain ⟨r, v⟩ := s
    have hstep : p ∈ (if r = .frame "P1647" ∧ kb.resolve v = .frame "P276" then l.insert prop
        else l) ↔ p ∈ l ∨ p = prop ∧ (r = .frame "P1647" ∧ kb.resolve v = .frame "P276") := by
      split_ifs with h <;> simp [List.mem_insert_iff, h, or_comm]
    simp only [scanSubproperties, List.foldl_cons] at ih ⊢
    rw [ih, hstep, or_assoc, ← and_or_left]
    simp only [List.mem_cons, Prod.mk.injEq, or_and_right, exists_or, and_assoc, exists_and_left,
      exists_eq_left, @eq_comm _ (Value.frame "P1647") r]

theorem isUniqueConstraint_ok {kb : Kb} {c : Value} {b : Bool}
    (h : isUniqueConstraint kb c = .ok b) :
    b = true ↔ c = .frame "Q19474404" ∨ kb.get c (.frame "is") = some (.frame "Q19474404") := by
  unfold isUniqueConstraint at h
  split at h
  · cases h; simp [*]
  · split at h
    · cases h; simp [*]
    · cases h

theorem mem_scanConstraints {kb : Kb} {prop p : Value} {u u' cs : List Value}
    (h : scanConstraints kb prop u cs = .ok u') :
    p ∈ u' ↔ p ∈ u ∨ p = prop ∧
      ∃ c ∈ cs, c = .frame "Q19474404" ∨ kb.get c (.frame "is") = some (.frame "Q19474404") := by
  induction cs generalizing u with
  | nil => cases h; simp
  | cons c cs ih =>
    obtain ⟨b, hb, h⟩ := bind_eq_ok.1 h
    have hu : p ∈ (if b then u.insert prop else u) ↔ p ∈ u ∨ p = prop ∧
        (c = .frame "Q19474404" ∨ kb.get c (.frame "is") = some (.frame "Q19474404")) := by
      rw [← isUniqueConstraint_ok hb]
      cases b <;> simp [List.mem_insert_iff, or_comm]
    rw [ih h, hu, List.exists_mem_cons_iff, or_assoc, ← and_or_left]

/-- A loop step that adds `a` to a set exactly when `a` has property `P`, followed by the rest of
the loop over `as`, adds exactly the elements of `a :: as` with `P`. -/
theorem mem_iff_of_step {α : Type} {s₁ s₂ s₃ : List α} {x a : α} {as : List α} {P : α → Prop}
    (h₁ : x ∈ s₂ ↔ x ∈ s₁ ∨ x = a ∧ P a) (h₂ : x ∈ s₃ ↔ x ∈ s₂ ∨ x ∈ as ∧ P x) :
    x ∈ s₃ ↔ x ∈ s₁ ∨ x ∈ a :: as ∧ P x := by
  rw [h₂, h₁, List.mem_cons]
  by_cases hx : x = a
  · subst hx
    simp only [true_and, true_or]
    exact ⟨fun h => h.elim id fun h => .inr h.2, .inl⟩
  · simp only [hx, false_and, or_false, false_or]

/-- One scanned property: each set gains `prop` exactly when `prop` has its defining slots. -/
theorem scanProperty_ok {kb : Kb} {prop p : Value} {u d l u' d' l' : List Value}
    (h : scanProperty kb (u, d, l) prop = .ok (u', d', l')) :
    (p ∈ u' ↔ p ∈ u ∨ p = prop ∧ IsUniqueProperty kb prop) ∧
      (p ∈ d' ↔ p ∈ d ∨ p = prop ∧ IsDateProperty kb prop) ∧
      (p ∈ l' ↔ p ∈ l ∨ p = prop ∧ IsLocationProperty kb prop) := by
  simp only [scanProperty, bind, Except.bind, pure, Except.pure] at h
  split at h
  · split at h
    · cases h
    · rename_i hu
      cases h
      refine ⟨?_, ?_, ?_⟩
      · rw [mem_scanConstraints hu, IsUniqueProperty]
      · unfold IsDateProperty
        split <;> simp [List.mem_insert_iff, or_comm, *]
      · unfold IsLocationProperty
        split
        · rw [mem_scanSubproperties]; simp [*]
        · simp [*]
  · cases h

/-- **The scan of `__init__`.**  After the loop over `props`, each set holds what it held before
and exactly those properties of `props` with the defining slots. -/
theorem scanProperties_ok {kb : Kb} {p : Value} {props u d l u' d' l' : List Value}
    (h : scanProperties kb (u, d, l) props = .ok (u', d', l')) :
    (p ∈ u' ↔ p ∈ u ∨ p ∈ props ∧ IsUniqueProperty kb p) ∧
      (p ∈ d' ↔ p ∈ d ∨ p ∈ props ∧ IsDateProperty kb p) ∧
      (p ∈ l' ↔ p ∈ l ∨ p ∈ props ∧ IsLocationProperty kb p) := by
  induction props generalizing u d l with
  | nil => cases h; simp
  | cons prop props ih =>
    obtain ⟨⟨u₁, d₁, l₁⟩, hs, h⟩ := bind_eq_ok.1 h
    obtain ⟨hu, hd, hl⟩ := scanProperty_ok (p := p) hs
    obtain ⟨hu', hd', hl'⟩ := ih h
    exact ⟨mem_iff_of_step hu hu', mem_iff_of_step hd hd', mem_iff_of_step hl hl'⟩

/-- `FactMatcher._date_valued(prop)`. -/
def FactMatcher.dateValued (m : FactMatcher) (prop : Value) : Bool := prop ∈ m.dateProperties

/-- `FactMatcher.subsumes(store, prop, coarse, fine)`: whether `coarse` subsumes `fine` by
following `prop` edges. -/
def subsumes (env : Env) (m : FactMatcher) (prop coarse fine : Value) : Bool :=
  let coarse := env.kb.resolve coarse
  let fine := env.kb.resolve fine
  if coarse = fine then true
  else
    match m.closureProperties prop with
    | some closureProperty => env.inClosure closureProperty coarse fine
    | none => env.inClosure (.frame "P279") coarse fine || env.inClosure (.frame "P749") coarse fine

/-! ## 3. Closure relations and `subsumes` -/

theorem foldl_update_apply (l : List Value) (v : Option Value) (f : Value → Option Value)
    (q : Value) :
    l.foldl (fun m p => Function.update m p v) f q = if q ∈ l then v else f q := by
  induction l generalizing f with
  | nil => simp
  | cons a l ih =>
    simp only [List.foldl_cons, ih, Function.update_apply, List.mem_cons]
    split_ifs <;> simp_all

theorem setClosureProperties_apply (l : List Value) (q : Value) :
    setClosureProperties l q =
      if q = .frame "P69" then some (.frame "P361")
      else if q ∈ l then some (.frame "P131") else none := by
  simp [setClosureProperties, Function.update_apply, foldl_update_apply]

/-- `subsumes` for a property with the closure relation `R`. -/
theorem subsumes_of_closure {env : Env} {m : FactMatcher} {p R : Value}
    (hR : m.closureProperties p = some R) (a b : Value) :
    subsumes env m p a b = true ↔
      env.kb.resolve a = env.kb.resolve b ∨
        env.inClosure R (env.kb.resolve a) (env.kb.resolve b) = true := by
  by_cases h : env.kb.resolve a = env.kb.resolve b <;> simp [subsumes, hR, h]

/-- **`subsumes` is transitive along a closure relation.**  For a property with a closure
relation `R` (`P131` for a location property, `P361` for `P69`), if `in_closure` is transitive
for `R`, so is `subsumes`: aliases are resolved first, and two containments make one.  A
property without one falls back to the union of `P279` and `P749`, where a chain through both
need not be in either. -/
theorem subsumes_trans {env : Env} {m : FactMatcher} {p R : Value}
    (hR : m.closureProperties p = some R)
    (htrans : ∀ x y z, env.inClosure R x y = true → env.inClosure R y z = true →
      env.inClosure R x z = true)
    {a b c : Value} (hab : subsumes env m p a b = true) (hbc : subsumes env m p b c = true) :
    subsumes env m p a c = true := by
  rw [subsumes_of_closure hR] at hab hbc ⊢
  rcases hab with hab | hab <;> rcases hbc with hbc | hbc
  · exact .inl (hab.trans hbc)
  · exact .inr (hab ▸ hbc)
  · exact .inr (hbc ▸ hab)
  · exact .inr (htrans _ _ _ hab hbc)

/-- **`FactMatcher.__init__`.**  The date-, location- and unique-valued properties are exactly the
roles of `/w/entity` with the defining slots; `P69` closes over `P361`, every other location
property over `P131`, and nothing else has a closure relation; so `subsumes` is alias equality
or reachability over the relation the property is assigned, `P279` or `P749` by default. -/
theorem init_spec {env : Env} {m : FactMatcher} (h : FactMatcher.init env.kb = .ok m) :
    (∀ p, p ∈ m.dateProperties ↔
      p ∈ env.kb.values (.frame "/w/entity") (.frame "role") ∧ IsDateProperty env.kb p) ∧
    (∀ p, p ∈ m.locationProperties ↔
      p ∈ env.kb.values (.frame "/w/entity") (.frame "role") ∧ IsLocationProperty env.kb p) ∧
    (∀ p, p ∈ m.uniqueProperties ↔
      p ∈ env.kb.values (.frame "/w/entity") (.frame "role") ∧ IsUniqueProperty env.kb p) ∧
    (∀ p, m.closureProperties p =
      if p = .frame "P69" then some (.frame "P361")
      else if p ∈ m.locationProperties then some (.frame "P131") else none) ∧
    (∀ p a b, subsumes env m p a b = true ↔
      env.kb.resolve a = env.kb.resolve b ∨
      p = .frame "P69" ∧ env.inClosure (.frame "P361") (env.kb.resolve a) (env.kb.resolve b) ∨
      p ≠ .frame "P69" ∧ p ∈ m.locationProperties ∧
        env.inClosure (.frame "P131") (env.kb.resolve a) (env.kb.resolve b) ∨
      p ≠ .frame "P69" ∧ p ∉ m.locationProperties ∧
        (env.inClosure (.frame "P279") (env.kb.resolve a) (env.kb.resolve b) ∨
          env.inClosure (.frame "P749") (env.kb.resolve a) (env.kb.resolve b))) := by
  obtain ⟨⟨u, d, l⟩, hs, h⟩ := bind_eq_ok.1 h
  cases h
  have hc := setClosureProperties_apply l
  refine ⟨fun p => ?_, fun p => ?_, fun p => ?_, hc, fun p a b => ?_⟩
  · simpa using (scanProperties_ok (p := p) hs).2.1
  · simpa using (scanProperties_ok (p := p) hs).2.2
  · simpa using (scanProperties_ok (p := p) hs).1
  · simp only [subsumes, hc]
    by_cases hp : p = .frame "P69"
    · simp [hp]
    · by_cases hl : p ∈ l <;> simp [hp, hl]

/-! ## 4. When `__init__` returns -/

theorem isUniqueConstraint_returns_iff (kb : Kb) (c : Value) :
    (∃ b, isUniqueConstraint kb c = .ok b) ↔ c.isFrame = true := by
  unfold isUniqueConstraint
  split_ifs with hq hc
  · subst hq; simp [pure, Except.pure]
  · simp [hc, pure, Except.pure]
  · simp [hc, throw, throwThe, MonadExceptOf.throw, Except.error]

theorem scanConstraints_returns_iff (kb : Kb) (prop : Value) (cs : List Value) (u : List Value) :
    (∃ u', scanConstraints kb prop u cs = .ok u') ↔ ∀ c ∈ cs, c.isFrame = true := by
  induction cs generalizing u with
  | nil => simp [scanConstraints, pure, Except.pure]
  | cons c cs ih =>
    simp only [scanConstraints, bind, Except.bind, List.forall_mem_cons]
    cases hc : isUniqueConstraint kb c with
    | error e =>
      have hnot : c.isFrame ≠ true := fun h => by
        obtain ⟨b, hb⟩ := (isUniqueConstraint_returns_iff kb c).2 h
        rw [hc] at hb; cases hb
      simp [hnot]
    | ok b =>
      rw [ih, (isUniqueConstraint_returns_iff kb c).1 ⟨b, hc⟩]
      exact ⟨fun h => ⟨rfl, h⟩, And.right⟩

theorem scanProperty_returns_iff (kb : Kb) (sets : List Value × List Value × List Value)
    (prop : Value) :
    (∃ r, scanProperty kb sets prop = .ok r) ↔
      prop.isFrame = true ∧ ∀ c ∈ kb.values prop (.frame "P2302"), c.isFrame = true := by
  obtain ⟨u, d, l⟩ := sets
  rw [← scanConstraints_returns_iff kb prop _ u]
  cases hp : prop.isFrame
  · simp [scanProperty, hp, bind, Except.bind, throw, throwThe, MonadExceptOf.throw]
  · simp only [scanProperty, hp, bind, Except.bind, true_and]
    cases scanConstraints kb prop u (kb.values prop (.frame "P2302")) <;> simp [pure, Except.pure]

theorem scanProperties_returns_iff (kb : Kb) (props : List Value)
    (sets : List Value × List Value × List Value) :
    (∃ r, scanProperties kb sets props = .ok r) ↔ ∀ p ∈ props,
      p.isFrame = true ∧ ∀ c ∈ kb.values p (.frame "P2302"), c.isFrame = true := by
  induction props generalizing sets with
  | nil => simp [scanProperties, pure, Except.pure]
  | cons p props ih =>
    simp only [scanProperties, bind, Except.bind, List.forall_mem_cons]
    cases hs : scanProperty kb sets p with
    | error e =>
      have hnot := (scanProperty_returns_iff kb sets p).not.1 (by simp [hs])
      simp [hnot]
    | ok r => rw [ih, ← scanProperty_returns_iff kb sets p]; simp [hs]

/-- **When `__init__` returns.**  Building the matcher fails exactly when a role of `/w/entity`
is a literal (its `target` is an `AttributeError`) or one of its `P2302` constraint values is a
literal (subscripting it is a `TypeError`); whatever the order of the roles, one such value
stops it. -/
theorem init_returns_iff (kb : Kb) :
    (∃ m, FactMatcher.init kb = .ok m) ↔
      ∀ p ∈ kb.values (.frame "/w/entity") (.frame "role"),
        p.isFrame = true ∧ ∀ c ∈ kb.values p (.frame "P2302"), c.isFrame = true := by
  rw [← scanProperties_returns_iff kb _ ([], [], [])]
  simp only [FactMatcher.init, bind, Except.bind]
  cases scanProperties kb ([], [], []) (kb.values (.frame "/w/entity") (.frame "role")) <;>
    simp [pure, Except.pure]

/-- A small schema: `P569` is date-valued, `P19` a location property through a redirect to
`P276`, `P26` unique-valued through a qualified constraint; `Q2` redirects to `Q1`. -/
def exampleKb : Kb where
  slots
    | "/w/entity" =>
      [(.frame "role", .frame "P569"), (.frame "role", .frame "P19"), (.frame "role", .frame "P26")]
    | "P569" => [(.frame "target", .frame "/w/time")]
    | "P19" => [(.frame "target", .frame "/w/item"), (.frame "P1647", .frame "Q2221906")]
    | "P26" => [(.frame "target", .frame "/w/item"), (.frame "P2302", .frame "c1")]
    | "c1" => [(.frame "is", .frame "Q19474404")]
    | _ => []
  resolve
    | .frame "Q2221906" => .frame "P276"
    | .frame "Q2" => .frame "Q1"
    | v => v

/-- `exampleKb` with an extractor that knows no facts and no closure edges. -/
def exampleEnv : Env where
  kb := exampleKb
  factsFor _ _ _ := []
  inClosure _ _ _ := false
  date _ := ⟨0, 0, 0, .year⟩
  dateValue _ := 0

/-- The matcher `init` builds for `exampleKb`. -/
def exampleMatcher : FactMatcher where
  uniqueProperties := [.frame "P26"]
  dateProperties := [.frame "P569"]
  locationProperties := [.frame "P19"]
  closureProperties := setClosureProperties [.frame "P19"]

/-- The depth of a place in the located-in chain `Q30` ⊒ `Q1384` ⊒ `Q60`; `0` off the chain. -/
def placeDepth : Value → Nat
  | .frame "Q30" => 1
  | .frame "Q1384" => 2
  | .frame "Q60" => 3
  | _ => 0

/-- `exampleEnv` whose located-in relation `P131` is the chain `Q30` ⊒ `Q1384` ⊒ `Q60`, closed
under transitivity. -/
def locatedInEnv : Env :=
  { exampleEnv with
    inClosure := fun R coarse fine =>
      R == .frame "P131" && decide (0 < placeDepth coarse ∧ placeDepth coarse < placeDepth fine) }

/-- Along the located-in relation of `P19`, `Q30` subsumes `Q1384`, which subsumes `Q60`, so
`Q30` subsumes `Q60`. -/
theorem subsumes_trans_Q30 :
    subsumes locatedInEnv exampleMatcher (.frame "P19") (.frame "Q30") (.frame "Q1384") = true ∧
      subsumes locatedInEnv exampleMatcher (.frame "P19") (.frame "Q1384") (.frame "Q60") = true ∧
      subsumes locatedInEnv exampleMatcher (.frame "P19") (.frame "Q30") (.frame "Q60") = true :=
  have hab : subsumes locatedInEnv exampleMatcher (.frame "P19") (.frame "Q30")
      (.frame "Q1384") = true := by decide
  have hbc : subsumes locatedInEnv exampleMatcher (.frame "P19") (.frame "Q1384")
      (.frame "Q60") = true := by decide
  ⟨hab, hbc, subsumes_trans (R := .frame "P131") rfl
    (fun x y z hxy hyz => by
      simp only [locatedInEnv, beq_self_eq_true, Bool.true_and, decide_eq_true_eq] at hxy hyz ⊢
      omega) hab hbc⟩

theorem init_exampleKb :
    FactMatcher.init exampleKb = .ok exampleMatcher ∧
      (.frame "P19" ∈ exampleMatcher.locationProperties ↔
        .frame "P19" ∈ exampleKb.values (.frame "/w/entity") (.frame "role") ∧
          IsLocationProperty exampleKb (.frame "P19")) :=
  ⟨rfl, (@init_spec exampleEnv exampleMatcher rfl).2.1 _⟩

end FactMatch
