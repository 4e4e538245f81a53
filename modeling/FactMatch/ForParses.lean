import FactMatch.Output

/-!
# ForParses — `FactMatcher.for_parses`

`for_parses` computes the statistics of every span of every parse of a category, over the
category's members, and caches them by `(span.pids, span.qid)` so that a span repeated in
several parses is computed once.  The loop state is the cache together with a trace of the
visited spans: each span's key and whether `for_items` was called for it.

The cache only ever holds what `for_items` returns (`CacheSound`), so `for_parses` returns what
computing every span afresh returns (`forParses_eq_mapM`); and `for_items` is called at exactly
the first occurrence of each key (`forParsesLoop_trace_firstOccurrences`).
-/

namespace FactMatch

/-- A span of a category parse: its pid path, its proposed value, and the `fact_matches` slot
that `FactMatcherTask.run` sets. -/
structure Span where
  pids : List Value
  qid : Value
  factMatches : Option MatchFrame
  deriving DecidableEq, Repr

/-- The cache key of a span, `(span.pids, span.qid)`.  Keys are compared by content, as the
`key in cache` of the source does when sling arrays and frames hash and compare by content. -/
def Span.key (span : Span) : List Value × Value := (span.pids, span.qid)

/-- A candidate parse of a category: its spans, in order. -/
structure Parse where
  spans : List Span
  deriving DecidableEq, Repr

/-- A category record: its member items, and its parses `category("parse")`. -/
structure Category where
  members : List Value
  parses : List Parse
  deriving DecidableEq, Repr

/-- The locals `for_parses` carries across its loops, the cache `(pid, qid) -> match stats`,
and a trace of the spans visited: each key, and whether `for_items` was called for it. -/
structure ParsesState where
  cache : List Value × Value → Option Output
  trace : List ((List Value × Value) × Bool)

/-- The body of the loop over spans: the cached statistics of the span, or `for_items` over the
members and a new cache entry. -/
def lookupOrCompute (env : Env) (m : FactMatcher) (items : List Value) (st : ParsesState)
    (span : Span) : Except String (Output × ParsesState) :=
  match st.cache span.key with
  | some stats => pure (stats, { st with trace := st.trace ++ [(span.key, false)] })
  | none => do
    let stats ← forItems env m items span.pids span.qid
    pure (stats,
      { cache := Function.update st.cache span.key (some stats)
        trace := st.trace ++ [(span.key, true)] })

/-- The loop of `for_parses` over the spans of one parse. -/
def forSpans (env : Env) (m : FactMatcher) (items : List Value) :
    ParsesState → List Span → Except String (List Output × ParsesState)
  | st, [] => pure ([], st)
  | st, span :: spans => do
    let (stats, st) ← lookupOrCompute env m items st span
    let (parseStats, st) ← forSpans env m items st spans
    pure (stats :: parseStats, st)

/-- The loop of `for_parses` over the parses. -/
def forParsesLoop (env : Env) (m : FactMatcher) (items : List Value) :
    ParsesState → List Parse → Except String (List (List Output) × ParsesState)
  | st, [] => pure ([], st)
  | st, parse :: parses => do
    let (parseStats, st) ← forSpans env m items st parse.spans
    let (output, st) ← forParsesLoop env m items st parses
    pure (parseStats :: output, st)

/-- `FactMatcher.for_parses(category)`: one list of statistics per parse, one per span. -/
def forParses (env : Env) (m : FactMatcher) (category : Category) :
    Except String (List (List Output)) :=
  (forParsesLoop env m category.members ⟨fun _ => none, []⟩ category.parses).map (·.1)

/-! ## 1. The cache holds what `for_items` returns -/

/-- Every cached entry is what `for_items` over `items` returns for its key. -/
def CacheSound (env : Env) (m : FactMatcher) (items : List Value) (st : ParsesState) : Prop :=
  ∀ k o, st.cache k = some o → forItems env m items k.1 k.2 = .ok o

/-- One span: the statistics are those of `for_items`, and the cache stays sound. -/
theorem lookupOrCompute_sound {env : Env} {m : FactMatcher} {items : List Value}
    {st : ParsesState} {span : Span} (h : CacheSound env m items st) :
    (lookupOrCompute env m items st span).map (·.1) = forItems env m items span.pids span.qid ∧
      ∀ r, lookupOrCompute env m items st span = .ok r → CacheSound env m items r.2 := by
  unfold lookupOrCompute
  split
  · rename_i stats hs
    exact ⟨(h _ _ hs).symm, fun r hr => by cases hr; exact h⟩
  · cases hf : forItems env m items span.pids span.qid with
    | error e => exact ⟨rfl, fun r hr => by cases hr⟩
    | ok o =>
      refine ⟨rfl, fun r hr => ?_⟩
      cases hr
      intro k o' hk
      by_cases hks : k = span.key
      · subst hks; simp_all [Function.update_apply, Span.key]
      · exact h k o' (by simpa [Function.update_apply, hks] using hk)

theorem forSpans_sound {env : Env} {m : FactMatcher} {items : List Value} {spans : List Span}
    {st : ParsesState} (h : CacheSound env m items st) :
    (forSpans env m items st spans).map (·.1) =
        spans.mapM (fun s => forItems env m items s.pids s.qid) ∧
      ∀ r, forSpans env m items st spans = .ok r → CacheSound env m items r.2 := by
  induction spans generalizing st with
  | nil => exact ⟨rfl, fun r hr => by cases hr; exact h⟩
  | cons span spans ih =>
    obtain ⟨hmap, hsound⟩ := @lookupOrCompute_sound env m items st span h
    rw [List.mapM_cons, ← hmap]
    cases hl : lookupOrCompute env m items st span with
    | error e => simp [forSpans, hl, bind, Except.bind, Except.map]
    | ok r₁ =>
      obtain ⟨hmap', hsound'⟩ := ih (hsound r₁ hl)
      rw [← hmap']
      cases hs : forSpans env m items r₁.2 spans with
      | error e => simp [forSpans, hl, hs, bind, Except.bind, Except.map]
      | ok r₂ =>
        simp only [forSpans, hl, hs, bind, Except.bind, Except.map, pure, Except.pure,
          Except.ok.injEq, forall_eq', true_and]
        exact hsound' r₂ hs

theorem forParsesLoop_sound {env : Env} {m : FactMatcher} {items : List Value}
    {parses : List Parse} {st : ParsesState} (h : CacheSound env m items st) :
    (forParsesLoop env m items st parses).map (·.1) =
        parses.mapM (fun p => p.spans.mapM fun s => forItems env m items s.pids s.qid) ∧
      ∀ r, forParsesLoop env m items st parses = .ok r → CacheSound env m items r.2 := by
  induction parses generalizing st with
  | nil => exact ⟨rfl, fun r hr => by cases hr; exact h⟩
  | cons parse parses ih =>
    obtain ⟨hmap, hsound⟩ := @forSpans_sound env m items parse.spans st h
    rw [List.mapM_cons, ← hmap]
    cases hl : forSpans env m items st parse.spans with
    | error e => simp [forParsesLoop, hl, bind, Except.bind, Except.map]
    | ok r₁ =>
      obtain ⟨hmap', hsound'⟩ := ih (hsound r₁ hl)
      rw [← hmap']
      cases hs : forParsesLoop env m items r₁.2 parses with
      | error e => simp [forParsesLoop, hl, hs, bind, Except.bind, Except.map]
      | ok r₂ =>
        simp only [forParsesLoop, hl, hs, bind, Except.bind, Except.map, pure, Except.pure,
          Except.ok.injEq, forall_eq', true_and]
        exact hsound' r₂ hs

/-- **The cache of `for_parses` is invisible.**  `for_parses` returns, at position `(i, j)`, what
`for_items` over the members returns for span `j` of parse `i`, and fails where that does. -/
theorem forParses_eq_mapM (env : Env) (m : FactMatcher) (category : Category) :
    forParses env m category =
      category.parses.mapM fun p => p.spans.mapM fun s =>
        forItems env m category.members s.pids s.qid :=
  (forParsesLoop_sound fun _ _ h => by cases h).1

/-! ## 2. `for_items` is called at the first occurrence of each key -/

/-- For each key of `ks`, in order, whether no earlier position holds the same key. -/
def firstOccurrences {α : Type} [DecidableEq α] (ks : List α) : List (α × Bool) :=
  ks.mapIdx fun n k => (k, decide (k ∉ ks.take n))

theorem firstOccurrences_concat {α : Type} [DecidableEq α] (ks : List α) (k : α) :
    firstOccurrences (ks ++ [k]) = firstOccurrences ks ++ [(k, decide (k ∉ ks))] := by
  simp only [firstOccurrences, List.mapIdx_concat, List.take_left]
  congr 1
  refine List.ext_getElem? fun i => ?_
  simp only [List.getElem?_mapIdx]
  cases h : ks[i]? with
  | none => rfl
  | some x =>
    have hi : i ≤ ks.length := (List.getElem?_eq_some_iff.1 h).1.le
    simp [List.take_append_of_le_length hi]

/-- The keys `for_items` is called for: the first occurrences. -/
theorem count_firstOccurrences {α : Type} [DecidableEq α] [BEq α] [LawfulBEq α] (ks : List α)
    (k : α) :
    (((firstOccurrences ks).filter (·.2)).map (·.1)).count k = if k ∈ ks then 1 else 0 := by
  induction ks using List.reverseRecOn with
  | nil => simp [firstOccurrences]
  | append_singleton ks x ih =>
    rw [firstOccurrences_concat, List.filter_append, List.map_append, List.count_append, ih]
    by_cases hx : x ∈ ks <;> by_cases hk : k = x <;> simp [hx, hk]

/-- The loop state after visiting the keys `ks`: its trace marks their first occurrences, and
the cache holds exactly those keys. -/
def TraceInv (st : ParsesState) (ks : List (List Value × Value)) : Prop :=
  st.trace = firstOccurrences ks ∧ ∀ k, (st.cache k).isSome ↔ k ∈ ks

theorem lookupOrCompute_trace {env : Env} {m : FactMatcher} {items : List Value}
    {st : ParsesState} {span : Span} {ks : List (List Value × Value)}
    {r : Output × ParsesState} (h : TraceInv st ks)
    (hr : lookupOrCompute env m items st span = .ok r) : TraceInv r.2 (ks ++ [span.key]) := by
  obtain ⟨ht, hc⟩ := h
  unfold lookupOrCompute at hr
  split at hr
  · rename_i stats hs
    have hk : span.key ∈ ks := (hc _).1 (by simp [hs])
    cases hr
    refine ⟨by simp [ht, firstOccurrences_concat, hk], fun k => ?_⟩
    rw [hc, List.mem_append, List.mem_singleton]
    exact ⟨.inl, fun h => h.elim id fun h => h ▸ hk⟩
  · rename_i hs
    have hk : span.key ∉ ks := fun h => by simpa [hs] using (hc _).2 h
    cases hf : forItems env m items span.pids span.qid with
    | error e => simp [hf, bind, Except.bind] at hr
    | ok o =>
      simp only [hf, bind, Except.bind, pure, Except.pure, Except.ok.injEq] at hr
      subst hr
      refine ⟨by simp [ht, firstOccurrences_concat, hk], fun k => ?_⟩
      by_cases hks : k = span.key
      · subst hks; simp
      · simp [Function.update_apply, hks, hc]

theorem forSpans_trace {env : Env} {m : FactMatcher} {items : List Value} {spans : List Span}
    {st : ParsesState} {ks : List (List Value × Value)} {r : List Output × ParsesState}
    (h : TraceInv st ks) (hr : forSpans env m items st spans = .ok r) :
    TraceInv r.2 (ks ++ spans.map Span.key) := by
  induction spans generalizing st ks r with
  | nil => cases hr; simpa using h
  | cons span spans ih =>
    obtain ⟨r₁, hl, hr⟩ := bind_eq_ok.1 hr
    obtain ⟨r₂, hs, hr⟩ := bind_eq_ok.1 hr
    cases hr
    simpa using ih (lookupOrCompute_trace h hl) hs

theorem forParsesLoop_trace {env : Env} {m : FactMatcher} {items : List Value}
    {parses : List Parse} {st : ParsesState} {ks : List (List Value × Value)}
    {r : List (List Output) × ParsesState}
    (h : TraceInv st ks) (hr : forParsesLoop env m items st parses = .ok r) :
    TraceInv r.2 (ks ++ (parses.map fun p => p.spans.map Span.key).flatten) := by
  induction parses generalizing st ks r with
  | nil => cases hr; simpa using h
  | cons parse parses ih =>
    obtain ⟨r₁, hl, hr⟩ := bind_eq_ok.1 hr
    obtain ⟨r₂, hs, hr⟩ := bind_eq_ok.1 hr
    cases hr
    simpa using ih (forSpans_trace h hl) hs

/-- The keys of the spans of a category, parse by parse and span by span. -/
def spanKeys (category : Category) : List (List Value × Value) :=
  (category.parses.map fun p => p.spans.map Span.key).flatten

theorem mapM_ok {α β : Type} {f : α → Except String β} {l : List α}
    (h : ∀ x ∈ l, ∃ y, f x = .ok y) : ∃ ys, l.mapM f = .ok ys := by
  induction l with
  | nil => exact ⟨[], rfl⟩
  | cons x l ih =>
    obtain ⟨y, hy⟩ := h x (List.mem_cons_self x l)
    obtain ⟨ys, hys⟩ := ih fun x hx => h x (List.mem_cons_of_mem _ hx)
    exact ⟨y :: ys, mapM_cons_eq_ok.2 ⟨y, ys, hy, hys, rfl⟩⟩

/-- **`for_parses` calls `for_items` once per distinct key, at its first occurrence.**  When
`for_items` returns for the key of every span, `for_parses` returns; its trace marks a call at
exactly the spans whose key does not occur earlier in parse-then-span order, so each key of
the category is passed to `for_items` once, and no other key is. -/
theorem forParsesLoop_trace_firstOccurrences (env : Env) (m : FactMatcher) (category : Category)
    (hok : ∀ k ∈ spanKeys category, ∃ o, forItems env m category.members k.1 k.2 = .ok o) :
    ∃ output st,
      forParsesLoop env m category.members ⟨fun _ => none, []⟩ category.parses =
        .ok (output, st) ∧
      st.trace = firstOccurrences (spanKeys category) ∧
      ∀ k, ((st.trace.filter (·.2)).map (·.1)).count k =
        if k ∈ spanKeys category then 1 else 0 := by
  obtain ⟨outs, houts⟩ : ∃ outs, (category.parses.mapM fun p => p.spans.mapM fun s =>
      forItems env m category.members s.pids s.qid) = .ok outs :=
    mapM_ok fun p hp => mapM_ok fun s hs =>
      hok s.key (List.mem_flatten.2 ⟨_, List.mem_map.2 ⟨p, hp, rfl⟩, List.mem_map.2 ⟨s, hs, rfl⟩⟩)
  have hmap := (@forParsesLoop_sound env m category.members category.parses ⟨fun _ => none, []⟩
    fun _ _ h => by cases h).1
  rw [houts] at hmap
  cases hl : forParsesLoop env m category.members ⟨fun _ => none, []⟩ category.parses with
  | error e => rw [hl] at hmap; cases hmap
  | ok r =>
    obtain ⟨ht, -⟩ := @forParsesLoop_trace env m category.members category.parses _ [] r
      ⟨rfl, by simp⟩ hl
    rw [List.nil_append] at ht
    exact ⟨r.1, r.2, rfl, ht, fun k => by rw [ht]; exact count_firstOccurrences _ k⟩

/-- Two parses of one member, sharing the span `P17 = Q1`. -/
def exampleCategory : Category where
  members := [.frame "Q5"]
  parses :=
    [⟨[⟨[.frame "P17"], .frame "Q1", none⟩, ⟨[.frame "P31"], .frame "Q5", none⟩]⟩,
      ⟨[⟨[.frame "P17"], .frame "Q1", none⟩]⟩]

theorem forParsesLoop_exampleCategory :
    ∃ output st,
      forParsesLoop exampleEnv exampleMatcher exampleCategory.members ⟨fun _ => none, []⟩
          exampleCategory.parses = .ok (output, st) ∧
      st.trace = firstOccurrences (spanKeys exampleCategory) ∧
      ∀ k, ((st.trace.filter (·.2)).map (·.1)).count k =
        if k ∈ spanKeys exampleCategory then 1 else 0 :=
  forParsesLoop_trace_firstOccurrences exampleEnv exampleMatcher exampleCategory fun k hk => by
    simp only [spanKeys, exampleCategory, Span.key, List.map_cons, List.map_nil, List.flatten,
      List.cons_append, List.nil_append, List.mem_cons, List.not_mem_nil, or_false] at hk
    rcases hk with rfl | rfl | rfl <;> exact ⟨_, rfl⟩

end FactMatch
