import FactMatch.ForParses

/-!
# Task — `FactMatcherTask.run`

`run` builds the matcher, then for every input record computes `for_parses` and walks the parses
and spans again, zipped with their statistics, giving each span the frame `as_frame` of its
statistics; spans with equal keys share the frame saved in `frame_cache` for the first of them.
It writes the annotated record under the input key and increments the counter
`fact-matcher/categories-processed`.

`run_eq` says the two caches change nothing: the output is one record per input record, in order
and under the same key, with every span annotated by `as_frame` of `for_items` over the record's
members computed for that span alone.
-/

namespace FactMatch

/-- `frame_cache`: `(pid, qid)` -> frame containing their match statistics. -/
abbrev FrameCache := List Value × Value → Option MatchFrame

/-- `if span_key not in frame_cache: frame_cache[span_key] = span_match.as_frame(store)`. -/
def saveFrame (frameCache : FrameCache) (spanKey : List Value × Value) (spanMatch : Output) :
    FrameCache :=
  match frameCache spanKey with
  | some _ => frameCache
  | none => Function.update frameCache spanKey (some spanMatch.asFrame)

/-- The loop of `run` over the spans of a parse zipped with their statistics; `zip` stops at the
shorter list and leaves the other spans as they are. -/
def annotateSpans (frameCache : FrameCache) :
    List Span → List Output → List Span × FrameCache
  | span :: spans, spanMatch :: parseMatch =>
    let frameCache := saveFrame frameCache span.key spanMatch
    let (spans, frameCache') := annotateSpans frameCache spans parseMatch
    ({ span with factMatches := frameCache span.key } :: spans, frameCache')
  | spans, _ => (spans, frameCache)

/-- The loop of `run` over the parses of a record zipped with `for_parses`' statistics. -/
def annotateParses (frameCache : FrameCache) :
    List Parse → List (List Output) → List Parse × FrameCache
  | parse :: parses, parseMatch :: parseMatches =>
    let (spans, frameCache) := annotateSpans frameCache parse.spans parseMatch
    let (parses, frameCache) := annotateParses frameCache parses parseMatches
    ({ parse with spans } :: parses, frameCache)
  | parses, _ => (parses, frameCache)

/-- What `FactMatcherTask.run` leaves behind: the records written, in order, under their keys,
and the task's counters. -/
structure TaskOutput where
  written : List (String × Category)
  counters : String → Nat

/-- `task.increment(name)`. -/
def TaskOutput.increment (out : TaskOutput) (name : String) : TaskOutput :=
  { out with counters := Function.update out.counters name (out.counters name + 1) }

/-- One record: `for_parses`, the annotation loop, `writer.write` and the counter. -/
def runRecord (env : Env) (m : FactMatcher) (out : TaskOutput) (key : String)
    (category : Category) : Except String TaskOutput := do
  let parseMatches ← forParses env m category
  let (parses, _) := annotateParses (fun _ => none) category.parses parseMatches
  pure ({ out with written := out.written ++ [(key, { category with parses })] }.increment
    "fact-matcher/categories-processed")

/-- The loop of `run` over the input records. -/
def runRecords (env : Env) (m : FactMatcher) :
    TaskOutput → List (String × Category) → Except String TaskOutput
  | out, [] => pure out
  | out, (key, category) :: records => do
    runRecords env m (← runRecord env m out key category) records

/-- `FactMatcherTask.run(task)` on the records of the input, each already parsed from its
serialized value. -/
def run (env : Env) (records : List (String × Category)) : Except String TaskOutput := do
  let m ← FactMatcher.init env.kb
  runRecords env m ⟨[], fun _ => 0⟩ records

/-! ## 1. The two caches change nothing -/

/-- `span` with `fact_matches` set to the frame of `stats`. -/
def Span.annotate (span : Span) (stats : Output) : Span :=
  { span with factMatches := some stats.asFrame }

/-- `parse` with each span annotated by its statistics. -/
def Parse.annotate (parse : Parse) (stats : List Output) : Parse :=
  { parse with spans := List.zipWith Span.annotate parse.spans stats }

/-- A record with every span annotated by `as_frame` of `for_items` over the record's members,
computed for that span alone. -/
def annotateAfresh (env : Env) (m : FactMatcher) (category : Category) :
    Except String Category := do
  let parses ← category.parses.mapM fun parse => do
    let spans ← parse.spans.mapM fun span => do
      let stats ← forItems env m category.members span.pids span.qid
      pure (span.annotate stats)
    pure { parse with spans }
  pure { category with parses }

theorem mapM_bind_pure {α β γ : Type} (l : List α) (g : α → Except String β)
    (f : α → β → γ) :
    l.mapM (fun x => do let y ← g x; pure (f x y)) = (l.mapM g).map (List.zipWith f l) := by
  induction l with
  | nil => rfl
  | cons x l ih =>
    rw [List.mapM_cons, List.mapM_cons, ih]
    cases g x <;> cases l.mapM g <;> rfl

theorem mapM_map_zipWith {α β γ : Type} (l : List α) (g : α → Except String β)
    (f : α → β → γ) :
    l.mapM (fun x => (g x).map (f x)) = (l.mapM g).map (List.zipWith f l) := by
  rw [← mapM_bind_pure]
  rfl

/-- Every saved frame is `as_frame` of what `for_items` over `items` returns for its key. -/
def FrameCacheSound (env : Env) (m : FactMatcher) (items : List Value) (fc : FrameCache) : Prop :=
  ∀ k f, fc k = some f → ∃ o, forItems env m items k.1 k.2 = .ok o ∧ f = o.asFrame

theorem saveFrame_sound {env : Env} {m : FactMatcher} {items : List Value} {fc : FrameCache}
    {k : List Value × Value} {o : Output} (hfc : FrameCacheSound env m items fc)
    (hk : forItems env m items k.1 k.2 = .ok o) :
    FrameCacheSound env m items (saveFrame fc k o) ∧ saveFrame fc k o k = some o.asFrame := by
  unfold saveFrame
  cases hf : fc k with
  | some f =>
    obtain ⟨o', ho', rfl⟩ := hfc _ _ hf
    rw [hk] at ho'
    cases ho'
    exact ⟨hfc, hf⟩
  | none =>
    refine ⟨fun k' f hk' => ?_, by simp⟩
    by_cases hks : k' = k
    · subst hks; simp at hk'; exact ⟨o, hk, hk'.symm⟩
    · exact hfc k' f (by simpa [Function.update_apply, hks] using hk')

/-- The annotation loop over the spans of a parse, zipped with what `for_items` returns for
them, gives each span `as_frame` of its own statistics. -/
theorem annotateSpans_eq {env : Env} {m : FactMatcher} {items : List Value} {fc : FrameCache}
    {spans : List Span} {outs : List Output} (hfc : FrameCacheSound env m items fc)
    (h : spans.mapM (fun s => forItems env m items s.pids s.qid) = .ok outs) :
    (annotateSpans fc spans outs).1 = List.zipWith Span.annotate spans outs ∧
      FrameCacheSound env m items (annotateSpans fc spans outs).2 := by
  induction spans generalizing fc outs with
  | nil => cases h; exact ⟨rfl, hfc⟩
  | cons span spans ih =>
    obtain ⟨o, os, hg, hr, rfl⟩ := mapM_cons_eq_ok.1 h
    obtain ⟨hsave, hkey⟩ := saveFrame_sound (k := span.key) hfc hg
    obtain ⟨hspans, hsound⟩ := ih hsave hr
    simp only [annotateSpans, List.zipWith_cons_cons]
    exact ⟨by rw [hspans, hkey]; rfl, hsound⟩

theorem annotateParses_eq {env : Env} {m : FactMatcher} {items : List Value} {fc : FrameCache}
    {parses : List Parse} {outs : List (List Output)} (hfc : FrameCacheSound env m items fc)
    (h : parses.mapM (fun p => p.spans.mapM fun s => forItems env m items s.pids s.qid) =
      .ok outs) :
    (annotateParses fc parses outs).1 = List.zipWith Parse.annotate parses outs := by
  induction parses generalizing fc outs with
  | nil => cases h; rfl
  | cons parse parses ih =>
    obtain ⟨os, oss, hg, hr, rfl⟩ := mapM_cons_eq_ok.1 h
    obtain ⟨hspans, hsound⟩ := annotateSpans_eq hfc hg
    simp only [annotateParses, List.zipWith_cons_cons, hspans, ih hsound hr, Parse.annotate]

theorem zipWith_self_zipWith {α β γ δ : Type} (f : α → γ → δ) (g : α → β → γ) (l : List α)
    (l' : List β) : List.zipWith f l (List.zipWith g l l') = List.zipWith (fun a b => f a (g a b)) l l' := by
  induction l generalizing l' with
  | nil => rfl
  | cons a l ih => cases l' <;> simp [ih]

theorem annotateAfresh_eq (env : Env) (m : FactMatcher) (category : Category) :
    annotateAfresh env m category =
      (category.parses.mapM fun (p : Parse) => p.spans.mapM fun (s : Span) =>
        forItems env m category.members s.pids s.qid).map fun outs =>
          { category with parses := List.zipWith Parse.annotate category.parses outs } := by
  simp only [annotateAfresh, mapM_bind_pure, mapM_map_zipWith]
  cases category.parses.mapM fun (p : Parse) => p.spans.mapM fun (s : Span) =>
      forItems env m category.members s.pids s.qid with
  | error e => rfl
  | ok outs => simp only [Except.map, zipWith_self_zipWith]; rfl

/-- One record of `run` writes that record annotated afresh, or fails where `for_parses` does. -/
theorem runRecord_eq (env : Env) (m : FactMatcher) (out : TaskOutput) (key : String)
    (category : Category) :
    runRecord env m out key category =
      (annotateAfresh env m category).map fun c =>
        { out with written := out.written ++ [(key, c)] }.increment
          "fact-matcher/categories-processed" := by
  rw [runRecord, forParses_eq_mapM, annotateAfresh_eq]
  cases h : category.parses.mapM fun (p : Parse) => p.spans.mapM fun (s : Span) =>
      forItems env m category.members s.pids s.qid with
  | error e => rfl
  | ok outs =>
    have hann := @annotateParses_eq env m category.members (fun _ => none) category.parses outs
      (fun _ _ h => by cases h) h
    simp only [bind, Except.bind, Except.map, pure, Except.pure, hann]

theorem runRecords_eq (env : Env) (m : FactMatcher) (out : TaskOutput)
    (records : List (String × Category)) :
    runRecords env m out records =
      (records.mapM fun r => (annotateAfresh env m r.2).map ((r.1, ·))).map fun written =>
        ⟨out.written ++ written, Function.update out.counters "fact-matcher/categories-processed"
          (out.counters "fact-matcher/categories-processed" + records.length)⟩ := by
  induction records generalizing out with
  | nil =>
    rw [runRecords, List.mapM_nil]
    simp [Except.map, pure, Except.pure]
  | cons r records ih =>
    obtain ⟨key, category⟩ := r
    rw [runRecords, runRecord_eq, List.mapM_cons]
    cases annotateAfresh env m category with
    | error e => rfl
    | ok c =>
      show runRecords env m _ records = _
      rw [ih]
      cases records.mapM fun r => (annotateAfresh env m r.2).map ((r.1, ·)) with
      | error e => rfl
      | ok written =>
        simp only [Except.map, bind, Except.bind, pure, Except.pure, TaskOutput.increment,
          Function.update_same, Function.update_idem, List.append_assoc, List.singleton_append,
          List.length_cons, Nat.add_assoc, Nat.add_comm 1]

/-- **The two caches change nothing.**  `run` writes one record per input record, in input
order and under its key, each with every span annotated by `as_frame` of `for_items` over the
record's members computed for that span alone, and counts the records; it fails where the
matcher's construction fails, or else where the first failing `for_items` does.  Inside, `for_parses` returns
for every parse and span exactly what `for_items` returns for that span. -/
theorem run_eq (env : Env) (records : List (String × Category)) :
    run env records = (do
      let m ← FactMatcher.init env.kb
      let written ← records.mapM fun r => (annotateAfresh env m r.2).map ((r.1, ·))
      pure ⟨written, Function.update (fun _ => 0) "fact-matcher/categories-processed"
        records.length⟩) ∧
    ∀ m category, forParses env m category =
      category.parses.mapM fun p => p.spans.mapM fun s =>
        forItems env m category.members s.pids s.qid := by
  refine ⟨?_, forParses_eq_mapM env⟩
  rw [run]
  cases FactMatcher.init env.kb with
  | error e => rfl
  | ok m =>
    show runRecords env m _ records = _
    rw [runRecords_eq]
    simp only [bind, Except.bind]
    cases records.mapM fun r => (annotateAfresh env m r.2).map ((r.1, ·)) with
    | error e => rfl
    | ok written => simp [Except.map, pure, Except.pure]

end FactMatch
