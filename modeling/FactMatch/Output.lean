import FactMatch.ForItem
import Mathlib

/-!
# Output — `FactMatcher.Output` and `FactMatcher.for_items`

`Output.add` counts a match type and keeps its source item, unless the type is one of
`TYPES_WITH_EXEMPLARS_ONLY` and already holds `MAX_SOURCE_ITEMS` items.  Over any sequence of
adds the output is the histogram of the classified items (`Output.ofClassified`): per type, the
number of items and the items themselves in order, cut to ten for the exemplar-only types.
`forItems` is one add per item, so its output is that histogram of the `for_item` results.
Hence reordering the members changes no count (`forItems_perm`), and the frame `as_frame`
saves, read back in any order of its buckets, gives the output again
(`forItems_asFrame_toOutput`).
-/

namespace FactMatch

/-- `FactMatcher.MAX_SOURCE_ITEMS`. -/
def maxSourceItems : Nat := 10

/-- `FactMatcher.TYPES_WITH_EXEMPLARS_ONLY`: for these, only a handful of source items is kept. -/
def typesWithExemplarsOnly : List FactMatchType := [.exact, .conflict, .subsumesExisting]

/-- `FactMatcher.Output`: match type -> count, and match type -> [some] source items, two
`defaultdict`s.  Only `add` writes them, so the keys of `counts` are the types of positive
count. -/
@[ext] structure Output where
  counts : FactMatchType → Nat
  sourceItems : FactMatchType → List Value

namespace Output

/-- `Output()`. -/
def empty : Output := ⟨fun _ => 0, fun _ => []⟩

/-- `Output.add(match_type, source_item)`. -/
def add (o : Output) (matchType : FactMatchType) (sourceItem : Value) : Output where
  counts t := if t = matchType then o.counts t + 1 else o.counts t
  sourceItems t :=
    if t = matchType ∧ (matchType ∉ typesWithExemplarsOnly ∨
        (o.sourceItems matchType).length < maxSourceItems) then
      o.sourceItems t ++ [sourceItem]
    else o.sourceItems t

end Output

/-- One bucket of the frame `as_frame` saves. -/
structure Bucket where
  matchType : String
  count : Nat
  sourceItems : List Value
  deriving DecidableEq, Repr

/-- The frame `{"buckets": [...]}` that `as_frame` saves. -/
structure MatchFrame where
  buckets : List Bucket
  deriving DecidableEq, Repr

/-- `Output.as_frame(store)`: one bucket per key of `counts`.  The keys are visited in the order
of the enum values; Python does not fix the order of a dict's keys. -/
def Output.asFrame (o : Output) : MatchFrame :=
  ⟨(FactMatchType.all.filter fun t => 0 < o.counts t).map fun t =>
    ⟨t.name, o.counts t, o.sourceItems t⟩⟩

/-- `FactMatcher.for_items(items, prop, value)`: one `add` per item, in order. -/
def forItems (env : Env) (m : FactMatcher) (items : List Value) (prop : List Value)
    (value : Value) : Except String Output :=
  items.foldlM (fun output item => do
    let matchType ← forItem env m item prop value
    pure (output.add matchType item)) Output.empty

/-! ## 1. The histogram of a classified list -/

/-- The source items a histogram keeps of the `items` of type `t`. -/
def capSourceItems (t : FactMatchType) (items : List Value) : List Value :=
  if t ∈ typesWithExemplarsOnly then items.take maxSourceItems else items

/-- The histogram of items classified in order: each type's number of items, and its items in
input order, cut to `maxSourceItems` for the types kept as exemplars only. -/
def Output.ofClassified (xs : List (Value × FactMatchType)) : Output where
  counts t := xs.countP fun x => x.2 = t
  sourceItems t := capSourceItems t ((xs.filter fun x => x.2 = t).map (·.1))

theorem Output.ofClassified_nil : Output.ofClassified [] = Output.empty :=
  Output.ext (funext fun t => by simp [Output.ofClassified, Output.empty])
    (funext fun t => by simp [Output.ofClassified, Output.empty, capSourceItems])

theorem capSourceItems_append (t : FactMatchType) (items : List Value) (i : Value) :
    capSourceItems t (items ++ [i]) =
      if t ∉ typesWithExemplarsOnly ∨ (capSourceItems t items).length < maxSourceItems then
        capSourceItems t items ++ [i]
      else capSourceItems t items := by
  unfold capSourceItems
  split_ifs <;> simp_all [List.take_append_eq_append_take, List.take_of_length_le]
  omega

/-- **`Output.add` is one more item of the histogram.** -/
theorem Output.add_ofClassified (xs : List (Value × FactMatchType)) (t : FactMatchType)
    (i : Value) :
    (Output.ofClassified xs).add t i = Output.ofClassified (xs ++ [(i, t)]) := by
  refine Output.ext (funext fun t' => ?_) (funext fun t' => ?_)
  · by_cases h : t' = t
    · subst h; simp [Output.add, Output.ofClassified, List.countP_append]
    · simp [Output.add, Output.ofClassified, List.countP_append, h, Ne.symm h]
  · by_cases h : t' = t
    · subst h
      have hi : (([(i, t')] : List (Value × FactMatchType)).filter fun x => x.2 = t').map (·.1) =
          [i] := by simp
      simp only [Output.add, Output.ofClassified, List.filter_append, List.map_append, true_and,
        hi, capSourceItems_append]
    · simp [Output.add, Output.ofClassified, h, Ne.symm h]

theorem Output.sum_counts_ofClassified (xs : List (Value × FactMatchType)) :
    (FactMatchType.all.map (Output.ofClassified xs).counts).sum = xs.length := by
  induction xs with
  | nil => decide
  | cons x xs ih =>
    have hx : (FactMatchType.all.map fun t => if x.2 = t then 1 else 0).sum = 1 := by
      cases x.2 <;> decide
    simp only [Output.ofClassified, List.countP_cons, decide_eq_true_eq, List.length_cons] at ih ⊢
    rw [List.sum_map_add, ih, hx]

theorem Output.length_sourceItems_ofClassified (xs : List (Value × FactMatchType))
    (t : FactMatchType) :
    ((Output.ofClassified xs).sourceItems t).length =
      if t ∈ typesWithExemplarsOnly then min ((Output.ofClassified xs).counts t) maxSourceItems
      else (Output.ofClassified xs).counts t := by
  simp only [Output.ofClassified, capSourceItems, List.countP_eq_length_filter]
  split <;> simp [Nat.min_comm]

theorem Output.mem_asFrame (o : Output) (b : Bucket) :
    b ∈ o.asFrame.buckets ↔ ∃ t, 0 < o.counts t ∧ b = ⟨t.name, o.counts t, o.sourceItems t⟩ := by
  simp only [Output.asFrame, List.mem_map, List.mem_filter, decide_eq_true_eq]
  exact ⟨fun ⟨t, ⟨_, ht⟩, hb⟩ => ⟨t, ht, hb.symm⟩,
    fun ⟨t, ht, hb⟩ => ⟨t, ⟨FactMatchType.mem_all t, ht⟩, hb.symm⟩⟩

theorem Output.nodup_asFrame (o : Output) : (o.asFrame.buckets.map (·.matchType)).Nodup := by
  simp only [Output.asFrame, List.map_map]
  exact List.Nodup.map FactMatchType.name_injective (FactMatchType.nodup_all.filter _)

/-! ## 2. `for_items` -/

theorem foldlM_add_ofClassified (env : Env) (m : FactMatcher) (prop : List Value) (value : Value)
    (items : List Value) (xs : List (Value × FactMatchType)) :
    items.foldlM (fun output item => do
        let matchType ← forItem env m item prop value
        pure (output.add matchType item)) (Output.ofClassified xs) =
      (items.mapM fun i => (forItem env m i prop value).map ((i, ·))).map
        fun ys => Output.ofClassified (xs ++ ys) := by
  induction items generalizing xs with
  | nil => rw [List.foldlM_nil, List.mapM_nil]; simp [Except.map, pure, Except.pure]
  | cons i items ih =>
    rw [List.foldlM_cons, List.mapM_cons]
    cases forItem env m i prop value with
    | error e => rfl
    | ok t =>
      show List.foldlM _ ((Output.ofClassified xs).add t i) items = _
      rw [Output.add_ofClassified, ih]
      cases List.mapM (fun i => (forItem env m i prop value).map ((i, ·))) items <;>
        simp [Except.map, bind, Except.bind, pure, Except.pure]

/-- `for_items` is the histogram of the `for_item` results, or the first failure. -/
theorem forItems_eq_ofClassified (env : Env) (m : FactMatcher) (items : List Value)
    (prop : List Value) (value : Value) :
    forItems env m items prop value =
      (items.mapM fun i => (forItem env m i prop value).map ((i, ·))).map Output.ofClassified := by
  simpa [Output.ofClassified_nil] using foldlM_add_ofClassified env m prop value items []

/-- **`for_items` builds the histogram of the `for_item` results.**  For every list of items,
`for_items` fails where the first `for_item` fails, and otherwise returns the histogram of
the items paired with their match types: per type, the count of items classified so (the
counts sum to the number of items) and those items in input order, cut to `MAX_SOURCE_ITEMS`
exactly for the exemplar-only types; `as_frame` emits one bucket per type of positive count,
with that count and that list. -/
theorem forItems_histogram (env : Env) (m : FactMatcher) (items : List Value) (prop : List Value)
    (value : Value) :
    forItems env m items prop value =
      (items.mapM fun i => (forItem env m i prop value).map ((i, ·))).map Output.ofClassified ∧
    ∀ xs : List (Value × FactMatchType),
      (FactMatchType.all.map (Output.ofClassified xs).counts).sum = xs.length ∧
      (∀ t, ((Output.ofClassified xs).sourceItems t).length =
        if t ∈ typesWithExemplarsOnly then min ((Output.ofClassified xs).counts t) maxSourceItems
        else (Output.ofClassified xs).counts t) ∧
      (∀ b, b ∈ (Output.ofClassified xs).asFrame.buckets ↔ ∃ t,
        0 < (Output.ofClassified xs).counts t ∧
          b = ⟨t.name, (Output.ofClassified xs).counts t, (Output.ofClassified xs).sourceItems t⟩) ∧
      ((Output.ofClassified xs).asFrame.buckets.map (·.matchType)).Nodup := by
  exact ⟨forItems_eq_ofClassified env m items prop value, fun xs =>
    ⟨Output.sum_counts_ofClassified xs, Output.length_sourceItems_ofClassified xs,
      Output.mem_asFrame _, Output.nodup_asFrame _⟩⟩

/-! ## 3. Reordering the members -/

/-- `mapM` over `x :: xs` returns exactly when `x` and then `xs` do. -/
theorem mapM_cons_eq_ok {α β : Type} {g : α → Except String β} {x : α} {xs : List α}
    {outs : List β} :
    (x :: xs).mapM g = .ok outs ↔ ∃ y ys, g x = .ok y ∧ xs.mapM g = .ok ys ∧ outs = y :: ys := by
  rw [List.mapM_cons]
  cases g x with
  | error e => simp [bind, Except.bind]
  | ok y =>
    cases xs.mapM g with
    | error e => simp [bind, Except.bind]
    | ok ys => simp [bind, Except.bind, pure, Except.pure, eq_comm]

theorem mapM_eq_ok_map {α β : Type} {g : α → Except String β} {f : α → β} {l : List α}
    (h : ∀ x ∈ l, g x = .ok (f x)) : l.mapM g = .ok (l.map f) := by
  induction l with
  | nil => rfl
  | cons x l ih =>
    exact mapM_cons_eq_ok.2 ⟨_, _, h x (List.mem_cons_self x l),
      ih fun y hy => h y (List.mem_cons_of_mem x hy), rfl⟩

theorem exists_ok_of_mapM_ok {α β : Type} {g : α → Except String β} {l : List α}
    {ys : List β} (h : l.mapM g = .ok ys) : ∀ x ∈ l, ∃ y, g x = .ok y := by
  induction l generalizing ys with
  | nil => simp
  | cons x l ih =>
    obtain ⟨y, ys, hy, hys, rfl⟩ := mapM_cons_eq_ok.1 h
    rintro z (_ | ⟨_, hz⟩)
    · exact ⟨y, hy⟩
    · exact ih hys z hz

/-- **Reordering the members changes no count.**  If `for_items` returns for `items`, it returns
for every reordering of them, with the same count for every match type and, for the types whose
source items are all kept, the same source items in the new order. -/
theorem forItems_perm (env : Env) (m : FactMatcher) {items items' : List Value}
    (prop : List Value) (value : Value) (hperm : items.Perm items') {o : Output}
    (h : forItems env m items prop value = .ok o) :
    ∃ o', forItems env m items' prop value = .ok o' ∧ o'.counts = o.counts ∧
      ∀ t, t ∉ typesWithExemplarsOnly → (o'.sourceItems t).Perm (o.sourceItems t) := by
  let classify : Value → Value × FactMatchType := fun i =>
    (i, ((forItem env m i prop value).toOption).getD .new)
  have hclassify : ∀ l : List Value, (∀ i ∈ l, ∃ t, forItem env m i prop value = .ok t) →
      (l.mapM fun i => (forItem env m i prop value).map ((i, ·))) = .ok (l.map classify) :=
    fun l hl => mapM_eq_ok_map fun i hi => by
      obtain ⟨t, ht⟩ := hl i hi
      simp only [classify, ht]; rfl
  rw [forItems_eq_ofClassified] at h ⊢
  cases hm : items.mapM fun i => (forItem env m i prop value).map ((i, ·)) with
  | error e => rw [hm] at h; cases h
  | ok ys =>
    rw [hm] at h
    cases h
    have hok : ∀ i ∈ items, ∃ t, forItem env m i prop value = .ok t := fun i hi => by
      obtain ⟨y, hy⟩ := exists_ok_of_mapM_ok hm i hi
      cases ht : forItem env m i prop value with
      | error e => rw [ht] at hy; cases hy
      | ok t => exact ⟨t, rfl⟩
    rw [hclassify items hok] at hm
    cases hm
    have hp := (hperm.map classify).symm
    refine ⟨_, by rw [hclassify items' fun i hi => hok i (hperm.symm.subset hi)]; rfl,
      funext fun t => hp.countP_eq _, fun t ht => ?_⟩
    simp only [Output.ofClassified, capSourceItems, if_neg ht]
    exact (hp.filter _).map _

/-- `Q5` has the fact `P17 = Q1` and every other item has none. -/
def memberFactsEnv : Env :=
  { exampleEnv with
    factsFor := fun item _ _ => if item = .frame "Q5" then [[.frame "P17", .frame "Q1"]] else [] }

/-- Both orders of the members `Q5` and `Q6` give one `EXACT` and one `NEW`. -/
theorem forItems_perm_Q5_Q6 :
    ∃ o, forItems memberFactsEnv exampleMatcher [.frame "Q5", .frame "Q6"] [.frame "P17"]
        (.frame "Q1") = .ok o ∧
      ∃ o', forItems memberFactsEnv exampleMatcher [.frame "Q6", .frame "Q5"] [.frame "P17"]
        (.frame "Q1") = .ok o' ∧
      o'.counts = o.counts ∧
      ∀ t, t ∉ typesWithExemplarsOnly → (o'.sourceItems t).Perm (o.sourceItems t) :=
  ⟨_, rfl, forItems_perm memberFactsEnv exampleMatcher [.frame "P17"] (.frame "Q1")
    (.swap _ _ []) rfl⟩

/-! ## 4. Reading a saved frame back -/

/-- A reader of the frame `as_frame` saves, whatever the order of its buckets: the count and
source items of a type are those of the bucket named after it, `0` and `[]` without one. -/
def MatchFrame.toOutput (frame : MatchFrame) : Output where
  counts t := ((frame.buckets.find? fun b => b.matchType == t.name).map (·.count)).getD 0
  sourceItems t :=
    ((frame.buckets.find? fun b => b.matchType == t.name).map (·.sourceItems)).getD []

/-- Among buckets of distinct names, the one found by a name does not depend on their order. -/
theorem find?_name_perm {bs bs' : List Bucket} (hperm : bs.Perm bs')
    (hnodup : (bs.map (·.matchType)).Nodup) (n : String) :
    bs'.find? (fun b => b.matchType == n) = bs.find? (fun b => b.matchType == n) := by
  cases h : bs.find? (fun b => b.matchType == n) with
  | none => exact List.find?_eq_none.2 fun b hb => List.find?_eq_none.1 h b (hperm.symm.subset hb)
  | some b =>
    have hb := List.mem_of_find?_eq_some h
    cases h' : bs'.find? (fun b => b.matchType == n) with
    | none =>
      have hp := List.find?_some h
      exact absurd hp (List.find?_eq_none.1 h' b (hperm.subset hb))
    | some b' =>
      have hn := List.find?_some h
      have hn' := List.find?_some h'
      rw [beq_iff_eq] at hn hn'
      exact congrArg some (List.inj_on_of_nodup_map hnodup
        (hperm.symm.subset (List.mem_of_find?_eq_some h')) hb (hn'.trans hn.symm))

/-- The bucket of a type in a frame built from the types of `l`, each at most once. -/
theorem find?_name_map_filter (o : Output) {l : List FactMatchType} (hl : l.Nodup)
    (t : FactMatchType) :
    ((l.filter fun t => 0 < o.counts t).map fun t =>
        (⟨t.name, o.counts t, o.sourceItems t⟩ : Bucket)).find? (fun b => b.matchType == t.name) =
      if t ∈ l ∧ 0 < o.counts t then some ⟨t.name, o.counts t, o.sourceItems t⟩ else none := by
  induction l with
  | nil => simp
  | cons a l ih =>
    obtain ⟨ha, hl⟩ := List.nodup_cons.1 hl
    by_cases hat : a = t
    · subst hat
      by_cases hp : 0 < o.counts a <;> simp [List.filter_cons, hp, ih hl, ha]
    · have hname : (a.name == t.name) = false := by
        simpa using fun h => hat (FactMatchType.name_injective h)
      by_cases hp : 0 < o.counts a <;> simp [List.filter_cons, hp, hname, ih hl, Ne.symm hat]

theorem Output.sourceItems_ofClassified_eq_nil (xs : List (Value × FactMatchType))
    (t : FactMatchType) (h : (Output.ofClassified xs).counts t = 0) :
    (Output.ofClassified xs).sourceItems t = [] := by
  have hnil : (xs.filter fun x => x.2 = t) = [] :=
    List.filter_eq_nil_iff.2 (List.countP_eq_zero.1 h)
  simp [Output.ofClassified, capSourceItems, hnil]

/-- Reading back the frame of a histogram, with its buckets in any order, gives the histogram. -/
theorem Output.toOutput_ofClassified (xs : List (Value × FactMatchType)) (buckets : List Bucket)
    (hperm : buckets.Perm (Output.ofClassified xs).asFrame.buckets) :
    (MatchFrame.mk buckets).toOutput = Output.ofClassified xs := by
  have hfind : ∀ t, buckets.find? (fun b => b.matchType == t.name) =
      if 0 < (Output.ofClassified xs).counts t then
        some ⟨t.name, (Output.ofClassified xs).counts t, (Output.ofClassified xs).sourceItems t⟩
      else none := fun t => by
    rw [find?_name_perm hperm.symm (Output.nodup_asFrame _), Output.asFrame,
      find?_name_map_filter _ FactMatchType.nodup_all, if_congr (and_iff_right
        (FactMatchType.mem_all t)) rfl rfl]
  refine Output.ext (funext fun t => ?_) (funext fun t => ?_) <;>
    by_cases h : 0 < (Output.ofClassified xs).counts t <;> simp [MatchFrame.toOutput, hfind, h]
  · omega
  · exact Output.sourceItems_ofClassified_eq_nil xs t (by omega)

/-- **The saved frame determines the output.**  For every output `for_items` returns, reading
back the frame `as_frame` saves, with its buckets in any order (Python does not fix the order
of the keys of `counts`), gives that output again: every count and every kept source item. -/
theorem forItems_asFrame_toOutput (env : Env) (m : FactMatcher) (items : List Value)
    (prop : List Value) (value : Value) {o : Output} (h : forItems env m items prop value = .ok o)
    (buckets : List Bucket) (hperm : buckets.Perm o.asFrame.buckets) :
    (MatchFrame.mk buckets).toOutput = o := by
  rw [forItems_eq_ofClassified] at h
  cases hm : items.mapM fun i => (forItem env m i prop value).map ((i, ·)) with
  | error e => rw [hm] at h; cases h
  | ok ys =>
    rw [hm] at h
    cases h
    exact Output.toOutput_ofClassified ys buckets hperm

/-- The frame of the members `Q5` and `Q6`, its two buckets read back in reverse order. -/
theorem forItems_asFrame_toOutput_reverse :
    ∃ o, forItems memberFactsEnv exampleMatcher [.frame "Q5", .frame "Q6"] [.frame "P17"]
        (.frame "Q1") = .ok o ∧
      (MatchFrame.mk o.asFrame.buckets.reverse).toOutput = o :=
  ⟨_, rfl, forItems_asFrame_toOutput memberFactsEnv exampleMatcher [.frame "Q5", .frame "Q6"]
    [.frame "P17"] (.frame "Q1") rfl _ (List.reverse_perm _)⟩

end FactMatch
