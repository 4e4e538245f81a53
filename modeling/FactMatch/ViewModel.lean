import Mathlib.Data.List.Nodup

/-!
# ViewModel — the `--strip` option of `viewmodel.py`

With `--strip`, the tool drops every blob of a flow file whose attributes have a `dev` key, saves
the flow, and prints how many blobs it dropped.  The blobs of a flow are a dict from names to
blobs, here an association list with distinct names.  The loop runs over a copy of the names,
`list(f.blobs.keys())`, and pops from the dict as it goes.

`strip_eq`: on every flow the loop returns.  It never looks up a name it has already popped.  It
saves exactly the blobs without `dev`, in their order, and prints the number it dropped.
-/

namespace FactMatch

namespace ViewModel

/-- A blob of a flow file: its attributes `{key: value}` and its data. -/
structure Blob where
  attrs : List (String × String)
  data : List UInt8
  deriving DecidableEq, Repr

/-- `'dev' in blob.attrs`. -/
def Blob.isDev (blob : Blob) : Bool := blob.attrs.any (·.1 == "dev")

/-- `f.blobs[name]`. -/
def getBlob (blobs : List (String × Blob)) (name : String) : Except String Blob :=
  match blobs.find? (·.1 == name) with
  | some p => pure p.2
  | none => throw ("KeyError: " ++ name)

/-- `f.blobs.pop(name)`. -/
def popBlob (blobs : List (String × Blob)) (name : String) : List (String × Blob) :=
  blobs.filter (·.1 != name)

/-- The loop of `--strip` over a copy of the names, carrying the blobs and `count`. -/
def stripLoop : List String → List (String × Blob) × Nat →
    Except String (List (String × Blob) × Nat)
  | [], s => pure s
  | name :: names, (blobs, count) => do
    let blob ← getBlob blobs name
    if blob.isDev then stripLoop names (popBlob blobs name, count + 1)
    else stripLoop names (blobs, count)

/-- `--strip`: the blobs `f.save` writes and the count printed. -/
def strip (blobs : List (String × Blob)) : Except String (List (String × Blob) × Nat) :=
  stripLoop (blobs.map (·.1)) (blobs, 0)

/-! ## 1. The loop over the names -/

theorem getBlob_middle {kept rest : List (String × Blob)} {name : String} {blob : Blob}
    (hkept : name ∉ kept.map (·.1)) : getBlob (kept ++ (name, blob) :: rest) name = .ok blob := by
  have hnone : kept.find? (·.1 == name) = none :=
    List.find?_eq_none.2 fun p hp h => hkept (List.mem_map.2 ⟨p, hp, beq_iff_eq.1 h⟩)
  simp [getBlob, List.find?_append, hnone, pure, Except.pure]

theorem popBlob_middle {kept rest : List (String × Blob)} {name : String} {blob : Blob}
    (hkept : name ∉ kept.map (·.1)) (hrest : name ∉ rest.map (·.1)) :
    popBlob (kept ++ (name, blob) :: rest) name = kept ++ rest := by
  have hfilter : ∀ l : List (String × Blob), name ∉ l.map (·.1) → l.filter (·.1 != name) = l :=
    fun l hl => List.filter_eq_self.2 fun p hp =>
      bne_iff_ne.2 fun h => hl (List.mem_map.2 ⟨p, hp, h⟩)
  simp [popBlob, List.filter_append, hfilter kept hkept, hfilter rest hrest]

/-- The loop over the names of `rest`, with the blobs before them already processed into
`kept` and `count`. -/
theorem stripLoop_eq (rest kept : List (String × Blob)) (count : Nat)
    (hnodup : ((kept ++ rest).map (·.1)).Nodup) :
    stripLoop (rest.map (·.1)) (kept ++ rest, count) =
      .ok (kept ++ rest.filter (fun p => !p.2.isDev),
        count + (rest.filter (fun p => p.2.isDev)).length) := by
  induction rest generalizing kept count with
  | nil => simp [stripLoop, pure, Except.pure]
  | cons p rest ih =>
    obtain ⟨name, blob⟩ := p
    have hnodup' := hnodup
    rw [List.map_append, List.map_cons, List.nodup_middle, List.nodup_cons, List.mem_append,
      not_or, ← List.map_append] at hnodup'
    obtain ⟨⟨hkept, hrest⟩, hnodupRest⟩ := hnodup'
    simp only [List.map_cons, stripLoop, getBlob_middle hkept, bind, Except.bind]
    by_cases hdev : blob.isDev
    · rw [if_pos hdev, popBlob_middle hkept hrest, ih kept (count + 1) hnodupRest]
      simp [hdev]
      omega
    · rw [if_neg hdev, List.append_cons kept (name, blob) rest,
        ih _ count (by rwa [← List.append_cons])]
      simp [hdev]

/-- **Stripping keeps exactly the blobs without `dev`.**  On a flow whose blob names are distinct,
as a dict's are, the loop returns: each name it looks up is still there, since it pops only the
name it has just looked up.  The flow it saves holds the blobs without a `dev` attribute, in
their order, and the count it prints is the number of blobs it dropped. -/
theorem strip_eq (blobs : List (String × Blob)) (hnodup : (blobs.map (·.1)).Nodup) :
    strip blobs = .ok (blobs.filter (fun p => !p.2.isDev),
      (blobs.filter (fun p => p.2.isDev)).length) := by
  simpa using stripLoop_eq blobs [] 0 hnodup

/-- A flow with its `commons` blob and a `dev` blob of training details. -/
def exampleBlobs : List (String × Blob) :=
  [("commons", ⟨[], [1]⟩), ("training_details", ⟨[("dev", "1")], [2]⟩)]

theorem strip_eq_exampleBlobs :
    (exampleBlobs.map (·.1)).Nodup ∧
      strip exampleBlobs = .ok (exampleBlobs.filter (fun p => !p.2.isDev),
        (exampleBlobs.filter (fun p => p.2.isDev)).length) :=
  ⟨by decide, strip_eq exampleBlobs (by decide)⟩

end ViewModel

end FactMatch
