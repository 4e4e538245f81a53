import Mathlib.Data.List.Basic

/-!
# Basic — the values `fact_matcher.py` and `wikibot.py` pass around

A slot value of a SLING store is a frame (named by its id) or a literal; `FactMatchType` is the
six-way result of matching a proposed fact; `Date` is `sling.Date` with the fields the matcher
reads (year, month, day and a precision).  Python exceptions are `Except String` results, and
`bind_eq_ok` is how the loop proofs take one step of such a computation apart; `foldlM_induction`
and `foldlM_ok` carry an invariant through a `for` loop that may raise.
-/

namespace FactMatch

/-- A slot value of a SLING store: a reference to a frame, by id, or a literal. -/
inductive Value where
  | frame (id : String)
  | int (n : Int)
  | str (s : String)
  deriving DecidableEq, Repr, Inhabited

/-- `isinstance(x, sling.Frame)`. -/
def Value.isFrame : Value → Bool
  | .frame _ => true
  | _ => false

@[simp] theorem Value.isFrame_frame (id : String) : (Value.frame id).isFrame = true := rfl

/-- A computation in `Except` followed by `f` returns `r` exactly when it returns some `a` on
which `f` returns `r`: how a step of a modelled loop is peeled off. -/
theorem bind_eq_ok {ε α β : Type} {x : Except ε α} {f : α → Except ε β} {r : β} :
    x >>= f = .ok r ↔ ∃ a, x = .ok a ∧ f a = .ok r := by
  cases x <;> simp [bind, Except.bind]

/-- An invariant every step of an `Except` fold keeps holds after a fold that returns. -/
theorem foldlM_induction {ε σ α : Type} {f : σ → α → Except ε σ} (P : σ → Prop) {l : List α}
    (hstep : ∀ a ∈ l, ∀ s s', P s → f s a = .ok s' → P s') {s s' : σ} (hs : P s)
    (h : l.foldlM f s = .ok s') : P s' := by
  induction l generalizing s with
  | nil => cases h; exact hs
  | cons a l ih =>
    obtain ⟨s₁, h₁, h⟩ := bind_eq_ok.1 h
    exact ih (fun a ha => hstep a (List.mem_cons_of_mem _ ha))
      (hstep a (List.mem_cons_self _ _) s s₁ hs h₁) h

/-- Match type of a proposed fact vs any existing fact (`FactMatchType`). -/
inductive FactMatchType where
  /-- no fact currently exists for the property -/
  | new
  /-- proposed fact exactly matches an existing one -/
  | exact
  /-- proposed fact is coarser than an existing one -/
  | subsumesExisting
  /-- an existing fact is coarser than the proposed one -/
  | subsumedByExisting
  /-- for unique-valued pids, conflicts with existing -/
  | conflict
  /-- proposed fact would be an extra one -/
  | additional
  deriving DecidableEq, Repr

namespace FactMatchType

/-- `match_type.name`, the text `as_frame` stores in a bucket. -/
def name : FactMatchType → String
  | new => "NEW"
  | exact => "EXACT"
  | subsumesExisting => "SUBSUMES_EXISTING"
  | subsumedByExisting => "SUBSUMED_BY_EXISTING"
  | conflict => "CONFLICT"
  | additional => "ADDITIONAL"

/-- Every match type, in the order of their enum values `0 … 5`. -/
def all : List FactMatchType :=
  [new, exact, subsumesExisting, subsumedByExisting, conflict, additional]

theorem mem_all (t : FactMatchType) : t ∈ all := by
  cases t <;> decide

theorem nodup_all : all.Nodup := by decide

theorem name_injective : Function.Injective name := by
  intro a b h
  cases a <;> cases b <;> first | rfl | exact absurd h (by decide)

end FactMatchType

/-- Precision of a `sling.Date`, coarsest first, in the order of sling's enumeration
`MILLENNIUM < CENTURY < DECADE < YEAR < MONTH < DAY`.  sling's `NONE`, the precision of a value
that does not parse, is not one of them: the matcher compares dates of the knowledge base only,
and the wikibot's `Wikibot.SlingDate` has `NONE` as `none`. -/
inductive Precision where
  | millennium
  | century
  | decade
  | year
  | month
  | day
  deriving DecidableEq, Repr

/-- The integer sling gives a precision; only the order of these numbers is ever compared. -/
def Precision.toNat : Precision → Nat
  | .millennium => 1
  | .century => 2
  | .decade => 3
  | .year => 4
  | .month => 5
  | .day => 6

/-- A `sling.Date`: year, month and day, and the precision the date is known to. -/
structure Date where
  year : Int
  month : Int
  day : Int
  precision : Precision
  deriving DecidableEq, Repr

end FactMatch
