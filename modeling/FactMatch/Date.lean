import FactMatch.Basic

/-!
# Date — `FactMatcher._finer_date`

`finerDate first second` holds when `first` has strictly finer precision than `second` and its
year (and month) fall in the granule `second` names, the window `[year, year + 1000)` for a
millennium, `[year, year + 100)` for a century, `[year, year + 10)` for a decade.  The test is
irreflexive and asymmetric for all dates.  It is transitive only when the windows nest, which is
the case when each coarse date's year is the first year of its granule (`Date.Aligned`); for
other years a century window can stick out of the millennium that contains its first year.
-/

namespace FactMatch

/-- `FactMatcher._finer_date(first, second)`. -/
def finerDate (first second : Date) : Bool :=
  if first.precision.toNat ≤ second.precision.toNat then false
  else
    match second.precision with
    | .millennium => first.year ≥ second.year && first.year < second.year + 1000
    | .century => first.year ≥ second.year && first.year < second.year + 100
    | .decade => first.year ≥ second.year && first.year < second.year + 10
    | .year => first.year == second.year
    | .month => first.year == second.year && first.month == second.month
    -- Should not reach here.
    | .day => false

/-- Number of years in the granule of a precision; a year, month or day spans one year. -/
def Precision.years : Precision → Int
  | .millennium => 1000
  | .century => 100
  | .decade => 10
  | _ => 1

/-- The year of `d` is the first year of the granule its precision names. -/
def Date.Aligned (d : Date) : Prop := d.year % d.precision.years = 0

instance (d : Date) : Decidable d.Aligned := inferInstanceAs (Decidable (_ = _))

/-- `finerDate` asks first of all for a strictly finer precision. -/
theorem precision_lt_of_finerDate {a b : Date} (h : finerDate a b = true) :
    b.precision.toNat < a.precision.toNat := by
  unfold finerDate at h
  split at h
  · cases h
  · omega

theorem finerDate_irrefl (a : Date) : finerDate a a = false := by
  simp [finerDate]

theorem finerDate_asymm {a b : Date} (h : finerDate a b = true) : finerDate b a = false := by
  simp [finerDate, Nat.le_of_lt (precision_lt_of_finerDate h)]

/-- The century `[950, 1050)` lies in the millennium `[0, 1000)`, and 1020 in the century, but
1020 is not in the millennium. -/
theorem finerDate_not_transitive :
    finerDate ⟨1020, 0, 0, .year⟩ ⟨950, 0, 0, .century⟩ = true ∧
      finerDate ⟨950, 0, 0, .century⟩ ⟨0, 0, 0, .millennium⟩ = true ∧
      finerDate ⟨1020, 0, 0, .year⟩ ⟨0, 0, 0, .millennium⟩ = false := by
  decide

/-- Transitivity for aligned coarse dates: the granule of `b` then lies inside that of `c`. -/
theorem finerDate_trans {a b c : Date} (hb : b.Aligned) (hc : c.Aligned)
    (hab : finerDate a b = true) (hbc : finerDate b c = true) : finerDate a c = true := by
  obtain ⟨ya, ma, da, pa⟩ := a
  obtain ⟨yb, mb, db, pb⟩ := b
  obtain ⟨yc, mc, dc, pc⟩ := c
  simp only [Date.Aligned] at hb hc
  cases pb <;> cases pc <;> simp [finerDate, Precision.toNat, Precision.years] at * <;> omega

/-- **`_finer_date` is a strict order on aligned dates.**  Irreflexive and asymmetric on all
dates, transitive when the two coarser dates are aligned to their granules. -/
theorem finerDate_strictOrder :
    (∀ a, finerDate a a = false) ∧
      (∀ a b, finerDate a b = true → finerDate b a = false) ∧
      (∀ a b c, b.Aligned → c.Aligned →
        finerDate a b = true → finerDate b c = true → finerDate a c = true) :=
  ⟨finerDate_irrefl, fun _ _ => finerDate_asymm, fun _ _ _ => finerDate_trans⟩

end FactMatch
