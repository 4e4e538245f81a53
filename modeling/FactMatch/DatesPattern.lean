import FactMatch.Regex
import FactMatch.WikipediaDates
import Mathlib

/-!
# DatesPattern — the expression `ExtractWikipediaDates.run` compiles, and what a match captures

`run` builds its regular expression `rec` from the strings `month`, `day`, `year`, `date` and
`dates`.  `pat` is that expression as a `Regex.Re`, piece by piece.  Python numbers the groups by
their opening parentheses:
* groups 1–6 are the date after `born`;
* groups 7–12 and 13–18 are the two dates of a range.

Within each date, the first three groups are `DD MONTH YYYY` and the next three `MONTH DD, YYYY`.
`recMatch` is `rec.match` on the window's bytes, the model's `ExtractEnv.matchDates`.

`matchGroups_pat`: every match sets the groups of the birth date alone, or those of two dates.
Each date is in one of its two forms, with a day of one or two digits, a month name and a year
of four digits.  `recMatch_dates`: so `date_from_match` never raises on the groups `run` reads,
and it builds dates of four-digit years, months 1–12 and days below 100.  `run_recMatch`:
`run` with this expression returns on every input.

The converse direction: `rec` finds the dates in the formats it was written for, in its first
match (`recMatch_born`, `recMatch_range`), each date as `D Month YYYY` or `Month D, YYYY`.  So
`run` writes, for such an article, the dates the text gives: `extractDocument_born` for
`name (born DATE …)`, whatever text without `)` follows the date, and `extractDocument_range`
for `name (DATE - DATE)`.  Conversely, `run_dates_written`: every date `run` writes is written
in the article's window, in one of the two formats.  `matchGroups_pat_name`: `rec` passes over
a name whose parentheses close before any digit, such as `(née Byron)`.  `recMatch_matches`: the
backtracking of `rec.match` loses no match, so it fails only on a text no prefix of which
matches `pat`.  `recMatch_eq_none_of_no_hyphen`: every match needs `born ` or an ASCII hyphen,
so a range written with an en dash is never read.  `recMatch_eq_none_of_head`: the parenthesis
with the dates must start with a digit or a byte of `[, ;a-zA-Z\-]`, so one that starts with a
pronunciation `(/…/; born …)` is never read.
-/

namespace FactMatch

namespace WikipediaDates

open Regex

/-- The alternatives of `month`, in its order. -/
def monthNames : List String :=
  ["January", "February", "March", "April", "May", "June", "July", "August", "September",
    "October", "November", "December"]

/-- `month`: `(January|February|…|December)`, the group numbered `n`. -/
def month (n : Nat) : Re := .group n (alts (monthNames.map lit))

/-- `day`: `(\d{1,2})`, the group numbered `n`. -/
def day (n : Nat) : Re := .group n (rep (.byte digit) 1 2)

/-- `year`: `(\d{4})`, the group numbered `n`. -/
def year (n : Nat) : Re := .group n (rep (.byte digit) 4 4)

/-- `date`, its groups numbered from `off + 1`:
`(?:(?:day month year)|(?:month day, year))(?:[^)]+?)?`. -/
def date (off : Nat) : Re :=
  .seq
    (.alt
      (.seq (day (1 + off)) (.seq (lit " ") (.seq (month (2 + off)) (.seq (lit " ")
        (year (3 + off))))))
      (.seq (month (4 + off)) (.seq (lit " ") (.seq (day (5 + off)) (.seq (lit ", ")
        (year (6 + off)))))))
    (opt (plus true (.byte fun b => !isByte ')' b)))

/-- `dates`: `(?:(?:born date)|(?:date\s*-+\s*date))`, with groups 1–6 for the birth date and
7–18 for the two dates of a range. -/
def dates : Re :=
  .alt (.seq (lit "born ") (date 0))
    (.seq (date 6) (.seq (.star false (.byte space)) (.seq (plus false (.byte (isByte '-')))
      (.seq (.star false (.byte space)) (date 12)))))

/-- `pat`: `(?:[^(]|\([^0-9]*\))*?\([, ;a-zA-Z\-]*?` + `dates` + `\s*\)`. -/
def pat : Re :=
  .seq
    (.star true (.alt (.byte fun b => !isByte '(' b)
      (.seq (.byte (isByte '(')) (.seq (.star false (.byte fun b => !digit b))
        (.byte (isByte ')'))))))
    (.seq (.byte (isByte '('))
      (.seq (.star true (.byte fun b => isByte ',' b || isByte ' ' b || isByte ';' b ||
          inRange 'a' 'z' b || inRange 'A' 'Z' b || isByte '-' b))
        (.seq dates (.seq (.star false (.byte space)) (.byte (isByte ')'))))))

/-- The bytes of a Python 2 `str` read back as text, one character per byte. -/
def ofBytes (bs : List UInt8) : String := ⟨bs.map fun b => Char.ofNat b.toNat⟩

/-- `rec.match(text)` on the bytes of the window, with the groups read back as text. -/
def recMatch (text : String) : Option (Nat → Option String) :=
  (matchGroups pat text.toUTF8.data.toList).map fun g i => (g i).map ofBytes

/-! ## 1. What the groups capture -/

/-- A captured day or year: from `lo` to `hi` decimal digits. -/
def Digits (lo hi : Nat) (w : List UInt8) : Prop :=
  lo ≤ w.length ∧ w.length ≤ hi ∧ ∀ b ∈ w, digit b = true

/-- A captured month: the bytes of a month name. -/
def MonthName (w : List UInt8) : Prop := ∃ name ∈ monthNames, w = name.toUTF8.data.toList

/-- What a match of `date off` does to the groups `g`.  The first form sets groups `1 + off`
(day), `2 + off` (month) and `3 + off` (year); the second sets `4 + off` (month), `5 + off`
(day) and `6 + off` (year). -/
def DateSet (off : Nat) (g g' : Groups) : Prop :=
  (∃ d m y, Digits 1 2 d ∧ MonthName m ∧ Digits 4 4 y ∧ g' =
    Function.update (Function.update (Function.update g (1 + off) (some d)) (2 + off) (some m))
      (3 + off) (some y)) ∨
  (∃ m d y, MonthName m ∧ Digits 1 2 d ∧ Digits 4 4 y ∧ g' =
    Function.update (Function.update (Function.update g (4 + off) (some m)) (5 + off) (some d))
      (6 + off) (some y))

/-- What a match of `dates` does to the groups: it sets a birth date alone in groups 1–6, or
two dates in groups 7–12 and 13–18. -/
def DatesSet (g g' : Groups) : Prop :=
  DateSet 0 g g' ∨ ∃ g₁, DateSet 6 g g₁ ∧ DateSet 12 g₁ g'

theorem spec_month (n : Nat) :
    Spec (month n) fun g w g' => MonthName w ∧ g' = Function.update g n (some w) :=
  (spec_group n (spec_alts (R := fun g w g' => g' = g ∧ MonthName w) (by
    simp only [List.mem_map]
    rintro _ ⟨name, hname, rfl⟩
    exact (spec_lits _).mono fun _ _ _ ⟨hg, hw⟩ => ⟨hg, name, hname, hw⟩))).mono
    fun _ _ _ ⟨_, ⟨hg, hw⟩, h⟩ => ⟨hw, hg ▸ h⟩

theorem spec_digits (n lo hi : Nat) (h : lo ≤ hi) :
    Spec (.group n (rep (.byte digit) lo hi))
      fun g w g' => Digits lo hi w ∧ g' = Function.update g n (some w) :=
  (spec_group n (spec_rep digit h)).mono fun _ _ _ ⟨_, ⟨hg, hw⟩, h⟩ => ⟨hw, hg ▸ h⟩

/-- What a match of `date off` reads: a date in one of its two forms, then its tail.  The
groups of that form hold the day, the month name and the year. -/
def DateRead (off : Nat) (g : Groups) (w : List UInt8) (g' : Groups) : Prop :=
  ∃ d mname y tail, Digits 1 2 d ∧ mname ∈ monthNames ∧ Digits 4 4 y ∧
    (w = d ++ utf8 " " ++ utf8 mname ++ utf8 " " ++ y ++ tail ∧
        g' = Function.update (Function.update (Function.update g (1 + off) (some d)) (2 + off)
          (some (utf8 mname))) (3 + off) (some y) ∨
      w = utf8 mname ++ utf8 " " ++ d ++ utf8 ", " ++ y ++ tail ∧
        g' = Function.update (Function.update (Function.update g (4 + off) (some (utf8 mname)))
          (5 + off) (some d)) (6 + off) (some y))

/-- What a match of `dates` reads: `born ` and a date, or two dates and between them a
separator that holds a hyphen. -/
def DatesRead (g : Groups) (w : List UInt8) (g' : Groups) : Prop :=
  (∃ v, w = utf8 "born " ++ v ∧ DateRead 0 g v g') ∨
    ∃ v₁ sep v₂ g₁, w = v₁ ++ sep ++ v₂ ∧ 45 ∈ sep ∧ DateRead 6 g v₁ g₁ ∧ DateRead 12 g₁ v₂ g'

theorem DateRead.dateSet {off : Nat} {g g' : Groups} {w : List UInt8} (h : DateRead off g w g') :
    DateSet off g g' := by
  obtain ⟨d, mname, y, -, hd, hm, hy, ⟨-, rfl⟩ | ⟨-, rfl⟩⟩ := h
  · exact .inl ⟨_, _, _, hd, ⟨mname, hm, rfl⟩, hy, rfl⟩
  · exact .inr ⟨_, _, _, ⟨mname, hm, rfl⟩, hd, hy, rfl⟩

theorem DatesRead.datesSet {g g' : Groups} {w : List UInt8} (h : DatesRead g w g') :
    DatesSet g g' :=
  h.imp (fun ⟨_, _, h⟩ => h.dateSet) fun ⟨_, _, _, g₁, _, _, h₁, h₂⟩ =>
    ⟨g₁, h₁.dateSet, h₂.dateSet⟩

theorem spec_date_read (off : Nat) : Spec (date off) (DateRead off) := by
  have hday := fun n => spec_digits n 1 2 (by decide)
  have hyear := fun n => spec_digits n 4 4 le_rfl
  refine (spec_seq (spec_alt
    (spec_seq (hday _) (spec_seq (spec_lits _) (spec_seq (spec_month _) (spec_seq (spec_lits _)
      (hyear _)))))
    (spec_seq (spec_month _) (spec_seq (spec_lits _) (spec_seq (hday _) (spec_seq (spec_lits _)
      (hyear _))))))
    (spec_keep _ (by rfl))).mono ?_
  rintro g _ _ ⟨_, tail, _, rfl, hform, rfl⟩
  rcases hform with
    ⟨d, _, _, rfl, ⟨hd, rfl⟩, _, _, _, rfl, ⟨rfl, rfl⟩, _, _, _, rfl, ⟨⟨mname, hm, rfl⟩, rfl⟩,
      _, _, _, rfl, ⟨rfl, rfl⟩, hy, rfl⟩ |
    ⟨_, _, _, rfl, ⟨⟨mname, hm, rfl⟩, rfl⟩, _, _, _, rfl, ⟨rfl, rfl⟩, d, _, _, rfl, ⟨hd, rfl⟩,
      _, _, _, rfl, ⟨rfl, rfl⟩, hy, rfl⟩
  · exact ⟨d, mname, _, tail, hd, hm, hy, .inl ⟨by simp only [utf8, List.append_assoc], rfl⟩⟩
  · exact ⟨d, mname, _, tail, hd, hm, hy, .inr ⟨by simp only [utf8, List.append_assoc], rfl⟩⟩

theorem isByte_hyphen {b : UInt8} (h : isByte '-' b = true) : b = 45 := by
  simp [isByte] at h
  exact UInt8.toNat.inj h

theorem spec_dates_read : Spec dates DatesRead := by
  refine (spec_alt (spec_seq (spec_lits _) (spec_date_read 0))
    (spec_seq (spec_date_read 6) (spec_seq (spec_keep _ (by rfl))
      (spec_seq (spec_seq (spec_byte _) (spec_keep _ (by rfl)))
        (spec_seq (spec_keep _ (by rfl)) (spec_date_read 12)))))).mono ?_
  rintro g _ _ (⟨_, v, _, rfl, ⟨rfl, rfl⟩, h⟩ | ⟨v₁, _, _, rfl, h₁, s₁, _, _, rfl, rfl, _, _, _,
    rfl, ⟨_, s, _, rfl, ⟨rfl, b, rfl, hb⟩, rfl⟩, s₂, v₂, _, rfl, rfl, h₂⟩)
  · exact .inl ⟨v, rfl, h⟩
  · refine .inr ⟨v₁, s₁ ++ ([b] ++ s) ++ s₂, v₂, _, by simp only [List.append_assoc], ?_, h₁, h₂⟩
    simp [isByte_hyphen hb]

/-- Every match of `pat` reads, somewhere in its text, what a match of `dates` reads. -/
theorem spec_pat_read : Spec pat fun g w g' => ∃ v, v <:+: w ∧ DatesRead g v g' := by
  refine (spec_seq (spec_keep _ (by rfl)) (spec_seq (spec_keep _ (by rfl))
    (spec_seq (spec_keep _ (by rfl)) (spec_seq spec_dates_read (spec_seq (spec_keep _ (by rfl))
      (spec_keep _ (by rfl))))))).mono ?_
  rintro g _ _ ⟨u₁, _, _, rfl, rfl, u₂, _, _, rfl, rfl, u₃, _, _, rfl, rfl, v, u₅, _, rfl, h, _, _,
    _, -, rfl, rfl⟩
  exact ⟨v, by simpa only [List.append_assoc] using List.infix_append (u₁ ++ u₂ ++ u₃) v u₅, h⟩

theorem spec_pat : Spec pat fun g _ g' => DatesSet g g' :=
  spec_pat_read.mono fun _ _ _ ⟨_, _, h⟩ => h.datesSet

/-- **What a match of `rec` captures.**  Whenever `rec.match` matches, it has set the groups of
the birth date alone (1–6) or those of the two dates of a range (7–12 and 13–18), and no other
group.  Each date is in one of its two forms, with a day of one or two digits, a month name and
a year of four digits. -/
theorem matchGroups_pat {bs : List UInt8} {g : Groups} (h : matchGroups pat bs = some g) :
    DatesSet (fun _ => none) g := by
  obtain ⟨p, hp, rfl⟩ := Option.map_eq_some'.1 h
  obtain ⟨_, -, hset⟩ := spec_pat bs _ p (List.mem_of_mem_head? hp)
  exact hset

theorem matchGroups_pat_born :
    ∃ g, matchGroups pat "(born 3 May 1900)".toUTF8.data.toList = some g ∧
      DatesSet (fun _ => none) g :=
  ⟨_, rfl, @matchGroups_pat "(born 3 May 1900)".toUTF8.data.toList _ rfl⟩

example : (recMatch "Q1 (10 December 1815 - 27 November 1852)").map
    (fun g => [g 7, g 8, g 9, g 13, g 14, g 15]) =
    some [some "10", some "December", some "1815", some "27", some "November", some "1852"] := by
  decide

/-! ## 2. `date_from_match` on the groups of a match -/

/-- A date as `date_from_match` builds it: a year of four digits, a month of the year and a day
of two digits at most, to the day. -/
def MatchedDate (d : Date) : Prop :=
  0 ≤ d.year ∧ d.year < 10000 ∧ 1 ≤ d.month ∧ d.month ≤ 12 ∧ 0 ≤ d.day ∧ d.day < 100 ∧
    d.precision = .day

theorem toNat_ofNat_of_lt {n : Nat} (h : n < 0xd800) : (Char.ofNat n).toNat = n := by
  simp [Char.ofNat, Nat.isValidChar, h, Char.ofNatAux, Char.toNat, UInt32.toNat]

theorem isDigit_ofNat {n : Nat} (h₁ : 48 ≤ n) (h₂ : n ≤ 57) : (Char.ofNat n).isDigit = true := by
  have h := toNat_ofNat_of_lt (n := n) (by omega)
  simp only [Char.isDigit, Char.toNat, UInt32.toNat] at *
  simp [UInt32.le_def, BitVec.le_def, h]
  omega

theorem digit_iff {b : UInt8} : digit b = true ↔ 48 ≤ b.toNat ∧ b.toNat ≤ 57 := by
  simp [digit, inRange]

theorem ofBytes_cons_isEmpty (b : UInt8) (bs : List UInt8) :
    (ofBytes (b :: bs)).isEmpty = false := by
  have := (Char.ofNat b.toNat).utf8Size_pos
  simp [ofBytes, String.isEmpty, String.endPos, String.utf8ByteSize, String.utf8ByteSize.go,
    String.Pos.ext_iff]
  omega

/-- The number a run of decimal digit bytes denotes. -/
def decimal (w : List UInt8) : Nat := w.foldl (fun n b => 10 * n + (b.toNat - 48)) 0

/-- The loop of `parseDigits` over the characters of a run of digit bytes, from the value `n`. -/
theorem foldl_digits (w : List UInt8) (hw : ∀ b ∈ w, digit b = true) (n : Nat) :
    (w.map fun b => Char.ofNat b.toNat).foldl (fun acc c => acc.bind fun n =>
      if c.isDigit then some (10 * n + (c.toNat - '0'.toNat)) else none) (some n) =
      some (w.foldl (fun n b => 10 * n + (b.toNat - 48)) n) := by
  induction w generalizing n with
  | nil => rfl
  | cons b w ih =>
    obtain ⟨hb₁, hb₂⟩ := digit_iff.1 (hw b (.head _))
    simpa [isDigit_ofNat hb₁ hb₂, toNat_ofNat_of_lt (show b.toNat < 0xd800 by omega)] using
      ih (fun b hb => hw b (.tail _ hb)) (10 * n + (b.toNat - 48))

theorem foldl_decimal_lt (w : List UInt8) (hw : ∀ b ∈ w, digit b = true) (n : Nat) :
    w.foldl (fun n b => 10 * n + (b.toNat - 48)) n < (n + 1) * 10 ^ w.length := by
  induction w generalizing n with
  | nil => simp
  | cons b w ih =>
    obtain ⟨hb₁, hb₂⟩ := digit_iff.1 (hw b (.head _))
    rw [List.foldl_cons]
    calc _ < (10 * n + (b.toNat - 48) + 1) * 10 ^ w.length := ih (fun b hb => hw b (.tail _ hb)) _
      _ ≤ (n + 1) * 10 * 10 ^ w.length := Nat.mul_le_mul_right _ (by omega)
      _ = (n + 1) * 10 ^ (b :: w).length := by
        rw [List.length_cons, Nat.pow_succ, Nat.mul_assoc, Nat.mul_comm 10]

/-- `int(group)` of a run of digits is the number it denotes. -/
theorem toInt_digits {lo hi : Nat} {w : List UInt8} (hw : Digits lo hi w) (hlo : 0 < lo) :
    toInt (some (ofBytes w)) = .ok (decimal w) ∧ decimal w < 10 ^ hi := by
  obtain ⟨hl, hh, hd⟩ := hw
  have hlt : decimal w < 10 ^ hi := calc
    decimal w < (0 + 1) * 10 ^ w.length := foldl_decimal_lt w hd 0
    _ ≤ 10 ^ hi := by rw [Nat.zero_add, Nat.one_mul]; exact Nat.pow_le_pow_right (by decide) hh
  refine ⟨?_, hlt⟩
  obtain _ | ⟨b, bs⟩ := w
  · simp at hl; omega
  simp only [toInt, parseDigits, ofBytes_cons_isEmpty]
  simp only [ofBytes]
  rw [if_neg Bool.false_ne_true, String.toList, foldl_digits _ hd 0]
  rfl

/-- Each month name is the key, in `months`, of its place in the year. -/
theorem monthNames_months : monthNames.all (fun name =>
    match monthOf (some (ofBytes (utf8 name))) with
    | .ok k => k == monthNames.indexOf name + 1
    | .error _ => false) = true := by
  decide

theorem monthOf_monthName_eq {name : String} (hname : name ∈ monthNames) :
    monthOf (some (ofBytes (utf8 name))) = .ok (monthNames.indexOf name + 1) := by
  have h := List.all_eq_true.1 monthNames_months name hname
  split at h
  · next k hk => rw [hk, eq_of_beq h]
  · cases h

theorem truthy_ofBytes {w : List UInt8} (hw : w ≠ []) : truthy (some (ofBytes w)) = true := by
  obtain _ | ⟨b, bs⟩ := w
  · exact absurd rfl hw
  · simp [truthy, ofBytes_cons_isEmpty]

theorem Digits.ne_nil {lo hi : Nat} {w : List UInt8} (h : Digits lo hi w) (hlo : 0 < lo) :
    w ≠ [] := by
  rintro rfl
  have := h.1
  simp only [List.length_nil] at this
  omega

theorem MonthName.ne_nil {w : List UInt8} (h : MonthName w) : w ≠ [] := by
  obtain ⟨name, hname, rfl⟩ := h
  revert name
  decide

/-- A match of `date off` leaves every group outside `1 + off … 6 + off` as it was. -/
theorem DateSet.frame {off : Nat} {g g' : Groups} (h : DateSet off g g') {i : Nat}
    (hi : i ≤ off ∨ 6 + off < i) : g' i = g i := by
  rcases h with ⟨_, _, _, -, -, -, rfl⟩ | ⟨_, _, _, -, -, -, rfl⟩ <;>
    simp only [Function.update_apply] <;> split_ifs <;> first | rfl | omega

/-- After a match of `date off`, one of the groups `date_from_match` tests is set. -/
theorem DateSet.truthy {off : Nat} {g g' : Groups} (h : DateSet off g g') :
    (truthy ((g' (1 + off)).map ofBytes) || truthy ((g' (4 + off)).map ofBytes)) = true := by
  rcases h with ⟨d, _, _, hd, -, -, rfl⟩ | ⟨m, _, _, hm, -, -, rfl⟩
  · simp [Function.update_apply, truthy_ofBytes (hd.ne_nil (by decide))]
  · simp [Function.update_apply, truthy_ofBytes hm.ne_nil]

/-- The date written with the day digits `d`, the month name `name` and the year digits `y`. -/
def writtenDate (d : List UInt8) (name : String) (y : List UInt8) : Date :=
  ⟨decimal y, monthNames.indexOf name + 1, decimal d, .day⟩

theorem writtenDate_matched {d y : List UInt8} {name : String} (hd : Digits 1 2 d)
    (hname : name ∈ monthNames) (hy : Digits 4 4 y) : MatchedDate (writtenDate d name y) := by
  have hdlt : decimal d < 100 := (toInt_digits hd (by decide)).2
  have hylt : decimal y < 10000 := (toInt_digits hy (by decide)).2
  have hk : monthNames.indexOf name < 12 := List.indexOf_lt_length.2 hname
  simp only [MatchedDate, writtenDate]
  exact ⟨by omega, by omega, by omega, by omega, by omega, by omega, trivial⟩

/-- `date_from_match` on groups holding a date `DD MONTH YYYY` returns that date. -/
theorem dateFromMatch_dayFirst {off : Nat} {group : Nat → Option String} {d y : List UInt8}
    {name : String} (hd : Digits 1 2 d) (hname : name ∈ monthNames) (hy : Digits 4 4 y)
    (h₁ : group (1 + off) = some (ofBytes d)) (h₂ : group (2 + off) = some (ofBytes (utf8 name)))
    (h₃ : group (3 + off) = some (ofBytes y)) :
    dateFromMatch off group = .ok (writtenDate d name y) := by
  simp [dateFromMatch, writtenDate, h₁, h₂, h₃, truthy_ofBytes (hd.ne_nil (by decide)),
    (toInt_digits hd (by decide)).1, (toInt_digits hy (by decide)).1, monthOf_monthName_eq hname,
    bind, Except.bind, pure, Except.pure]

/-- `date_from_match` on groups holding a date `MONTH DD, YYYY` returns that date. -/
theorem dateFromMatch_monthFirst {off : Nat} {group : Nat → Option String} {d y : List UInt8}
    {name : String} (hd : Digits 1 2 d) (hname : name ∈ monthNames) (hy : Digits 4 4 y)
    (h₁ : group (1 + off) = none) (h₄ : group (4 + off) = some (ofBytes (utf8 name)))
    (h₅ : group (5 + off) = some (ofBytes d)) (h₆ : group (6 + off) = some (ofBytes y)) :
    dateFromMatch off group = .ok (writtenDate d name y) := by
  simp [dateFromMatch, writtenDate, h₁, h₄, h₅, h₆, truthy, (toInt_digits hd (by decide)).1,
    (toInt_digits hy (by decide)).1, monthOf_monthName_eq hname, bind, Except.bind, pure,
    Except.pure]

/-- `date_from_match(off, m)` reads only the groups `off + 1 … off + 6`. -/
theorem dateFromMatch_congr {off : Nat} {group group' : Nat → Option String}
    (h : ∀ i, off < i → i ≤ 6 + off → group i = group' i) :
    dateFromMatch off group = dateFromMatch off group' := by
  simp only [dateFromMatch, h (1 + off) (by omega) (by omega), h (2 + off) (by omega) (by omega),
    h (3 + off) (by omega) (by omega), h (4 + off) (by omega) (by omega),
    h (5 + off) (by omega) (by omega), h (6 + off) (by omega) (by omega)]

/-- `date_from_match(off, m)` on the groups of a match of `date off` returns a date from the
digits and the month name the match captured.  It reads the groups `1 + off … 6 + off` only. -/
theorem dateFromMatch_of_dateSet {off : Nat} {g g' : Groups} (h : DateSet off g g')
    (hg : g (1 + off) = none) {group : Nat → Option String}
    (hgroup : ∀ i, off < i → i ≤ 6 + off → group i = (g' i).map ofBytes) :
    ∃ d, dateFromMatch off group = .ok d ∧ MatchedDate d := by
  rw [dateFromMatch_congr hgroup]
  rcases h with ⟨d, _, y, hd, ⟨name, hname, rfl⟩, hy, rfl⟩ |
    ⟨_, d, y, ⟨name, hname, rfl⟩, hd, hy, rfl⟩
  · refine ⟨_, dateFromMatch_dayFirst hd hname hy ?_ ?_ ?_, writtenDate_matched hd hname hy⟩
    all_goals simp [Function.update_apply, utf8]
  · refine ⟨_, dateFromMatch_monthFirst hd hname hy ?_ ?_ ?_ ?_, writtenDate_matched hd hname hy⟩
    all_goals simp [Function.update_apply, utf8, hg]

/-- A match of `rec`, read back as text: the groups of the birth date alone, or of two dates. -/
theorem recMatch_datesSet {text : String} {group : Nat → Option String}
    (h : recMatch text = some group) :
    ∃ g, DatesSet (fun _ => none) g ∧ group = fun i => (g i).map ofBytes := by
  obtain ⟨g, hg, rfl⟩ := Option.map_eq_some'.1 h
  obtain ⟨p, hp, rfl⟩ := Option.map_eq_some'.1 hg
  obtain ⟨_, -, hset⟩ := spec_pat _ _ p (List.mem_of_mem_head? hp)
  exact ⟨_, hset, rfl⟩

/-- `date_from_match` on groups that hold the birth date alone, or two dates, read back as
text. -/
theorem dateFromMatch_of_datesSet {g : Groups} (h : DatesSet (fun _ => none) g) :
    ((truthy ((g 1).map ofBytes) || truthy ((g 4).map ofBytes)) = true →
      ∃ d, dateFromMatch 0 (fun i => (g i).map ofBytes) = .ok d ∧ MatchedDate d) ∧
    ((truthy ((g 1).map ofBytes) || truthy ((g 4).map ofBytes)) = false →
      ∃ birth death, dateFromMatch 6 (fun i => (g i).map ofBytes) = .ok birth ∧
        dateFromMatch 12 (fun i => (g i).map ofBytes) = .ok death ∧
        MatchedDate birth ∧ MatchedDate death) := by
  rcases h with hborn | ⟨g₁, h₁, h₂⟩
  · refine ⟨fun _ => dateFromMatch_of_dateSet hborn rfl fun _ _ _ => rfl, fun hc => ?_⟩
    exact absurd hborn.truthy (by simpa using hc)
  · have hnone : ∀ i, i ≤ 6 → g i = none := fun i hi =>
      (h₂.frame (.inl (by omega))).trans (h₁.frame (.inl hi))
    refine ⟨fun hc => by simp [hnone, truthy] at hc, fun _ => ?_⟩
    obtain ⟨birth, hb, hbm⟩ : ∃ d, dateFromMatch 6 (fun i => (g i).map ofBytes) = .ok d ∧
        MatchedDate d :=
      dateFromMatch_of_dateSet h₁ rfl fun i _ hi => by rw [h₂.frame (.inl hi)]
    obtain ⟨death, hd, hdm⟩ := dateFromMatch_of_dateSet h₂ (h₁.frame (.inr (by omega)))
      fun _ _ _ => rfl
    exact ⟨birth, death, hb, hd, hbm, hdm⟩

/-- **`date_from_match` never raises on a match of `rec`.**  When `rec.match(text)` matches and
group 1 or 4 is set, `date_from_match(0, m)` returns a date.  When neither is set,
`date_from_match(6, m)` and `date_from_match(12, m)` both return one.  Every such date has a
year of four digits, a month from 1 to 12 and a day below 100. -/
theorem recMatch_dates {text : String} {group : Nat → Option String}
    (h : recMatch text = some group) :
    ((truthy (group 1) || truthy (group 4)) = true →
      ∃ d, dateFromMatch 0 group = .ok d ∧ MatchedDate d) ∧
    ((truthy (group 1) || truthy (group 4)) = false →
      ∃ birth death, dateFromMatch 6 group = .ok birth ∧ dateFromMatch 12 group = .ok death ∧
        MatchedDate birth ∧ MatchedDate death) := by
  obtain ⟨g, hset, rfl⟩ := recMatch_datesSet h
  exact dateFromMatch_of_datesSet hset

theorem recMatch_dates_Ada : ∃ group, recMatch "Ada (born 10 December 1815)" = some group ∧
    ((truthy (group 1) || truthy (group 4)) = true →
      ∃ d, dateFromMatch 0 group = .ok d ∧ MatchedDate d) ∧
    ((truthy (group 1) || truthy (group 4)) = false →
      ∃ birth death, dateFromMatch 6 group = .ok birth ∧ dateFromMatch 12 group = .ok death ∧
        MatchedDate birth ∧ MatchedDate death) :=
  ⟨_, rfl, @recMatch_dates "Ada (born 10 December 1815)" _ rfl⟩

/-! ## 3. `run` with the expression it compiles -/

theorem extractDocument_recMatch (kb : String → KbItem) (dateValue : Date → Int)
    (itemId : String) (doc : Document) :
    ∃ r, extractDocument ⟨kb, recMatch, dateValue⟩ itemId doc = .ok r := by
  simp only [extractDocument, bind, Except.bind, pure, Except.pure]
  -- every early `return none` returns
  split <;> try exact ⟨_, rfl⟩
  split <;> try exact ⟨_, rfl⟩
  split <;> try exact ⟨_, rfl⟩
  split <;> try exact ⟨_, rfl⟩
  rename_i group hgroup
  obtain ⟨g, hset, rfl⟩ := recMatch_datesSet hgroup
  split <;> try exact ⟨_, rfl⟩
  split
  · -- a birth date only
    next hcond =>
    split <;> try exact ⟨_, rfl⟩
    obtain ⟨birth, hbirth, -⟩ := (dateFromMatch_of_datesSet hset).1 hcond
    rw [hbirth]
    exact ⟨_, rfl⟩
  · -- a birth and a death date
    next hcond =>
    obtain ⟨birth, death, hbirth, hdeath, -⟩ :=
      (dateFromMatch_of_datesSet hset).2 (Bool.eq_false_iff.2 hcond)
    rw [hbirth, hdeath]
    exact ⟨_, rfl⟩

/-- **`run` never raises.**  With the expression it compiles, the extraction returns on every
knowledge base and every sequence of documents: no date it reads from a match makes
`date_from_match` raise. -/
theorem run_recMatch (kb : String → KbItem) (dateValue : Date → Int)
    (docs : List (String × Document)) :
    ∃ res, run ⟨kb, recMatch, dateValue⟩ docs = .ok res := by
  suffices h : ∀ written records, ∃ res,
      runLoop ⟨kb, recMatch, dateValue⟩ (written, records) docs = .ok res from h [] 0
  induction docs with
  | nil => exact fun written records => ⟨_, rfl⟩
  | cons d docs ih =>
    intro written records
    obtain ⟨r, hr⟩ := extractDocument_recMatch kb dateValue d.1 d.2
    cases r with
    | none =>
      simp only [runLoop, hr, bind, Except.bind]
      exact ih written records
    | some record =>
      simp only [runLoop, hr, bind, Except.bind]
      exact ih _ _

/-! ## 4. What `rec` reads in the formats it was written for -/

theorem matchWays_byte_of_head {q : UInt8 → Bool} {bs : List UInt8}
    (h : ∀ c ∈ bs.head?, q c = false) (g : Groups) : matchWays (.byte q) bs g = [] := by
  cases bs with
  | nil => rfl
  | cons c t => exact matchWays_byte_eq_nil (h c rfl) t g

theorem firstMatch_digits (n lo hi : Nat) {w rest : List UInt8} {g : Groups}
    (hw : Digits lo hi w) (hrest : ∀ c ∈ rest.head?, digit c = false) :
    FirstMatch (.group n (rep (.byte digit) lo hi)) (w ++ rest) g
      (rest, Function.update g n (some w)) :=
  firstMatch_group n (firstMatch_rep hw.1 hw.2.1 hw.2.2 (matchWays_byte_of_head hrest g))

/-- No month name is a prefix of another followed by a space, nor the other way round. -/
theorem monthNames_apart : ∀ n ∈ monthNames, ∀ n' ∈ monthNames, n' ≠ n →
    ¬ utf8 n' <+: utf8 n ++ [32] ∧ ¬ utf8 n ++ [32] <+: utf8 n' := by
  decide

theorem firstMatch_month (n : Nat) {m rest : List UInt8} {g : Groups} (hm : MonthName m) :
    FirstMatch (month n) (m ++ 32 :: rest) g (32 :: rest, Function.update g n (some m)) := by
  obtain ⟨name, hname, rfl⟩ := hm
  obtain ⟨pre, post, hsplit⟩ := List.append_of_mem hname
  have hnodup : monthNames.Nodup := by decide
  rw [hsplit, List.nodup_middle, List.nodup_cons, List.mem_append, not_or] at hnodup
  refine firstMatch_group n (firstMatch_alts
    (show monthNames.map lit = pre.map lit ++ lit name :: post.map lit by simp [hsplit]) ?_
    ⟨[], matchWays_lits _ _ _⟩)
  simp only [List.mem_map]
  rintro _ ⟨name', hname', rfl⟩
  have hne : name' ≠ name := fun h => hnodup.1.1 (h ▸ hname')
  obtain ⟨h₁, h₂⟩ := monthNames_apart name hname name' (hsplit ▸ List.mem_append_left _ hname') hne
  rw [← List.singleton_append, ← List.append_assoc]
  exact matchWays_lits_eq_nil h₁ h₂ rest g

/-- The optional tail `(?:[^)]+?)?` of `date`. -/
def dateTail : Re := opt (plus true (.byte fun b => !isByte ')' b))

/-- The two forms of `date`, before its tail. -/
def dateForms (off : Nat) : Re :=
  .alt
    (.seq (day (1 + off)) (.seq (lit " ") (.seq (month (2 + off)) (.seq (lit " ")
      (year (3 + off))))))
    (.seq (month (4 + off)) (.seq (lit " ") (.seq (day (5 + off)) (.seq (lit ", ")
      (year (6 + off))))))

/-- The end `\s*\)` of `pat`. -/
def closing : Re := .seq (.star false (.byte space)) (.byte (isByte ')'))

theorem firstMatch_dateTail_close (t : List UInt8) (g : Groups) :
    FirstMatch dateTail (41 :: t) g (41 :: t, g) :=
  firstMatch_alt_right rfl (firstMatch_empty _ _)

theorem firstMatch_dateTail_space (t : List UInt8) (g : Groups) :
    FirstMatch dateTail (32 :: t) g (t, g) :=
  firstMatch_alt_left
    (firstMatch_seq (firstMatch_byte (by decide) _ _) (firstMatch_star_lazy _ _ _))

/-- A date `DD MONTH YYYY` followed by `rest` is read in its first form. -/
theorem firstMatch_dateForms_dayFirst (off : Nat) {d m y rest : List UInt8} {g : Groups}
    (hd : Digits 1 2 d) (hm : MonthName m) (hy : Digits 4 4 y)
    (hrest : ∀ c ∈ rest.head?, digit c = false) :
    FirstMatch (dateForms off) (d ++ 32 :: (m ++ 32 :: (y ++ rest))) g (rest, Function.update
      (Function.update (Function.update g (1 + off) (some d)) (2 + off) (some m)) (3 + off)
        (some y)) :=
  firstMatch_alt_left
    (firstMatch_seq (firstMatch_digits _ 1 2 hd (by simp; decide))
      (firstMatch_seq ⟨[], matchWays_lits [32] _ _⟩
        (firstMatch_seq (firstMatch_month _ hm)
          (firstMatch_seq ⟨[], matchWays_lits [32] _ _⟩ (firstMatch_digits _ 4 4 hy hrest)))))

theorem head_not_digit {c : UInt8} (hc : digit c = false) (t : List UInt8) :
    ∀ x ∈ (c :: t).head?, digit x = false :=
  fun _ hx => by cases hx; exact hc

theorem space_eq_false_of_digit {c : UInt8} (hc : digit c = true) : space c = false := by
  rw [digit_iff] at hc
  simp [space, isByte, inRange]
  omega

theorem matchWays_lits_cons_ne {b c : UInt8} (h : c ≠ b) (w rest : List UInt8) (g : Groups) :
    matchWays (lits (b :: w)) (c :: rest) g = [] := by
  simp [lits, matchWays, h]

/-- A month name starts with a capital letter: not a digit, not the `b` of `born`, not a
space. -/
theorem MonthName.head {m : List UInt8} (hm : MonthName m) :
    ∃ c m', m = c :: m' ∧ digit c = false ∧ c ≠ 98 ∧ space c = false := by
  obtain ⟨name, hname, rfl⟩ := hm
  have hheads : ∀ name ∈ monthNames, ∀ c ∈ (utf8 name).head?,
      digit c = false ∧ c ≠ 98 ∧ space c = false := by
    decide
  cases h : utf8 name with
  | nil => exact absurd h (MonthName.ne_nil ⟨name, hname, rfl⟩)
  | cons c m' => exact ⟨c, m', h, hheads name hname c (by rw [h]; rfl)⟩

theorem matchWays_day_eq_nil (n : Nat) {bs : List UInt8} (h : ∀ c ∈ bs.head?, digit c = false)
    (g : Groups) : matchWays (day n) bs g = [] := by
  simp only [day, rep, times, matchWays, matchWays_byte_of_head h, List.flatMap_nil, List.map_nil]

/-- A date `MONTH DD, YYYY` followed by `rest` is read in its second form. -/
theorem firstMatch_dateForms_monthFirst (off : Nat) {m d y rest : List UInt8} {g : Groups}
    (hm : MonthName m) (hd : Digits 1 2 d) (hy : Digits 4 4 y)
    (hrest : ∀ c ∈ rest.head?, digit c = false) :
    FirstMatch (dateForms off) (m ++ 32 :: (d ++ 44 :: 32 :: (y ++ rest))) g (rest,
      Function.update (Function.update (Function.update g (4 + off) (some m)) (5 + off)
        (some d)) (6 + off) (some y)) := by
  obtain ⟨c, m', rfl, hc, -⟩ := hm.head
  refine firstMatch_alt_right (matchWays_seq_eq_nil fun q hq => ?_)
    (firstMatch_seq (firstMatch_month _ hm) (firstMatch_seq ⟨[], matchWays_lits [32] _ _⟩
      (firstMatch_seq (firstMatch_digits _ 1 2 hd (head_not_digit (by decide) _))
        (firstMatch_seq ⟨[], matchWays_lits [44, 32] _ _⟩
          (firstMatch_digits _ 4 4 hy hrest)))))
  -- the first form needs a digit
  rw [List.cons_append, matchWays_day_eq_nil _ (head_not_digit hc _)] at hq
  cases hq

/-- The text of a date in either form `date` reads: `D Month YYYY`, or `Month D, YYYY`. -/
def DateText (d m y w : List UInt8) : Prop :=
  w = d ++ utf8 " " ++ m ++ utf8 " " ++ y ∨ w = m ++ utf8 " " ++ d ++ utf8 ", " ++ y

/-- A match of `date off` took the groups from `g` to `g'`: it set a group of a date,
`date_from_match(off, m)` reads `date`, and no group outside `off + 1 … off + 6` changed. -/
def ReadsDate (off : Nat) (g g' : Groups) (date : Date) : Prop :=
  (∀ i, i ≤ off ∨ 6 + off < i → g' i = g i) ∧
    (truthy ((g' (1 + off)).map ofBytes) || truthy ((g' (4 + off)).map ofBytes)) = true ∧
    dateFromMatch off (fun i => (g' i).map ofBytes) = .ok date

@[simp] theorem utf8_space : utf8 " " = [32] := rfl
@[simp] theorem utf8_comma : utf8 ", " = [44, 32] := rfl

theorem DateText.head {d m y w : List UInt8} (hd : Digits 1 2 d) (hm : MonthName m)
    (hw : DateText d m y w) : ∃ c w', w = c :: w' ∧ c ≠ 98 ∧ space c = false := by
  rcases hw with rfl | rfl
  · obtain _ | ⟨c, d'⟩ := d
    · exact absurd hd.1 (by simp)
    · have hc := hd.2.2 c (.head _)
      refine ⟨c, _, rfl, ?_, space_eq_false_of_digit hc⟩
      rintro rfl
      exact absurd hc (by decide)
  · obtain ⟨c, m', rfl, -, hc, hs⟩ := hm.head
    exact ⟨c, _, rfl, hc, hs⟩

theorem readsDate_dayFirst (off : Nat) (g : Groups) {d y : List UInt8} {mname : String}
    (hd : Digits 1 2 d) (hm : mname ∈ monthNames) (hy : Digits 4 4 y) :
    ReadsDate off g (Function.update (Function.update (Function.update g (1 + off) (some d))
      (2 + off) (some (utf8 mname))) (3 + off) (some y)) (writtenDate d mname y) := by
  have hset : DateSet off g _ := .inl ⟨_, _, _, hd, ⟨mname, hm, rfl⟩, hy, rfl⟩
  refine ⟨fun i => hset.frame, hset.truthy, dateFromMatch_dayFirst hd hm hy ?_ ?_ ?_⟩ <;>
    simp [Function.update_apply]

theorem readsDate_monthFirst (off : Nat) {g : Groups} {d y : List UInt8} {mname : String}
    (hd : Digits 1 2 d) (hm : mname ∈ monthNames) (hy : Digits 4 4 y) (hg : g (1 + off) = none) :
    ReadsDate off g (Function.update (Function.update (Function.update g (4 + off)
      (some (utf8 mname))) (5 + off) (some d)) (6 + off) (some y)) (writtenDate d mname y) := by
  have hset : DateSet off g _ := .inr ⟨_, _, _, ⟨mname, hm, rfl⟩, hd, hy, rfl⟩
  refine ⟨fun i => hset.frame, hset.truthy, dateFromMatch_monthFirst hd hm hy ?_ ?_ ?_ ?_⟩ <;>
    simp [Function.update_apply, hg]

/-- Two dates read in turn by `date 6` and `date 12`, from groups none of which up to 6 is set:
`run` takes them for a range, and `date_from_match(6, m)` and `date_from_match(12, m)` return
them. -/
theorem readsDate_range {g g₁ g₂ : Groups} {birth death : Date} (hg : ∀ i, i ≤ 6 → g i = none)
    (h₁ : ReadsDate 6 g g₁ birth) (h₂ : ReadsDate 12 g₁ g₂ death) :
    (truthy ((g₂ 1).map ofBytes) || truthy ((g₂ 4).map ofBytes)) = false ∧
      dateFromMatch 6 (fun i => (g₂ i).map ofBytes) = .ok birth ∧
      dateFromMatch 12 (fun i => (g₂ i).map ofBytes) = .ok death := by
  have hnone : ∀ i, i ≤ 6 → g₂ i = none := fun i hi =>
    ((h₂.1 i (.inl (by omega))).trans (h₁.1 i (.inl hi))).trans (hg i hi)
  refine ⟨by simp [hnone, truthy], ?_, h₂.2.2⟩
  exact (dateFromMatch_congr fun i _ hi => by rw [h₂.1 i (.inl (by omega))]).trans h₁.2.2

/-- A date in either form, followed by `rest`, is read by the forms of `date off` into the
date it writes. -/
theorem firstMatch_dateForms_text (off : Nat) {d y w rest : List UInt8} {mname : String}
    {g : Groups} (hd : Digits 1 2 d) (hm : mname ∈ monthNames) (hy : Digits 4 4 y)
    (hw : DateText d (utf8 mname) y w) (hg : g (1 + off) = none)
    (hrest : ∀ c ∈ rest.head?, digit c = false) :
    ∃ g', FirstMatch (dateForms off) (w ++ rest) g (rest, g') ∧
      ReadsDate off g g' (writtenDate d mname y) := by
  have hmonth : MonthName (utf8 mname) := ⟨mname, hm, rfl⟩
  rcases hw with rfl | rfl
  · refine ⟨_, ?_, readsDate_dayFirst off g hd hm hy⟩
    simpa only [utf8_space, List.append_assoc, List.singleton_append, List.cons_append] using
      firstMatch_dateForms_dayFirst off (g := g) hd hmonth hy hrest
  · refine ⟨_, ?_, readsDate_monthFirst off hd hm hy hg⟩
    simpa only [utf8_space, utf8_comma, List.append_assoc, List.singleton_append,
      List.cons_append] using firstMatch_dateForms_monthFirst off (g := g) hmonth hd hy hrest

theorem isByte_close_eq_false {c : UInt8} (h : c ≠ 41) : isByte ')' c = false := by
  simp only [isByte, beq_eq_false_iff_ne]
  exact fun h' => h (UInt8.toNat.inj h')

theorem firstMatch_closing (t : List UInt8) (g : Groups) : FirstMatch closing (41 :: t) g (t, g) :=
  firstMatch_seq (firstMatch_star_greedy (matchWays_byte_eq_nil (b := 41) (by decide) t g) [] nofun)
    (firstMatch_byte (by decide) _ _)

/-- The end `\s*\)` of `pat` fails before a text without `)` that does not end in a space. -/
theorem matchWays_closing_eq_nil {x : List UInt8} (hne : x ≠ []) (hx : ∀ b ∈ x, b ≠ 41)
    (hlast : ∀ b ∈ x.getLast?, space b = false) (t : List UInt8) (g : Groups) :
    matchWays closing (x ++ 41 :: t) g = [] := by
  have hspace : ¬ ∀ b ∈ x, space b = true := fun h =>
    absurd (h _ (List.getLast_mem hne)) (by simp [hlast _ (List.getLast?_eq_getLast x hne)])
  refine matchWays_seq_eq_nil fun q hq => ?_
  obtain ⟨w, hw, hiter⟩ := spec_star false (spec_byte space) _ _ q hq
  have hw' := iterated_byte hiter
  rcases List.append_eq_append_iff.1 hw with ⟨a', rfl, -⟩ | ⟨c', rfl, hq₁⟩
  · exact absurd (fun b hb => hw' b (List.mem_append_left _ hb)) hspace
  · obtain _ | ⟨c, c''⟩ := c'
    · exact absurd (by simpa using hw') hspace
    · rw [hq₁]
      exact matchWays_byte_eq_nil (isByte_close_eq_false (hx c (by simp))) _ _

/-- Before a text `x` without `)`, the tail `(?:[^)]+?)?` first reads one byte of `x`, then
one more at a time up to the whole of `x`, and last nothing. -/
theorem matchWays_dateTail_text {x : List UInt8} (hne : x ≠ []) (hx : ∀ b ∈ x, b ≠ 41)
    (t : List UInt8) (g : Groups) :
    ∃ pre, matchWays dateTail (x ++ 41 :: t) g = pre ++ (41 :: t, g) :: [(x ++ 41 :: t, g)] ∧
      ∀ q ∈ pre, q.2 = g ∧ ∃ k, 0 < k ∧ k < x.length ∧ q.1 = x.drop k ++ 41 :: t := by
  obtain ⟨c, x', rfl⟩ := List.exists_cons_of_ne_nil hne
  have hnot : ∀ b ∈ c :: x', (!isByte ')' b) = true := fun b hb => by
    simp [isByte_close_eq_false (hx b hb)]
  have hr : ∀ b ∈ x', ∀ t, matchWays (.byte fun b => !isByte ')' b) (b :: t) g = [(t, g)] :=
    fun b hb t => by simp [matchWays, hnot b (.tail _ hb)]
  obtain ⟨pre, hpre, hq⟩ := matchWays_star_lazy_append (41 :: t) hr
  have hstar := matchWays_star_of_nil true (matchWays_byte_eq_nil
    (p := fun b => !isByte ')' b) (b := 41) (by decide) t g)
  refine ⟨pre, ?_, fun q hq' => ?_⟩
  · show (matchWays (.byte _) (c :: (x' ++ 41 :: t)) g).flatMap _ ++ [_] = _
    rw [matchWays, if_pos (hnot c (.head _)), List.flatMap_singleton, hpre, hstar]
    simp
  · obtain ⟨hg, k, hk, h⟩ := hq q hq'
    exact ⟨hg, k + 1, by omega, by simpa using hk, h⟩

/-- After `born `, a birth date in either form, then a text `x` without `)` that starts with no
digit and ends with no space, then `)`: `dates` and the closing `\s*\)` first match there, the
tail of the date taking in `x`, and read the date written. -/
theorem firstMatch_dates_born {d y w x t : List UInt8} {mname : String} (hd : Digits 1 2 d)
    (hm : mname ∈ monthNames) (hy : Digits 4 4 y) (hw : DateText d (utf8 mname) y w)
    (hx : ∀ b ∈ x, b ≠ 41) (hxhead : ∀ c ∈ x.head?, digit c = false)
    (hxlast : ∀ b ∈ x.getLast?, space b = false) :
    ∃ g, FirstMatch (.seq dates closing) (utf8 "born " ++ (w ++ (x ++ 41 :: t)))
      (fun _ => none) (t, g) ∧ ReadsDate 0 (fun _ => none) g (writtenDate d mname y) := by
  have hrest : ∀ c ∈ (x ++ 41 :: t).head?, digit c = false := by
    cases x with
    | nil => exact head_not_digit (by decide) t
    | cons c x' => exact head_not_digit (hxhead c rfl) _
  obtain ⟨g, hforms, hreads⟩ := firstMatch_dateForms_text 0 (g := fun _ => none) hd hm hy hw rfl
    hrest
  refine ⟨g, ?_, hreads⟩
  by_cases hx₀ : x = []
  · subst hx₀
    exact firstMatch_seq (firstMatch_alt_left (firstMatch_seq ⟨[], matchWays_lits _ _ _⟩
      (firstMatch_seq hforms (firstMatch_dateTail_close t g)))) (firstMatch_closing t g)
  -- the tail first takes in one byte of `x`, then more, and `\s*\)` fails until it has all
  obtain ⟨pre, htail, hpre⟩ := matchWays_dateTail_text hx₀ hx t g
  obtain ⟨l, hl⟩ := hforms
  have hborn : matchWays (.seq (lit "born ") (date 0)) (utf8 "born " ++ (w ++ (x ++ 41 :: t)))
      (fun _ => none) = pre ++ (41 :: t, g) :: ((x ++ 41 :: t, g) ::
        l.flatMap fun q => matchWays dateTail q.1 q.2) := by
    show ((matchWays (lits (utf8 "born ")) (utf8 "born " ++ (w ++ (x ++ 41 :: t)))
      (fun _ => none)).flatMap fun p => (matchWays (dateForms 0) p.1 p.2).flatMap
        fun q => matchWays dateTail q.1 q.2) = _
    rw [matchWays_lits, List.flatMap_singleton, hl, List.flatMap_cons, htail]
    simp only [List.append_assoc, List.cons_append, List.nil_append]
  refine firstMatch_seq_of_fail (matchWays_alt_eq hborn) (fun q hq => ?_) (firstMatch_closing t g)
  obtain ⟨hg, k, hk₀, hk, h⟩ := hpre q hq
  rw [hg, h]
  refine matchWays_closing_eq_nil (by simpa using hk) (fun b hb => hx b (List.mem_of_mem_drop hb))
    ?_ t g
  rw [List.getLast?_drop, if_neg (by omega)]
  exact hxlast

/-- Two dates in either form, separated by ` - ` and closed by `)`, are read into the dates
they write. -/
theorem firstMatch_dates_range {d₁ y₁ w₁ d₂ y₂ w₂ t : List UInt8} {mname₁ mname₂ : String}
    {g : Groups} (hd₁ : Digits 1 2 d₁) (hm₁ : mname₁ ∈ monthNames) (hy₁ : Digits 4 4 y₁)
    (hw₁ : DateText d₁ (utf8 mname₁) y₁ w₁) (hd₂ : Digits 1 2 d₂) (hm₂ : mname₂ ∈ monthNames)
    (hy₂ : Digits 4 4 y₂) (hw₂ : DateText d₂ (utf8 mname₂) y₂ w₂) (hg₇ : g 7 = none)
    (hg₁₃ : g 13 = none) :
    ∃ g₁ g₂, FirstMatch dates (w₁ ++ 32 :: 45 :: 32 :: (w₂ ++ 41 :: t)) g (41 :: t, g₂) ∧
      ReadsDate 6 g g₁ (writtenDate d₁ mname₁ y₁) ∧
      ReadsDate 12 g₁ g₂ (writtenDate d₂ mname₂ y₂) := by
  obtain ⟨c₁, w₁', rfl, hc₁, -⟩ := hw₁.head hd₁ ⟨mname₁, hm₁, rfl⟩
  obtain ⟨c₂, w₂', rfl, -, hc₂⟩ := hw₂.head hd₂ ⟨mname₂, hm₂, rfl⟩
  obtain ⟨g₁, hforms₁, hr₁⟩ := firstMatch_dateForms_text 6 hd₁ hm₁ hy₁ hw₁ hg₇
    (head_not_digit (c := 32) (by decide) (45 :: 32 :: (c₂ :: w₂' ++ 41 :: t)))
  obtain ⟨g₂, hforms₂, hr₂⟩ := firstMatch_dateForms_text 12 hd₂ hm₂ hy₂ hw₂
    ((hr₁.1 13 (.inr (by omega))).trans hg₁₃) (head_not_digit (c := 41) (by decide) t)
  have hdate₁ := firstMatch_seq hforms₁ (firstMatch_dateTail_space _ g₁)
  have hdate₂ := firstMatch_seq hforms₂ (firstMatch_dateTail_close t g₂)
  refine ⟨g₁, g₂, firstMatch_alt_right (matchWays_seq_eq_nil fun q hq => ?_) ?_, hr₁, hr₂⟩
  · -- `born ` does not match the first byte of a date
    rw [List.cons_append, show lit "born " = lits (98 :: utf8 "orn ") from rfl,
      matchWays_lits_cons_ne hc₁] at hq
    cases hq
  · have hspace₁ := firstMatch_star_greedy (matchWays_byte_eq_nil (p := space) (b := 45)
      (by decide) (32 :: (c₂ :: w₂' ++ 41 :: t)) g₁) [] nofun
    have hdash := firstMatch_seq (firstMatch_byte (p := isByte '-') (b := 45) (by decide) _ g₁)
      (firstMatch_star_greedy (matchWays_byte_eq_nil (p := isByte '-') (b := 32) (by decide)
        (c₂ :: w₂' ++ 41 :: t) g₁) [] nofun)
    have hspace₂ := firstMatch_star_greedy (matchWays_byte_eq_nil hc₂ (w₂' ++ 41 :: t) g₁) [32]
      (by decide)
    exact firstMatch_seq hdate₁ (firstMatch_seq hspace₁ (firstMatch_seq hdash
      (firstMatch_seq hspace₂ hdate₂)))

/-- Behind a name without `(`, the first match of `rec` is the first match of `dates` and the
closing `\s*\)` after the first `(`. -/
theorem firstMatch_pat {name body t : List UInt8} {g : Groups}
    (hname : ∀ b ∈ name, isByte '(' b = false)
    (hdates : FirstMatch (.seq dates closing) body (fun _ => none) (t, g)) :
    FirstMatch pat (name ++ 40 :: body) (fun _ => none) (t, g) := by
  refine firstMatch_seq_star_lazy (fun b hb t => ?_) (fun b hb t => ?_) ?_
  · simp only [matchWays, hname b hb, Bool.not_false, Bool.false_eq_true, ite_true, ite_false,
      List.flatMap_nil, List.append_nil]
  · simp only [matchWays, hname b hb, Bool.false_eq_true, ite_false, List.flatMap_nil]
  · exact firstMatch_seq (firstMatch_byte (by decide) _ _)
      (firstMatch_seq (firstMatch_star_lazy _ _ _) hdates)

@[simp] theorem utf8_open_born : utf8 "(born " = 40 :: utf8 "born " := rfl
@[simp] theorem utf8_open : utf8 "(" = [40] := rfl
@[simp] theorem utf8_dash : utf8 " - " = [32, 45, 32] := rfl
@[simp] theorem utf8_close : utf8 ")" = [41] := rfl

theorem recMatch_of_matchGroups {text : String} {g : Groups}
    (h : matchGroups pat (utf8 text) = some g) :
    recMatch text = some fun i => (g i).map ofBytes := by
  show (matchGroups pat (utf8 text)).map _ = _
  rw [h]
  rfl

/-- `rec` reads a birth date written `(born D Month YYYY …)` or `(born Month D, YYYY …)` behind
a name without `(`: group 1 or 4 is set, and `date_from_match(0, m)` returns the date. -/
theorem recMatch_born {text : String} {name d y w x t : List UInt8} {mname : String}
    (htext : utf8 text = name ++ utf8 "(born " ++ w ++ x ++ utf8 ")" ++ t)
    (hname : ∀ b ∈ name, isByte '(' b = false) (hd : Digits 1 2 d) (hm : mname ∈ monthNames)
    (hy : Digits 4 4 y) (hw : DateText d (utf8 mname) y w) (hx : ∀ b ∈ x, b ≠ 41)
    (hxhead : ∀ c ∈ x.head?, digit c = false) (hxlast : ∀ b ∈ x.getLast?, space b = false) :
    ∃ group, recMatch text = some group ∧ (truthy (group 1) || truthy (group 4)) = true ∧
      dateFromMatch 0 group = .ok (writtenDate d mname y) := by
  obtain ⟨g, hdates, -, htruthy, hdate⟩ :=
    firstMatch_dates_born (t := t) hd hm hy hw hx hxhead hxlast
  have hg : matchGroups pat (utf8 text) = some g := by
    rw [htext]
    simpa only [utf8_open_born, utf8_close, List.append_assoc, List.cons_append,
      List.singleton_append] using matchGroups_of_firstMatch (firstMatch_pat hname hdates)
  exact ⟨_, recMatch_of_matchGroups hg, htruthy, hdate⟩

/-- `rec` reads a range of two dates, each `D Month YYYY` or `Month D, YYYY`, behind a name
without `(`: neither group 1 nor 4 is set, and `date_from_match(6, m)` and
`date_from_match(12, m)` return the two dates. -/
theorem recMatch_range {text : String} {name d₁ y₁ w₁ d₂ y₂ w₂ t : List UInt8}
    {mname₁ mname₂ : String}
    (htext : utf8 text = name ++ utf8 "(" ++ w₁ ++ utf8 " - " ++ w₂ ++ utf8 ")" ++ t)
    (hname : ∀ b ∈ name, isByte '(' b = false)
    (hd₁ : Digits 1 2 d₁) (hm₁ : mname₁ ∈ monthNames) (hy₁ : Digits 4 4 y₁)
    (hw₁ : DateText d₁ (utf8 mname₁) y₁ w₁) (hd₂ : Digits 1 2 d₂) (hm₂ : mname₂ ∈ monthNames)
    (hy₂ : Digits 4 4 y₂) (hw₂ : DateText d₂ (utf8 mname₂) y₂ w₂) :
    ∃ group, recMatch text = some group ∧ (truthy (group 1) || truthy (group 4)) = false ∧
      dateFromMatch 6 group = .ok (writtenDate d₁ mname₁ y₁) ∧
      dateFromMatch 12 group = .ok (writtenDate d₂ mname₂ y₂) := by
  obtain ⟨g₁, g₂, hdates, hr₁, hr₂⟩ :=
    firstMatch_dates_range (t := t) (g := fun _ => none) hd₁ hm₁ hy₁ hw₁ hd₂ hm₂ hy₂ hw₂ rfl rfl
  have hg : matchGroups pat (utf8 text) = some g₂ := by
    rw [htext]
    simpa only [utf8_open, utf8_dash, utf8_close, List.append_assoc, List.cons_append,
      List.singleton_append] using matchGroups_of_firstMatch
        (firstMatch_pat hname (firstMatch_seq hdates (firstMatch_closing t g₂)))
  obtain ⟨hfalse, hbirth, hdeath⟩ := readsDate_range (fun _ _ => rfl) hr₁ hr₂
  exact ⟨_, recMatch_of_matchGroups hg, hfalse, hbirth, hdeath⟩

/-! ## 5. The name before the dates

`pat` starts with `(?:[^(]|\([^0-9]*\))*?`: it passes over the bytes of the name and over
parentheses without digits, such as `(née Byron)`, to the first `(` from which the rest of the
expression matches. -/

/-- Whether a `)` comes in the bytes before any digit. -/
def closesBeforeDigit : List UInt8 → Bool
  | [] => false
  | b :: bs => b == 41 || (!digit b && closesBeforeDigit bs)

/-- Whether a digit comes in the bytes before any `)`. -/
def digitBeforeClose : List UInt8 → Bool
  | [] => false
  | b :: bs => digit b || (b != 41 && digitBeforeClose bs)

/-- Whether each `(` in the bytes is closed by a `)` before any digit. -/
def parensClosed : List UInt8 → Bool
  | [] => true
  | b :: bs => (b != 40 || closesBeforeDigit bs) && parensClosed bs

/-- The repeated alternative at the start of `pat`: `[^(]|\([^0-9]*\)`. -/
def skipped : Re :=
  .alt (.byte fun b => !isByte '(' b)
    (.seq (.byte (isByte '(')) (.seq (.star false (.byte fun b => !digit b)) (.byte (isByte ')'))))

/-- The class `[, ;a-zA-Z\-]` of `pat`. -/
def classByte (b : UInt8) : Bool :=
  isByte ',' b || isByte ' ' b || isByte ';' b || inRange 'a' 'z' b || inRange 'A' 'Z' b ||
    isByte '-' b

/-- The rest of `pat`: `\([, ;a-zA-Z\-]*?`, then `dates` and `\s*\)`. -/
def opening : Re := .seq (.byte (isByte '(')) (.seq (.star true (.byte classByte)) (.seq dates closing))

theorem pat_eq : pat = .seq (.star true skipped) opening := rfl

theorem closesBeforeDigit_append {a : List UInt8} (h : closesBeforeDigit a = true)
    (b : List UInt8) : closesBeforeDigit (a ++ b) = true := by
  induction a with
  | nil => cases h
  | cons c a ih =>
    simp only [closesBeforeDigit, Bool.or_eq_true, Bool.and_eq_true] at h ⊢
    exact h.imp_right fun h => ⟨h.1, ih h.2⟩

theorem digitBeforeClose_append {a : List UInt8} (h : digitBeforeClose a = true)
    (b : List UInt8) : digitBeforeClose (a ++ b) = true := by
  induction a with
  | nil => cases h
  | cons c a ih =>
    simp only [digitBeforeClose, Bool.or_eq_true, Bool.and_eq_true] at h ⊢
    exact h.imp_right fun h => ⟨h.1, ih h.2⟩

/-- Of a digit and a `)`, only one can come first. -/
theorem digitBeforeClose_eq_false {a : List UInt8} (h : closesBeforeDigit a = true) :
    digitBeforeClose a = false := by
  induction a with
  | nil => rfl
  | cons c a ih =>
    by_cases hc : c = 41
    · subst hc; rfl
    · simp only [closesBeforeDigit, Bool.or_eq_true, beq_iff_eq, hc, false_or, Bool.and_eq_true,
        Bool.not_eq_true'] at h
      simp [digitBeforeClose, h.1, ih h.2]

theorem digitBeforeClose_prepend {x w : List UInt8} (hx : ∀ b ∈ x, digit b = false ∧ b ≠ 41)
    (hw : digitBeforeClose w = true) : digitBeforeClose (x ++ w) = true := by
  induction x with
  | nil => exact hw
  | cons c x ih =>
    obtain ⟨hd, hc⟩ := hx c (.head _)
    simp [digitBeforeClose, hd, hc, ih fun b hb => hx b (.tail _ hb)]

theorem digitBeforeClose_close {a : List UInt8} (ha : ∀ b ∈ a, digit b = false) (t : List UInt8) :
    digitBeforeClose (a ++ 41 :: t) = false := by
  induction a with
  | nil => rfl
  | cons c a ih =>
    simp [digitBeforeClose, ha c (.head _), ih fun b hb => ha b (.tail _ hb)]

/-- The bytes up to the first `)`, when it comes before any digit. -/
theorem closesBeforeDigit_split {a : List UInt8} (h : closesBeforeDigit a = true) :
    ∃ s t, a = s ++ 41 :: t ∧ ∀ b ∈ s, digit b = false := by
  induction a with
  | nil => cases h
  | cons c a ih =>
    by_cases hc : c = 41
    · exact ⟨[], a, by rw [hc]; rfl, nofun⟩
    · simp only [closesBeforeDigit, Bool.or_eq_true, beq_iff_eq, hc, false_or, Bool.and_eq_true,
        Bool.not_eq_true'] at h
      obtain ⟨s, t, rfl, hs⟩ := ih h.2
      exact ⟨c :: s, t, rfl, List.forall_mem_cons.2 ⟨h.1, hs⟩⟩

theorem parensClosed_of_suffix {a b : List UInt8} (hab : a <:+ b) (h : parensClosed b = true) :
    parensClosed a = true := by
  obtain ⟨c, rfl⟩ := hab
  induction c with
  | nil => exact h
  | cons x c ih =>
    simp only [List.cons_append, parensClosed, Bool.and_eq_true] at h
    exact ih h.2

theorem isByte_open {b : UInt8} (h : isByte '(' b = true) : b = 40 := by
  simp [isByte] at h
  exact UInt8.toNat.inj h

theorem isByte_close {b : UInt8} (h : isByte ')' b = true) : b = 41 := by
  simp [isByte] at h
  exact UInt8.toNat.inj h

/-- What a match of `date off` reads reaches a digit before any `)`. -/
theorem DateRead.digit_first {off : Nat} {g g' : Groups} {w : List UInt8}
    (h : DateRead off g w g') : digitBeforeClose w = true := by
  have hletters : ∀ name ∈ monthNames, ∀ b ∈ utf8 name, digit b = false ∧ b ≠ 41 := by
    decide
  obtain ⟨d, mname, y, tail, hd, hm, hy, ⟨rfl, -⟩ | ⟨rfl, -⟩⟩ := h
  all_goals obtain _ | ⟨c, d'⟩ := d
  · exact absurd hd.1 (by decide)
  · show digitBeforeClose (c :: _) = true
    simp only [digitBeforeClose, hd.2.2 c (.head _), Bool.true_or]
  · exact absurd hd.1 (by decide)
  · simp only [List.append_assoc]
    refine digitBeforeClose_prepend (hletters mname hm) (digitBeforeClose_prepend (by decide) ?_)
    show digitBeforeClose (c :: _) = true
    simp only [digitBeforeClose, hd.2.2 c (.head _), Bool.true_or]

theorem DatesRead.digit_first {g g' : Groups} {w : List UInt8} (h : DatesRead g w g') :
    digitBeforeClose w = true := by
  rcases h with ⟨v, rfl, hv⟩ | ⟨v₁, sep, v₂, _, rfl, -, hv₁, -⟩
  · exact digitBeforeClose_prepend (by decide) hv.digit_first
  · rw [List.append_assoc]
    exact digitBeforeClose_append hv₁.digit_first _

/-- Every match of `opening` reads `(` and then reaches a digit before any `)`. -/
theorem spec_opening :
    Spec opening fun _ w _ => ∃ w', w = 40 :: w' ∧ digitBeforeClose w' = true := by
  have hany : ∀ r : Re, Spec r fun _ _ _ => True := fun r =>
    (spec_matches r).mono fun _ _ _ _ => trivial
  refine (spec_seq (spec_byte _) (spec_seq (spec_star true (spec_byte _))
    (spec_seq spec_dates_read (hany _)))).mono ?_
  rintro _ _ _ ⟨_, _, _, rfl, ⟨-, b, rfl, hb⟩, u, _, _, rfl, hu, v, _, _, rfl, hv, -⟩
  refine ⟨u ++ (v ++ _), by rw [isByte_open hb]; rfl, digitBeforeClose_prepend (fun c hc => ?_)
    (digitBeforeClose_append hv.digit_first _)⟩
  have hclass := iterated_byte hu c hc
  simp [classByte, isByte, inRange] at hclass
  refine ⟨by simp [digit, inRange]; omega, fun h => ?_⟩
  subst h
  simp [UInt8.size] at hclass

/-- `opening` fails inside a name whose `(`s are closed before any digit. -/
theorem matchWays_opening_eq_nil {c : UInt8} {m : List UInt8} (h : parensClosed (c :: m) = true)
    (rest : List UInt8) (g : Groups) : matchWays opening (c :: (m ++ rest)) g = [] := by
  refine List.eq_nil_iff_forall_not_mem.2 fun q hq => ?_
  obtain ⟨_, hw, w', rfl, hdigit⟩ := spec_opening _ _ q hq
  rw [List.cons_append] at hw
  obtain ⟨rfl, hrest⟩ := List.cons_eq_cons.1 hw
  simp only [parensClosed, bne_self_eq_false, Bool.false_or, Bool.and_eq_true] at h
  have hclose := digitBeforeClose_eq_false (closesBeforeDigit_append h.1 rest)
  rw [hrest, digitBeforeClose_append hdigit] at hclose
  cases hclose

/-- Every match of `skipped` reads a byte other than `(`, or a parenthesis without digits. -/
theorem spec_skipped : Spec skipped fun g w g' => g' = g ∧
    ((∃ b, w = [b] ∧ b ≠ 40) ∨ ∃ u, w = 40 :: (u ++ [41]) ∧ ∀ b ∈ u, digit b = false) := by
  refine (spec_alt (spec_byte _) (spec_seq (spec_byte _) (spec_seq (spec_star false (spec_byte _))
    (spec_byte _)))).mono ?_
  rintro g _ _ (⟨rfl, b, rfl, hb⟩ | ⟨_, _, _, rfl, ⟨rfl, b, rfl, hb⟩, u, _, _, rfl, hu, rfl, c, rfl,
    hc⟩)
  · refine ⟨rfl, .inl ⟨b, rfl, fun h => ?_⟩⟩
    subst h
    exact absurd hb (by decide)
  · obtain rfl := isByte_open hb
    obtain rfl := isByte_close hc
    exact ⟨iterated_keep (hu.mono fun _ _ _ h => h.1),
      .inr ⟨u, rfl, fun b hb => by simpa using iterated_byte hu b hb⟩⟩

/-- The matches of `skipped` inside a name, before `(` and a text that reaches a digit before
any `)`: each leaves the groups as they were and a suffix of the name to read. -/
theorem mem_matchWays_skipped {c : UInt8} {m body : List UInt8} {g : Groups}
    (hbody : digitBeforeClose body = true) {q : List UInt8 × Groups}
    (hq : q ∈ matchWays skipped (c :: (m ++ 40 :: body)) g) :
    ∃ m₂, q = (m₂ ++ 40 :: body, g) ∧ m₂ <:+ m := by
  obtain ⟨w, hw, hg, ⟨b, rfl, -⟩ | ⟨u, rfl, hu⟩⟩ := spec_skipped _ _ q hq
  · rw [List.singleton_append] at hw
    obtain ⟨-, hw⟩ := List.cons_eq_cons.1 hw
    exact ⟨m, Prod.ext hw.symm hg, List.suffix_refl m⟩
  · rw [List.cons_append] at hw
    obtain ⟨-, hw⟩ := List.cons_eq_cons.1 hw
    rw [List.append_assoc, List.singleton_append] at hw
    rcases List.append_eq_append_iff.1 hw with ⟨a', rfl, h⟩ | ⟨c', rfl, h⟩
    · -- the parenthesis would close inside `body`, past its digit
      cases a' with
      | nil => cases h
      | cons x a =>
        simp only [List.cons_append, List.cons.injEq] at h
        obtain ⟨-, rfl⟩ := h
        rw [digitBeforeClose_close (fun b hb => hu b (List.mem_append_right _ (.tail _ hb)))]
          at hbody
        cases hbody
    · cases c' with
      | nil => cases h
      | cons x m₂ =>
        simp only [List.cons_append, List.cons.injEq] at h
        exact ⟨m₂, Prod.ext h.2 hg, (List.suffix_cons _ _).trans (List.suffix_append _ _)⟩

/-- Inside a name whose `(`s are closed before any digit, `skipped` has a match. -/
theorem matchWays_skipped_ne_nil {c : UInt8} {m rest : List UInt8} (h : parensClosed (c :: m) = true)
    (g : Groups) : matchWays skipped (c :: (m ++ rest)) g ≠ [] := by
  by_cases hc : c = 40
  · subst hc
    simp only [parensClosed, bne_self_eq_false, Bool.false_or, Bool.and_eq_true] at h
    obtain ⟨s, t, rfl, hs⟩ := closesBeforeDigit_split h.1
    have hm : Matches skipped g (40 :: (s ++ [41])) g :=
      .alt_right (.seq (.byte rfl) (.seq (matches_star_byte fun b hb => by simp [hs b hb])
        (.byte rfl)))
    have hmem : (t ++ rest, g) ∈ matchWays skipped (40 :: (s ++ [41]) ++ (t ++ rest)) g :=
      mem_matchWays_iff.2 hm
    simp only [List.append_assoc, List.singleton_append, List.cons_append] at hmem ⊢
    exact List.ne_nil_of_mem hmem
  · have hb : (!isByte '(' c) = true := by
      simpa [isByte] using fun h' => hc (UInt8.toNat.inj h')
    refine List.ne_nil_of_mem (a := (m ++ rest, g)) ?_
    simp [skipped, matchWays, hb]

/-- From any suffix of such a name, the first match of `pat` is its first match from the `(`
after the name. -/
theorem head?_matchWays_pat_name {body : List UInt8} (hbody : digitBeforeClose body = true)
    (g : Groups) (n : Nat) : ∀ name : List UInt8, name.length ≤ n → parensClosed name = true →
      (matchWays pat (name ++ 40 :: body) g).head? = (matchWays pat (40 :: body) g).head? := by
  induction n with
  | zero =>
    intro name hn _
    rw [List.eq_nil_of_length_eq_zero (Nat.le_zero.1 hn)]
    rfl
  | succ n ih =>
    rintro (_ | ⟨c, m⟩) hn h
    · rfl
    -- `opening` fails at `c`, and every iteration of `skipped` leaves a shorter suffix
    have hnext : ∀ q ∈ matchWays skipped (c :: (m ++ 40 :: body)) g,
        ∃ m₂, q = (m₂ ++ 40 :: body, g) ∧ m₂.length ≤ m.length ∧ parensClosed m₂ = true :=
      fun q hq => by
        obtain ⟨m₂, rfl, hm₂⟩ := mem_matchWays_skipped hbody hq
        exact ⟨m₂, rfl, hm₂.length_le,
          parensClosed_of_suffix (hm₂.trans (List.suffix_cons c m)) h⟩
    rw [pat_eq, List.cons_append, matchWays_seq_star_lazy (matchWays_opening_eq_nil h _ g)
      fun q hq => by
        obtain ⟨m₂, rfl, hm₂, -⟩ := hnext q hq
        simp only [List.length_append, List.length_cons]
        omega]
    refine head?_flatMap_of_forall (matchWays_skipped_ne_nil h g) fun q hq => ?_
    obtain ⟨m₂, rfl, hm₂, hclosed⟩ := hnext q hq
    exact ih m₂ (by simp only [List.length_cons] at hn; omega) hclosed

/-- **`rec` passes over the name.**  Behind a name in which every `(` is closed by a `)` before
any digit, such as `(née Byron)`, `rec.match` returns what it returns from the first `(` after
the name whose text reaches a digit before any `)`. -/
theorem matchGroups_pat_name {name body : List UInt8} (hname : parensClosed name = true)
    (hbody : digitBeforeClose body = true) :
    matchGroups pat (name ++ 40 :: body) = matchGroups pat (40 :: body) :=
  congrArg (Option.map Prod.snd) (head?_matchWays_pat_name hbody _ _ name le_rfl hname)

theorem matchGroups_pat_name_neeByron :
    parensClosed (utf8 "Ada (née Byron) ") = true ∧
      digitBeforeClose (utf8 "born 10 December 1815)") = true ∧
      matchGroups pat (utf8 "Ada (née Byron) " ++ 40 :: utf8 "born 10 December 1815)") =
        matchGroups pat (40 :: utf8 "born 10 December 1815)") :=
  have hname : parensClosed (utf8 "Ada (née Byron) ") = true := by decide
  have hbody : digitBeforeClose (utf8 "born 10 December 1815)") = true := by decide
  ⟨hname, hbody, matchGroups_pat_name hname hbody⟩

/-! ## 6. What `run` writes for an article in these formats -/

section Article

variable {kb : String → KbItem} {dateValue : Date → Int} {itemId : String} {doc : Document}
  {text : String}

/-- **`run` writes the birth date an article gives as `(born …)`.**  Take a human without a
date of birth, and an article whose window `text` is a name without `(`, then `(born `, a date
`D Month YYYY` or `Month D, YYYY`, then a text `x` (a place of birth, say) without `)` that
starts with no digit and ends with no space, then `)`, with neither `(baptised` nor `throne` in
the window.  The record `run` writes for the item holds one fact: `P569`, the date written
there. -/
theorem extractDocument_born {name d y w x t : List UInt8} {mname : String}
    (hhuman : "Q5" ∈ (kb itemId).instanceOf) (hbirth : (kb itemId).hasDateOfBirth = false)
    (hdoc : doc.text.isEmpty = false)
    (hwindow : doc.phrase (window doc.tokens (find doc.text "<b>" + 3)).1
      (window doc.tokens (find doc.text "<b>" + 3)).2 = text)
    (hbaptised : find text "(baptised" < 0) (hthrone : find text "throne" < 0)
    (htext : utf8 text = name ++ utf8 "(born " ++ w ++ x ++ utf8 ")" ++ t)
    (hname : ∀ b ∈ name, isByte '(' b = false)
    (hd : Digits 1 2 d) (hm : mname ∈ monthNames) (hy : Digits 4 4 y)
    (hw : DateText d (utf8 mname) y w) (hx : ∀ b ∈ x, b ≠ 41)
    (hxhead : ∀ c ∈ x.head?, digit c = false) (hxlast : ∀ b ∈ x.getLast?, space b = false) :
    extractDocument ⟨kb, recMatch, dateValue⟩ itemId doc = .ok (some ⟨itemId,
      [("P569", dateValue (writtenDate d mname y))], doc.url,
      "English Wikipedia dates for '" ++ (kb itemId).name ++ "'"⟩) := by
  obtain ⟨group, hrec, htruthy, hdate⟩ :=
    recMatch_born htext hname hd hm hy hw hx hxhead hxlast
  simp [extractDocument, hhuman, hbirth, hdoc, hwindow, hrec, not_le.2 hbaptised,
    not_le.2 hthrone, htruthy, hdate, bind, Except.bind, pure, Except.pure]

/-- The article of the human `Q1`, with a birth date only, month first, and a place. -/
def exampleBornDocument : Document where
  text := "<b>Q1</b> (born December 10, 1815 in London)"
  url := "Q1"
  tokens := [⟨0, 0⟩, ⟨3, 1⟩, ⟨10, 1⟩]
  phrase _ _ := "Q1 (born December 10, 1815 in London)"

theorem extractDocument_born_Q1 :
    "Q5" ∈ (exampleExtractEnv.kb "Q1").instanceOf ∧
      (exampleExtractEnv.kb "Q1").hasDateOfBirth = false ∧
      exampleBornDocument.text.isEmpty = false ∧
      exampleBornDocument.phrase
        (window exampleBornDocument.tokens (find exampleBornDocument.text "<b>" + 3)).1
        (window exampleBornDocument.tokens (find exampleBornDocument.text "<b>" + 3)).2 =
        "Q1 (born December 10, 1815 in London)" ∧
      find "Q1 (born December 10, 1815 in London)" "(baptised" < 0 ∧
      find "Q1 (born December 10, 1815 in London)" "throne" < 0 ∧
      utf8 "Q1 (born December 10, 1815 in London)" = utf8 "Q1 " ++ utf8 "(born " ++
        utf8 "December 10, 1815" ++ utf8 " in London" ++ utf8 ")" ++ [] ∧
      (∀ b ∈ utf8 "Q1 ", isByte '(' b = false) ∧ Digits 1 2 (utf8 "10") ∧
      "December" ∈ monthNames ∧ Digits 4 4 (utf8 "1815") ∧
      DateText (utf8 "10") (utf8 "December") (utf8 "1815") (utf8 "December 10, 1815") ∧
      (∀ b ∈ utf8 " in London", b ≠ 41) ∧ (∀ c ∈ (utf8 " in London").head?, digit c = false) ∧
      (∀ b ∈ (utf8 " in London").getLast?, space b = false) ∧
      extractDocument ⟨exampleExtractEnv.kb, recMatch, exampleExtractEnv.dateValue⟩ "Q1"
        exampleBornDocument = .ok (some ⟨"Q1", [("P569", exampleExtractEnv.dateValue
          (writtenDate (utf8 "10") "December" (utf8 "1815")))], exampleBornDocument.url,
          "English Wikipedia dates for '" ++ (exampleExtractEnv.kb "Q1").name ++ "'"⟩) :=
  have hhuman : "Q5" ∈ (exampleExtractEnv.kb "Q1").instanceOf := by decide
  have hbaptised : find "Q1 (born December 10, 1815 in London)" "(baptised" < 0 := by decide
  have hthrone : find "Q1 (born December 10, 1815 in London)" "throne" < 0 := by decide
  have htext : utf8 "Q1 (born December 10, 1815 in London)" = utf8 "Q1 " ++ utf8 "(born " ++
      utf8 "December 10, 1815" ++ utf8 " in London" ++ utf8 ")" ++ [] := by decide
  have hname : ∀ b ∈ utf8 "Q1 ", isByte '(' b = false := by decide
  have hd : Digits 1 2 (utf8 "10") := ⟨by decide, by decide, by decide⟩
  have hm : "December" ∈ monthNames := by decide
  have hy : Digits 4 4 (utf8 "1815") := ⟨by decide, by decide, by decide⟩
  have hw : DateText (utf8 "10") (utf8 "December") (utf8 "1815") (utf8 "December 10, 1815") :=
    .inr (by decide)
  have hx : ∀ b ∈ utf8 " in London", b ≠ 41 := by decide
  have hxhead : ∀ c ∈ (utf8 " in London").head?, digit c = false := by decide
  have hxlast : ∀ b ∈ (utf8 " in London").getLast?, space b = false := by decide
  ⟨hhuman, rfl, rfl, rfl, hbaptised, hthrone, htext, hname, hd, hm, hy, hw, hx, hxhead, hxlast,
    extractDocument_born hhuman rfl rfl rfl hbaptised hthrone htext hname hd hm hy hw hx hxhead
      hxlast⟩

/-- **`run` writes the dates of birth and death an article gives as a range.**  Take a human
without both dates, and an article whose window `text` is a name without `(`, then `(`, two
dates, each `D Month YYYY` or `Month D, YYYY`, separated by ` - `, then `)`, with neither
`(baptised` nor `throne` in it.  The record `run` writes for the item holds `P569`, the first
date, and `P570`, the second. -/
theorem extractDocument_range {name d₁ y₁ w₁ d₂ y₂ w₂ t : List UInt8} {mname₁ mname₂ : String}
    (hhuman : "Q5" ∈ (kb itemId).instanceOf)
    (hknown : ¬ ((kb itemId).hasDateOfBirth ∧ (kb itemId).hasDateOfDeath))
    (hdoc : doc.text.isEmpty = false)
    (hwindow : doc.phrase (window doc.tokens (find doc.text "<b>" + 3)).1
      (window doc.tokens (find doc.text "<b>" + 3)).2 = text)
    (hbaptised : find text "(baptised" < 0) (hthrone : find text "throne" < 0)
    (htext : utf8 text = name ++ utf8 "(" ++ w₁ ++ utf8 " - " ++ w₂ ++ utf8 ")" ++ t)
    (hname : ∀ b ∈ name, isByte '(' b = false)
    (hd₁ : Digits 1 2 d₁) (hm₁ : mname₁ ∈ monthNames) (hy₁ : Digits 4 4 y₁)
    (hw₁ : DateText d₁ (utf8 mname₁) y₁ w₁)
    (hd₂ : Digits 1 2 d₂) (hm₂ : mname₂ ∈ monthNames) (hy₂ : Digits 4 4 y₂)
    (hw₂ : DateText d₂ (utf8 mname₂) y₂ w₂) :
    extractDocument ⟨kb, recMatch, dateValue⟩ itemId doc = .ok (some ⟨itemId,
      [("P569", dateValue (writtenDate d₁ mname₁ y₁)),
        ("P570", dateValue (writtenDate d₂ mname₂ y₂))],
      doc.url, "English Wikipedia dates for '" ++ (kb itemId).name ++ "'"⟩) := by
  obtain ⟨group, hrec, htruthy, hbirth, hdeath⟩ :=
    recMatch_range htext hname hd₁ hm₁ hy₁ hw₁ hd₂ hm₂ hy₂ hw₂
  simp [extractDocument, hhuman, hknown, hdoc, hwindow, hrec, not_le.2 hbaptised,
    not_le.2 hthrone, htruthy, hbirth, hdeath, bind, Except.bind, pure, Except.pure]

theorem extractDocument_range_Q1 :
    "Q5" ∈ (exampleExtractEnv.kb "Q1").instanceOf ∧
      ¬ ((exampleExtractEnv.kb "Q1").hasDateOfBirth ∧ (exampleExtractEnv.kb "Q1").hasDateOfDeath) ∧
      exampleDocument.text.isEmpty = false ∧
      exampleDocument.phrase
        (window exampleDocument.tokens (find exampleDocument.text "<b>" + 3)).1
        (window exampleDocument.tokens (find exampleDocument.text "<b>" + 3)).2 =
        "Q1 (10 December 1815 - 27 November 1852)" ∧
      find "Q1 (10 December 1815 - 27 November 1852)" "(baptised" < 0 ∧
      find "Q1 (10 December 1815 - 27 November 1852)" "throne" < 0 ∧
      utf8 "Q1 (10 December 1815 - 27 November 1852)" = utf8 "Q1 " ++ utf8 "(" ++
        utf8 "10 December 1815" ++ utf8 " - " ++ utf8 "27 November 1852" ++ utf8 ")" ++ [] ∧
      (∀ b ∈ utf8 "Q1 ", isByte '(' b = false) ∧
      Digits 1 2 (utf8 "10") ∧ "December" ∈ monthNames ∧ Digits 4 4 (utf8 "1815") ∧
      DateText (utf8 "10") (utf8 "December") (utf8 "1815") (utf8 "10 December 1815") ∧
      Digits 1 2 (utf8 "27") ∧ "November" ∈ monthNames ∧ Digits 4 4 (utf8 "1852") ∧
      DateText (utf8 "27") (utf8 "November") (utf8 "1852") (utf8 "27 November 1852") ∧
      extractDocument ⟨exampleExtractEnv.kb, recMatch, exampleExtractEnv.dateValue⟩ "Q1"
        exampleDocument = .ok (some ⟨"Q1",
          [("P569", exampleExtractEnv.dateValue (writtenDate (utf8 "10") "December" (utf8 "1815"))),
            ("P570", exampleExtractEnv.dateValue
              (writtenDate (utf8 "27") "November" (utf8 "1852")))],
          exampleDocument.url,
          "English Wikipedia dates for '" ++ (exampleExtractEnv.kb "Q1").name ++ "'"⟩) :=
  have hhuman : "Q5" ∈ (exampleExtractEnv.kb "Q1").instanceOf := by decide
  have hknown : ¬ ((exampleExtractEnv.kb "Q1").hasDateOfBirth ∧
      (exampleExtractEnv.kb "Q1").hasDateOfDeath) := by decide
  have hbaptised : find "Q1 (10 December 1815 - 27 November 1852)" "(baptised" < 0 := by decide
  have hthrone : find "Q1 (10 December 1815 - 27 November 1852)" "throne" < 0 := by decide
  have htext : utf8 "Q1 (10 December 1815 - 27 November 1852)" = utf8 "Q1 " ++ utf8 "(" ++
      utf8 "10 December 1815" ++ utf8 " - " ++ utf8 "27 November 1852" ++ utf8 ")" ++ [] := by
    decide
  have hname : ∀ b ∈ utf8 "Q1 ", isByte '(' b = false := by decide
  have hd₁ : Digits 1 2 (utf8 "10") := ⟨by decide, by decide, by decide⟩
  have hm₁ : "December" ∈ monthNames := by decide
  have hy₁ : Digits 4 4 (utf8 "1815") := ⟨by decide, by decide, by decide⟩
  have hw₁ : DateText (utf8 "10") (utf8 "December") (utf8 "1815") (utf8 "10 December 1815") :=
    .inl (by decide)
  have hd₂ : Digits 1 2 (utf8 "27") := ⟨by decide, by decide, by decide⟩
  have hm₂ : "November" ∈ monthNames := by decide
  have hy₂ : Digits 4 4 (utf8 "1852") := ⟨by decide, by decide, by decide⟩
  have hw₂ : DateText (utf8 "27") (utf8 "November") (utf8 "1852") (utf8 "27 November 1852") :=
    .inl (by decide)
  ⟨hhuman, hknown, rfl, rfl, hbaptised, hthrone, htext, hname, hd₁, hm₁, hy₁, hw₁, hd₂, hm₂, hy₂,
    hw₂, extractDocument_range hhuman hknown rfl rfl hbaptised hthrone htext hname hd₁ hm₁ hy₁ hw₁
      hd₂ hm₂ hy₂ hw₂⟩

end Article

/-! ## 7. The dates `run` writes are written in the text -/

/-- `date` is written in the bytes `s`: as `D Month YYYY` or `Month D, YYYY`, with a day of one
or two digits, a month name and a year of four digits. -/
def WrittenIn (date : Date) (s : List UInt8) : Prop :=
  ∃ d mname y w, Digits 1 2 d ∧ mname ∈ monthNames ∧ Digits 4 4 y ∧
    DateText d (utf8 mname) y w ∧ w <:+: s ∧ date = writtenDate d mname y

theorem WrittenIn.mono {date : Date} {s s' : List UInt8} (h : WrittenIn date s)
    (hs : s <:+: s') : WrittenIn date s' :=
  let ⟨d, mname, y, w, hd, hm, hy, hw, hws, hdate⟩ := h
  ⟨d, mname, y, w, hd, hm, hy, hw, hws.trans hs, hdate⟩

/-- A match of `date off` reads a date written at the start of its text, and leaves it in the
groups `date_from_match(off, m)` reads. -/
theorem DateRead.reads {off : Nat} {g g' : Groups} {w : List UInt8} (h : DateRead off g w g')
    (hg : g (1 + off) = none) : ∃ date, ReadsDate off g g' date ∧ WrittenIn date w := by
  obtain ⟨d, mname, y, tail, hd, hm, hy, ⟨rfl, rfl⟩ | ⟨rfl, rfl⟩⟩ := h
  · exact ⟨_, readsDate_dayFirst off g hd hm hy,
      d, mname, y, _, hd, hm, hy, .inl rfl, (List.prefix_append _ tail).isInfix, rfl⟩
  · exact ⟨_, readsDate_monthFirst off hd hm hy hg,
      d, mname, y, _, hd, hm, hy, .inr rfl, (List.prefix_append _ tail).isInfix, rfl⟩

/-- The dates `date_from_match` returns on a match of `rec` are written in the text. -/
theorem recMatch_written {text : String} {group : Nat → Option String}
    (h : recMatch text = some group) :
    ((truthy (group 1) || truthy (group 4)) = true →
      ∃ date, dateFromMatch 0 group = .ok date ∧ WrittenIn date (utf8 text)) ∧
    ((truthy (group 1) || truthy (group 4)) = false →
      ∃ birth death, dateFromMatch 6 group = .ok birth ∧ dateFromMatch 12 group = .ok death ∧
        WrittenIn birth (utf8 text) ∧ WrittenIn death (utf8 text)) := by
  obtain ⟨g, hg, rfl⟩ := Option.map_eq_some'.1 h
  obtain ⟨p, hp, rfl⟩ := Option.map_eq_some'.1 hg
  obtain ⟨w, hw, v, hv, hread⟩ := spec_pat_read _ _ p (List.mem_of_mem_head? hp)
  have htext : v <:+: utf8 text := hv.trans (hw ▸ List.prefix_append w p.1).isInfix
  rcases hread with ⟨v₀, rfl, hr⟩ | ⟨v₁, sep, v₂, g₁, rfl, -, hr₁, hr₂⟩
  · -- a birth date after `born `
    obtain ⟨date, ⟨-, htruthy, hdate⟩, hwritten⟩ := hr.reads rfl
    exact ⟨fun _ => ⟨date, hdate, hwritten.mono ((List.suffix_append _ _).isInfix.trans htext)⟩,
      fun hc => Bool.noConfusion (hc.symm.trans htruthy)⟩
  · -- a range of two dates
    obtain ⟨birth, hb, hwb⟩ := hr₁.reads rfl
    obtain ⟨death, hd, hwd⟩ := hr₂.reads (hb.1 13 (.inr (by omega)))
    obtain ⟨hfalse, hbirth, hdeath⟩ := readsDate_range (fun _ _ => rfl) hb hd
    refine ⟨fun hc => Bool.noConfusion (hc.symm.trans hfalse),
      fun _ => ⟨birth, death, hbirth, hdeath, hwb.mono ?_, hwd.mono ?_⟩⟩
    · exact ((List.prefix_append v₁ sep).trans (List.prefix_append _ v₂)).isInfix.trans htext
    · exact (List.suffix_append _ v₂).isInfix.trans htext

/-- The dates of a record `run` writes for an article are written in the article's window. -/
theorem extractDocument_written {kb : String → KbItem} {dateValue : Date → Int}
    {itemId : String} {doc : Document} {record : DatesRecord}
    (h : extractDocument ⟨kb, recMatch, dateValue⟩ itemId doc = .ok (some record)) :
    ∀ f ∈ record.facts, ∃ date, WrittenIn date (utf8 (windowText doc)) ∧ f.2 = dateValue date := by
  obtain ⟨group, hgroup, ⟨hc, birth, hbirth, hfacts⟩ | ⟨hc, birth, death, hbirth, hdeath, hfacts⟩⟩ :=
    extractDocument_facts h
  · obtain ⟨date, hdate, hw⟩ := (recMatch_written hgroup).1 hc
    obtain rfl := Except.ok.inj (hbirth.symm.trans hdate)
    rw [hfacts]
    rintro f (_ | ⟨_, ⟨⟩⟩)
    exact ⟨birth, hw, rfl⟩
  · obtain ⟨b, d, hb, hd, hwb, hwd⟩ := (recMatch_written hgroup).2 hc
    obtain rfl := Except.ok.inj (hbirth.symm.trans hb)
    obtain rfl := Except.ok.inj (hdeath.symm.trans hd)
    rw [hfacts]
    rintro f (_ | ⟨_, _ | ⟨_, ⟨⟩⟩⟩)
    · exact ⟨birth, hwb, rfl⟩
    · exact ⟨death, hwd, rfl⟩

/-- **`run` writes no date the text does not give.**  With the expression it compiles, each
fact `run` writes for an article has the value `Date.value()` of a date written in the article's
window, as `D Month YYYY` or `Month D, YYYY`, with a day of one or two digits, a month name and
a year of four digits. -/
theorem run_dates_written (kb : String → KbItem) (dateValue : Date → Int)
    (docs : List (String × Document)) {written : List (String × DatesRecord)} {records : Nat}
    (h : run ⟨kb, recMatch, dateValue⟩ docs = .ok (written, records)) :
    ∀ p ∈ written, ∃ doc, (p.1, doc) ∈ docs ∧
      ∀ f ∈ p.2.facts, ∃ date, WrittenIn date (utf8 (windowText doc)) ∧ f.2 = dateValue date := by
  obtain ⟨new, rfl, -, -, hnew⟩ := runLoop_written _ docs [] 0 h
  intro p hp
  obtain ⟨doc, hd, hx⟩ := hnew p (by simpa using hp)
  exact ⟨doc, hd, extractDocument_written hx⟩

theorem run_dates_written_Q1 :
    ∃ written records, run ⟨exampleExtractEnv.kb, recMatch, exampleExtractEnv.dateValue⟩
        [("Q1", exampleDocument)] = .ok (written, records) ∧
      ∀ p ∈ written, ∃ doc, (p.1, doc) ∈ [("Q1", exampleDocument)] ∧
        ∀ f ∈ p.2.facts, ∃ date, WrittenIn date (utf8 (windowText doc)) ∧
          f.2 = exampleExtractEnv.dateValue date :=
  ⟨_, _, rfl, run_dates_written exampleExtractEnv.kb exampleExtractEnv.dateValue _ rfl⟩

/-! ## 8. `rec.match` and the matches of `pat` -/

/-- **`rec.match` loses no match and invents none.**  `rec.match(text)` is `None` exactly when
no prefix of the text's bytes matches `pat`.  When it matches, its groups, read back as text,
are those of a match of `pat` on a prefix of the text. -/
theorem recMatch_matches (text : String) :
    (recMatch text = none ↔
      ∀ w rest g, utf8 text = w ++ rest → ¬ Matches pat (fun _ => none) w g) ∧
    ∀ group, recMatch text = some group → ∃ w rest g, utf8 text = w ++ rest ∧
      Matches pat (fun _ => none) w g ∧ group = fun i => (g i).map ofBytes := by
  refine ⟨Option.map_eq_none'.trans matchGroups_eq_none_iff, fun group h => ?_⟩
  obtain ⟨g, hg, rfl⟩ := Option.map_eq_some'.1 h
  obtain ⟨w, rest, hw, hm⟩ := matches_of_matchGroups hg
  exact ⟨w, rest, g, hw, hm, rfl⟩

/-! ## 9. What `rec` never matches -/

/-- Every match of `dates` reads `born ` or a hyphen. -/
theorem DatesRead.born_or_hyphen {g g' : Groups} {w : List UInt8} (h : DatesRead g w g') :
    utf8 "born " <:+: w ∨ 45 ∈ w := by
  rcases h with ⟨v, rfl, -⟩ | ⟨v₁, sep, v₂, _, rfl, hsep, -⟩
  · exact .inl (List.prefix_append _ _).isInfix
  · exact .inr (by simp [hsep])

/-- Every match of `pat` consumes `born ` or a hyphen. -/
theorem spec_pat_born_or_hyphen : Spec pat fun _ w _ => utf8 "born " <:+: w ∨ 45 ∈ w :=
  spec_pat_read.mono fun _ _ _ ⟨_, hv, h⟩ => h.born_or_hyphen.imp (·.trans hv) (hv.subset ·)

/-- **`rec` needs `born ` or a hyphen.**  `rec.match(text)` is `None` on every window that
contains neither `born ` nor an ASCII hyphen.  So it never reads a range of dates written with
an en dash (`–`, the bytes `E2 80 93`), the usual way to write one. -/
theorem recMatch_eq_none_of_no_hyphen {text : String}
    (hborn : ¬ utf8 "born " <:+: utf8 text) (hhyphen : 45 ∉ utf8 text) : recMatch text = none := by
  refine Option.map_eq_none'.2 (Option.map_eq_none'.2 (List.head?_eq_none_iff.2
    (List.eq_nil_iff_forall_not_mem.2 fun p hp => ?_)))
  obtain ⟨w, hw, h⟩ := spec_pat_born_or_hyphen _ _ p hp
  have hpre : w <:+: utf8 text := (hw ▸ List.prefix_append w p.1).isInfix
  exact h.elim (fun h => hborn (h.trans hpre)) fun h => hhyphen (hpre.subset h)

theorem recMatch_eq_none_enDash :
    ¬ utf8 "born " <:+: utf8 "Ada (10 December 1815 – 27 November 1852)" ∧
      45 ∉ utf8 "Ada (10 December 1815 – 27 November 1852)" ∧
      recMatch "Ada (10 December 1815 – 27 November 1852)" = none :=
  have hborn : ¬ utf8 "born " <:+: utf8 "Ada (10 December 1815 – 27 November 1852)" := by decide
  have hhyphen : 45 ∉ utf8 "Ada (10 December 1815 – 27 November 1852)" := by decide
  ⟨hborn, hhyphen, recMatch_eq_none_of_no_hyphen hborn hhyphen⟩

/-- What a match of `date off` reads starts with a digit or a letter. -/
theorem DateRead.head {off : Nat} {g g' : Groups} {w : List UInt8} (h : DateRead off g w g') :
    ∃ c w', w = c :: w' ∧ (digit c = true ∨ classByte c = true) := by
  have hmonth : ∀ name ∈ monthNames, ∀ c ∈ (utf8 name).head?, classByte c = true := by decide
  obtain ⟨d, mname, y, tail, hd, hm, hy, ⟨rfl, -⟩ | ⟨rfl, -⟩⟩ := h
  · obtain _ | ⟨c, d⟩ := d
    · exact absurd rfl (hd.ne_nil (by decide))
    · exact ⟨c, _, rfl, .inl (hd.2.2 c (.head _))⟩
  · obtain ⟨c, m, hcm, -⟩ := MonthName.head ⟨mname, hm, rfl⟩
    have hcm' : utf8 mname = c :: m := hcm
    refine ⟨c, m ++ (utf8 " " ++ (d ++ (utf8 ", " ++ (y ++ tail)))), ?_, .inr ?_⟩
    · simp only [List.append_assoc, hcm', List.cons_append]
    · exact hmonth mname hm c (by rw [hcm']; rfl)

/-- What a match of `dates` reads starts with a digit or a letter. -/
theorem DatesRead.head {g g' : Groups} {w : List UInt8} (h : DatesRead g w g') :
    ∃ c w', w = c :: w' ∧ (digit c = true ∨ classByte c = true) := by
  rcases h with ⟨v, rfl, -⟩ | ⟨v₁, sep, v₂, _, rfl, -, hv₁, -⟩
  · exact ⟨98, _, rfl, .inr (by decide)⟩
  · obtain ⟨c, w', rfl, hc⟩ := hv₁.head
    exact ⟨c, _, rfl, hc⟩

/-- `\([^0-9]*\)` does not match a parenthesis whose text reaches a digit first. -/
theorem matchWays_skipped_open {body : List UInt8} (hbody : digitBeforeClose body = true)
    (g : Groups) : matchWays skipped (40 :: body) g = [] := by
  refine List.eq_nil_iff_forall_not_mem.2 fun q hq => ?_
  obtain ⟨w, hw, -, ⟨b, rfl, hb⟩ | ⟨u, rfl, hu⟩⟩ := spec_skipped _ _ q hq
  · exact hb (List.cons_eq_cons.1 hw).1.symm
  · rw [List.cons_append] at hw
    have hbody' := (List.cons_eq_cons.1 hw).2
    rw [List.append_assoc, List.singleton_append] at hbody'
    rw [hbody', digitBeforeClose_close hu] at hbody
    cases hbody

/-- **`rec` needs a digit or a letter first.**  Behind a name whose parentheses close before
any digit, the parenthesis with the dates must start with a digit or a byte of
`[, ;a-zA-Z\-]`.  When it starts with any other byte, such as the `/` of a pronunciation
`(/ˈædə/; born …)` or a letter outside ASCII, `rec.match(text)` is `None`. -/
theorem recMatch_eq_none_of_head {text : String} {name rest : List UInt8} {c : UInt8}
    (htext : utf8 text = name ++ 40 :: c :: rest) (hname : parensClosed name = true)
    (hbody : digitBeforeClose (c :: rest) = true) (hdigit : digit c = false)
    (hclass : classByte c = false) : recMatch text = none := by
  have hdates : matchWays dates (c :: rest) (fun _ => none) = [] :=
    List.eq_nil_iff_forall_not_mem.2 fun q hq => by
      obtain ⟨w, hw, hread⟩ := spec_dates_read _ _ q hq
      obtain ⟨c', w', rfl, hc'⟩ := hread.head
      obtain ⟨rfl, -⟩ := List.cons_eq_cons.1 hw
      rcases hc' with h | h
      · exact absurd h (by rw [hdigit]; decide)
      · exact absurd h (by rw [hclass]; decide)
  have hopening : matchWays opening (40 :: c :: rest) (fun _ => none) = [] := by
    refine matchWays_seq_eq_nil fun q hq => ?_
    obtain rfl : q = (c :: rest, fun _ => none) := by simpa [matchWays, isByte] using hq
    refine matchWays_seq_eq_nil fun q hq => ?_
    rw [matchWays_star_of_nil true (matchWays_byte_eq_nil hclass rest _)] at hq
    obtain rfl := List.mem_singleton.1 hq
    exact matchWays_seq_eq_nil fun q hq => by rw [hdates] at hq; cases hq
  have hpat : matchWays pat (40 :: c :: rest) (fun _ => none) = [] := by
    rw [pat_eq, matchWays_seq_star_lazy hopening, matchWays_skipped_open hbody]
    · rfl
    · intro q hq
      rw [matchWays_skipped_open hbody] at hq
      cases hq
  have hhead := head?_matchWays_pat_name hbody (fun _ => none) _ name le_rfl hname
  rw [hpat] at hhead
  show (matchGroups pat (utf8 text)).map _ = none
  simp only [matchGroups, htext, hhead, List.head?_nil, Option.map_none']

theorem recMatch_eq_none_pronunciation :
    utf8 "Barack Obama (/bəˈrɑːk/; born August 4, 1961)" =
        utf8 "Barack Obama " ++ 40 :: 47 :: utf8 "bəˈrɑːk/; born August 4, 1961)" ∧
      parensClosed (utf8 "Barack Obama ") = true ∧
      digitBeforeClose (47 :: utf8 "bəˈrɑːk/; born August 4, 1961)") = true ∧
      digit 47 = false ∧ classByte 47 = false ∧
      recMatch "Barack Obama (/bəˈrɑːk/; born August 4, 1961)" = none :=
  have htext : utf8 "Barack Obama (/bəˈrɑːk/; born August 4, 1961)" =
      utf8 "Barack Obama " ++ 40 :: 47 :: utf8 "bəˈrɑːk/; born August 4, 1961)" := by decide
  have hname : parensClosed (utf8 "Barack Obama ") = true := by decide
  have hbody : digitBeforeClose (47 :: utf8 "bəˈrɑːk/; born August 4, 1961)") = true := by decide
  have hdigit : digit 47 = false := by decide
  have hclass : classByte 47 = false := by decide
  ⟨htext, hname, hbody, hdigit, hclass, recMatch_eq_none_of_head htext hname hbody hdigit hclass⟩

end WikipediaDates

end FactMatch
