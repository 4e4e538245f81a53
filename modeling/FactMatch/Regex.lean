import Mathlib.Data.List.Basic
import Mathlib.Logic.Function.Basic

/-!
# Regex — Python's backtracking `re.match`, for the expression `en_wp_dates.py` compiles

`ExtractWikipediaDates.run` matches each window of text against one regular expression,
`rec.match(text)`.  Python 2's engine (sre) works on the bytes of a `str`.  It tries the
alternatives of an expression in order.  It tries the iterations of a greedy repetition longest
first and those of a lazy one shortest first, and it backtracks on failure.  The first way to
match the whole expression fixes the groups `m.group(i)`.

`matchWays r bs g` lists every way `r` matches a prefix of the bytes `bs`, in that order, each
with the bytes left over and the groups captured.  `re.match` is the head of that list
(`matchGroups`).

`Spec r R` says that every match of `r` relates three things by `R`: the groups before, the bytes
it consumed, and the groups after.  `spec_seq`, `spec_alt`, `spec_star` and `spec_group` derive
such a fact for an expression from facts about its parts, so a fact about a whole expression is
proved along its syntax.  `matchWays_star_fuel` shows that the bound `starWays` runs on never
cuts a repetition short.  `mem_matchWays_iff`: the ways `matchWays` lists are exactly the
matches of the declarative relation `Matches`.
-/

namespace FactMatch

namespace Regex

/-- The groups of a match, `m.group(i)`: the bytes group `i` captured last, or `none` for a
group that took no part in the match. -/
abbrev Groups := Nat → Option (List UInt8)

/-- The regular expressions sre runs, over the bytes of a Python 2 `str`. -/
inductive Re where
  /-- one byte of a class: a literal byte, `[...]`, `[^...]`, `\d`, `\s` -/
  | byte (p : UInt8 → Bool)
  /-- the empty expression -/
  | empty
  /-- `rs` -/
  | seq (r s : Re)
  /-- `r|s` -/
  | alt (r s : Re)
  /-- `r*`, or `r*?` when `lazy` -/
  | star (lazy : Bool) (r : Re)
  /-- `(r)`, the group numbered `n` -/
  | group (n : Nat) (r : Re)

/-- The matches of `r*` (of `r*?` when `lazy`) from the bytes `bs` and the groups `g`, where `f`
lists the matches of `r`.  An iteration must consume a byte.  sre has its own rule for an
iteration that matches the empty string, but no repeated expression of the dates pattern can
match it.  The bound `fuel` never binds once it is at least `bs.length` (`matchWays_star_fuel`). -/
def starWays (f : List UInt8 → Groups → List (List UInt8 × Groups)) (lazy : Bool) :
    Nat → List UInt8 → Groups → List (List UInt8 × Groups)
  | 0, bs, g => [(bs, g)]
  | fuel + 1, bs, g =>
    let more := (f bs g).flatMap fun p =>
      if p.1.length < bs.length then starWays f lazy fuel p.1 p.2 else []
    if lazy then (bs, g) :: more else more ++ [(bs, g)]

/-- Every way `r` matches a prefix of `bs` from the groups `g`, in the order sre tries them:
the bytes left over and the groups after the match. -/
def matchWays : Re → List UInt8 → Groups → List (List UInt8 × Groups)
  | .byte p, b :: bs, g => if p b then [(bs, g)] else []
  | .byte _, [], _ => []
  | .empty, bs, g => [(bs, g)]
  | .seq r s, bs, g => (matchWays r bs g).flatMap fun p => matchWays s p.1 p.2
  | .alt r s, bs, g => matchWays r bs g ++ matchWays s bs g
  | .star lazy r, bs, g => starWays (fun bs g => matchWays r bs g) lazy bs.length bs g
  | .group n r, bs, g => (matchWays r bs g).map fun p =>
    (p.1, Function.update p.2 n (some (bs.take (bs.length - p.1.length))))

/-- `re.match`: the groups of the first match, which is anchored at the start of the text and
not at its end; `none` when the expression does not match. -/
def matchGroups (r : Re) (bs : List UInt8) : Option Groups :=
  (matchWays r bs fun _ => none).head?.map Prod.snd

/-- The literal bytes `bs`. -/
def lits : List UInt8 → Re
  | [] => .empty
  | b :: bs => .seq (.byte (· == b)) (lits bs)

/-- A literal text, by its bytes. -/
def lit (s : String) : Re := lits s.toUTF8.data.toList

/-- `r₁|r₂|…|rₙ`. -/
def alts : List Re → Re
  | [] => .byte fun _ => false
  | r :: rs => .alt r (alts rs)

/-- `r?`, greedy. -/
def opt (r : Re) : Re := .alt r .empty

/-- `r+`, or `r+?` when `lazy`. -/
def plus (lazy : Bool) (r : Re) : Re := .seq r (.star lazy r)

/-- `r{n}`. -/
def times (r : Re) : Nat → Re
  | 0 => .empty
  | n + 1 => .seq r (times r n)

/-- Up to `n` more matches of `r`, as many as possible first. -/
def upTo (r : Re) : Nat → Re
  | 0 => .empty
  | n + 1 => opt (.seq r (upTo r n))

/-- `r{lo,hi}`, greedy. -/
def rep (r : Re) (lo hi : Nat) : Re := .seq (times r lo) (upTo r (hi - lo))

/-- The byte of an ASCII character. -/
def isByte (c : Char) (b : UInt8) : Bool := b.toNat == c.toNat

/-- A byte in the ASCII range `lo-hi`. -/
def inRange (lo hi : Char) (b : UInt8) : Bool := lo.toNat ≤ b.toNat && b.toNat ≤ hi.toNat

/-- `\d` of a `str` pattern: `[0-9]`. -/
def digit (b : UInt8) : Bool := inRange '0' '9' b

/-- `\s` of a `str` pattern: `[ \t\n\r\f\v]`. -/
def space (b : UInt8) : Bool := isByte ' ' b || inRange '\t' '\r' b

/-- Whether an expression has no group. -/
def Re.noGroups : Re → Bool
  | .byte _ | .empty => true
  | .seq r s | .alt r s => r.noGroups && s.noGroups
  | .star _ r => r.noGroups
  | .group _ _ => false

/-! ## 1. Facts about every match of an expression -/

/-- Every match of `r` consumes a prefix `w` of the bytes, and `R` relates the groups before,
`w` and the groups after. -/
def Spec (r : Re) (R : Groups → List UInt8 → Groups → Prop) : Prop :=
  ∀ bs g p, p ∈ matchWays r bs g → ∃ w, bs = w ++ p.1 ∧ R g w p.2

/-- The iterations of a repetition: `R` chained over consecutive pieces of the bytes. -/
inductive Iterated (R : Groups → List UInt8 → Groups → Prop) :
    Groups → List UInt8 → Groups → Prop
  | nil (g : Groups) : Iterated R g [] g
  | cons {g g₁ g' : Groups} {u v : List UInt8} :
    R g u g₁ → Iterated R g₁ v g' → Iterated R g (u ++ v) g'

variable {r s : Re} {R R₁ R₂ : Groups → List UInt8 → Groups → Prop}

theorem Spec.mono (h : Spec r R) (hR : ∀ g w g', R g w g' → R₁ g w g') : Spec r R₁ :=
  fun bs g p hp => (h bs g p hp).imp fun _ hw => ⟨hw.1, hR _ _ _ hw.2⟩

theorem spec_byte (p : UInt8 → Bool) :
    Spec (.byte p) fun g w g' => g' = g ∧ ∃ b, w = [b] ∧ p b = true := by
  rintro (_ | ⟨b, bs⟩) g q hq
  · cases hq
  · simp only [matchWays] at hq
    split at hq
    · obtain rfl := List.mem_singleton.1 hq
      exact ⟨[b], rfl, rfl, b, rfl, ‹_›⟩
    · cases hq

theorem spec_empty : Spec .empty fun g w g' => g' = g ∧ w = [] := by
  intro bs g p hp
  obtain rfl := List.mem_singleton.1 hp
  exact ⟨[], rfl, rfl, rfl⟩

theorem spec_seq (hr : Spec r R₁) (hs : Spec s R₂) :
    Spec (.seq r s) fun g w g'' => ∃ u v g', w = u ++ v ∧ R₁ g u g' ∧ R₂ g' v g'' := by
  intro bs g p hp
  obtain ⟨⟨rest, g'⟩, hq, hs'⟩ := List.mem_flatMap.1 hp
  obtain ⟨u, rfl, hu⟩ := hr bs g _ hq
  obtain ⟨v, rfl, hv⟩ := hs rest g' p hs'
  exact ⟨u ++ v, (List.append_assoc _ _ _).symm, u, v, g', rfl, hu, hv⟩

theorem spec_alt (hr : Spec r R₁) (hs : Spec s R₂) :
    Spec (.alt r s) fun g w g' => R₁ g w g' ∨ R₂ g w g' := by
  intro bs g p hp
  rcases List.mem_append.1 hp with hp | hp
  · exact (hr bs g p hp).imp fun _ h => ⟨h.1, .inl h.2⟩
  · exact (hs bs g p hp).imp fun _ h => ⟨h.1, .inr h.2⟩

theorem Iterated.mono {g w g'} (h : Iterated R g w g') (hR : ∀ g w g', R g w g' → R₁ g w g') :
    Iterated R₁ g w g' := by
  induction h with
  | nil g => exact .nil g
  | cons h₁ _ ih => exact .cons (hR _ _ _ h₁) ih

/-- Every iteration of a repetition consumes a byte. -/
theorem mem_starWays {f : List UInt8 → Groups → List (List UInt8 × Groups)}
    (hf : ∀ bs g p, p ∈ f bs g → ∃ w, bs = w ++ p.1 ∧ R g w p.2) (lazy : Bool) (fuel : Nat) :
    ∀ bs g p, p ∈ starWays f lazy fuel bs g →
      ∃ w, bs = w ++ p.1 ∧ Iterated (fun g w g' => w ≠ [] ∧ R g w g') g w p.2 := by
  induction fuel with
  | zero =>
    intro bs g p hp
    obtain rfl := List.mem_singleton.1 hp
    exact ⟨[], rfl, .nil g⟩
  | succ fuel ih =>
    intro bs g p hp
    have hmore : p ∈ (f bs g).flatMap (fun q => if q.1.length < bs.length then
        starWays f lazy fuel q.1 q.2 else []) →
        ∃ w, bs = w ++ p.1 ∧ Iterated (fun g w g' => w ≠ [] ∧ R g w g') g w p.2 := by
      intro hm
      obtain ⟨⟨rest, g₁⟩, hq, hrest⟩ := List.mem_flatMap.1 hm
      split at hrest
      · next hlt =>
        obtain ⟨u, rfl, hu⟩ := hf bs g _ hq
        obtain ⟨v, rfl, hv⟩ := ih rest g₁ p hrest
        have hne : u ≠ [] := by rintro rfl; exact lt_irrefl _ hlt
        exact ⟨u ++ v, (List.append_assoc _ _ _).symm, .cons ⟨hne, hu⟩ hv⟩
      · cases hrest
    simp only [starWays] at hp
    cases lazy
    · rcases List.mem_append.1 hp with hp | (_ | ⟨_, ⟨⟩⟩)
      · exact hmore hp
      · exact ⟨[], rfl, .nil g⟩
    · rcases hp with _ | ⟨_, hp⟩
      · exact ⟨[], rfl, .nil g⟩
      · exact hmore hp

theorem spec_star (lazy : Bool) (hr : Spec r R) : Spec (.star lazy r) (Iterated R) :=
  fun bs g p hp => (mem_starWays hr lazy bs.length bs g p hp).imp
    fun _ h => ⟨h.1, h.2.mono fun _ _ _ h => h.2⟩

theorem spec_group (n : Nat) (hr : Spec r R) :
    Spec (.group n r) fun g w g'' => ∃ g', R g w g' ∧ g'' = Function.update g' n (some w) := by
  intro bs g p hp
  obtain ⟨⟨rest, g'⟩, hq, rfl⟩ := List.mem_map.1 hp
  obtain ⟨w, rfl, hw⟩ := hr _ g _ hq
  exact ⟨w, rfl, g', hw, by simp⟩

theorem iterated_keep {g w g'} (h : Iterated (fun g _ g' => g' = g) g w g') : g' = g := by
  induction h with
  | nil => rfl
  | cons h₁ _ ih => exact ih.trans h₁

/-- The iterations of a byte class consume bytes of the class. -/
theorem iterated_byte {p : UInt8 → Bool} {g w g'}
    (h : Iterated (fun g w g' => g' = g ∧ ∃ b, w = [b] ∧ p b = true) g w g') :
    ∀ b ∈ w, p b = true := by
  induction h with
  | nil => intro b hb; cases hb
  | cons h₁ _ ih =>
    obtain ⟨-, c, rfl, hc⟩ := h₁
    rintro b (_ | ⟨_, hb⟩)
    · exact hc
    · exact ih b hb

/-- An expression without groups leaves the groups as they were. -/
theorem spec_keep : ∀ r : Re, r.noGroups = true → Spec r fun g _ g' => g' = g
  | .byte p, _ => (spec_byte p).mono fun _ _ _ h => h.1
  | .empty, _ => spec_empty.mono fun _ _ _ h => h.1
  | .seq r s, h => by
    simp only [Re.noGroups, Bool.and_eq_true] at h
    exact (spec_seq (spec_keep r h.1) (spec_keep s h.2)).mono
      fun _ _ _ ⟨_, _, _, _, h₁, h₂⟩ => h₂.trans h₁
  | .alt r s, h => by
    simp only [Re.noGroups, Bool.and_eq_true] at h
    exact (spec_alt (spec_keep r h.1) (spec_keep s h.2)).mono fun _ _ _ h => h.elim id id
  | .star lazy r, h => (spec_star lazy (spec_keep r h)).mono fun _ _ _ h => iterated_keep h

/-! ## 2. The bound on repetitions -/

/-- `starWays` gives the same matches on any two bounds that are at least the length of the
bytes, since each iteration consumes a byte. -/
theorem starWays_fuel (f : List UInt8 → Groups → List (List UInt8 × Groups)) (lazy : Bool) :
    ∀ n m bs g, bs.length ≤ n → bs.length ≤ m →
      starWays f lazy n bs g = starWays f lazy m bs g := by
  have hnil : ∀ k g, starWays f lazy k [] g = [([], g)] := by
    intro k g
    cases k <;> cases lazy <;> simp [starWays]
  intro n
  induction n with
  | zero =>
    intro m bs g hn _
    rw [List.eq_nil_of_length_eq_zero (Nat.le_zero.1 hn), hnil, hnil]
  | succ n ih =>
    intro m bs g hn hm
    cases m with
    | zero => rw [List.eq_nil_of_length_eq_zero (Nat.le_zero.1 hm), hnil, hnil]
    | succ m =>
      simp only [starWays]
      congr 2 <;> refine List.flatMap_congr fun p _ => ?_ <;> split <;>
        first | rfl | exact ih m _ _ (by omega) (by omega)

/-- **The repetition bound never binds.**  A repetition matches in the same ways on any bound
at least the length of the bytes, the one `matchWays` passes included. -/
theorem matchWays_star_fuel (lazy : Bool) (r : Re) (bs : List UInt8) (g : Groups) {n : Nat}
    (hn : bs.length ≤ n) :
    matchWays (.star lazy r) bs g = starWays (fun bs g => matchWays r bs g) lazy n bs g :=
  starWays_fuel _ lazy _ _ bs g le_rfl hn

/-! ## 3. Literals, alternatives and counted repetitions -/

theorem spec_lits : ∀ bs : List UInt8, Spec (lits bs) fun g w g' => g' = g ∧ w = bs
  | [] => spec_empty
  | b :: bs => (spec_seq (spec_byte _) (spec_lits bs)).mono <| by
    rintro g _ _ ⟨_, _, _, rfl, ⟨rfl, c, rfl, hc⟩, rfl, rfl⟩
    obtain rfl := beq_iff_eq.1 hc
    exact ⟨rfl, rfl⟩

theorem spec_alts {rs : List Re} (h : ∀ r ∈ rs, Spec r R) : Spec (alts rs) R := by
  induction rs with
  | nil => exact (spec_byte _).mono fun _ _ _ ⟨_, _, _, h⟩ => absurd h Bool.false_ne_true
  | cons r rs ih =>
    exact (spec_alt (h r (.head _)) (ih fun r hr => h r (.tail _ hr))).mono
      fun _ _ _ h => h.elim id id

theorem spec_times (p : UInt8 → Bool) : ∀ n, Spec (times (.byte p) n)
    fun g w g' => g' = g ∧ w.length = n ∧ ∀ b ∈ w, p b = true
  | 0 => spec_empty.mono fun _ _ _ ⟨hg, hw⟩ => ⟨hg, by simp [hw], by simp [hw]⟩
  | n + 1 => (spec_seq (spec_byte p) (spec_times p n)).mono <| by
    rintro g _ _ ⟨_, v, _, rfl, ⟨rfl, b, rfl, hb⟩, rfl, hv, hvp⟩
    exact ⟨rfl, by simp [hv], by simpa [hb] using hvp⟩

theorem spec_upTo (p : UInt8 → Bool) : ∀ n, Spec (upTo (.byte p) n)
    fun g w g' => g' = g ∧ w.length ≤ n ∧ ∀ b ∈ w, p b = true
  | 0 => spec_empty.mono fun _ _ _ ⟨hg, hw⟩ => ⟨hg, by simp [hw], by simp [hw]⟩
  | n + 1 => (spec_alt (spec_seq (spec_byte p) (spec_upTo p n)) spec_empty).mono <| by
    rintro g _ _ (⟨_, v, _, rfl, ⟨rfl, b, rfl, hb⟩, rfl, hv, hvp⟩ | ⟨rfl, rfl⟩)
    · exact ⟨rfl, by simpa using hv, by simpa [hb] using hvp⟩
    · exact ⟨rfl, by simp, by simp⟩

/-- `p{lo,hi}` consumes from `lo` to `hi` bytes of the class `p` and captures nothing. -/
theorem spec_rep (p : UInt8 → Bool) {lo hi : Nat} (h : lo ≤ hi) : Spec (rep (.byte p) lo hi)
    fun g w g' => g' = g ∧ lo ≤ w.length ∧ w.length ≤ hi ∧ ∀ b ∈ w, p b = true :=
  (spec_seq (spec_times p lo) (spec_upTo p (hi - lo))).mono <| by
    rintro g _ _ ⟨u, v, _, rfl, ⟨rfl, hu, hup⟩, rfl, hv, hvp⟩
    refine ⟨rfl, by simp; omega, by simp; omega, ?_⟩
    simp only [List.mem_append]
    rintro b (hb | hb)
    exacts [hup b hb, hvp b hb]

/-! ## 4. The first match

`re.match` keeps the first match in backtracking order.  `FirstMatch r bs g p` says that `p` is
the head of `matchWays r bs g`.  The rules below find it along the syntax of an expression: the
first match of `r s` continues the first match of `r` whose continuation by `s` matches at all.
-/

/-- `p` is the first match of `r` on `bs` from the groups `g`. -/
def FirstMatch (r : Re) (bs : List UInt8) (g : Groups) (p : List UInt8 × Groups) : Prop :=
  ∃ l, matchWays r bs g = p :: l

theorem matchGroups_of_firstMatch {r : Re} {bs : List UInt8} {p : List UInt8 × Groups}
    (h : FirstMatch r bs (fun _ => none) p) : matchGroups r bs = some p.2 := by
  obtain ⟨l, hl⟩ := h
  unfold matchGroups
  rw [hl]
  rfl

theorem firstMatch_byte {p : UInt8 → Bool} {b : UInt8} (hb : p b = true) (bs : List UInt8)
    (g : Groups) : FirstMatch (.byte p) (b :: bs) g (bs, g) :=
  ⟨[], by simp [matchWays, hb]⟩

theorem matchWays_byte_eq_nil {p : UInt8 → Bool} {b : UInt8} (hb : p b = false)
    (bs : List UInt8) (g : Groups) : matchWays (.byte p) (b :: bs) g = [] := by
  simp [matchWays, hb]

theorem firstMatch_empty (bs : List UInt8) (g : Groups) : FirstMatch .empty bs g (bs, g) :=
  ⟨[], rfl⟩

variable {bs mid rest : List UInt8} {g g₁ g' : Groups} {p : List UInt8 × Groups}

/-- The first match of `r s`, past the matches `pre` of `r` that `s` cannot continue. -/
theorem firstMatch_seq_of_fail {pre l : List (List UInt8 × Groups)}
    (hr : matchWays r bs g = pre ++ (mid, g₁) :: l)
    (hpre : ∀ q ∈ pre, matchWays s q.1 q.2 = []) (hs : FirstMatch s mid g₁ p) :
    FirstMatch (.seq r s) bs g p := by
  obtain ⟨l', hl'⟩ := hs
  refine ⟨l' ++ l.flatMap fun q => matchWays s q.1 q.2, ?_⟩
  simp only [matchWays, hr, List.flatMap_append, List.flatMap_cons, hl',
    List.flatMap_eq_nil_iff.2 hpre, List.nil_append, List.cons_append]

theorem firstMatch_seq (hr : FirstMatch r bs g (mid, g₁)) (hs : FirstMatch s mid g₁ p) :
    FirstMatch (.seq r s) bs g p :=
  let ⟨_, hl⟩ := hr
  firstMatch_seq_of_fail (show _ = [] ++ _ from hl) (fun _ h => absurd h (List.not_mem_nil _)) hs

theorem matchWays_seq_eq_nil (hr : ∀ q ∈ matchWays r bs g, matchWays s q.1 q.2 = []) :
    matchWays (.seq r s) bs g = [] :=
  List.flatMap_eq_nil_iff.2 hr

theorem firstMatch_alt_left (h : FirstMatch r bs g p) : FirstMatch (.alt r s) bs g p :=
  let ⟨l, hl⟩ := h
  ⟨l ++ matchWays s bs g, by simp [matchWays, hl]⟩

/-- The ways of `r|s` continue those of `r` with those of `s`. -/
theorem matchWays_alt_eq {pre l : List (List UInt8 × Groups)}
    (h : matchWays r bs g = pre ++ p :: l) :
    matchWays (.alt r s) bs g = pre ++ p :: (l ++ matchWays s bs g) := by
  simp [matchWays, h]

theorem firstMatch_alt_right (hr : matchWays r bs g = []) (hs : FirstMatch s bs g p) :
    FirstMatch (.alt r s) bs g p :=
  let ⟨l, hl⟩ := hs
  ⟨l, by simp [matchWays, hr, hl]⟩

/-- A group records the bytes its first match consumed. -/
theorem firstMatch_group (n : Nat) {w : List UInt8}
    (h : FirstMatch r (w ++ rest) g (rest, g')) :
    FirstMatch (.group n r) (w ++ rest) g (rest, Function.update g' n (some w)) := by
  obtain ⟨l, hl⟩ := h
  refine ⟨l.map fun p =>
    (p.1, Function.update p.2 n (some ((w ++ rest).take ((w ++ rest).length - p.1.length)))), ?_⟩
  simp [matchWays, hl]

/-- A lazy repetition first tries no iteration. -/
theorem firstMatch_star_lazy (r : Re) (bs : List UInt8) (g : Groups) :
    FirstMatch (.star true r) bs g (bs, g) := by
  cases bs with
  | nil => exact ⟨[], rfl⟩
  | cons b bs => exact ⟨_, rfl⟩

/-- A repetition whose expression cannot match stops at once. -/
theorem matchWays_star_of_nil (lazy : Bool) (h : matchWays r bs g = []) :
    matchWays (.star lazy r) bs g = [(bs, g)] := by
  cases bs with
  | nil => rfl
  | cons b bs => cases lazy <;> simp [matchWays, starWays, h]

/-- A repetition whose expression consumes exactly the next byte. -/
theorem matchWays_star_cons (lazy : Bool) {b : UInt8}
    (h : matchWays r (b :: bs) g = [(bs, g')]) :
    matchWays (.star lazy r) (b :: bs) g =
      if lazy then (b :: bs, g) :: matchWays (.star lazy r) bs g'
      else matchWays (.star lazy r) bs g' ++ [(b :: bs, g)] := by
  show starWays _ lazy (bs.length + 1) (b :: bs) g = _
  simp only [starWays, h, List.flatMap_cons, List.flatMap_nil, List.append_nil, List.length_cons,
    Nat.lt_succ_self, if_true]
  rfl

/-- A greedy repetition of a byte class consumes every byte of the class it can. -/
theorem firstMatch_star_greedy {q : UInt8 → Bool} (hrest : matchWays (.byte q) rest g = []) :
    ∀ w : List UInt8, (∀ b ∈ w, q b = true) →
      FirstMatch (.star false (.byte q)) (w ++ rest) g (rest, g)
  | [], _ => ⟨[], matchWays_star_of_nil false hrest⟩
  | b :: w, hw => by
    obtain ⟨l, hl⟩ := firstMatch_star_greedy hrest w fun b hb => hw b (.tail _ hb)
    have hb : matchWays (.byte q) (b :: (w ++ rest)) g = [(w ++ rest, g)] := by
      simp [matchWays, hw b (.head _)]
    refine ⟨l ++ [(b :: (w ++ rest), g)], ?_⟩
    rw [List.cons_append, matchWays_star_cons false hb, hl]
    rfl

/-- A lazy repetition over bytes its expression consumes one at a time lists a match ending in
each of them before the matches from the rest. -/
theorem matchWays_star_lazy_append (rest : List UInt8)
    (hr : ∀ b ∈ mid, ∀ t, matchWays r (b :: t) g = [(t, g)]) :
    ∃ pre, matchWays (.star true r) (mid ++ rest) g = pre ++ matchWays (.star true r) rest g ∧
      ∀ q ∈ pre, q.2 = g ∧ ∃ k < mid.length, q.1 = mid.drop k ++ rest := by
  induction mid with
  | nil => exact ⟨[], rfl, fun _ h => absurd h (List.not_mem_nil _)⟩
  | cons b mid ih =>
    obtain ⟨pre, hpre, hq⟩ := ih fun b' hb' => hr b' (.tail _ hb')
    refine ⟨(b :: (mid ++ rest), g) :: pre, ?_, ?_⟩
    · rw [List.cons_append, matchWays_star_cons true (hr b (.head _) _), hpre]
      rfl
    · rintro q (_ | ⟨_, hq'⟩)
      · exact ⟨rfl, 0, by simp, rfl⟩
      · obtain ⟨hg, k, hk, ht⟩ := hq q hq'
        exact ⟨hg, k + 1, by simpa using hk, ht⟩

/-- A lazy star whose body reads each byte of `mid` alone, in front of a continuation that fails
at each of them, is first matched across all of `mid`. -/
theorem firstMatch_seq_star_lazy (hr : ∀ b ∈ mid, ∀ t, matchWays r (b :: t) g = [(t, g)])
    (hs : ∀ b ∈ mid, ∀ t, matchWays s (b :: t) g = []) (hrest : FirstMatch s rest g p) :
    FirstMatch (.seq (.star true r) s) (mid ++ rest) g p := by
  obtain ⟨pre, hpre, hskip⟩ := matchWays_star_lazy_append rest hr
  obtain ⟨l, hl⟩ := firstMatch_star_lazy r rest g
  refine firstMatch_seq_of_fail (hpre.trans (congrArg _ hl)) (fun q hq => ?_) hrest
  obtain ⟨hg, k, hk, ht⟩ := hskip q hq
  rw [hg, ht, List.drop_eq_getElem_cons hk, List.cons_append]
  exact hs _ (List.getElem_mem hk) _

/-- Where `s` fails, a lazy repetition followed by `s` goes on with one more iteration: its
matches are those from each match of `r`, in order. -/
theorem matchWays_seq_star_lazy (hs : matchWays s bs g = [])
    (hlt : ∀ q ∈ matchWays r bs g, q.1.length < bs.length) :
    matchWays (.seq (.star true r) s) bs g =
      (matchWays r bs g).flatMap fun q => matchWays (.seq (.star true r) s) q.1 q.2 := by
  cases bs with
  | nil =>
    have hr : matchWays r [] g = [] :=
      List.eq_nil_iff_forall_not_mem.2 fun q hq => Nat.not_lt_zero _ (hlt q hq)
    simp [matchWays, starWays, hs, hr]
  | cons b bs =>
    show (starWays _ true (bs.length + 1) (b :: bs) g).flatMap _ = _
    simp only [starWays, if_true, List.flatMap_cons, hs, List.nil_append, List.flatMap_assoc]
    refine List.flatMap_congr fun q hq => ?_
    have hq' : q.1.length ≤ bs.length := Nat.lt_succ_iff.1 (hlt q hq)
    rw [if_pos (hlt q hq), starWays_fuel _ true _ q.1.length _ _ hq' le_rfl]
    rfl

/-- The first element of a concatenation of lists whose first elements all agree. -/
theorem head?_flatMap_of_forall {α β : Type} {l : List α} {f : α → List β} {v : Option β}
    (hne : l ≠ []) (h : ∀ a ∈ l, (f a).head? = v) : (l.flatMap f).head? = v := by
  induction l with
  | nil => exact absurd rfl hne
  | cons a l ih =>
    rw [List.flatMap_cons, List.head?_append, h a (.head _)]
    cases v with
    | some p => rfl
    | none =>
      cases l with
      | nil => rfl
      | cons b l => exact ih (List.cons_ne_nil _ _) fun x hx => h x (.tail _ hx)

theorem matchWays_lits (w : List UInt8) (rest : List UInt8) (g : Groups) :
    matchWays (lits w) (w ++ rest) g = [(rest, g)] := by
  induction w with
  | nil => rfl
  | cons b w ih => simp [lits, matchWays, ih]

/-- A literal does not match bytes that differ from it before either ends. -/
theorem matchWays_lits_eq_nil {w u : List UInt8} (h : ¬ w <+: u) (h' : ¬ u <+: w)
    (rest : List UInt8) (g : Groups) : matchWays (lits w) (u ++ rest) g = [] := by
  induction w generalizing u with
  | nil => exact absurd List.nil_prefix h
  | cons b w ih =>
    cases u with
    | nil => exact absurd List.nil_prefix h'
    | cons c u =>
      by_cases hbc : b = c
      · subst hbc
        simp only [List.cons_prefix_cons, true_and] at h h'
        simp [lits, matchWays, ih h h']
      · simp [lits, matchWays, Ne.symm hbc]

theorem firstMatch_alts {rs pre post : List Re} (hrs : rs = pre ++ r :: post)
    (hpre : ∀ r' ∈ pre, matchWays r' bs g = []) (hr : FirstMatch r bs g p) :
    FirstMatch (alts rs) bs g p := by
  subst hrs
  induction pre with
  | nil => exact firstMatch_alt_left hr
  | cons r' pre ih =>
    exact firstMatch_alt_right (hpre r' (.head _)) (ih fun r'' h => hpre r'' (.tail _ h))

theorem firstMatch_times {q : UInt8 → Bool} :
    ∀ w : List UInt8, (∀ b ∈ w, q b = true) →
      FirstMatch (times (.byte q) w.length) (w ++ rest) g (rest, g)
  | [], _ => firstMatch_empty _ _
  | b :: w, hw => firstMatch_seq (firstMatch_byte (hw b (.head _)) _ _)
      (firstMatch_times w fun b hb => hw b (.tail _ hb))

theorem firstMatch_upTo {q : UInt8 → Bool} (hrest : matchWays (.byte q) rest g = []) :
    ∀ (n : Nat) (w : List UInt8), w.length ≤ n → (∀ b ∈ w, q b = true) →
      FirstMatch (upTo (.byte q) n) (w ++ rest) g (rest, g)
  | 0, [], _, _ => firstMatch_empty _ _
  | n + 1, [], _, _ =>
    firstMatch_alt_right (matchWays_seq_eq_nil (by simp [hrest])) (firstMatch_empty _ _)
  | n + 1, b :: w, hlen, hw =>
    firstMatch_alt_left (firstMatch_seq (firstMatch_byte (hw b (.head _)) _ _)
      (firstMatch_upTo hrest n w (by simpa using hlen) fun b hb => hw b (.tail _ hb)))

/-- `p{lo,hi}` first consumes every byte of the class it can, up to `hi`. -/
theorem firstMatch_rep {q : UInt8 → Bool} {lo hi : Nat} {w : List UInt8}
    (hlo : lo ≤ w.length) (hhi : w.length ≤ hi) (hw : ∀ b ∈ w, q b = true)
    (hrest : matchWays (.byte q) rest g = []) :
    FirstMatch (rep (.byte q) lo hi) (w ++ rest) g (rest, g) := by
  have htake : (w.take lo).length = lo := List.length_take_of_le hlo
  rw [← List.take_append_drop lo w, List.append_assoc]
  refine firstMatch_seq (htake ▸ firstMatch_times (w.take lo)
    fun b hb => hw b (List.mem_of_mem_take hb)) ?_
  exact firstMatch_upTo hrest _ _ (by simp; omega) fun b hb => hw b (List.mem_of_mem_drop hb)

/-! ## 5. The matching relation

`Matches r g w g'` says, without any order, that `r` can consume the bytes `w` from the groups
`g` and leave the groups `g'`.  `matchWays` lists exactly these matches (`mem_matchWays_iff`):
the backtracking enumeration loses none and invents none.  So `re.match` fails exactly when no
prefix of the text matches (`matchGroups_eq_none_iff`).
-/

/-- The matches of an expression.  Each iteration of a repetition consumes a byte. -/
inductive Matches : Re → Groups → List UInt8 → Groups → Prop
  | byte {p : UInt8 → Bool} {b : UInt8} {g : Groups} : p b = true → Matches (.byte p) g [b] g
  | empty {g : Groups} : Matches .empty g [] g
  | seq {r s : Re} {g g₁ g₂ : Groups} {u v : List UInt8} :
    Matches r g u g₁ → Matches s g₁ v g₂ → Matches (.seq r s) g (u ++ v) g₂
  | alt_left {r s : Re} {g g' : Groups} {w : List UInt8} :
    Matches r g w g' → Matches (.alt r s) g w g'
  | alt_right {r s : Re} {g g' : Groups} {w : List UInt8} :
    Matches s g w g' → Matches (.alt r s) g w g'
  | star_nil {lazy : Bool} {r : Re} {g : Groups} : Matches (.star lazy r) g [] g
  | star_cons {lazy : Bool} {r : Re} {g g₁ g₂ : Groups} {u v : List UInt8} : u ≠ [] →
    Matches r g u g₁ → Matches (.star lazy r) g₁ v g₂ → Matches (.star lazy r) g (u ++ v) g₂
  | group {n : Nat} {r : Re} {g g' : Groups} {w : List UInt8} :
    Matches r g w g' → Matches (.group n r) g w (Function.update g' n (some w))

theorem matches_star_of_iterated {lazy : Bool} {g w g'}
    (h : Iterated (fun g w g' => w ≠ [] ∧ Matches r g w g') g w g') :
    Matches (.star lazy r) g w g' := by
  induction h with
  | nil => exact .star_nil
  | cons h₁ _ ih => exact .star_cons h₁.1 h₁.2 ih

theorem matches_star_byte {p : UInt8 → Bool} {lazy : Bool} {g : Groups} {w : List UInt8}
    (h : ∀ b ∈ w, p b = true) : Matches (.star lazy (.byte p)) g w g := by
  induction w with
  | nil => exact .star_nil
  | cons b w ih =>
    exact .star_cons (u := [b]) (List.cons_ne_nil _ _) (.byte (h b (.head _)))
      (ih fun b hb => h b (.tail _ hb))

/-- Every way `matchWays` lists is a match. -/
theorem spec_matches : ∀ r : Re, Spec r (Matches r)
  | .byte p => (spec_byte p).mono fun _ _ _ ⟨hg, _, hw, hb⟩ => hg ▸ hw ▸ .byte hb
  | .empty => spec_empty.mono fun _ _ _ ⟨hg, hw⟩ => hg ▸ hw ▸ .empty
  | .seq r s => (spec_seq (spec_matches r) (spec_matches s)).mono
      fun _ _ _ ⟨_, _, _, hw, hu, hv⟩ => hw ▸ .seq hu hv
  | .alt r s => (spec_alt (spec_matches r) (spec_matches s)).mono
      fun _ _ _ h => h.elim .alt_left .alt_right
  | .star lazy r => fun bs g p hp => (mem_starWays (spec_matches r) lazy bs.length bs g p hp).imp
      fun _ h => ⟨h.1, matches_star_of_iterated h.2⟩
  | .group n r => (spec_group n (spec_matches r)).mono fun _ _ _ ⟨_, hw, hg⟩ => hg ▸ .group hw

theorem self_mem_starWays (f : List UInt8 → Groups → List (List UInt8 × Groups)) (lazy : Bool)
    (n : Nat) (bs : List UInt8) (g : Groups) : (bs, g) ∈ starWays f lazy n bs g := by
  cases n <;> cases lazy <;> simp [starWays]

/-- One iteration that consumes a byte, then the rest of the repetition. -/
theorem mem_starWays_succ {f : List UInt8 → Groups → List (List UInt8 × Groups)} {lazy : Bool}
    {n : Nat} {q : List UInt8 × Groups} (hq : q ∈ f bs g) (hlt : q.1.length < bs.length)
    (hp : p ∈ starWays f lazy n q.1 q.2) : p ∈ starWays f lazy (n + 1) bs g := by
  have hmore : p ∈ (f bs g).flatMap fun q => if q.1.length < bs.length then
      starWays f lazy n q.1 q.2 else [] :=
    List.mem_flatMap.2 ⟨q, hq, by rwa [if_pos hlt]⟩
  cases lazy
  · exact List.mem_append_left _ hmore
  · exact List.mem_cons_of_mem _ hmore

/-- Every match is one of the ways `matchWays` lists, whatever bytes follow it. -/
theorem mem_matchWays_of_matches {w : List UInt8} (h : Matches r g w g') (rest : List UInt8) :
    (rest, g') ∈ matchWays r (w ++ rest) g := by
  induction h generalizing rest with
  | byte hb => simp [matchWays, hb]
  | empty => simp [matchWays]
  | seq _ _ ihr ihs =>
    rw [List.append_assoc]
    exact List.mem_flatMap.2 ⟨_, ihr _, ihs rest⟩
  | alt_left _ ih => exact List.mem_append_left _ (ih rest)
  | alt_right _ ih => exact List.mem_append_right _ (ih rest)
  | star_nil => exact self_mem_starWays _ _ _ _ _
  | @star_cons lazy r g g₁ g₂ u v hu _ _ ihr ihs =>
    obtain ⟨b, u, rfl⟩ := List.exists_cons_of_ne_nil hu
    have hv := ihs rest
    simp only [matchWays] at hv ⊢
    rw [List.append_assoc, List.cons_append, List.length_cons]
    refine mem_starWays_succ (ihr (v ++ rest)) (by simp; omega) ?_
    rwa [starWays_fuel _ lazy _ (v ++ rest).length _ _ (by simp) le_rfl]
  | group _ ih => exact List.mem_map.2 ⟨_, ih rest, by simp⟩

/-- **`matchWays` lists exactly the matches.**  `r` matches the bytes `w`, from the groups `g`
to the groups `g'`, exactly when the backtracking enumeration on `w` and any bytes after it
lists the match that leaves those bytes and `g'`. -/
theorem mem_matchWays_iff {w rest : List UInt8} :
    (rest, g') ∈ matchWays r (w ++ rest) g ↔ Matches r g w g' := by
  refine ⟨fun h => ?_, fun h => mem_matchWays_of_matches h rest⟩
  obtain ⟨w', hw, hm⟩ := spec_matches r _ g _ h
  rwa [List.append_cancel_right hw]

/-- `re.match` fails exactly when no prefix of the text matches. -/
theorem matchGroups_eq_none_iff :
    matchGroups r bs = none ↔ ∀ w rest g', bs = w ++ rest → ¬ Matches r (fun _ => none) w g' := by
  simp only [matchGroups, Option.map_eq_none', List.head?_eq_none_iff]
  constructor
  · rintro h w rest g' rfl hm
    exact List.not_mem_nil _ (h ▸ mem_matchWays_of_matches hm rest)
  · intro h
    refine List.eq_nil_iff_forall_not_mem.2 fun p hp => ?_
    obtain ⟨w, hw, hm⟩ := spec_matches r bs _ p hp
    exact h w p.1 p.2 hw hm

/-- The groups `re.match` returns are those of a match of a prefix of the text. -/
theorem matches_of_matchGroups {g' : Groups} (h : matchGroups r bs = some g') :
    ∃ w rest, bs = w ++ rest ∧ Matches r (fun _ => none) w g' := by
  obtain ⟨p, hp, rfl⟩ := Option.map_eq_some'.1 h
  obtain ⟨w, hw, hm⟩ := spec_matches r bs _ p (List.mem_of_mem_head? hp)
  exact ⟨w, p.1, hw, hm⟩

end Regex

end FactMatch
