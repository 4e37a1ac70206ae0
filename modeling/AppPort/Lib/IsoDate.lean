import Mathlib.Data.List.Basic
import Mathlib.Data.List.Lex
import Mathlib.Order.Basic
import AppPort.Lib.OwnOrder

/-!
# Instants and their ISO texts

The proleptic Gregorian calendar over milliseconds, and the text `toISOString` writes for
an instant. Years from 0 to 9999 have four digits; the others have a sign and six. Texts
are compared unit by unit: within a year the order of the texts is that of the instants,
and across years it is what the two ways of writing a year make of it, `textLt_iff`.
-/

namespace Effects

/-! ## The calendar -/

/-- The days before a year, from 1970 on. -/
def dayFromYear (y : Int) : Int :=
  365 * (y - 1970) + (y - 1969) / 4 - (y - 1901) / 100 + (y - 1601) / 400

/-- The year a day is in: the estimate from the mean length of a year, corrected by one. -/
def yearOfDay (d : Int) : Int :=
  let y := 1970 + 400 * d / 146097
  if d < dayFromYear y then y - 1 else if dayFromYear (y + 1) ≤ d then y + 1 else y

theorem dayFromYear_step (y : Int) :
    dayFromYear y + 365 ≤ dayFromYear (y + 1) ∧ dayFromYear (y + 1) ≤ dayFromYear y + 366 := by
  unfold dayFromYear
  omega

theorem yearOfDay_spec (d : Int) :
    dayFromYear (yearOfDay d) ≤ d ∧ d < dayFromYear (yearOfDay d + 1) := by
  have hbounds : dayFromYear (1970 + 400 * d / 146097 - 1) ≤ d ∧
      d < dayFromYear (1970 + 400 * d / 146097 + 1 + 1) := by
    unfold dayFromYear
    omega
  unfold yearOfDay
  dsimp only
  split
  · next h =>
    constructor
    · exact hbounds.1
    · rwa [Int.sub_add_cancel]
  · next hfirst =>
    split
    · next h => exact ⟨h, hbounds.2⟩
    · next hsecond => exact ⟨by omega, by omega⟩

theorem dayFromYear_mono {y y' : Int} (h : y < y') : dayFromYear (y + 1) ≤ dayFromYear y' := by
  unfold dayFromYear
  omega

/-- Earlier days are in earlier years, or in the same. -/
theorem yearOfDay_mono {d d' : Int} (h : d ≤ d') : yearOfDay d ≤ yearOfDay d' := by
  by_contra hlt
  have hstep := dayFromYear_mono (show yearOfDay d' < yearOfDay d by omega)
  have hd := yearOfDay_spec d
  have hd' := yearOfDay_spec d'
  omega

/-- The days of a year before each of its months. -/
def monthStarts (leap : Bool) : List Nat :=
  if leap then [0, 31, 60, 91, 121, 152, 182, 213, 244, 274, 305, 335]
  else [0, 31, 59, 90, 120, 151, 181, 212, 243, 273, 304, 334]

/-- The month of a day of the year, from 1. -/
def monthOf (leap : Bool) (day : Nat) : Nat := (monthStarts leap).countP (· ≤ day)

/-- The day of the month, from 1. -/
def dateOf (leap : Bool) (day : Nat) : Nat :=
  day + 1 - (monthStarts leap).getD (monthOf leap day - 1) 0

theorem monthOf_mono (leap : Bool) {day day' : Nat} (h : day ≤ day') :
    monthOf leap day ≤ monthOf leap day' := by
  apply List.countP_mono_left
  intro start _ hstart
  simp only [decide_eq_true_eq] at hstart ⊢
  omega

/-- The last of the sorted numbers up to a bound is up to it. -/
theorem getD_countP_le {l : List Nat} (hsorted : l.Pairwise (· ≤ ·)) {d : Nat}
    (h : 0 < l.countP (· ≤ d)) : l.getD (l.countP (· ≤ d) - 1) 0 ≤ d := by
  induction l with
  | nil => simp at h
  | cons a rest ih =>
    obtain ⟨hfirst, hrest⟩ := List.pairwise_cons.mp hsorted
    by_cases ha : a ≤ d
    · rw [List.countP_cons_of_pos (by simpa using ha), Nat.add_sub_cancel]
      rcases Nat.eq_zero_or_pos (rest.countP (· ≤ d)) with hzero | hpos
      · rw [hzero]
        exact ha
      · obtain ⟨k, hk⟩ := Nat.exists_eq_succ_of_ne_zero hpos.ne'
        have hle := ih hrest hpos
        rw [hk] at hle ⊢
        exact hle
    · have hnone : (a :: rest).countP (· ≤ d) = 0 := by
        rw [List.countP_eq_zero]
        intro x hx
        simp only [decide_eq_true_eq, not_le]
        rcases List.mem_cons.mp hx with heq | hlater
        · omega
        · have hle := hfirst x hlater
          omega
      omega

/-- A month has begun by each of its days. -/
theorem start_le (leap : Bool) (day : Nat) :
    (monthStarts leap).getD (monthOf leap day - 1) 0 ≤ day := by
  apply getD_countP_le
  · cases leap <;> decide
  · apply List.countP_pos_iff.mpr
    exact ⟨0, by cases leap <;> decide, by simp⟩

/-- Within a year days are ordered as months and days of the month. -/
theorem day_lt_iff (leap : Bool) (day day' : Nat) :
    (monthOf leap day < monthOf leap day' ∨
      monthOf leap day = monthOf leap day' ∧ dateOf leap day < dateOf leap day') ↔ day < day' := by
  have hle := start_le leap day'
  constructor
  · rintro (hmonth | ⟨hmonth, hdate⟩)
    · by_contra hback
      have hmono := monthOf_mono leap (show day' ≤ day by omega)
      omega
    · unfold dateOf at hdate
      rw [hmonth] at hdate
      omega
  · intro hlt
    rcases Nat.lt_or_eq_of_le (monthOf_mono leap (Nat.le_of_lt hlt)) with hmonth | hmonth
    · exact .inl hmonth
    · refine .inr ⟨hmonth, ?_⟩
      unfold dateOf
      rw [hmonth]
      omega

/-! ## Fixed-width numbers -/

/-- Two digits. -/
def pad2 (n : Nat) : Units := [48 + n / 10, 48 + n % 10]

/-- Three digits. -/
def pad3 (n : Nat) : Units := (48 + n / 100) :: pad2 (n % 100)

/-- Four digits. -/
def pad4 (n : Nat) : Units := (48 + n / 1000) :: pad3 (n % 1000)

/-- Six digits. -/
def pad6 (n : Nat) : Units :=
  (48 + n / 100000) :: (48 + n % 100000 / 10000) :: pad4 (n % 10000)

/-- Digits in front are compared in front. -/
theorem pad2_lt_iff {n n' : Nat} {rest rest' : Units} :
    pad2 n ++ rest < pad2 n' ++ rest' ↔ n < n' ∨ n = n' ∧ rest < rest' := by
  simp only [pad2, List.cons_append, List.nil_append, List.cons_lt_cons_iff]
  by_cases hrest : rest < rest' <;> simp only [hrest, and_true, and_false, or_false] <;> omega

theorem pad3_lt_iff {n n' : Nat} {rest rest' : Units} :
    pad3 n ++ rest < pad3 n' ++ rest' ↔ n < n' ∨ n = n' ∧ rest < rest' := by
  simp only [pad3, List.cons_append, List.cons_lt_cons_iff, pad2_lt_iff]
  by_cases hrest : rest < rest' <;> simp only [hrest, and_true, and_false, or_false] <;> omega

theorem pad4_lt_iff {n n' : Nat} {rest rest' : Units} :
    pad4 n ++ rest < pad4 n' ++ rest' ↔ n < n' ∨ n = n' ∧ rest < rest' := by
  simp only [pad4, List.cons_append, List.cons_lt_cons_iff, pad3_lt_iff]
  by_cases hrest : rest < rest' <;> simp only [hrest, and_true, and_false, or_false] <;> omega

theorem pad6_lt_iff {n n' : Nat} {rest rest' : Units} :
    pad6 n ++ rest < pad6 n' ++ rest' ↔ n < n' ∨ n = n' ∧ rest < rest' := by
  simp only [pad6, List.cons_append, List.cons_lt_cons_iff, pad4_lt_iff]
  by_cases hrest : rest < rest' <;> simp only [hrest, and_true, and_false, or_false] <;> omega

/-! ## Instants -/

/-- A valid date: a count of milliseconds in the range of time values. -/
@[ext]
structure IsoDate where
  time : Int
  valid : -8640000000000000 ≤ time ∧ time ≤ 8640000000000000
  deriving DecidableEq

/-- The time of a day, in milliseconds. -/
def clockText (ms : Nat) : Units :=
  pad2 (ms / 3600000) ++ 58 :: (pad2 (ms / 60000 % 60) ++ 58 :: (pad2 (ms / 1000 % 60) ++
    46 :: (pad3 (ms % 1000) ++ [90])))

/-- The month and the day of a day of the year, and the time. -/
def dateText (leap : Bool) (day ms : Nat) : Units :=
  45 :: (pad2 (monthOf leap day) ++ 45 :: (pad2 (dateOf leap day) ++ 84 :: clockText ms))

/-- A year: four digits, or a sign and six. -/
def yearText (y : Int) : Units :=
  if y < 0 then 45 :: pad6 y.natAbs else if y ≤ 9999 then pad4 y.toNat else 43 :: pad6 y.toNat

namespace IsoDate

/-- The day of an instant, from 1970 on. -/
def day (t : IsoDate) : Int := t.time / 86400000

def year (t : IsoDate) : Int := yearOfDay t.day

def leap (t : IsoDate) : Bool := dayFromYear (t.year + 1) == dayFromYear t.year + 366

def dayInYear (t : IsoDate) : Nat := (t.day - dayFromYear t.year).toNat

def clock (t : IsoDate) : Nat := (t.time % 86400000).toNat

/-- `toISOString`. -/
def text (t : IsoDate) : Units := yearText t.year ++ dateText t.leap t.dayInYear t.clock

end IsoDate

/-! ## The order of the texts -/

theorem clockText_lt_iff (a b : Nat) : clockText a < clockText b ↔ a < b := by
  simp only [clockText, pad2_lt_iff, pad3_lt_iff, List.cons_lt_cons_iff, lt_irrefl, and_false,
    or_false, false_or, true_and]
  omega

theorem dateText_lt_iff (leap : Bool) (day day' ms ms' : Nat) :
    dateText leap day ms < dateText leap day' ms' ↔ day < day' ∨ day = day' ∧ ms < ms' := by
  have hlt := day_lt_iff leap day day'
  have hgt := day_lt_iff leap day' day
  simp only [dateText, List.cons_lt_cons_iff, pad2_lt_iff, clockText_lt_iff, lt_irrefl, false_or,
    true_and]
  constructor
  · rintro (hmonth | ⟨hmonth, hdate | ⟨hdate, hclock⟩⟩)
    · exact .inl (hlt.mp (.inl hmonth))
    · exact .inl (hlt.mp (.inr ⟨hmonth, hdate⟩))
    · right
      constructor
      · by_contra hne
        rcases Nat.lt_or_gt_of_ne hne with hless | hless
        · have hcases := hlt.mpr hless
          omega
        · have hcases := hgt.mpr hless
          omega
      · exact hclock
  · rintro (hless | ⟨rfl, hclock⟩)
    · rcases hlt.mpr hless with hmonth | ⟨hmonth, hdate⟩
      · exact .inl hmonth
      · exact .inr ⟨hmonth, .inl hdate⟩
    · exact .inr ⟨rfl, .inr ⟨rfl, hclock⟩⟩

namespace IsoDate

variable {a b : IsoDate}

theorem day_bounds (t : IsoDate) :
    dayFromYear t.year ≤ t.day ∧ t.day < dayFromYear (t.year + 1) := yearOfDay_spec t.day

/-- An instant by its year, the day in it and the time of the day. -/
theorem time_eq (t : IsoDate) :
    t.time = (dayFromYear t.year + t.dayInYear) * 86400000 + t.clock := by
  have hday := t.day_bounds
  have hinYear : (t.dayInYear : Int) = t.day - dayFromYear t.year := by
    unfold dayInYear
    omega
  rw [hinYear]
  unfold clock day
  omega

theorem clock_lt (t : IsoDate) : t.clock < 86400000 := by
  unfold clock
  omega

/-- Earlier years are earlier. -/
theorem time_lt_of_year_lt (h : a.year < b.year) : a.time < b.time := by
  by_contra hback
  have hday : b.day ≤ a.day := by
    unfold day
    omega
  have hyear : b.year ≤ a.year := yearOfDay_mono hday
  omega

/-- Within a year texts are ordered as instants. -/
theorem dateText_lt_time (h : a.year = b.year) :
    dateText a.leap a.dayInYear a.clock < dateText b.leap b.dayInYear b.clock ↔
      a.time < b.time := by
  have hleap : a.leap = b.leap := by
    unfold leap
    rw [h]
  rw [hleap, dateText_lt_iff, a.time_eq, b.time_eq, h]
  have ha := a.clock_lt
  have hb := b.clock_lt
  omega

/-- How a year is written. -/
inductive YearForm where
  | negative
  | plain
  | extended
  deriving DecidableEq

/-- The form of an instant's year. -/
def form (t : IsoDate) : YearForm :=
  if t.year < 0 then .negative else if t.year ≤ 9999 then .plain else .extended

theorem form_negative {t : IsoDate} : t.form = .negative ↔ t.year < 0 := by
  unfold form
  split
  · simpa
  · split
    · simp
      omega
    · simp
      omega

theorem form_plain {t : IsoDate} : t.form = .plain ↔ 0 ≤ t.year ∧ t.year ≤ 9999 := by
  unfold form
  split
  · simp
    omega
  · split
    · simp
      omega
    · simp
      omega

theorem form_extended {t : IsoDate} : t.form = .extended ↔ 9999 < t.year := by
  unfold form
  split
  · simp
    omega
  · split
    · simp
      omega
    · simp
      omega

/-- The unit a text starts with tells its form. -/
theorem text_negative {t : IsoDate} (h : t.year < 0) :
    t.text = 45 :: (pad6 t.year.natAbs ++ dateText t.leap t.dayInYear t.clock) := by
  rw [text, yearText, if_pos h]
  rfl

theorem text_plain {t : IsoDate} (h : 0 ≤ t.year) (h' : t.year ≤ 9999) :
    t.text = pad4 t.year.toNat ++ dateText t.leap t.dayInYear t.clock := by
  rw [text, yearText, if_neg (by omega), if_pos h']

theorem text_extended {t : IsoDate} (h : 9999 < t.year) :
    t.text = 43 :: (pad6 t.year.toNat ++ dateText t.leap t.dayInYear t.clock) := by
  rw [text, yearText, if_neg (by omega), if_neg (by omega)]
  rfl

/-- **Years up to 9999, and years beyond, are in order among themselves.** -/
theorem text_lt_plain (ha : a.form = .plain) (hb : b.form = .plain) :
    a.text < b.text ↔ a.time < b.time := by
  obtain ⟨ha₀, ha₁⟩ := form_plain.mp ha
  obtain ⟨hb₀, hb₁⟩ := form_plain.mp hb
  rw [text_plain ha₀ ha₁, text_plain hb₀ hb₁, pad4_lt_iff]
  rcases lt_trichotomy a.year b.year with hlt | heq | hgt
  · have htime := time_lt_of_year_lt hlt
    constructor
    · exact fun _ => htime
    · exact fun _ => .inl (by omega)
  · rw [dateText_lt_time heq, heq]
    simp
  · have htime := time_lt_of_year_lt hgt
    constructor
    · rintro (h | ⟨h, -⟩) <;> omega
    · intro h
      omega

theorem text_lt_extended (ha : a.form = .extended) (hb : b.form = .extended) :
    a.text < b.text ↔ a.time < b.time := by
  have ha₀ := form_extended.mp ha
  have hb₀ := form_extended.mp hb
  rw [text_extended ha₀, text_extended hb₀, List.cons_lt_cons_iff, pad6_lt_iff]
  rcases lt_trichotomy a.year b.year with hlt | heq | hgt
  · have htime := time_lt_of_year_lt hlt
    constructor
    · exact fun _ => htime
    · exact fun _ => .inr ⟨rfl, .inl (by omega)⟩
  · rw [dateText_lt_time heq, heq]
    simp
  · have htime := time_lt_of_year_lt hgt
    constructor
    · rintro (h | ⟨-, h | ⟨h, -⟩⟩) <;> omega
    · intro h
      omega

/-- Years before 0 are in reverse, except within one of them. -/
theorem text_lt_negative (ha : a.form = .negative) (hb : b.form = .negative) :
    a.text < b.text ↔ b.year < a.year ∨ a.year = b.year ∧ a.time < b.time := by
  have ha₀ := form_negative.mp ha
  have hb₀ := form_negative.mp hb
  rw [text_negative ha₀, text_negative hb₀, List.cons_lt_cons_iff, pad6_lt_iff]
  rcases lt_trichotomy a.year b.year with hlt | heq | hgt
  · constructor
    · rintro (h | ⟨-, h | ⟨h, -⟩⟩) <;> omega
    · rintro (h | ⟨h, -⟩) <;> omega
  · rw [dateText_lt_time heq, heq]
    simp
  · constructor
    · exact fun _ => .inl hgt
    · exact fun _ => .inr ⟨rfl, .inl (by omega)⟩

/-- Two instants whose texts are compared as they are. -/
def InOrder (a b : IsoDate) : Prop :=
  match a.form, b.form with
  | .plain, .plain | .extended, .extended | .negative, .plain | .plain, .negative => True
  | .negative, .negative => a.year = b.year
  | .negative, .extended | .plain, .extended | .extended, .plain | .extended, .negative => False

/-- The unit a text starts with. -/
def lead (t : IsoDate) : Nat :=
  match t.form with
  | .negative => 45
  | .extended => 43
  | .plain => 48 + t.year.toNat / 1000

theorem text_lead (t : IsoDate) : ∃ tail, t.text = t.lead :: tail := by
  unfold lead
  cases hform : t.form with
  | negative => exact ⟨_, text_negative (form_negative.mp hform)⟩
  | plain => exact ⟨_, text_plain (form_plain.mp hform).1 (form_plain.mp hform).2⟩
  | extended => exact ⟨_, text_extended (form_extended.mp hform)⟩

theorem lead_negative {t : IsoDate} (h : t.form = .negative) : t.lead = 45 := by
  unfold lead
  simp only [h]

theorem lead_extended {t : IsoDate} (h : t.form = .extended) : t.lead = 43 := by
  unfold lead
  simp only [h]

theorem le_lead_plain {t : IsoDate} (h : t.form = .plain) : 48 ≤ t.lead := by
  unfold lead
  simp only [h]
  exact Nat.le_add_right _ _

theorem text_lt_of_lead (h : a.lead < b.lead) : a.text < b.text := by
  obtain ⟨ta, hta⟩ := a.text_lead
  obtain ⟨tb, htb⟩ := b.text_lead
  rw [hta, htb, List.cons_lt_cons_iff]
  exact .inl h

/-- Texts of different forms are told apart by their first units. -/
theorem text_le_iff_lead (h : a.lead ≠ b.lead) : a.text ≤ b.text ↔ a.lead < b.lead := by
  rcases Nat.lt_or_gt_of_ne h with hlt | hgt
  · exact iff_of_true (le_of_lt (text_lt_of_lead hlt)) hlt
  · exact iff_of_false (not_le_of_gt (text_lt_of_lead hgt)) (by omega)

/-- **When texts are compared as the instants are.** -/
theorem inOrder_iff (a b : IsoDate) : (a.text ≤ b.text ↔ a.time ≤ b.time) ↔ InOrder a b := by
  unfold InOrder
  cases ha : a.form with
  | negative =>
    have hyear := form_negative.mp ha
    have hlead := lead_negative ha
    cases hb : b.form with
    | negative =>
      rw [← not_lt, text_lt_negative hb ha]
      constructor
      · intro h
        by_contra hne
        rcases lt_or_gt_of_ne hne with hlt | hgt
        · have htime := time_lt_of_year_lt hlt
          exact (h.mpr (by omega)) (.inl hlt)
        · have htime := time_lt_of_year_lt hgt
          have hle := h.mp (by omega)
          omega
      · intro heq
        simp only at heq
        omega
    | plain =>
      have hyear' := form_plain.mp hb
      have hlead' := le_lead_plain hb
      have htime := time_lt_of_year_lt (show a.year < b.year by omega)
      rw [text_le_iff_lead (by omega)]
      simp only [iff_true]
      omega
    | extended =>
      have hyear' := form_extended.mp hb
      have hlead' := lead_extended hb
      have htime := time_lt_of_year_lt (show a.year < b.year by omega)
      rw [text_le_iff_lead (by omega)]
      simp only [iff_false]
      omega
  | plain =>
    have hyear := form_plain.mp ha
    have hlead := le_lead_plain ha
    cases hb : b.form with
    | negative =>
      have hyear' := form_negative.mp hb
      have hlead' := lead_negative hb
      have htime := time_lt_of_year_lt (show b.year < a.year by omega)
      rw [text_le_iff_lead (by omega)]
      simp only [iff_true]
      omega
    | plain =>
      rw [← not_lt, text_lt_plain hb ha, not_lt]
      exact iff_of_true Iff.rfl trivial
    | extended =>
      have hyear' := form_extended.mp hb
      have hlead' := lead_extended hb
      have htime := time_lt_of_year_lt (show a.year < b.year by omega)
      rw [text_le_iff_lead (by omega)]
      simp only [iff_false]
      omega
  | extended =>
    have hyear := form_extended.mp ha
    have hlead := lead_extended ha
    cases hb : b.form with
    | negative =>
      have hyear' := form_negative.mp hb
      have hlead' := lead_negative hb
      have htime := time_lt_of_year_lt (show b.year < a.year by omega)
      rw [text_le_iff_lead (by omega)]
      simp only [iff_false]
      omega
    | plain =>
      have hyear' := form_plain.mp hb
      have hlead' := le_lead_plain hb
      have htime := time_lt_of_year_lt (show b.year < a.year by omega)
      rw [text_le_iff_lead (by omega)]
      simp only [iff_false]
      omega
    | extended =>
      rw [← not_lt, text_lt_extended hb ha, not_lt]
      exact iff_of_true Iff.rfl trivial

/-- Texts differ where instants do. -/
theorem text_injective : Function.Injective text := by
  intro a b h
  have hlead : a.lead = b.lead := by
    obtain ⟨ta, hta⟩ := a.text_lead
    obtain ⟨tb, htb⟩ := b.text_lead
    rw [hta, htb] at h
    exact (List.cons.inj h).1
  have hnot : ¬ a.text < b.text ∧ ¬ b.text < a.text := by
    rw [h]
    exact ⟨lt_irrefl _, lt_irrefl _⟩
  have hform : a.form = b.form := by
    cases ha : a.form with
    | negative =>
      have hla := lead_negative ha
      cases hb : b.form with
      | negative => rfl
      | plain =>
        have hlb := le_lead_plain hb
        omega
      | extended =>
        have hlb := lead_extended hb
        omega
    | plain =>
      have hla := le_lead_plain ha
      cases hb : b.form with
      | plain => rfl
      | negative =>
        have hlb := lead_negative hb
        omega
      | extended =>
        have hlb := lead_extended hb
        omega
    | extended =>
      have hla := lead_extended ha
      cases hb : b.form with
      | extended => rfl
      | negative =>
        have hlb := lead_negative hb
        omega
      | plain =>
        have hlb := le_lead_plain hb
        omega
  ext1
  cases ha : a.form with
  | negative =>
    have hb := hform.symm.trans ha
    rw [text_lt_negative ha hb, text_lt_negative hb ha] at hnot
    omega
  | plain =>
    have hb := hform.symm.trans ha
    rw [text_lt_plain ha hb, text_lt_plain hb ha] at hnot
    omega
  | extended =>
    have hb := hform.symm.trans ha
    rw [text_lt_extended ha hb, text_lt_extended hb ha] at hnot
    omega

/-- Instants in the order of their texts. -/
instance : LinearOrder IsoDate := LinearOrder.lift' text text_injective

theorem le_iff_text {a b : IsoDate} : a ≤ b ↔ a.text ≤ b.text := Iff.rfl

end IsoDate

end Effects
