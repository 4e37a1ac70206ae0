import Mathlib.Data.List.DropRight
import Mathlib.Data.Nat.Digits.Lemmas
import AppPort.Lib.Json

/-!
# Finite numbers by their digits

A finite number as its shortest decimal: the significant digits and where the point
stands among them. `Decimal.text` writes it as `Number::toString` does, in one of four
forms, and `readDecimal` reads the number texts of JSON. Each form is read back:
the zeros a form adds in front and behind are the ones that reading takes away.
-/

namespace Effects

/-- A finite number `± 0.d₁d₂… · 10ⁿ`, zero having no digits. -/
@[ext]
structure Decimal where
  negative : Bool
  digits : List Nat
  point : Int
  small : ∀ d ∈ digits, d < 10
  first : digits.head? ≠ some 0
  last : digits.getLast? ≠ some 0
  zero : digits = [] → negative = false ∧ point = 0

/-- Zero; `-0` is written and compared as `0`. -/
def Decimal.zeroNumber : Decimal := ⟨false, [], 0, by simp, by simp, by simp, by simp⟩

/-- Digits as units. -/
def digitUnits (digits : List Nat) : Units := digits.map (48 + ·)

/-- The digits of a natural number. -/
def natDigits (n : Nat) : List Nat := (Nat.digits 10 n).reverse

/-- The exponent part, with its sign. -/
def exponentUnits (e : Int) : Units :=
  101 :: (if e < 0 then 45 else 43) :: digitUnits (natDigits e.natAbs)

/-- The digits and the point of a number that is not zero. -/
def Decimal.body (x : Decimal) : Units :=
  let k := x.digits.length
  if (k : Int) ≤ x.point ∧ x.point ≤ 21 then
    digitUnits (x.digits ++ List.replicate (x.point.toNat - k) 0)
  else if 0 < x.point ∧ x.point ≤ 21 then
    digitUnits (x.digits.take x.point.toNat) ++ 46 :: digitUnits (x.digits.drop x.point.toNat)
  else if -6 < x.point ∧ x.point ≤ 0 then
    digitUnits [0] ++ 46 :: digitUnits (List.replicate (-x.point).toNat 0 ++ x.digits)
  else
    digitUnits (x.digits.take 1) ++
      ((if k = 1 then [] else 46 :: digitUnits (x.digits.drop 1)) ++ exponentUnits (x.point - 1))

/-- `Number::toString`. -/
def Decimal.text (x : Decimal) : Units :=
  if x.digits = [] then [48]
  else (if x.negative then [45] else []) ++ x.body

/-! ## Reading -/

/-- The digits a text starts with, and what follows them. -/
def takeDigits (text : Units) : List Nat × Units :=
  ((text.takeWhile isDigitUnit).map (· - 48), text.dropWhile isDigitUnit)

/-- The number with these digits and this point, its outer zeros taken away. -/
def normalized (negative : Bool) (digits : List Nat) (point : Int) : Option Decimal :=
  let front := digits.dropWhile (· == 0)
  let core := front.rdropWhile (· == 0)
  if h : core ≠ [] ∧ (∀ d ∈ core, d < 10) ∧ core.head? ≠ some 0 ∧ core.getLast? ≠ some 0 then
    some ⟨negative, core, point - (digits.length - front.length : Nat), h.2.1, h.2.2.1, h.2.2.2,
      fun hnil => absurd hnil h.1⟩
  else if core = [] then some .zeroNumber
  else none

/-- The fraction: a point and at least one digit, or none. -/
def takeFraction (text : Units) : Option (List Nat × Units) :=
  match text with
  | [] => some ([], [])
  | c :: rest =>
    if c = 46 then
      if (takeDigits rest).1 = [] then none else some (takeDigits rest)
    else some ([], c :: rest)

/-- The exponent: a sign and at least one digit after `e`, or none; nothing follows. -/
def takeExponent (text : Units) : Option Int :=
  match text with
  | [] => some 0
  | c :: rest =>
    if c = 101 ∨ c = 69 then
      let negative := rest.head? = some 45
      let unsigned := if negative ∨ rest.head? = some 43 then rest.tail else rest
      let digits := (takeDigits unsigned).1
      if digits = [] ∨ (takeDigits unsigned).2 ≠ [] then none
      else
        let value : Nat := Nat.ofDigits 10 digits.reverse
        some (if negative then -(value : Int) else value)
    else none

/-- The number a text of JSON denotes. -/
def readDecimal (text : Units) : Option Decimal :=
  let negative := text.head? == some 45
  let unsigned := if negative then text.tail else text
  let (whole, rest) := takeDigits unsigned
  if whole = [] ∨ (whole.head? = some 0 ∧ whole ≠ [0]) then none
  else
    match takeFraction rest with
    | none => none
    | some (fraction, rest) =>
      match takeExponent rest with
      | none => none
      | some e => normalized negative (whole ++ fraction) (whole.length + e)

/-! ## Parts of a text -/

theorem isDigitUnit_digitUnits {digits : List Nat} (h : ∀ d ∈ digits, d < 10) :
    ∀ c ∈ digitUnits digits, isDigitUnit c = true := by
  intro c hc
  obtain ⟨d, hd, rfl⟩ := List.mem_map.mp hc
  have hsmall := h d hd
  simp only [isDigitUnit, Bool.and_eq_true, decide_eq_true_eq]
  omega

/-- Digits are taken up to what is no digit. -/
theorem takeDigits_digitUnits {digits : List Nat} (h : ∀ d ∈ digits, d < 10) {rest : Units}
    (hrest : ∀ c, rest.head? = some c → isDigitUnit c = false) :
    takeDigits (digitUnits digits ++ rest) = (digits, rest) := by
  have hdigits := isDigitUnit_digitUnits h
  have htake : rest.takeWhile isDigitUnit = [] := by
    cases rest with
    | nil => rfl
    | cons c rest => simp [hrest c rfl]
  have hdrop : rest.dropWhile isDigitUnit = rest := by
    cases rest with
    | nil => rfl
    | cons c rest => simp [hrest c rfl]
  have hmap : (digitUnits digits).map (· - 48) = digits := by
    rw [digitUnits, List.map_map]
    calc digits.map ((· - 48) ∘ (48 + ·)) = digits.map id := by
          apply List.map_congr_left
          intro d _
          simp
      _ = digits := List.map_id digits
  rw [takeDigits, List.takeWhile_append_of_pos hdigits, List.dropWhile_append_of_pos hdigits,
    htake, hdrop, List.append_nil, hmap]

theorem natDigits_small (n : Nat) : ∀ d ∈ natDigits n, d < 10 := by
  intro d hd
  exact Nat.digits_lt_base (by decide) (List.mem_reverse.mp hd)

theorem takeExponent_exponentUnits {e : Int} (h : e ≠ 0) :
    takeExponent (exponentUnits e) = some e := by
  have hdigits : takeDigits (digitUnits (natDigits e.natAbs)) = (natDigits e.natAbs, []) := by
    have htake : takeDigits (digitUnits (natDigits e.natAbs) ++ []) = (natDigits e.natAbs, []) :=
      takeDigits_digitUnits (natDigits_small e.natAbs) (by simp)
    rwa [List.append_nil] at htake
  have hne : natDigits e.natAbs ≠ [] := by
    rw [natDigits, Ne, List.reverse_eq_nil_iff, Nat.digits_eq_nil_iff_eq_zero]
    omega
  have hvalue : Nat.ofDigits 10 (natDigits e.natAbs).reverse = e.natAbs := by
    rw [natDigits, List.reverse_reverse, Nat.ofDigits_digits]
  by_cases hneg : e < 0
  · simp [takeExponent, exponentUnits, hneg, hdigits, hne, hvalue]
    rw [abs_of_neg hneg]
    omega
  · simp [takeExponent, exponentUnits, hneg, hdigits, hne, hvalue]
    omega

/-- The zeros in front of the digits and behind them are taken away. -/
theorem normalized_zeros (x : Decimal) (hsome : x.digits ≠ []) (a b : Nat) :
    normalized x.negative (List.replicate a 0 ++ x.digits ++ List.replicate b 0)
      (x.point + a) = some x := by
  obtain ⟨d, rest, hcons⟩ := List.exists_cons_of_ne_nil hsome
  have hd : d ≠ 0 := by
    intro hzero
    apply x.first
    rw [hcons, hzero]
    rfl
  have hfront : (List.replicate a 0 ++ x.digits ++ List.replicate b 0).dropWhile (· == 0) =
      x.digits ++ List.replicate b 0 := by
    rw [List.append_assoc, List.dropWhile_append_of_pos (by simp)]
    rw [hcons, List.cons_append, List.dropWhile_cons_of_neg (by simpa using hd)]
  have hcore : (x.digits ++ List.replicate b 0).rdropWhile (· == 0) = x.digits := by
    rw [List.rdropWhile, List.reverse_append, List.reverse_replicate,
      List.dropWhile_append_of_pos (by simp)]
    have hlast : x.digits.reverse.dropWhile (· == 0) = x.digits.reverse := by
      cases hrev : x.digits.reverse with
      | nil => rfl
      | cons c tail =>
        apply List.dropWhile_cons_of_neg
        intro hzero
        apply x.last
        rw [List.getLast?_eq_head?_reverse, hrev]
        simpa using hzero
    rw [hlast, List.reverse_reverse]
  unfold normalized
  simp only [hfront, hcore]
  rw [dif_pos ⟨hsome, x.small, x.first, x.last⟩]
  congr 1
  ext1
  · rfl
  · rfl
  · simp only [List.length_append, List.length_replicate]
    omega

/-! ## Every form is read back -/

/-- What a text with these parts is read as. -/
theorem readDecimal_parts {negative : Bool} {whole fraction : List Nat} {exponent : Units}
    {e : Int} (hwhole : ∀ d ∈ whole, d < 10) (hsome : whole ≠ [])
    (hzero : whole.head? = some 0 → whole = [0]) (hfraction : ∀ d ∈ fraction, d < 10)
    (hexponent : takeExponent exponent = some e)
    (hstart : ∀ c, exponent.head? = some c → isDigitUnit c = false ∧ c ≠ 46) :
    readDecimal ((if negative then [45] else []) ++ (digitUnits whole ++
      ((if fraction = [] then [] else 46 :: digitUnits fraction) ++ exponent))) =
        normalized negative (whole ++ fraction) (whole.length + e) := by
  set tail := (if fraction = [] then [] else 46 :: digitUnits fraction) ++ exponent with htail
  have htake : takeDigits (digitUnits whole ++ tail) = (whole, tail) := by
    apply takeDigits_digitUnits hwhole
    intro c hc
    by_cases hnil : fraction = []
    · rw [htail, if_pos hnil, List.nil_append] at hc
      exact (hstart c hc).1
    · rw [htail, if_neg hnil] at hc
      cases hc
      rfl
  have hfrac : takeFraction tail = some (fraction, exponent) := by
    by_cases hnil : fraction = []
    · rw [htail, if_pos hnil, List.nil_append, hnil]
      cases exponent with
      | nil => rfl
      | cons c rest => simp [takeFraction, (hstart c rfl).2]
    · have hdigits := takeDigits_digitUnits hfraction (fun c hc => (hstart c hc).1)
      rw [htail, if_neg hnil, List.cons_append]
      simp [takeFraction, hdigits, hnil]
  -- the sign is told apart from the first digit
  have hsign : (((if negative then [45] else []) ++ (digitUnits whole ++ tail)).head? ==
      some 45) = negative := by
    cases negative with
    | true => rfl
    | false =>
      obtain ⟨d, rest, hcons⟩ := List.exists_cons_of_ne_nil hsome
      simp only [digitUnits, hcons, Bool.false_eq_true, if_false, List.nil_append, List.map_cons,
        List.cons_append, List.head?_cons, beq_eq_false_iff_ne, ne_eq, Option.some.injEq]
      omega
  unfold readDecimal
  simp only [hsign]
  have hunsigned : (if negative then ((if negative then [45] else []) ++
      (digitUnits whole ++ tail)).tail else (if negative then [45] else []) ++
      (digitUnits whole ++ tail)) = digitUnits whole ++ tail := by
    cases negative <;> rfl
  rw [hunsigned, htake]
  dsimp only
  rw [if_neg (by
    rintro (hnil | ⟨hfirst, hother⟩)
    · exact hsome hnil
    · exact hother (hzero hfirst)), hfrac]
  dsimp only
  rw [hexponent]

/-- A form is read back: its digits are those of the number between zeros, and its point
stands as many places further as there are zeros in front. -/
theorem readDecimal_form (x : Decimal) (hx : x.digits ≠ []) (whole fraction : List Nat)
    (exponent : Units) {e : Int} (a b : Nat)
    (hdigits : whole ++ fraction = List.replicate a 0 ++ x.digits ++ List.replicate b 0)
    (hpoint : whole.length + e = x.point + a) (hsome : whole ≠ [])
    (hzero : whole.head? = some 0 → whole = [0]) (hexponent : takeExponent exponent = some e)
    (hstart : ∀ c, exponent.head? = some c → isDigitUnit c = false ∧ c ≠ 46) :
    readDecimal ((if x.negative then [45] else []) ++ (digitUnits whole ++
      ((if fraction = [] then [] else 46 :: digitUnits fraction) ++ exponent))) = some x := by
  have hsmall : ∀ d ∈ whole ++ fraction, d < 10 := by
    rw [hdigits]
    intro d hd
    simp only [List.mem_append, List.mem_replicate] at hd
    rcases hd with (⟨-, hd⟩ | hd) | ⟨-, hd⟩
    · omega
    · exact x.small d hd
    · omega
  have hwhole : ∀ d ∈ whole, d < 10 := fun d hd => hsmall d (List.mem_append_left _ hd)
  have hfraction : ∀ d ∈ fraction, d < 10 := fun d hd => hsmall d (List.mem_append_right _ hd)
  rw [readDecimal_parts hwhole hsome hzero hfraction hexponent hstart, hdigits, hpoint]
  exact normalized_zeros x hx a b

/-- The first digits of a number do not begin with zero. -/
theorem head_take_ne (x : Decimal) {n : Nat} (h : 0 < n) :
    (x.digits.take n).head? ≠ some 0 := by
  rw [List.head?_take, if_neg (by omega)]
  exact x.first

/-- **What a number is written as is read back**, form by form. -/
theorem readDecimal_text (x : Decimal) : readDecimal x.text = some x := by
  unfold Decimal.text
  split
  · next hnil =>
    obtain ⟨hnegative, hpoint⟩ := x.zero hnil
    have hzero : x = .zeroNumber := by
      ext1
      · exact hnegative
      · exact hnil
      · exact hpoint
    rw [hzero]
    rfl
  next hsome =>
  have hlength : 0 < x.digits.length := List.length_pos_iff.mpr hsome
  unfold Decimal.body
  dsimp only
  by_cases hall : (x.digits.length : Int) ≤ x.point ∧ x.point ≤ 21
  · -- all digits before the point
    have hfirst : (x.digits ++ List.replicate (x.point.toNat - x.digits.length) 0).head? =
        x.digits.head? := List.head?_append_of_ne_nil _ hsome
    have hpoint : ((x.digits ++ List.replicate (x.point.toNat - x.digits.length) 0).length : Int) +
        0 = x.point + (0 : Nat) := by
      rw [List.length_append, List.length_replicate]
      omega
    have hread := readDecimal_form x hsome
      (x.digits ++ List.replicate (x.point.toNat - x.digits.length) 0) [] [] 0
      (x.point.toNat - x.digits.length) (List.append_nil _) hpoint (by simp [hsome])
      (fun hzero => absurd (hfirst.symm.trans hzero) x.first) rfl (by simp)
    rw [if_pos hall]
    simpa using hread
  rw [if_neg hall]
  by_cases hamong : 0 < x.point ∧ x.point ≤ 21
  · -- the point among the digits
    have hn : 0 < x.point.toNat := by omega
    have hle : x.point.toNat < x.digits.length := by omega
    have hdrop : x.digits.drop x.point.toNat ≠ [] := by
      rw [Ne, List.drop_eq_nil_iff]
      omega
    have hpoint : ((x.digits.take x.point.toNat).length : Int) + 0 = x.point + (0 : Nat) := by
      rw [List.length_take]
      omega
    have htake : x.digits.take x.point.toNat ≠ [] := by
      simp only [ne_eq, List.take_eq_nil_iff, hsome, or_false]
      omega
    have hread := readDecimal_form x hsome (x.digits.take x.point.toNat)
      (x.digits.drop x.point.toNat) [] 0 0 (by simp) hpoint htake
      (fun hzero => absurd hzero (head_take_ne x hn)) rfl (by simp)
    rw [if_pos hamong]
    simpa [hdrop] using hread
  rw [if_neg hamong]
  by_cases hbehind : -6 < x.point ∧ x.point ≤ 0
  · -- zeros behind the point
    have hpoint : (([0] : List Nat).length : Int) + 0 =
        x.point + ((1 + (-x.point).toNat : Nat) : Int) := by
      rw [List.length_singleton]
      omega
    have hread := readDecimal_form x hsome [0] (List.replicate (-x.point).toNat 0 ++ x.digits) []
      (1 + (-x.point).toNat) 0 (by simp [List.replicate_add]) hpoint (by simp) (fun _ => rfl) rfl (by simp)
    rw [if_pos hbehind]
    simpa [hsome] using hread
  · -- one digit before the point, and an exponent
    have he : x.point - 1 ≠ 0 := by omega
    have hpoint : ((x.digits.take 1).length : Int) + (x.point - 1) = x.point + (0 : Nat) := by
      rw [List.length_take]
      omega
    have hdigits : x.digits.take 1 ++ x.digits.drop 1 =
        List.replicate 0 0 ++ x.digits ++ List.replicate 0 0 := by
      rw [List.take_append_drop]
      simp
    have hstart : ∀ c, (exponentUnits (x.point - 1)).head? = some c →
        isDigitUnit c = false ∧ c ≠ 46 := by
      intro c hc
      cases hc
      decide
    have hread := readDecimal_form x hsome (x.digits.take 1) (x.digits.drop 1)
      (exponentUnits (x.point - 1)) 0 0 hdigits hpoint (by simp [hsome]) (fun hzero => absurd hzero (head_take_ne x Nat.one_pos))
      (takeExponent_exponentUnits he) hstart
    have hone : x.digits.drop 1 = [] ↔ x.digits.length = 1 := by
      rw [List.drop_eq_nil_iff]
      omega
    rw [if_neg hbehind]
    simpa only [hone] using hread

/-! ## The texts are number texts -/

theorem numeric_digitUnits {digits : List Nat} (h : ∀ d ∈ digits, d < 10) :
    ∀ c ∈ digitUnits digits, isNumericUnit c = true := by
  intro c hc
  simp [isNumericUnit, isDigitUnit_digitUnits h c hc]

theorem numeric_exponentUnits (e : Int) : ∀ c ∈ exponentUnits e, isNumericUnit c = true := by
  intro c hc
  simp only [exponentUnits, List.mem_cons] at hc
  rcases hc with rfl | hsign | hdigits
  · rfl
  · split at hsign <;> rw [hsign] <;> rfl
  · exact numeric_digitUnits (natDigits_small _) c hdigits

theorem Decimal.numeric_body (x : Decimal) : ∀ c ∈ x.body, isNumericUnit c = true := by
  have hzeros : ∀ n, ∀ d ∈ List.replicate n 0 ++ x.digits, d < 10 := by
    intro n d hd
    rcases List.mem_append.mp hd with hzero | hdigit
    · rw [(List.mem_replicate.mp hzero).2]
      decide
    · exact x.small d hdigit
  have hpart : ∀ {digits : List Nat}, digits ⊆ x.digits →
      ∀ c ∈ digitUnits digits, isNumericUnit c = true :=
    fun hsub => numeric_digitUnits fun d hd => x.small d (hsub hd)
  intro c hc
  unfold Decimal.body at hc
  dsimp only at hc
  split at hc
  · apply numeric_digitUnits _ c hc
    intro d hd
    apply hzeros (x.point.toNat - x.digits.length) d
    rw [List.mem_append] at hd ⊢
    exact hd.symm
  split at hc
  · rcases List.mem_append.mp hc with hwhole | hrest
    · exact hpart (List.take_subset _ _) c hwhole
    · rcases List.mem_cons.mp hrest with rfl | hfraction
      · rfl
      · exact hpart (List.drop_subset _ _) c hfraction
  split at hc
  · rcases List.mem_append.mp hc with hwhole | hrest
    · exact numeric_digitUnits (by decide) c hwhole
    · rcases List.mem_cons.mp hrest with rfl | hfraction
      · rfl
      · exact numeric_digitUnits (hzeros _) c hfraction
  · rcases List.mem_append.mp hc with hwhole | hrest
    · exact hpart (List.take_subset _ _) c hwhole
    · rcases List.mem_append.mp hrest with hfraction | hexponent
      · split at hfraction
        · cases hfraction
        · rcases List.mem_cons.mp hfraction with rfl | hfraction
          · rfl
          · exact hpart (List.drop_subset _ _) c hfraction
      · exact numeric_exponentUnits _ c hexponent

/-- The finite numbers, as JSON writes and reads them. -/
instance : JsonNumber Decimal where
  text := Decimal.text
  read := readDecimal
  read_text := readDecimal_text
  numeric x c hc := by
    unfold Decimal.text at hc
    split at hc
    · rw [List.mem_singleton.mp hc]
      rfl
    · rcases List.mem_append.mp hc with hsign | hbody
      · split at hsign
        · rw [List.mem_singleton.mp hsign]
          rfl
        · cases hsign
      · exact x.numeric_body c hbody
  nonempty x := by
    intro hnil
    have hread := readDecimal_text x
    rw [hnil] at hread
    cases hread

end Effects
