import Mathlib.Data.List.Perm.Basic
import Mathlib.Data.List.Nodup
import Std.Data.String.ToNat

/-!
# Numbers given out from a counter

Someone who takes a number may use it or put it back. The numbers used and the numbers
still out are all different as long as every number is taken above the ones given so
far, and one that is used was still out: that is all there is to numbering attempts by a
counter, whoever raises the counter and when.
-/

namespace Effects

/-- The numbers that are out, with who took them, and the numbers used. -/
structure Numbering where
  out : List (Nat × Nat) := []
  used : List Nat := []
  deriving DecidableEq

namespace Numbering

/-- All numbers given so far. -/
def numbers (r : Numbering) : List Nat := r.used ++ r.out.map Prod.snd

/-- Someone takes a number. -/
def take (r : Numbering) (who number : Nat) : Numbering := { r with out := (who, number) :: r.out }

/-- They use it. -/
def use (r : Numbering) (who number : Nat) : Numbering where
  out := r.out.erase (who, number)
  used := number :: r.used

/-- Or put it back. -/
def drop (r : Numbering) (who number : Nat) : Numbering := { r with out := r.out.erase (who, number) }

/-- Every number that is out is void. -/
def void (r : Numbering) : Numbering := { r with out := [] }

/-- No number above `n` was given. -/
def Upto (r : Numbering) (n : Nat) : Prop := ∀ k ∈ r.numbers, k ≤ n

/-- No number was given twice. -/
def Distinct (r : Numbering) : Prop := r.numbers.Nodup

variable {r : Numbering} {who number n m : Nat}

theorem Upto.mono (h : r.Upto n) (hle : n ≤ m) : r.Upto m := fun k hk => Nat.le_trans (h k hk) hle

theorem mem_drop {k : Nat} (h : k ∈ (r.drop who number).numbers) : k ∈ r.numbers := by
  simp only [numbers, drop, List.mem_append, List.mem_map] at h ⊢
  rcases h with h | ⟨entry, hentry, rfl⟩
  · exact .inl h
  · exact .inr ⟨entry, List.mem_of_mem_erase hentry, rfl⟩

theorem Upto.drop (h : r.Upto n) : (r.drop who number).Upto n := fun k hk => h k (mem_drop hk)

theorem Distinct.drop (h : r.Distinct) : (r.drop who number).Distinct := by
  have hsub : ((r.out.erase (who, number)).map Prod.snd).Sublist (r.out.map Prod.snd) :=
    List.erase_sublist.map Prod.snd
  exact h.sublist (hsub.append_left r.used)

theorem Upto.void (h : r.Upto n) : r.void.Upto n := by
  intro k hk
  refine h k ?_
  simp only [numbers, Numbering.void, List.map_nil, List.append_nil] at hk
  exact List.mem_append_left _ hk

theorem Distinct.void (h : r.Distinct) : r.void.Distinct := by
  have hsub : (r.used ++ []).Sublist (r.used ++ r.out.map Prod.snd) :=
    (List.nil_sublist _).append_left r.used
  simp only [Distinct, numbers, Numbering.void, List.map_nil]
  exact h.sublist hsub

/-- A number that is taken is the only new one. -/
theorem Upto.take (h : r.Upto n) (hle : number ≤ n) : (r.take who number).Upto n := by
  intro k hk
  simp only [numbers, Numbering.take, List.map_cons, List.mem_append, List.mem_cons] at hk
  rcases hk with hk | rfl | hk
  · exact h k (List.mem_append_left _ hk)
  · exact hle
  · exact h k (List.mem_append_right _ hk)

/-- Above the ones given, it is a different one. -/
theorem Distinct.take (h : r.Distinct) (hupto : r.Upto n) (hlt : n < number) :
    (r.take who number).Distinct := by
  have hnew : number ∉ r.numbers := by
    intro hmem
    have hle := hupto number hmem
    omega
  simp only [Distinct, numbers, Numbering.take, List.map_cons]
  exact List.perm_middle.nodup_iff.mpr (List.nodup_cons.mpr ⟨hnew, h⟩)

/-- Putting back the number just taken changes nothing. -/
@[simp] theorem drop_take : (r.take who number).drop who number = r := by
  simp [Numbering.drop, Numbering.take]

/-- Using a number that is out gives no other. -/
theorem numbers_use (h : (who, number) ∈ r.out) : (r.use who number).numbers.Perm r.numbers := by
  have hout : (r.out.map Prod.snd).Perm (number :: (r.out.erase (who, number)).map Prod.snd) :=
    (List.perm_cons_erase h).map Prod.snd
  have hmiddle : (number :: (r.used ++ (r.out.erase (who, number)).map Prod.snd)).Perm
      (r.used ++ number :: (r.out.erase (who, number)).map Prod.snd) := List.perm_middle.symm
  exact hmiddle.trans (hout.symm.append_left r.used)

theorem Upto.use (h : r.Upto n) (hmem : (who, number) ∈ r.out) : (r.use who number).Upto n :=
  fun k hk => h k ((numbers_use hmem).mem_iff.mp hk)

theorem Distinct.use (h : r.Distinct) (hmem : (who, number) ∈ r.out) :
    (r.use who number).Distinct := (numbers_use hmem).nodup_iff.mpr h

/-- A number that is out was not used. -/
theorem Distinct.unused (h : r.Distinct) (hmem : (who, number) ∈ r.out) : number ∉ r.used := by
  intro hused
  have hdisjoint := (List.nodup_append.mp h).2.2
  exact hdisjoint number hused number (List.mem_map.mpr ⟨_, hmem, rfl⟩) rfl

/-- What others do with their numbers does not concern one's own. -/
theorem drop_use_comm {who' number' : Nat} :
    (r.use who number).drop who' number' = (r.drop who' number').use who number := by
  simp only [Numbering.use, Numbering.drop, List.erase_comm]

theorem drop_take_comm {who' number' : Nat} (h : who ≠ who') :
    (r.take who number).drop who' number' = (r.drop who' number').take who number := by
  have hne : (who, number) ≠ (who', number') := fun heq => h (congrArg Prod.fst heq)
  simp [Numbering.take, Numbering.drop, List.erase_cons_tail, hne]

/-! ## Numbering by a counter

The counter stands at `n`, and whoever takes a number takes the next one. While someone
is busy with theirs, that one may have been given; as long as nobody is, it was not. The
second half fails where a number is used and the counter not raised (`left`), and both
once the counter starts again after numbers were used (`again`). -/

/-- A counter, when there is one: where it stands, and whether someone is busy. -/
structure Counter where
  count : Nat
  busy : Bool

structure Follows (r : Numbering) (counter : Option Counter) (left again : Bool) : Prop where
  distinct : r.Distinct
  bounded : again = false → ∀ k ∈ r.numbers, ∃ c ∈ counter, k ≤ c.count + 1
  settled : again = false → left = false → ∀ c ∈ counter, c.busy = false → r.Upto c.count

variable {counter : Option Counter} {c c' : Counter} {left left' again again' : Bool}

/-- Before anything is given, everything is in order. -/
theorem follows_nil : Follows {} counter left again :=
  ⟨List.nodup_nil, fun _ _ hk => absurd hk List.not_mem_nil,
    fun _ _ _ _ _ _ hk => absurd hk List.not_mem_nil⟩

theorem Follows.upto (h : r.Follows (some c) left again) (hagain : again = false) :
    r.Upto (c.count + 1) := by
  intro k hk
  obtain ⟨c', hc, hle⟩ := h.bounded hagain k hk
  obtain rfl := Option.some.inj hc
  exact hle

theorem Follows.use (h : r.Follows counter left again) (hmem : (who, number) ∈ r.out) :
    (r.use who number).Follows counter left again :=
  ⟨h.distinct.use hmem, fun hagain k hk => h.bounded hagain k ((numbers_use hmem).mem_iff.mp hk),
    fun hagain hleft c hc hbusy => (h.settled hagain hleft c hc hbusy).use hmem⟩

/-- Where no number was given that is not counted, the next one may be taken. -/
theorem Follows.take (h : r.Follows (some c) left again) (hupto : r.Upto c.count)
    (hcount : c'.count = c.count) (hbusy : c'.busy = true) :
    (r.take who (c.count + 1)).Follows (some c') left again := by
  refine ⟨h.distinct.take hupto (Nat.lt_succ_self _), fun _ k hk => ⟨c', rfl, ?_⟩, ?_⟩
  · rw [hcount]
    exact (hupto.mono (Nat.le_succ _)).take (Nat.le_refl _) k hk
  · intro _ _ c'' hc hidle
    obtain rfl := Option.some.inj hc
    rw [hbusy] at hidle
    cases hidle

/-- Someone gets busy, and nothing is given. -/
theorem Follows.busy (h : r.Follows (some c) left again) (hcount : c'.count = c.count)
    (hbusy : c'.busy = true) : r.Follows (some c') left again := by
  refine ⟨h.distinct, fun hagain k hk => ⟨c', rfl, ?_⟩, ?_⟩
  · rw [hcount]
    exact h.upto hagain k hk
  · intro _ _ c'' hc hidle
    obtain rfl := Option.some.inj hc
    rw [hbusy] at hidle
    cases hidle

/-- The counter is raised. -/
theorem Follows.count (h : r.Follows (some c) left again) (hcount : c'.count = c.count + 1) :
    r.Follows (some c') left' again := by
  refine ⟨h.distinct, fun hagain k hk => ⟨c', rfl, ?_⟩, fun hagain _ c'' hc _ => ?_⟩
  · have hle := h.upto hagain k hk
    omega
  · obtain rfl := Option.some.inj hc
    rw [hcount]
    exact h.upto hagain

/-- A number is put back, and the counter stays. -/
theorem Follows.drop (h : r.Follows (some c) left again) (hcount : c'.count = c.count)
    (hupto : again = false → left' = false → c'.busy = false → (r.drop who number).Upto c.count) :
    (r.drop who number).Follows (some c') left' again := by
  refine ⟨h.distinct.drop, fun hagain k hk => ⟨c', rfl, ?_⟩, fun hagain hleft c'' hc hidle => ?_⟩
  · rw [hcount]
    exact h.upto hagain k (mem_drop hk)
  · obtain rfl := Option.some.inj hc
    rw [hcount]
    exact hupto hagain hleft hidle

/-- The counter starts again: in order only if nothing was used. -/
theorem Follows.restart (h : r.Follows counter left again)
    (hagain : again' = false → r.used = []) : r.void.Follows (some c) left' again' := by
  have hnil : again' = false → r.void.numbers = [] := by
    intro h'
    simp [numbers, Numbering.void, hagain h']
  refine ⟨h.distinct.void, fun h' k hk => ?_, fun h' _ _ _ _ k hk => ?_⟩
  · rw [hnil h'] at hk
    exact absurd hk List.not_mem_nil
  · rw [hnil h'] at hk
    exact absurd hk List.not_mem_nil

/-- Without a counter nothing was given. -/
theorem Follows.absent (h : r.Follows none left again) (hagain : again = false) : r.numbers = [] := by
  refine List.eq_nil_iff_forall_not_mem.mpr fun k hk => ?_
  obtain ⟨c, hc, -⟩ := h.bounded hagain k hk
  cases hc

end Numbering

/-! ## Names with numbers -/

/-- What follows the last separator, and what is before it. -/
theorem split_at_last {α : Type} {a : α} {zs zs' : List α} (h : a ∉ zs) (h' : a ∉ zs') :
    {xs xs' : List α} → xs ++ a :: zs = xs' ++ a :: zs' → xs = xs' ∧ zs = zs'
  | [], [], heq => ⟨rfl, (List.cons.inj heq).2⟩
  | [], x :: xs', heq => by
    have htail : zs = xs' ++ a :: zs' := (List.cons.inj heq).2
    exact absurd (htail ▸ List.mem_append_right xs' List.mem_cons_self) h
  | x :: xs, [], heq => by
    have htail : xs ++ a :: zs = zs' := (List.cons.inj heq).2
    exact absurd (htail ▸ List.mem_append_right xs List.mem_cons_self) h'
  | x :: xs, x' :: xs', heq => by
    obtain ⟨rfl, htail⟩ := List.cons.inj heq
    obtain ⟨rfl, hzs⟩ := split_at_last h h' htail
    exact ⟨rfl, hzs⟩

/-- A name with a number says both: no digit is a colon. -/
theorem numbered_inj {name name' : String} {n n' : Nat}
    (h : name ++ ":" ++ toString n = name' ++ ":" ++ toString n') : name = name' ∧ n = n' := by
  have hdigits : ∀ n : Nat, ':' ∉ (toString n).toList := by
    intro n hmem
    have hmem : ':' ∈ Nat.toDigits 10 n := Nat.toList_repr ▸ hmem
    have hdigit := Nat.isDigit_of_mem_toDigits (by decide) (by decide) hmem
    exact absurd hdigit (by decide)
  have hlists : name.toList ++ ':' :: (toString n).toList =
      name'.toList ++ ':' :: (toString n').toList := by
    have hlist := congrArg String.toList h
    simpa [String.toList_append] using hlist
  obtain ⟨hname, hnumber⟩ := split_at_last (hdigits n) (hdigits n') hlists
  exact ⟨String.toList_injective hname, Nat.repr_inj.mp (String.toList_injective hnumber)⟩

end Effects
