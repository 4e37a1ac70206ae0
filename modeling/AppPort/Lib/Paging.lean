import Mathlib.Data.Finset.Card
import Mathlib.Data.Prod.Lex
import Mathlib.Order.Compare

/-!
# Paging through something that changes

A listing is a strictly ascending list of positions. A page is what of a listing lies
beyond a cursor, up to a limit, and its last position is the next cursor. The listings may
differ from page to page: whatever happens in between, the pages together ascend, and a
position that is in every listing is on one of them, or still lies ahead.

A listing given by something else than positions is paged by the positions of its members
(`filter_beyond_of_split`, `map_page`).
-/

namespace Paging

variable {P : Type} [LinearOrder P]

/-- The position lies beyond the cursor, if there is one. -/
def Beyond (cursor : Option P) (x : P) : Prop := ∀ c ∈ cursor, c < x

instance (cursor : Option P) (x : P) : Decidable (Beyond cursor x) :=
  match cursor with
  | none => isTrue fun _ h => by cases h
  | some c => decidable_of_iff (c < x) (by simp [Beyond])

@[simp] theorem beyond_none (x : P) : Beyond none x := fun _ h => by cases h

@[simp] theorem beyond_some (c x : P) : Beyond (some c) x ↔ c < x := by
  simp [Beyond]

/-- What of a listing lies beyond the cursor. -/
def remaining (cursor : Option P) (listing : List P) : List P :=
  listing.filter fun x => Beyond cursor x

/-- A page of a listing. -/
def page (limit : Nat) (cursor : Option P) (listing : List P) : List P :=
  (remaining cursor listing).take limit

/-- The cursor after a page. -/
def advance (cursor : Option P) (page : List P) : Option P := page.getLast? <|> cursor

/-- The pages of a walk that takes one of each listing. -/
def pages (limit : Nat) : Option P → List (List P) → List (List P)
  | _, [] => []
  | cursor, listing :: rest =>
    page limit cursor listing :: pages limit (advance cursor (page limit cursor listing)) rest

/-- The cursor the walk has come to. -/
def reached (limit : Nat) : Option P → List (List P) → Option P
  | cursor, [] => cursor
  | cursor, listing :: rest => reached limit (advance cursor (page limit cursor listing)) rest

section page

variable {limit : Nat} {cursor : Option P} {listing : List P} {x : P}

theorem mem_remaining : x ∈ remaining cursor listing ↔ x ∈ listing ∧ Beyond cursor x := by
  simp [remaining]

theorem pairwise_remaining (h : listing.Pairwise (· < ·)) :
    (remaining cursor listing).Pairwise (· < ·) := h.filter _

theorem pairwise_page (h : listing.Pairwise (· < ·)) :
    (page limit cursor listing).Pairwise (· < ·) := (pairwise_remaining h).take

theorem mem_listing_of_mem_page (h : x ∈ page limit cursor listing) : x ∈ listing :=
  (mem_remaining.mp (List.mem_of_mem_take h)).1

theorem beyond_of_mem_page (h : x ∈ page limit cursor listing) : Beyond cursor x :=
  (mem_remaining.mp (List.mem_of_mem_take h)).2

/-- What a cursor that has advanced leaves ahead, lay ahead. -/
theorem beyond_of_advance (h : Beyond (advance cursor (page limit cursor listing)) x) :
    Beyond cursor x := by
  cases hlast : (page limit cursor listing).getLast? with
  | none => simpa [advance, hlast] using h
  | some l =>
    have hl : l ∈ page limit cursor listing := List.mem_of_getLast? hlast
    have hlx : l < x := by simpa [advance, hlast] using h
    intro c hc
    exact lt_trans (beyond_of_mem_page hl c hc) hlx

/-- What is on a page does not lie ahead of it. -/
theorem not_beyond_advance (h : listing.Pairwise (· < ·)) (hx : x ∈ page limit cursor listing) :
    ¬ Beyond (advance cursor (page limit cursor listing)) x := by
  intro hbeyond
  obtain ⟨before, last, hpage⟩ := List.eq_nil_or_concat'  (page limit cursor listing) |>.resolve_left
    (List.ne_nil_of_mem hx)
  have hsorted : (page limit cursor listing).Pairwise (· < ·) := pairwise_page h
  rw [hpage] at hx hbeyond hsorted
  have hlast : last < x := by simpa [advance] using hbeyond
  rcases List.mem_append.mp hx with hbefore | hself
  · have hlt := (List.pairwise_append.mp hsorted).2.2 x hbefore last List.mem_cons_self
    exact lt_asymm hlt hlast
  · obtain rfl := List.mem_singleton.mp hself
    exact lt_irrefl _ hlast

/-- **One page.** A position of the listing that lay ahead is on the page, or still lies
ahead. -/
theorem mem_page_or_beyond (h : listing.Pairwise (· < ·)) (hx : x ∈ listing)
    (hbeyond : Beyond cursor x) :
    x ∈ page limit cursor listing ∨ Beyond (advance cursor (page limit cursor listing)) x := by
  have hmem : x ∈ remaining cursor listing := mem_remaining.mpr ⟨hx, hbeyond⟩
  rw [← List.take_append_drop limit (remaining cursor listing)] at hmem
  rcases List.mem_append.mp hmem with htaken | hleft
  · exact .inl htaken
  · right
    have hsorted : (remaining cursor listing).Pairwise (· < ·) := pairwise_remaining h
    rw [← List.take_append_drop limit (remaining cursor listing)] at hsorted
    cases hlast : (page limit cursor listing).getLast? with
    | none => simpa [advance, hlast] using hbeyond
    | some l =>
      have hl : l ∈ page limit cursor listing := List.mem_of_getLast? hlast
      have hlt : l < x := (List.pairwise_append.mp hsorted).2.2 l hl x hleft
      simpa [advance, hlast] using hlt

/-- A page that was not cut off has all that lay ahead. -/
theorem mem_page_of_short (hshort : (remaining cursor listing).length ≤ limit) (hx : x ∈ listing)
    (hbeyond : Beyond cursor x) : x ∈ page limit cursor listing := by
  rw [page, List.take_of_length_le hshort]
  exact mem_remaining.mpr ⟨hx, hbeyond⟩

/-- A page that was cut off is none but an empty one of a limit of none. -/
theorem page_ne_nil (hlimit : 0 < limit) (hlong : limit < (remaining cursor listing).length) :
    page limit cursor listing ≠ [] := by
  intro hnil
  have hlength := congrArg List.length hnil
  rw [page, List.length_take, List.length_nil] at hlength
  omega

/-- **A page was cut off exactly where something lies ahead of it.** -/
theorem cut_off_iff (hlimit : 0 < limit) (h : listing.Pairwise (· < ·)) :
    limit < (remaining cursor listing).length ↔
      ∃ x ∈ listing, Beyond (advance cursor (page limit cursor listing)) x := by
  constructor
  · intro hlong
    have hdrop : (remaining cursor listing).drop limit ≠ [] := by
      intro hnil
      have hlength := congrArg List.length hnil
      rw [List.length_drop, List.length_nil] at hlength
      omega
    obtain ⟨x, hx⟩ := List.exists_mem_of_ne_nil _ hdrop
    have hmem := mem_remaining.mp (List.mem_of_mem_drop hx)
    refine ⟨x, hmem.1, ?_⟩
    obtain ⟨l, hlast⟩ := Option.ne_none_iff_exists'.mp
      (fun hnone => page_ne_nil hlimit hlong (List.getLast?_eq_none_iff.mp hnone))
    have hl : l ∈ page limit cursor listing := List.mem_of_getLast? hlast
    have hsorted : (remaining cursor listing).Pairwise (· < ·) := pairwise_remaining h
    rw [← List.take_append_drop limit (remaining cursor listing)] at hsorted
    have hlt : l < x := (List.pairwise_append.mp hsorted).2.2 l hl x hx
    simpa [advance, hlast] using hlt
  · rintro ⟨x, hx, hbeyond⟩
    by_contra hshort
    have hpage := mem_page_of_short (Nat.le_of_not_lt hshort) hx (beyond_of_advance hbeyond)
    exact not_beyond_advance h hpage hbeyond

end page

/-! ## Walks -/

section walk

variable {limit : Nat} {listings : List (List P)} {x : P}

/-- **The pages ascend**, and lie beyond the cursor the walk began with. -/
theorem pairwise_pages {cursor : Option P} (h : ∀ listing ∈ listings, listing.Pairwise (· < ·)) :
    (pages limit cursor listings).flatten.Pairwise (· < ·) ∧
      ∀ x ∈ (pages limit cursor listings).flatten, Beyond cursor x := by
  induction listings generalizing cursor with
  | nil => exact ⟨List.Pairwise.nil, fun _ hx => by cases hx⟩
  | cons listing rest ih =>
    have hlisting := h listing List.mem_cons_self
    obtain ⟨hsorted, hbeyond⟩ := @ih (advance cursor (page limit cursor listing))
      (fun l hl => h l (List.mem_cons_of_mem _ hl))
    constructor
    · rw [pages, List.flatten_cons, List.pairwise_append]
      refine ⟨pairwise_page hlisting, hsorted, ?_⟩
      intro a ha b hb
      have hahead := hbeyond b hb
      have hbehind := not_beyond_advance hlisting ha
      -- the last of the page lies between
      cases hlast : (page limit cursor listing).getLast? with
      | none => exact absurd (List.getLast?_eq_none_iff.mp hlast) (List.ne_nil_of_mem ha)
      | some l =>
        have hlb : l < b := by simpa [advance, hlast] using hahead
        have hal : ¬ l < a := by simpa [advance, hlast] using hbehind
        exact lt_of_le_of_lt (not_lt.mp hal) hlb
    · intro y hy
      rw [pages, List.flatten_cons] at hy
      rcases List.mem_append.mp hy with hpage | hrest
      · exact beyond_of_mem_page hpage
      · exact beyond_of_advance (hbeyond y hrest)

/-- **Nothing is missed.** What is in every listing and lay ahead is on a page, or still
lies ahead. -/
theorem mem_pages_or_beyond {cursor : Option P}
    (h : ∀ listing ∈ listings, listing.Pairwise (· < ·)) (hx : ∀ listing ∈ listings, x ∈ listing)
    (hbeyond : Beyond cursor x) :
    x ∈ (pages limit cursor listings).flatten ∨ Beyond (reached limit cursor listings) x := by
  induction listings generalizing cursor with
  | nil => exact .inr hbeyond
  | cons listing rest ih =>
    rw [pages, List.flatten_cons, List.mem_append]
    rcases mem_page_or_beyond (h listing List.mem_cons_self) (hx listing List.mem_cons_self)
      hbeyond with hpage | hahead
    · exact .inl (.inl hpage)
    · rcases ih (fun l hl => h l (List.mem_cons_of_mem _ hl))
        (fun l hl => hx l (List.mem_cons_of_mem _ hl)) hahead with hlater | hstill
      · exact .inl (.inr hlater)
      · exact .inr hstill

/-- What lies ahead of a walk lay ahead when it began. -/
theorem beyond_of_reached {cursor : Option P} (h : Beyond (reached limit cursor listings) x) :
    Beyond cursor x := by
  induction listings generalizing cursor with
  | nil => exact h
  | cons listing rest ih => exact beyond_of_advance (ih h)

/-- What is on a page does not lie ahead of the walk. -/
theorem not_beyond_reached {cursor : Option P}
    (h : ∀ listing ∈ listings, listing.Pairwise (· < ·)) :
    ∀ y ∈ (pages limit cursor listings).flatten, ¬ Beyond (reached limit cursor listings) y := by
  induction listings generalizing cursor with
  | nil => exact fun _ hy => by cases hy
  | cons listing rest ih =>
    intro y hy hbeyond
    rw [pages, List.flatten_cons] at hy
    have hrest := fun l hl => h l (List.mem_cons_of_mem listing hl)
    rcases List.mem_append.mp hy with hpage | hlater
    · exact not_beyond_advance (h listing List.mem_cons_self) hpage (beyond_of_reached hbeyond)
    · exact ih hrest y hlater hbeyond

/-- A page has nothing on it but what its listing has. -/
theorem mem_listing_of_mem_pages {cursor : Option P}
    (h : x ∈ (pages limit cursor listings).flatten) : ∃ listing ∈ listings, x ∈ listing := by
  induction listings generalizing cursor with
  | nil => cases h
  | cons listing rest ih =>
    rw [pages, List.flatten_cons] at h
    rcases List.mem_append.mp h with hpage | hlater
    · exact ⟨listing, List.mem_cons_self, mem_listing_of_mem_page hpage⟩
    · obtain ⟨l, hl, hx⟩ := ih hlater
      exact ⟨l, List.mem_cons_of_mem _ hl, hx⟩

/-- Where no page is empty there are no more pages than positions on them. -/
theorem length_le_length_flatten {cursor : Option P}
    (h : ∀ p ∈ pages limit cursor listings, p ≠ []) :
    listings.length ≤ (pages limit cursor listings).flatten.length := by
  induction listings generalizing cursor with
  | nil => exact Nat.le_refl 0
  | cons listing rest ih =>
    have hrest := ih fun p hmem => h p (List.mem_cons_of_mem _ hmem)
    have hfirst := List.length_pos_iff.mpr (h _ List.mem_cons_self)
    rw [pages, List.flatten_cons, List.length_append, List.length_cons]
    omega

/-- **A walk ends.** Where no page is empty there are no more pages than there are
positions at all. -/
theorem length_le_card {cursor : Option P} {positions : Finset P}
    (h : ∀ listing ∈ listings, listing.Pairwise (· < ·))
    (hpositions : ∀ listing ∈ listings, ∀ y ∈ listing, y ∈ positions)
    (hpages : ∀ p ∈ pages limit cursor listings, p ≠ []) : listings.length ≤ positions.card := by
  have hnodup : (pages limit cursor listings).flatten.Nodup :=
    (pairwise_pages h).1.imp fun hlt => ne_of_lt hlt
  have hsub : (pages limit cursor listings).flatten.toFinset ⊆ positions := by
    intro y hy
    obtain ⟨listing, hlisting, hmem⟩ := mem_listing_of_mem_pages (List.mem_toFinset.mp hy)
    exact hpositions listing hlisting y hmem
  calc listings.length ≤ (pages limit cursor listings).flatten.length :=
        length_le_length_flatten hpages
    _ = (pages limit cursor listings).flatten.toFinset.card :=
        (List.toFinset_card_of_nodup hnodup).symm
    _ ≤ positions.card := Finset.card_le_card hsub

/-- A cursor the walk has come to was on a page of it. -/
theorem mem_of_reached {p : P} {cursor : Option P} (h : reached limit cursor listings = some p) :
    cursor = some p ∨ p ∈ (pages limit cursor listings).flatten := by
  induction listings generalizing cursor with
  | nil => exact .inl h
  | cons listing rest ih =>
    rw [pages, List.flatten_cons, List.mem_append]
    rcases ih h with hstart | hlater
    · cases hlast : (page limit cursor listing).getLast? with
      | none =>
        left
        simpa [advance, hlast] using hstart
      | some l =>
        obtain rfl : l = p := by simpa [advance, hlast] using hstart
        exact .inr (.inl (List.mem_of_getLast? hlast))
    · exact .inr (.inr hlater)

end walk

/-! ## Following cursors

A page that was cut off names where the next one begins, and a page that was not ends the
walk. -/

section follow

variable {limit : Nat} {cursor : Option P} {listing : List P} {listings : List (List P)} {x : P}

/-- Where the next page begins. -/
def next (limit : Nat) (cursor : Option P) (listing : List P) : Option P :=
  if limit < (remaining cursor listing).length then (page limit cursor listing).getLast? else none

/-- The walk goes on exactly where a page was cut off. -/
def Follows (limit : Nat) : Option P → List (List P) → Prop
  | _, [] => True
  | cursor, listing :: rest =>
    (next limit cursor listing = none → rest = []) ∧ Follows limit (next limit cursor listing) rest

theorem next_eq_none_iff_short (hlimit : 0 < limit) :
    next limit cursor listing = none ↔ ¬ limit < (remaining cursor listing).length := by
  unfold next
  split
  · next hlong =>
    have hpage := page_ne_nil hlimit hlong
    simp [hpage, hlong]
  · next hshort => simp [hshort]

/-- **No page follows exactly where nothing lies ahead.** -/
theorem next_eq_none_iff (hlimit : 0 < limit) (h : listing.Pairwise (· < ·)) :
    next limit cursor listing = none ↔
      ∀ x ∈ listing, ¬ Beyond (advance cursor (page limit cursor listing)) x := by
  rw [next_eq_none_iff_short hlimit, cut_off_iff hlimit h]
  simp only [not_exists, not_and]

/-- The next page begins where the walk has come to. -/
theorem next_eq_advance (hlimit : 0 < limit) (h : next limit cursor listing ≠ none) :
    next limit cursor listing = advance cursor (page limit cursor listing) := by
  have hlong : limit < (remaining cursor listing).length := by
    by_contra hshort
    exact h ((next_eq_none_iff_short hlimit).mpr hshort)
  unfold next at h ⊢
  rw [if_pos hlong] at h ⊢
  obtain ⟨last, hlast⟩ := Option.ne_none_iff_exists'.mp h
  rw [advance, hlast]
  rfl

/-- All pages but the last have something on them. -/
theorem Follows.dropLast_ne_nil (hlimit : 0 < limit) (h : Follows limit cursor listings) :
    ∀ p ∈ pages limit cursor listings.dropLast, p ≠ [] := by
  induction listings generalizing cursor with
  | nil => exact fun _ hp => by cases hp
  | cons listing rest ih =>
    obtain ⟨hend, hrest⟩ := h
    cases rest with
    | nil => exact fun _ hp => by cases hp
    | cons second rest =>
      have hnext : next limit cursor listing ≠ none := fun hnone => by cases hend hnone
      rw [next_eq_advance hlimit hnext] at hrest
      intro p hp
      rw [List.dropLast_cons_cons, pages] at hp
      rcases List.mem_cons.mp hp with rfl | hlater
      · intro hnil
        refine hnext ((next_eq_none_iff_short hlimit).mpr fun hlong => ?_)
        exact page_ne_nil hlimit hlong hnil
      · exact ih hrest p hlater

/-- **A walk ends**: it has at most one page more than there are positions at all. -/
theorem Follows.length_le_card {positions : Finset P} (hlimit : 0 < limit)
    (hwalk : Follows limit cursor listings) (h : ∀ listing ∈ listings, listing.Pairwise (· < ·))
    (hpositions : ∀ listing ∈ listings, ∀ y ∈ listing, y ∈ positions) :
    listings.length ≤ positions.card + 1 := by
  have hsub : ∀ listing ∈ listings.dropLast, listing ∈ listings :=
    fun _ hl => List.dropLast_subset _ hl
  have hlength := Paging.length_le_card (fun l hl => h l (hsub l hl))
    (fun l hl => hpositions l (hsub l hl)) (hwalk.dropLast_ne_nil hlimit)
  rw [List.length_dropLast] at hlength
  omega

/-- What lies ahead of a walk is what lies beyond all of its pages. -/
theorem beyond_reached_iff (h : ∀ listing ∈ listings, listing.Pairwise (· < ·)) :
    Beyond (reached limit none listings) x ↔
      ∀ y ∈ (pages limit none listings).flatten, y < x := by
  constructor
  · intro hbeyond y hy
    have hbehind := not_beyond_reached h y hy
    cases hreached : reached limit none listings with
    | none =>
      rw [hreached] at hbehind
      exact absurd (beyond_none y) hbehind
    | some p =>
      rw [hreached, beyond_some] at hbehind hbeyond
      exact lt_of_le_of_lt (not_lt.mp hbehind) hbeyond
  · intro hall p hp
    rcases mem_of_reached hp with hnone | hmem
    · cases hnone
    · exact hall p hmem

theorem pages_append (limit : Nat) (cursor : Option P) (before after : List (List P)) :
    pages limit cursor (before ++ after) =
      pages limit cursor before ++ pages limit (reached limit cursor before) after := by
  induction before generalizing cursor with
  | nil => rfl
  | cons listing rest ih => simp only [List.cons_append, pages, reached, ih]

theorem reached_append (limit : Nat) (cursor : Option P) (before after : List (List P)) :
    reached limit cursor (before ++ after) =
      reached limit (reached limit cursor before) after := by
  induction before generalizing cursor with
  | nil => rfl
  | cons listing rest ih => simp only [List.cons_append, reached, ih]

/-- **A walk that was followed to its end has missed nothing.** -/
theorem mem_pages_of_end {before : List (List P)} (hlimit : 0 < limit)
    (hend : next limit (reached limit none before) listing = none)
    (h : ∀ l ∈ before ++ [listing], l.Pairwise (· < ·)) (hx : ∀ l ∈ before ++ [listing], x ∈ l) :
    x ∈ (pages limit none (before ++ [listing])).flatten := by
  have hlast : listing ∈ before ++ [listing] := List.mem_append_right _ List.mem_cons_self
  rcases mem_pages_or_beyond h hx (beyond_none x) with hin | hahead
  · exact hin
  · rw [reached_append] at hahead
    exact absurd hahead ((next_eq_none_iff hlimit (h listing hlast)).mp hend x (hx listing hlast))

end follow

/-! ## Sorted listings -/

section sorted

/-- Comparing by one order and then by another is comparing by the two. -/
theorem then_ne_gt {α β : Type} [LinearOrder α] [LinearOrder β] (a b : α) (c d : β) :
    (((cmp a b).then (cmp c d)) != .gt) = decide (toLex (a, c) ≤ toLex (b, d)) := by
  rw [Bool.eq_iff_iff, decide_eq_true_iff, Prod.Lex.toLex_le_toLex]
  rcases lt_trichotomy a b with hlt | rfl | hgt
  · have hthen : (cmp a b).then (cmp c d) = .lt := by rw [(cmp_eq_lt_iff _ _).mpr hlt]; rfl
    rw [hthen]
    simp [hlt]
  · have hthen : (cmp a a).then (cmp c d) = cmp c d := by rw [(cmp_eq_eq_iff _ _).mpr rfl]; rfl
    rw [hthen]
    rcases lt_trichotomy c d with hlt | rfl | hgt
    · rw [(cmp_eq_lt_iff _ _).mpr hlt]
      simp [le_of_lt hlt]
    · rw [(cmp_eq_eq_iff _ _).mpr rfl]
      simp
    · rw [(cmp_eq_gt_iff _ _).mpr hgt]
      simp [not_le.mpr hgt]
  · have hthen : (cmp a b).then (cmp c d) = .gt := by rw [(cmp_eq_gt_iff _ _).mpr hgt]; rfl
    rw [hthen]
    simp [not_lt.mpr (le_of_lt hgt), ne_of_gt hgt]

/-- **What is sorted ascends**, where the sort goes by positions that differ. -/
theorem pairwise_mergeSort {α : Type} {position : α → P} {items : List α} {before : α → α → Bool}
    (hbefore : ∀ a ∈ items, ∀ b ∈ items, before a b = decide (position a ≤ position b))
    (hnodup : (items.map position).Nodup) :
    ((items.mergeSort before).map position).Pairwise (· < ·) := by
  have hmap : (items.mergeSort before).map position = (items.map position).mergeSort (· ≤ ·) :=
    List.map_mergeSort hbefore
  have hsorted := @List.pairwise_mergeSort P (fun a b => decide (a ≤ b))
    (fun a b c hab hbc => by
      simp only [decide_eq_true_eq] at hab hbc ⊢
      exact le_trans hab hbc)
    (fun a b => by simpa using le_total a b) (items.map position)
  have hne : ((items.map position).mergeSort fun a b => decide (a ≤ b)).Nodup :=
    (List.mergeSort_perm _ _).nodup_iff.mpr hnodup
  rw [hmap]
  refine (hsorted.and hne).imp fun h => ?_
  exact lt_of_le_of_ne (by simpa using h.1) h.2

/-- An ascending list is told by its members. -/
theorem eq_of_mem_iff {xs ys : List P} (hxs : xs.Pairwise (· < ·)) (hys : ys.Pairwise (· < ·))
    (h : ∀ x, x ∈ xs ↔ x ∈ ys) : xs = ys := by
  have hperm : xs.Perm ys := (List.perm_ext_iff_of_nodup (hxs.imp fun hlt => ne_of_lt hlt)
    (hys.imp fun hlt => ne_of_lt hlt)).mpr h
  exact hperm.eq_of_pairwise (fun a b _ _ hab hba => absurd hba (lt_asymm hab)) hxs hys

end sorted

/-! ## Listings of members -/

section members

variable {α : Type} {position : α → P}

/-- What follows a member is what lies beyond it. -/
theorem filter_beyond_of_split {items before after : List α} {member : α}
    (h : (items.map position).Pairwise (· < ·)) (hsplit : items = before ++ member :: after) :
    items.filter (fun item => position member < position item) = after := by
  subst hsplit
  rw [List.map_append, List.map_cons, List.pairwise_append, List.pairwise_cons] at h
  obtain ⟨-, ⟨hafter, -⟩, hbefore⟩ := h
  have hnone : before.filter (fun item => position member < position item) = [] := by
    rw [List.filter_eq_nil_iff]
    intro item hitem
    have hlt := hbefore _ (List.mem_map_of_mem hitem) _ List.mem_cons_self
    simpa using le_of_lt hlt
  have hall : after.filter (fun item => position member < position item) = after := by
    rw [List.filter_eq_self]
    intro item hitem
    simpa using hafter _ (List.mem_map_of_mem hitem)
  rw [List.filter_append, List.filter_cons, hnone, hall]
  simp

/-- The positions of a page of members are a page of positions. -/
theorem map_page (limit : Nat) (cursor : Option P) (items : List α) :
    ((items.filter fun item => Beyond cursor (position item)).take limit).map position =
      page limit cursor (items.map position) := by
  rw [page, remaining, List.map_take, List.filter_map]
  rfl

end members

/-! ## Cursors that name a member

The cursor is the name of a member, which is looked up in the listing it is used on. It
works as a position does where the member is still listed; where it is not, the page is
empty and the walk ends. -/

section names

variable {α I : Type} [DecidableEq I]

/-- What follows the member of this name, up to a limit; nothing where there is none. -/
def pageAfter (name : α → I) (items : List α) (after : Option I) (limit : Nat) : List α :=
  match after with
  | none => items.take limit
  | some after =>
    match items.findIdx? (fun item => decide (name item = after)) with
    | none => []
    | some i => (items.drop (i + 1)).take limit

/-- One page of a walk: what it was asked for after, the listing at that time, and the page. -/
structure Visit (α I : Type) where
  after : Option I
  items : List α
  page : List α

/-- Each page is asked for after the last member of the one before, until one is empty. -/
def Walk (name : α → I) (limit : Nat) : Option I → List (Visit α I) → Prop
  | _, [] => False
  | after, visit :: rest =>
    visit.after = after ∧ visit.page = pageAfter name visit.items visit.after limit ∧
      match visit.page.getLast? with
      | none => rest = []
      | some last => Walk name limit (some (name last)) rest

variable {name : α → I} {position : α → P} {nameOf : P → I} {limit : Nat}

/-- The listing of a visit as positions. -/
def Visit.listing (position : α → P) (visit : Visit α I) : List P := visit.items.map position

/-- A member of this name is listed. -/
def Visit.Lists (name : α → I) (visit : Visit α I) (after : I) : Prop :=
  ∃ item ∈ visit.items, name item = after

theorem mem_of_mem_pageAfter {items : List α} {after : Option I} {item : α}
    (h : item ∈ pageAfter name items after limit) : item ∈ items := by
  unfold pageAfter at h
  split at h
  · exact List.mem_of_mem_take h
  · split at h
    · cases h
    · exact List.mem_of_mem_drop (List.mem_of_mem_take h)

theorem pageAfter_eq_nil {items : List α} {after : I}
    (h : ¬ ∃ item ∈ items, name item = after) : pageAfter name items (some after) limit = [] := by
  have hnone : items.findIdx? (fun item => decide (name item = after)) = none := by
    rw [List.findIdx?_eq_none_iff]
    intro item hitem
    simpa using fun heq => h ⟨item, hitem, heq⟩
  simp only [pageAfter, hnone]

/-- Where the member is listed, the page after its name is the page after its position. -/
theorem map_pageAfter {items : List α} {after : Option I} {cursor : Option P}
    (h : (items.map position).Pairwise (· < ·)) (hafter : after = cursor.map nameOf)
    (hlisted : ∀ c ∈ after, ∃ item ∈ items, name item = c)
    (hplace : ∀ p ∈ cursor, ∀ item ∈ items, name item = nameOf p → position item = p) :
    (pageAfter name items after limit).map position = page limit cursor (items.map position) := by
  cases cursor with
  | none =>
    subst hafter
    rw [← map_page]
    simp [pageAfter]
  | some p =>
    subst hafter
    obtain ⟨item, hitem, hname⟩ := hlisted _ rfl
    cases hfound : items.findIdx? (fun item => decide (name item = nameOf p)) with
    | none =>
      rw [List.findIdx?_eq_none_iff] at hfound
      have hne := hfound item hitem
      simp [hname] at hne
    | some i =>
      obtain ⟨hlt, hmember, -⟩ := List.findIdx?_eq_some_iff_getElem.mp hfound
      have hposition : position items[i] = p :=
        hplace p rfl _ (List.getElem_mem hlt) (by simpa using hmember)
      have hsplit : items = items.take i ++ items[i] :: items.drop (i + 1) := by simp
      have hrest := filter_beyond_of_split h hsplit
      rw [hposition] at hrest
      rw [← map_page]
      simp only [pageAfter, Option.map_some, hfound, beyond_some, hrest]

/-- A member has one position, in whatever listings of the walk it is. -/
def Consistent (name : α → I) (position : α → P) (visits : List (Visit α I)) : Prop :=
  ∀ u ∈ visits, ∀ v ∈ visits, ∀ a ∈ u.items, ∀ b ∈ v.items, name a = name b →
    position a = position b

/-- **The shape of a walk.** All its pages but the last have something on them, and are
pages after positions; the last is asked for after the position they have come to, and is
empty. -/
theorem Walk.shape (hname : ∀ item, nameOf (position item) = name item) {after : Option I}
    {cursor : Option P} {visits : List (Visit α I)} (hwalk : Walk name limit after visits)
    (hafter : after = cursor.map nameOf)
    (hsorted : ∀ v ∈ visits, (v.listing position).Pairwise (· < ·))
    (hsame : Consistent name position visits)
    (hplace : ∀ p ∈ cursor, ∀ v ∈ visits, ∀ item ∈ v.items, name item = nameOf p →
      position item = p) :
    ∃ earlier last, visits = earlier ++ [last] ∧ last.page = [] ∧
      (∀ v ∈ earlier, ∀ c ∈ v.after, v.Lists name c) ∧
      earlier.map (fun v => v.page.map position) =
        pages limit cursor (earlier.map (Visit.listing position)) ∧
      last.after = (reached limit cursor (earlier.map (Visit.listing position))).map nameOf ∧
      last.page = pageAfter name last.items last.after limit := by
  induction visits generalizing after cursor with
  | nil => exact hwalk.elim
  | cons visit rest ih =>
    obtain ⟨hasked, hpage, hnext⟩ := hwalk
    cases hlast : visit.page.getLast? with
    | none =>
      simp only [hlast] at hnext
      subst hnext
      refine ⟨[], visit, rfl, List.getLast?_eq_none_iff.mp hlast, ?_, rfl, ?_, hpage⟩
      · exact fun _ hv => by cases hv
      · rw [hasked, hafter]
        rfl
    | some last =>
      simp only [hlast] at hnext
      have hmem : last ∈ visit.page := List.mem_of_getLast? hlast
      have hlisted : ∀ c ∈ visit.after, visit.Lists name c := by
        intro c hc
        by_contra hnot
        rw [hpage, Option.mem_def.mp hc, pageAfter_eq_nil hnot] at hmem
        cases hmem
      have hpositions : visit.page.map position = page limit cursor (visit.listing position) := by
        rw [hpage]
        refine map_pageAfter (hsorted visit List.mem_cons_self)
          (hasked.trans hafter) hlisted fun p hp item hitem heq => ?_
        exact hplace p hp visit List.mem_cons_self item hitem heq
      have hlastPosition : (page limit cursor (visit.listing position)).getLast? =
          some (position last) := by
        rw [← hpositions, List.getLast?_map, hlast]
        rfl
      have hcursor : advance cursor (page limit cursor (visit.listing position)) =
          some (position last) := by
        rw [advance, hlastPosition]
        rfl
      have hitem : last ∈ visit.items := by
        rw [hpage] at hmem
        exact mem_of_mem_pageAfter hmem
      have hsub : ∀ v ∈ rest, v ∈ visit :: rest := fun v hv => List.mem_cons_of_mem _ hv
      obtain ⟨earlier, final, hrest, hempty, hstand, hpages, hfinal, hfinalPage⟩ :=
        @ih _ (some (position last)) hnext (by rw [Option.map_some, hname])
          (fun v hv => hsorted v (hsub v hv))
          (fun u hu v hv => hsame u (hsub u hu) v (hsub v hv)) (by
            intro p hp v hv item hmemItem heq
            obtain rfl := Option.some.inj hp
            rw [hname] at heq
            exact hsame v (hsub v hv) visit List.mem_cons_self item hmemItem last hitem heq)
      refine ⟨visit :: earlier, final, ?_, hempty, ?_, ?_, ?_, hfinalPage⟩
      · rw [hrest]
        rfl
      · intro v hv
        rcases List.mem_cons.mp hv with rfl | hlater
        · exact hlisted
        · exact hstand v hlater
      · rw [List.map_cons, List.map_cons, pages, hcursor, hpositions, hpages]
      · rw [hfinal, List.map_cons, reached, hcursor]

/-- The position is in every listing of the walk. -/
def Throughout (position : α → P) (visits : List (Visit α I)) (x : P) : Prop :=
  ∀ v ∈ visits, x ∈ v.listing position

/-- What the walk returned. -/
def returned (position : α → P) (visits : List (Visit α I)) : List P :=
  visits.flatMap fun v => v.page.map position

/-- Whenever a page is asked for after a name, the member of that name is listed, or
nothing that is listed throughout lies beyond it. -/
def CursorsStand (name : α → I) (position : α → P) (visits : List (Visit α I)) : Prop :=
  ∀ v ∈ visits, ∀ c ∈ v.after, v.Lists name c ∨
    ∀ x, Throughout position visits x → ∀ u ∈ visits, ∀ item ∈ u.items, name item = c →
      ¬ position item < x

section walks

variable {visits : List (Visit α I)} (hname : ∀ item, nameOf (position item) = name item)
  (hwalk : Walk name limit none visits)
  (hsorted : ∀ v ∈ visits, (v.listing position).Pairwise (· < ·))
  (hsame : Consistent name position visits)

include hname hwalk hsorted hsame

/-- **What a walk returns ascends**, whatever becomes of the cursors. -/
theorem Walk.pairwise_returned : (returned position visits).Pairwise (· < ·) := by
  obtain ⟨earlier, last, rfl, hempty, -, hpages, -⟩ := hwalk.shape hname (Option.map_none nameOf).symm
    hsorted hsame (fun p hp => by cases hp)
  have hflat : returned position (earlier ++ [last]) =
      (pages limit none (earlier.map (Visit.listing position))).flatten := by
    rw [returned, List.flatMap_append, ← hpages]
    simp [hempty, List.flatMap_def]
  rw [hflat]
  refine (pairwise_pages ?_).1
  intro listing hlisting
  obtain ⟨v, hv, rfl⟩ := List.mem_map.mp hlisting
  exact hsorted v (List.mem_append_left _ hv)

/-- **A walk misses nothing exactly where its cursors stand.** -/
theorem Walk.complete_iff (hlimit : 0 < limit) :
    (∀ x, Throughout position visits x → x ∈ returned position visits) ↔
      CursorsStand name position visits := by
  obtain ⟨earlier, last, rfl, hempty, hstand, hpages, hasked, hpage⟩ :=
    hwalk.shape hname (Option.map_none nameOf).symm hsorted hsame (fun p hp => by cases hp)
  have hflat : returned position (earlier ++ [last]) =
      (pages limit none (earlier.map (Visit.listing position))).flatten := by
    rw [returned, List.flatMap_append, ← hpages]
    simp [hempty, List.flatMap_def]
  have hascending : ∀ listing ∈ earlier.map (Visit.listing position),
      listing.Pairwise (· < ·) := by
    intro listing hlisting
    obtain ⟨v, hv, rfl⟩ := List.mem_map.mp hlisting
    exact hsorted v (List.mem_append_left _ hv)
  have hlastMem : last ∈ earlier ++ [last] := List.mem_append_right _ List.mem_cons_self
  -- where the walk has come to is the position of a member
  have hplace : ∀ p, reached limit none (earlier.map (Visit.listing position)) = some p →
      ∃ u ∈ earlier ++ [last], ∃ item ∈ u.items, position item = p := by
    intro p hp
    rcases mem_of_reached hp with hnone | hmem
    · cases hnone
    · obtain ⟨listing, hlisting, hin⟩ := mem_listing_of_mem_pages hmem
      obtain ⟨u, hu, rfl⟩ := List.mem_map.mp hlisting
      obtain ⟨item, hitem, heq⟩ := List.mem_map.mp hin
      exact ⟨u, List.mem_append_left _ hu, item, hitem, heq⟩
  constructor
  · -- a cursor that does not stand is the last, and all it left behind was returned
    intro hcomplete v hv c hc
    rcases List.mem_append.mp hv with hearlier | hlast
    · exact .inl (hstand v hearlier c hc)
    obtain rfl := List.mem_singleton.mp hlast
    right
    intro x hx u hu item hitem hitemName hlt
    have hreturned := hcomplete x hx
    rw [hflat] at hreturned
    refine not_beyond_reached hascending x hreturned ?_
    intro p hp
    obtain ⟨u', hu', item', hitem', hposition⟩ := hplace p hp
    have hnames : name item' = name item := by
      rw [hasked, Option.mem_def.mp hp, Option.map_some, Option.mem_some_iff] at hc
      rw [← hname item', hposition, hc, hitemName]
    rw [← hposition, hsame u' hu' u hu item' hitem' item hitem hnames]
    exact hlt
  · intro hcursors x hx
    rw [hflat]
    have hinAll : ∀ listing ∈ earlier.map (Visit.listing position), x ∈ listing := by
      intro listing hlisting
      obtain ⟨v, hv, rfl⟩ := List.mem_map.mp hlisting
      exact hx v (List.mem_append_left _ hv)
    have hmet : x ∈ (pages limit none (earlier.map (Visit.listing position))).flatten ∨
        Beyond (reached limit none (earlier.map (Visit.listing position))) x :=
      mem_pages_or_beyond hascending hinAll (beyond_none x)
    rcases hmet with hin | hahead
    · exact hin
    exfalso
    -- it lies ahead of the last page, which is empty
    have hlistedOr : (∀ c ∈ last.after, last.Lists name c) := by
      intro c hc
      rcases hcursors last hlastMem c hc with hlists | hnothing
      · exact hlists
      · exfalso
        cases hreached : reached limit none (earlier.map (Visit.listing position)) with
        | none =>
          rw [hasked, hreached] at hc
          cases hc
        | some p =>
          obtain ⟨u, hu, item, hitem, hposition⟩ := hplace p hreached
          have hitemName : name item = c := by
            rw [hasked, hreached, Option.map_some, Option.mem_some_iff] at hc
            rw [← hname item, hposition, hc]
          refine hnothing x hx u hu item hitem hitemName ?_
          rw [hposition]
          exact hahead p hreached
    have hpositions : (pageAfter name last.items last.after limit).map position =
        page limit (reached limit none (earlier.map (Visit.listing position)))
          (last.items.map position) :=
      map_pageAfter (hsorted last hlastMem) hasked hlistedOr (by
        intro p hp item hitem heq
        obtain ⟨u, hu, item', hitem', hposition⟩ := hplace p hp
        rw [← hposition]
        refine hsame last hlastMem u hu item hitem item' hitem' ?_
        rw [heq, ← hname item', hposition])
    rw [← hpage, hempty, List.map_nil] at hpositions
    have hremaining : x ∈ remaining
        (reached limit none (earlier.map (Visit.listing position))) (last.listing position) :=
      mem_remaining.mpr ⟨hx last hlastMem, hahead⟩
    have hnil : remaining (reached limit none (earlier.map (Visit.listing position)))
        (last.items.map position) = [] := by
      have htake := hpositions.symm
      rw [page, List.take_eq_nil_iff] at htake
      rcases htake with hzero | hnil
      · omega
      · exact hnil
    rw [Visit.listing, hnil] at hremaining
    cases hremaining

end walks

end names

end Paging
