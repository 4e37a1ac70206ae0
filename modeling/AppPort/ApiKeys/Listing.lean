import AppPort.ApiKeys.Service
import AppPort.Lib.Paging
import AppPort.Runtime.Alone
import Mathlib.Data.Prod.Lex
import Mathlib.Data.String.Basic
import Mathlib.Order.Compare

/-!
# Listing keys and their audit

`listApiKeys` and `listApiKeyAuditEvents`: what is stored is filtered, sorted by time and
id, and paged after the id of the last record of the page before.

A walk takes page after page until one is empty, each in a world of its own; between two
pages keys are created, revoked, expire and are changed. The id of a key is looked up
among the keys that match at the time, so a walk goes on only while the key it stopped at
still matches. Events are never changed and never go, so a walk through them misses none.
-/

namespace AppPort

open Effects

variable {τ : Type}

def MAX_PAGE_SIZE : Nat := 500

def DEFAULT_AUDIT_PAGE_SIZE : Nat := 100

/-! ## Options -/

/-- What a listing asks for. -/
structure ListQuery where
  /-- `none` is `all`. -/
  status : Option ApiKeyStatus
  createdBy : Option String
  limit : Nat
  after : Option String
  deriving DecidableEq, Repr

/-- `status` of a listing; none is `all`. -/
def listStatus : JsValue → Except JsError (Option ApiKeyStatus)
  | .undefined | .null => .ok none
  | .str "all" => .ok none
  | .str "active" => .ok (some .active)
  | .str "expired" => .ok (some .expired)
  | .str "revoked" => .ok (some .revoked)
  | _ => .error (invalidRequest "status must be one of all, active, expired, revoked")

/-- `limit` of a listing; none is the largest. -/
def listLimit (value : JsValue) : Except JsError Nat :=
  let refusal : JsError := invalidRequest "limit must be an integer from 1 to 500"
  match value with
  | .undefined | .null => .ok MAX_PAGE_SIZE
  | .num n => if 1 ≤ n ∧ n ≤ MAX_PAGE_SIZE then .ok n.toNat else .error refusal
  | _ => .error refusal

/-- `createdBy` and `after` of a listing: a text that is not empty, if there is one. -/
def listText (name : String) : JsValue → Except JsError (Option String)
  | .undefined => .ok none
  | .str s =>
    if s = "" then .error (invalidRequest (name ++ " must be a non-empty string")) else .ok (some s)
  | _ => .error (invalidRequest (name ++ " must be a non-empty string"))

/-- `listQuery`. -/
def listQuery (options : JsValue) : Except JsError ListQuery :=
  match options with
  | .obj _ | .arr _ => do
    let status ← listStatus (options.prop "status")
    let limit ← listLimit (options.prop "limit")
    let createdBy ← listText "createdBy" (options.prop "createdBy")
    let after ← listText "after" (options.prop "after")
    pure { status, createdBy, limit, after }
  | _ => .error (invalidRequest "List options must be an object")

/-- `page`: what follows the item of an id in a sorted list, up to a limit. -/
def page {α : Type} (id : α → String) (items : List α) (after : Option String) (limit : Nat) :
    List α :=
  match after with
  | none => items.take limit
  | some after =>
    match items.findIdx? (fun item => decide (id item = after)) with
    | none => []
    | some i => (items.drop (i + 1)).take limit

theorem page_eq {α : Type} (id : α → String) (items : List α) (after : Option String)
    (limit : Nat) : page id items after limit = Paging.pageAfter id items after limit := by
  cases after with
  | none => rfl
  | some after =>
    unfold page Paging.pageAfter
    rfl

/-! ## Order -/

/-- When a record was made, and its id. -/
abbrev Place (τ : Type) := τ × String

def ApiKey.place (key : ApiKey τ) : Place τ := (key.createdAt, key.id)

def ApiKeyView.place (key : ApiKeyView τ) : Place τ := (key.createdAt, key.id)

def ApiKeyAuditEvent.place (event : ApiKeyAuditEvent τ) : Place τ := (event.timestamp, event.id)

section order

variable [Timestamp τ]

/-- `a.createdAt.localeCompare(b.createdAt) || a.id.localeCompare(b.id)` is not positive. -/
def listedBefore (node : KeyRuntime) (a b : Place τ) : Bool :=
  ((node.localeCompare (Timestamp.text a.1) (Timestamp.text b.1)).then
    (node.localeCompare a.2 b.2)) != .gt

/-- The texts of these times, and these ids, collate as they are ordered. -/
def Collated (node : KeyRuntime) (places : List (Place τ)) : Prop :=
  ∀ p ∈ places, ∀ q ∈ places,
    node.localeCompare (Timestamp.text p.1) (Timestamp.text q.1) = cmp p.1 q.1 ∧
      node.localeCompare p.2 q.2 = cmp p.2 q.2

instance (node : KeyRuntime) (places : List (Place τ)) : Decidable (Collated node places) :=
  inferInstanceAs (Decidable (∀ p ∈ places, ∀ q ∈ places, _ ∧ _))

theorem listedBefore_iff {node : KeyRuntime} {places : List (Place τ)} (h : Collated node places)
    {p q : Place τ} (hp : p ∈ places) (hq : q ∈ places) :
    listedBefore node p q = decide (toLex p ≤ toLex q) := by
  obtain ⟨htimes, hids⟩ := h p hp q hq
  rw [listedBefore, htimes, hids]
  exact Paging.then_ne_gt p.1 q.1 p.2 q.2

/-- What is sorted ascends, where the ids differ. -/
theorem pairwise_sorted {κ : Type} {node : KeyRuntime} {place : κ → Place τ} {items : List κ}
    (hcollated : Collated node (items.map place)) (hnodup : (items.map fun k => (place k).2).Nodup) :
    ((items.mergeSort fun a b => listedBefore node (place a) (place b)).map
      fun k => toLex (place k)).Pairwise (· < ·) := by
  have hdistinct : (items.map fun k => toLex (place k)).Nodup := by
    refine List.Nodup.of_map (fun p => (ofLex p).2) ?_
    rw [List.map_map]
    exact hnodup
  refine Paging.pairwise_mergeSort (fun a ha b hb => ?_) hdistinct
  exact listedBefore_iff hcollated (List.mem_map_of_mem ha) (List.mem_map_of_mem hb)

end order

/-! ## Walks -/

section walks

variable [Timestamp τ] {α κ : Type}

/-- A page of a walk: the id it was asked for after, the world it was read in, and what it
had. -/
structure PageTaken (τ α : Type) where
  after : Option String
  world : World τ
  page : List α

/-- Each page is asked for after the last id of the one before, until one is empty. No one
else acts while a page is made; between two pages the world is another. -/
def Walked (call : Option String → Svc τ (List α)) (place : α → Place τ) :
    Option String → List (PageTaken τ α) → Prop
  | _, [] => False
  | after, taken :: rest =>
    taken.after = after ∧
      (∃ w, Task.Settles (alone τ) (call taken.after) taken.world (.ok taken.page) w) ∧
      match taken.page.getLast? with
      | none => rest = []
      | some last => Walked call place (some (place last).2) rest

/-- What was there throughout was returned exactly once, and all of it in order. -/
structure Complete (place : α → Place τ) (throughout : String → Prop)
    (pages : List (PageTaken τ α)) : Prop where
  once : ∀ id, throughout id →
    ((pages.flatMap PageTaken.page).map fun a => (place a).2).count id = 1
  ordered : (pages.flatMap PageTaken.page).Pairwise fun a b => toLex (place a) < toLex (place b)

/-- Rows of a world, where each is made and what is shown of it. -/
structure Rows (τ α κ : Type) where
  rows : World τ → List κ
  place : κ → Place τ
  shown : World τ → κ → α

namespace Rows

variable (R : Rows τ α κ)

def name (row : κ) : String := (R.place row).2

def position (row : κ) : τ ×ₗ String := toLex (R.place row)

/-- A row of this id is there. -/
def Has (w : World τ) (id : String) : Prop := ∃ row ∈ R.rows w, R.name row = id

/-- Where both are there, the first row comes before the second. -/
def Before (w : World τ) (a b : String) : Prop :=
  ∃ row ∈ R.rows w, ∃ row' ∈ R.rows w, R.name row = a ∧ R.name row' = b ∧
    R.position row < R.position row'

/-- The rows ascend in each world, and an id is made at one time. -/
structure Standing (pages : List (PageTaken τ α)) : Prop where
  sorted : ∀ p ∈ pages, ((R.rows p.world).map R.position).Pairwise (· < ·)
  same : ∀ p ∈ pages, ∀ q ∈ pages, ∀ a ∈ R.rows p.world, ∀ b ∈ R.rows q.world,
    R.name a = R.name b → R.position a = R.position b

/-- The call answers with a page of the rows, as they are shown. -/
structure PagedBy (call : Option String → Svc τ (List α)) (place : α → Place τ) (limit : Nat) :
    Prop where
  place : ∀ w row, place (R.shown w row) = R.place row
  pages : ∀ after w page w', Task.Settles (alone τ) (call after) w (.ok page) w' →
    page = (Paging.pageAfter R.name (R.rows w) after limit).map (R.shown w)

/-- Whenever a page is asked for after an id, a row of that id is there, or nothing that is
there throughout came after it. -/
def CursorsStand (pages : List (PageTaken τ α)) : Prop :=
  ∀ p ∈ pages, ∀ c, p.after = some c → R.Has p.world c ∨
    ∀ id, (∀ q ∈ pages, R.Has q.world id) → ∀ q ∈ pages, ¬ R.Before q.world c id

/-- A page as a visit of its rows. -/
def visit (limit : Nat) (p : PageTaken τ α) : Paging.Visit κ String where
  after := p.after
  items := R.rows p.world
  page := Paging.pageAfter R.name (R.rows p.world) p.after limit

variable {R} {call : Option String → Svc τ (List α)} {place : α → Place τ} {limit : Nat}
  {pages : List (PageTaken τ α)}

theorem walk_of_walked (hcall : R.PagedBy call place limit) {after : Option String}
    (h : Walked call place after pages) :
    Paging.Walk R.name limit after (pages.map (R.visit limit)) := by
  induction pages generalizing after with
  | nil => exact h
  | cons taken rest ih =>
    obtain ⟨hasked, ⟨w, hsettles⟩, hnext⟩ := h
    have hpage := hcall.pages _ _ _ _ hsettles
    refine ⟨hasked, rfl, ?_⟩
    have hlast : taken.page.getLast? =
        (Paging.pageAfter R.name (R.rows taken.world) taken.after limit).getLast?.map
          (R.shown taken.world) := by
      rw [hpage, List.getLast?_map]
    show match (Paging.pageAfter R.name (R.rows taken.world) taken.after limit).getLast? with
      | none => rest.map (R.visit limit) = []
      | some last => Paging.Walk R.name limit (some (R.name last)) (rest.map (R.visit limit))
    cases hrow : (Paging.pageAfter R.name (R.rows taken.world) taken.after limit).getLast? with
    | none =>
      simp only [hlast, hrow, Option.map_none] at hnext
      rw [hnext]
      rfl
    | some last =>
      simp only [hlast, hrow, Option.map_some, hcall.place] at hnext
      exact ih hnext

omit [Timestamp τ] in
theorem position_inj {row row' : κ} (h : R.position row = R.position row') :
    R.place row = R.place row' := toLex.injective h

/-- An id that is there throughout is at one position throughout. -/
theorem throughout_iff (hstand : R.Standing pages) {row : κ}
    {p : PageTaken τ α} (hp : p ∈ pages) (hrow : row ∈ R.rows p.world) :
    (∀ q ∈ pages, R.Has q.world (R.name row)) ↔
      Paging.Throughout R.position (pages.map (R.visit limit)) (R.position row) := by
  constructor
  · intro hhas v hv
    obtain ⟨q, hq, rfl⟩ := List.mem_map.mp hv
    obtain ⟨row', hrow', hname⟩ := hhas q hq
    rw [← hstand.same q hq p hp row' hrow' row hrow hname]
    exact List.mem_map_of_mem hrow'
  · intro hthrough q hq
    obtain ⟨row', hrow', hposition⟩ := List.mem_map.mp (hthrough _ (List.mem_map_of_mem hq))
    refine ⟨row', hrow', ?_⟩
    rw [name, position_inj hposition]
    rfl

/-- What is returned, as positions of rows. -/
theorem returned_eq (hcall : R.PagedBy call place limit)
    (hpages : ∀ p ∈ pages, ∃ w, Task.Settles (alone τ) (call p.after) p.world (.ok p.page) w) :
    Paging.returned R.position (pages.map (R.visit limit)) =
      (pages.flatMap PageTaken.page).map fun a => toLex (place a) := by
  induction pages with
  | nil => rfl
  | cons taken rest ih =>
    have hrest := ih fun p hp => hpages p (List.mem_cons_of_mem _ hp)
    obtain ⟨w, hsettles⟩ := hpages taken List.mem_cons_self
    have hpage := hcall.pages _ _ _ _ hsettles
    have hfirst : taken.page.map (fun a => toLex (place a)) =
        (Paging.pageAfter R.name (R.rows taken.world) taken.after limit).map R.position := by
      rw [hpage, List.map_map]
      refine List.map_congr_left fun row _ => ?_
      simp only [Function.comp, hcall.place]
      rfl
    rw [List.flatMap_cons, List.map_append, hfirst, ← hrest]
    rfl

theorem settles_of_walked {after : Option String} (h : Walked call place after pages) :
    ∀ p ∈ pages, ∃ w, Task.Settles (alone τ) (call p.after) p.world (.ok p.page) w := by
  induction pages generalizing after with
  | nil => exact fun _ hp => by cases hp
  | cons taken rest ih =>
    obtain ⟨-, hsettles, hnext⟩ := h
    intro p hp
    rcases List.mem_cons.mp hp with rfl | hlater
    · exact hsettles
    · cases hlast : taken.page.getLast? with
      | none =>
        simp only [hlast] at hnext
        rw [hnext] at hlater
        cases hlater
      | some last =>
        simp only [hlast] at hnext
        exact ih hnext p hlater

/-- The id of a position. -/
def nameAt (position : τ ×ₗ String) : String := (ofLex position).2

omit [Timestamp τ] in
variable (R) in
theorem nameOf_position (row : κ) : nameAt (R.position row) = R.name row := rfl

theorem sorted_visits (hstand : R.Standing pages) :
    ∀ v ∈ pages.map (R.visit limit), (v.listing R.position).Pairwise (· < ·) := by
  intro v hv
  obtain ⟨p, hp, rfl⟩ := List.mem_map.mp hv
  exact hstand.sorted p hp

theorem consistent_visits (hstand : R.Standing pages) :
    Paging.Consistent R.name R.position (pages.map (R.visit limit)) := by
  intro u hu v hv a ha b hb hnames
  obtain ⟨p, hp, rfl⟩ := List.mem_map.mp hu
  obtain ⟨q, hq, rfl⟩ := List.mem_map.mp hv
  exact hstand.same p hp q hq a ha b hb hnames

theorem cursorsStand_iff (hstand : R.Standing pages) :
    Paging.CursorsStand R.name R.position (pages.map (R.visit limit)) ↔ R.CursorsStand pages := by
  constructor
  · intro h p hp c hc
    rcases h _ (List.mem_map_of_mem hp) c hc with hlists | hnothing
    · exact .inl hlists
    · right
      rintro id hthrough q hq ⟨row, hrow, row', hrow', hname, hname', hlt⟩
      have hthrough' : ∀ q ∈ pages, R.Has q.world (R.name row') := by
        rw [hname']
        exact hthrough
      exact hnothing (R.position row') ((throughout_iff hstand hq hrow').mp hthrough') _
        (List.mem_map_of_mem hq) row hrow hname hlt
  · intro h v hv c hc
    obtain ⟨p, hp, rfl⟩ := List.mem_map.mp hv
    rcases h p hp c hc with hhas | hnothing
    · exact .inl hhas
    · right
      intro x hthrough u hu row hrow hname hlt
      obtain ⟨q, hq, rfl⟩ := List.mem_map.mp hu
      obtain ⟨row', hrow', rfl⟩ := List.mem_map.mp (hthrough _ (List.mem_map_of_mem hq))
      exact hnothing (R.name row') ((throughout_iff hstand hq hrow').mpr hthrough) q hq
        ⟨row, hrow, row', hrow', hname, rfl, hlt⟩

/-- Where a row that is there stays, the cursors of a walk stand. -/
theorem cursorsStand_of_stay (hcall : R.PagedBy call place limit)
    (hstay : pages.Pairwise fun p q => ∀ id, R.Has p.world id → R.Has q.world id)
    {after : Option String} (hafter : ∀ c, after = some c → ∀ p ∈ pages, R.Has p.world c)
    (hwalk : Walked call place after pages) :
    ∀ p ∈ pages, ∀ c, p.after = some c → R.Has p.world c := by
  induction pages generalizing after with
  | nil => exact fun _ hp => by cases hp
  | cons taken rest ih =>
    obtain ⟨hasked, ⟨w, hsettles⟩, hnext⟩ := hwalk
    rw [List.pairwise_cons] at hstay
    intro p hp c hc
    rcases List.mem_cons.mp hp with rfl | hlater
    · exact hafter c (hasked.symm.trans hc) _ List.mem_cons_self
    · cases hlast : taken.page.getLast? with
      | none =>
        simp only [hlast] at hnext
        rw [hnext] at hlater
        cases hlater
      | some last =>
        simp only [hlast] at hnext
        refine ih hstay.2 ?_ hnext p hlater c hc
        intro c' hc' q hq
        obtain rfl := Option.some.inj hc'
        have hmem : last ∈ taken.page := List.mem_of_getLast? hlast
        rw [hcall.pages _ _ _ _ hsettles] at hmem
        obtain ⟨row, hrow, rfl⟩ := List.mem_map.mp hmem
        refine hstay.1 q hq _ ⟨row, Paging.mem_of_mem_pageAfter hrow, ?_⟩
        rw [hcall.place]
        rfl

/-- What was there throughout is returned once where it is returned at all. -/
theorem complete_iff_returned (hcall : R.PagedBy call place limit) (hstand : R.Standing pages)
    (hwalk : Walked call place none pages) :
    Complete place (fun id => ∀ p ∈ pages, R.Has p.world id) pages ↔
      ∀ x, Paging.Throughout R.position (pages.map (R.visit limit)) x →
        x ∈ Paging.returned R.position (pages.map (R.visit limit)) := by
  have hne : pages ≠ [] := by
    rintro rfl
    exact hwalk
  have hsettles := settles_of_walked hwalk
  have hreturned := returned_eq hcall hsettles
  have hwalk' := walk_of_walked hcall hwalk
  have hordered : (Paging.returned R.position (pages.map (R.visit limit))).Pairwise (· < ·) :=
    Paging.Walk.pairwise_returned (nameOf_position R) hwalk' (sorted_visits hstand)
      (consistent_visits hstand)
  rw [hreturned, List.pairwise_map] at hordered
  obtain ⟨first, rest, rfl⟩ := List.exists_cons_of_ne_nil hne
  constructor
  · intro hcomplete x hthrough
    have hfirst : first ∈ first :: rest := List.mem_cons_self
    obtain ⟨row, hrow, rfl⟩ := List.mem_map.mp (hthrough _ (List.mem_map_of_mem hfirst))
    have hcount := hcomplete.once (R.name row) ((throughout_iff hstand hfirst hrow).mpr hthrough)
    have hmem := List.count_pos_iff.mp (by rw [hcount]; exact Nat.one_pos)
    obtain ⟨a, ha, hname⟩ := List.mem_map.mp hmem
    rw [hreturned]
    obtain ⟨p, hp, hpage⟩ := List.mem_flatMap.mp ha
    obtain ⟨w, hw⟩ := hsettles p hp
    rw [hcall.pages _ _ _ _ hw] at hpage
    obtain ⟨row', hrow', rfl⟩ := List.mem_map.mp hpage
    rw [hcall.place] at hname
    have hsame := hstand.same p hp first hfirst row' (Paging.mem_of_mem_pageAfter hrow') row hrow hname
    refine List.mem_map.mpr ⟨R.shown p.world row', ha, ?_⟩
    rw [hcall.place]
    exact hsame
  · intro hall
    refine ⟨fun id hthrough => ?_, hordered⟩
    have hfirst : first ∈ first :: rest := List.mem_cons_self
    obtain ⟨row, hrow, rfl⟩ := hthrough first hfirst
    have hmem := hall _ ((throughout_iff hstand hfirst hrow).mp hthrough)
    rw [hreturned] at hmem
    obtain ⟨a, ha, hposition⟩ := List.mem_map.mp hmem
    refine List.count_eq_one_of_mem ?_ (List.mem_map.mpr ⟨a, ha, ?_⟩)
    · -- one id is at one place, and the places ascend
      rw [List.Nodup, List.pairwise_map]
      refine hordered.imp_of_mem fun {a b} ha hb hlt heq => ?_
      obtain ⟨p, hp, hpageA⟩ := List.mem_flatMap.mp ha
      obtain ⟨q, hq, hpageB⟩ := List.mem_flatMap.mp hb
      obtain ⟨w, hw⟩ := hsettles p hp
      obtain ⟨w', hw'⟩ := hsettles q hq
      rw [hcall.pages _ _ _ _ hw] at hpageA
      rw [hcall.pages _ _ _ _ hw'] at hpageB
      obtain ⟨rowA, hrowA, rfl⟩ := List.mem_map.mp hpageA
      obtain ⟨rowB, hrowB, rfl⟩ := List.mem_map.mp hpageB
      simp only [hcall.place] at hlt heq
      have hsame := hstand.same p hp q hq rowA (Paging.mem_of_mem_pageAfter hrowA) rowB
        (Paging.mem_of_mem_pageAfter hrowB) heq
      exact absurd hlt (not_lt.mpr (le_of_eq hsame.symm))
    · have hplace : place a = R.place row := toLex.injective hposition
      rw [hplace]
      rfl

/-- **A walk is complete exactly where its cursors stand.** -/
theorem complete_iff (hcall : R.PagedBy call place limit) (hlimit : 0 < limit)
    (hstand : R.Standing pages) (hwalk : Walked call place none pages) :
    Complete place (fun id => ∀ p ∈ pages, R.Has p.world id) pages ↔ R.CursorsStand pages := by
  rw [complete_iff_returned hcall hstand hwalk, ← @cursorsStand_iff _ _ _ _ _ limit _ hstand]
  exact Paging.Walk.complete_iff (nameOf_position R) (walk_of_walked hcall hwalk)
    (sorted_visits hstand) (consistent_visits hstand) hlimit

end Rows

end walks

/-! ## The listings -/

namespace ApiKeyService

variable (service : ApiKeyService)

section listings

variable [Timestamp τ]

/-- The key is of this application, and matches the filter. -/
def selects (query : ListQuery) (now : τ) (key : ApiKey τ) : Bool :=
  key.applicationId == some service.applicationId &&
    (query.status.all fun status => keyStatus key now == status) &&
    query.createdBy.all fun createdBy => key.createdBy == createdBy

/-- `listApiKeys`; without options, every record of the tenant. -/
def listApiKeys (tenantId : String) (options : JsValue) : Svc τ (List (ApiKeyView τ)) := do
  let items : List (ApiKey τ) ← (ApiKeyOp.listKeys tenantId).perform
  let t ← now
  match options with
  | .undefined => pure (items.map fun key => toView key t)
  | options => do
    let query ← check (listQuery options)
    let matching := (items.filter (service.selects query t)).mergeSort fun a b =>
      listedBefore service.node a.place b.place
    pure ((page ApiKey.id matching query.after query.limit).map fun key => toView key t)

structure ApiKeyAuditQuery where
  tenantId : Option String := none
  credentialId : JsValue := .undefined
  limit : JsValue := .undefined
  after : JsValue := .undefined

/-- `toAuditView`. -/
def toAuditView (event : ApiKeyAuditEvent τ) : ApiKeyAuditEvent τ :=
  { event with relatedCredentialId := keepPresent event.relatedCredentialId }

/-- The key an audit is asked about, if it is about one. -/
def auditedKey : JsValue → Except JsError (Option String)
  | .undefined => .ok none
  | value => (requiredId value).map some

/-- The options of an audit as those of a listing: `limit ?? 100`, and `after`. -/
def auditOptions (query : ApiKeyAuditQuery) : JsValue :=
  let limit := match query.limit with
    | .undefined | .null => .num DEFAULT_AUDIT_PAGE_SIZE
    | limit => limit
  .obj [("limit", limit), ("after", query.after)]

/-- The event is about one of these keys of the tenant, and about the key that is asked
for. -/
def reports (tenantId : String) (keys : List (ApiKey τ)) (credentialId : Option String)
    (event : ApiKeyAuditEvent τ) : Bool :=
  event.tenantId == tenantId &&
    keys.any (fun key => service.owns key tenantId false && key.id == event.credentialId) &&
    credentialId.all fun id => event.credentialId == id

/-- What is read for an audit, and its page. The sink is one that can be read. -/
def auditPage (tenantId : String) (credentialId : Option String) (query : ListQuery) :
    Svc τ (List (ApiKeyAuditEvent τ)) := do
  let keys : List (ApiKey τ) ← (ApiKeyOp.listKeys tenantId).perform
  let stored : List (ApiKeyAuditEvent τ) ← (AuthorityOp.listKeyAudit tenantId).perform
  let events := (stored.filter (service.reports tenantId keys credentialId)).mergeSort fun a b =>
    listedBefore service.node a.place b.place
  pure ((page ApiKeyAuditEvent.id events query.after query.limit).map toAuditView)

/-- `listApiKeyAuditEvents`. -/
def listApiKeyAuditEvents (query : ApiKeyAuditQuery) (caller : PrincipalInput) :
    Svc τ (List (ApiKeyAuditEvent τ)) := do
  let principal ← requireVerifiedPrincipal caller
  let tenantId ← check (resolveTenant query.tenantId principal)
  let credentialId ← check (auditedKey query.credentialId)
  let listing ← check (listQuery (auditOptions query))
  let gateway ← check service.gateway
  gateway.execute "apikeys.audit" (.of principal)
    { type := "api_key", tenantId, id := credentialId } { service := "api-keys" }
    fun _ _ => service.auditPage tenantId credentialId listing

end listings

/-! ### Options of a walk -/

/-- `{ ...options, after }`. -/
def askAfter (options : List (String × JsValue)) : Option String → JsValue
  | none => .obj options
  | some after => .obj (("after", .str after) :: options)

theorem listQuery_eq_ok {options : List (String × JsValue)} {query : ListQuery} :
    listQuery (.obj options) = .ok query ↔
      listStatus ((JsValue.obj options).prop "status") = .ok query.status ∧
      listLimit ((JsValue.obj options).prop "limit") = .ok query.limit ∧
      listText "createdBy" ((JsValue.obj options).prop "createdBy") = .ok query.createdBy ∧
      listText "after" ((JsValue.obj options).prop "after") = .ok query.after := by
  constructor
  · intro h
    obtain ⟨status, hstatus, h⟩ := bind_eq_ok h
    obtain ⟨limit, hlimit, h⟩ := bind_eq_ok h
    obtain ⟨createdBy, hcreatedBy, h⟩ := bind_eq_ok h
    obtain ⟨after, hafter, h⟩ := bind_eq_ok h
    obtain rfl := Except.ok.inj h
    exact ⟨hstatus, hlimit, hcreatedBy, hafter⟩
  · rintro ⟨hstatus, hlimit, hcreatedBy, hafter⟩
    simp only [listQuery, hstatus, hlimit, hcreatedBy, hafter]
    rfl

/-- A limit that is accepted is positive. -/
theorem listLimit_pos {value : JsValue} {limit : Nat} (h : listLimit value = .ok limit) :
    0 < limit := by
  unfold listLimit at h
  split at h
  · obtain rfl := Except.ok.inj h
    decide
  · obtain rfl := Except.ok.inj h
    decide
  · split at h
    · obtain rfl := Except.ok.inj h
      omega
    · cases h
  · cases h

/-- The options of a later page ask for the same, after an id. -/
theorem listQuery_askAfter {options : List (String × JsValue)} {query query' : ListQuery}
    (hquery : listQuery (.obj options) = .ok query) (hfirst : query.after = none)
    {after : Option String} (h : listQuery (askAfter options after) = .ok query') :
    query' = { query with after } := by
  cases after with
  | none =>
    rw [askAfter, hquery] at h
    obtain rfl := Except.ok.inj h
    rw [← hfirst]
  | some after =>
    obtain ⟨hstatus, hlimit, hcreatedBy, -⟩ := listQuery_eq_ok.mp hquery
    obtain ⟨hstatus', hlimit', hcreatedBy', hafter'⟩ := listQuery_eq_ok.mp h
    have hother : ∀ name, name ≠ "after" →
        (JsValue.obj (("after", .str after) :: options)).prop name = (JsValue.obj options).prop name := by
      intro name hname
      simp [JsValue.prop, List.lookup_cons, beq_eq_false_iff_ne.mpr hname]
    rw [hother "status" (by decide), hstatus] at hstatus'
    rw [hother "limit" (by decide), hlimit] at hlimit'
    rw [hother "createdBy" (by decide), hcreatedBy] at hcreatedBy'
    have hafter : query'.after = some after := by
      simp only [JsValue.prop, List.lookup_cons_self, Option.getD_some, listText] at hafter'
      split at hafter'
      · cases hafter'
      · exact (Except.ok.inj hafter').symm
    cases query'
    cases query
    simp_all

/-! ### Walks through the keys -/

section keys

variable [Timestamp τ]

/-- The keys that match, in order, as they are shown. -/
def keyRows (tenantId : String) (query : ListQuery) : Rows τ (ApiKeyView τ) (ApiKey τ) where
  rows w := ((w.apiKeys.keys.find fun key => key.tenantId == tenantId).filter
    (service.selects query w.clock)).mergeSort fun a b => listedBefore service.node a.place b.place
  place := ApiKey.place
  shown w key := toView key w.clock

theorem ensures_listApiKeys (tenantId : String) {options : JsValue} (hoptions : options ≠ .undefined)
    (w : World τ) :
    (service.listApiKeys tenantId options).Ensures (alone τ) w (fun r _ => ∀ taken, r = .ok taken →
      ∃ query, listQuery options = .ok query ∧
        taken = (page ApiKey.id ((service.keyRows tenantId query).rows w) query.after query.limit).map
          ((service.keyRows tenantId query).shown w)) := by
  unfold listApiKeys
  have hlist : ∀ choice, AppOp.exec (.apiKeys (.listKeys tenantId)) choice w =
      stored choice w (.ok (w.apiKeys.keys.find fun key => key.tenantId == tenantId), w) :=
    fun _ => rfl
  refine Task.Ensures.bind (ensures_alone_stored _ hlist) ?_ (fun e _ _ taken h => by cases h)
  rintro items w₁ ⟨rfl, hitems⟩
  obtain rfl := hitems items rfl
  refine Task.Ensures.bind (ensures_alone_now w₁) ?_ (fun e _ _ taken h => by cases h)
  rintro t w₂ ⟨rfl, ht⟩
  obtain rfl := ht t rfl
  split
  · exact absurd rfl hoptions
  · refine Task.Ensures.bind (Task.ensures_ofExcept _ w₂) ?_ (fun e _ _ taken h => by cases h)
    rintro query w₃ ⟨hquery, rfl⟩ taken htaken
    obtain rfl := Except.ok.inj htaken
    exact ⟨query, hquery.symm, rfl⟩

/-- A later page is a page of the keys that match. -/
theorem listApiKeys_paged {tenantId : String} {options : List (String × JsValue)}
    {query : ListQuery} (hquery : listQuery (.obj options) = .ok query)
    (hfirst : query.after = none) :
    (service.keyRows (τ := τ) tenantId query).PagedBy
      (fun after => service.listApiKeys tenantId (askAfter options after)) ApiKeyView.place
      query.limit where
  place := fun _ _ => rfl
  pages := by
    intro after w taken w' hsettles
    have hoptions : askAfter options after ≠ .undefined := by
      cases after <;> exact fun h => by cases h
    obtain ⟨query', hquery', rfl⟩ :=
      (service.ensures_listApiKeys tenantId hoptions w).settles hsettles taken rfl
    obtain rfl := listQuery_askAfter hquery hfirst hquery'
    rw [page_eq]
    rfl

/-- A key of this id is stored, and matches. -/
def KeyMatches (tenantId : String) (query : ListQuery) (w : World τ) (id : String) : Prop :=
  ∃ key, w.apiKeys.keys.get id = some key ∧ key.tenantId = tenantId ∧
    service.selects query w.clock key = true

/-- Each key is stored once, under its id. -/
structure KeysNamed (w : World τ) : Prop where
  nodup : w.apiKeys.keys.keys.Nodup
  named : ∀ id key, w.apiKeys.keys.get id = some key → key.id = id

/-- Keys are created, revoked, expire and are changed; none goes, and none changes its
tenant, its application or the time it was created at. -/
def KeysStand (w w' : World τ) : Prop :=
  ∀ id key, w.apiKeys.keys.get id = some key → ∃ key', w'.apiKeys.keys.get id = some key' ∧
    key'.tenantId = key.tenantId ∧ key'.applicationId = key.applicationId ∧
    key'.createdAt = key.createdAt

/-- The first key was created before the second. -/
def CreatedBefore (w : World τ) (a b : String) : Prop :=
  ∃ key key', w.apiKeys.keys.get a = some key ∧ w.apiKeys.keys.get b = some key' ∧
    toLex key.place < toLex key'.place

/-- What happens to the keys of a tenant while a walk goes on. -/
structure KeysBetween (tenantId : String) {α : Type} (pages : List (PageTaken τ α)) : Prop where
  named : ∀ p ∈ pages, KeysNamed p.world
  stand : pages.Pairwise fun p q => KeysStand p.world q.world
  collated : ∀ p ∈ pages, Collated service.node
    ((p.world.apiKeys.keys.find fun key => key.tenantId == tenantId).map ApiKey.place)

variable {service} {tenantId : String} {query : ListQuery}

omit [Timestamp τ] in
theorem KeysNamed.get_id {w : World τ} (h : KeysNamed w) {id : String} {key : ApiKey τ}
    (hkey : w.apiKeys.keys.get id = some key) : w.apiKeys.keys.get key.id = some key := by
  rw [h.named id key hkey, hkey]

theorem mem_keyRows {w : World τ} {key : ApiKey τ} :
    key ∈ (service.keyRows tenantId query).rows w ↔ (∃ id, w.apiKeys.keys.get id = some key) ∧
      key.tenantId = tenantId ∧ service.selects query w.clock key = true := by
  simp only [keyRows, List.mem_mergeSort, List.mem_filter, Table.mem_find, beq_iff_eq, and_assoc]

theorem keyRows_has {w : World τ} (h : KeysNamed w) {id : String} :
    (service.keyRows tenantId query).Has w id ↔ service.KeyMatches tenantId query w id := by
  constructor
  · rintro ⟨key, hkey, rfl⟩
    obtain ⟨⟨id, hget⟩, htenant, hselects⟩ := mem_keyRows.mp hkey
    exact ⟨key, h.get_id hget, htenant, hselects⟩
  · rintro ⟨key, hget, htenant, hselects⟩
    exact ⟨key, mem_keyRows.mpr ⟨⟨id, hget⟩, htenant, hselects⟩, h.named id key hget⟩

theorem keyRows_before {w : World τ} (h : KeysNamed w) {a b : String} :
    (service.keyRows tenantId query).Before w a b ↔ service.KeyMatches tenantId query w a ∧
      service.KeyMatches tenantId query w b ∧ CreatedBefore w a b := by
  constructor
  · rintro ⟨key, hkey, key', hkey', rfl, rfl, hlt⟩
    refine ⟨(keyRows_has h).mp ⟨key, hkey, rfl⟩, (keyRows_has h).mp ⟨key', hkey', rfl⟩, ?_⟩
    obtain ⟨⟨id, hget⟩, -⟩ := mem_keyRows.mp hkey
    obtain ⟨⟨id', hget'⟩, -⟩ := mem_keyRows.mp hkey'
    exact ⟨key, key', h.get_id hget, h.get_id hget', hlt⟩
  · rintro ⟨ha, hb, key, key', hget, hget', hlt⟩
    obtain ⟨row, hrow, hname⟩ := (keyRows_has h).mpr ha
    obtain ⟨row', hrow', hname'⟩ := (keyRows_has h).mpr hb
    obtain ⟨⟨id, hid⟩, -⟩ := mem_keyRows.mp hrow
    obtain ⟨⟨id', hid'⟩, -⟩ := mem_keyRows.mp hrow'
    have hrowEq : row = key := by
      have hget₁ := h.get_id hid
      rw [show row.id = a from hname, hget] at hget₁
      exact (Option.some.inj hget₁).symm
    have hrowEq' : row' = key' := by
      have hget₂ := h.get_id hid'
      rw [show row'.id = b from hname', hget'] at hget₂
      exact (Option.some.inj hget₂).symm
    subst hrowEq hrowEq'
    exact ⟨row, hrow, row', hrow', hname, hname', hlt⟩

/-- What is stored of a key in two worlds of a walk is made at one time. -/
theorem KeysBetween.same {α : Type} {pages : List (PageTaken τ α)}
    (h : service.KeysBetween tenantId pages) : ∀ p ∈ pages, ∀ q ∈ pages, ∀ id key key',
      p.world.apiKeys.keys.get id = some key → q.world.apiKeys.keys.get id = some key' →
      key.place = key'.place := by
  have hplaces : ∀ p ∈ pages, ∀ q ∈ pages, KeysNamed p.world → KeysNamed q.world →
      ∀ id key key', p.world.apiKeys.keys.get id = some key →
      q.world.apiKeys.keys.get id = some key' → key.createdAt = key'.createdAt →
      key.place = key'.place := by
    intro p _ q _ hp hq id key key' hget hget' hcreated
    rw [ApiKey.place, ApiKey.place, hcreated, hp.named id key hget, hq.named id key' hget']
  have hstand : pages.Pairwise fun p q : PageTaken τ α => ∀ id key key',
      p.world.apiKeys.keys.get id = some key → q.world.apiKeys.keys.get id = some key' →
      key.place = key'.place := by
    refine h.stand.imp_of_mem fun {p q} hp hq hstand id key key' hget hget' => ?_
    obtain ⟨later, hlater, -, -, hcreated⟩ := hstand id key hget
    rw [hget'] at hlater
    obtain rfl := Option.some.inj hlater
    exact hplaces p hp q hq (h.named p hp) (h.named q hq) id key key' hget hget' hcreated.symm
  intro p hp q hq
  refine List.Pairwise.forall_of_forall_of_flip ?_ hstand ?_ hp hq
  · intro p _ id key key' hget hget'
    rw [hget] at hget'
    rw [Option.some.inj hget']
  · exact hstand.imp fun hpq id key key' hget hget' => (hpq id key' key hget' hget).symm

theorem KeysBetween.standing {pages : List (PageTaken τ (ApiKeyView τ))}
    (h : service.KeysBetween tenantId pages) :
    (service.keyRows tenantId query).Standing pages where
  sorted := by
    intro p hp
    refine pairwise_sorted ?_ ?_
    · intro a ha b hb
      obtain ⟨key, hkey, rfl⟩ := List.mem_map.mp ha
      obtain ⟨key', hkey', rfl⟩ := List.mem_map.mp hb
      exact h.collated p hp _ (List.mem_map_of_mem (List.mem_of_mem_filter hkey)) _
        (List.mem_map_of_mem (List.mem_of_mem_filter hkey'))
    · refine List.Nodup.sublist (List.Sublist.map _ List.filter_sublist) ?_
      refine Table.nodup_find_map (h.named p hp).nodup fun k k' a a' hk hk' _ _ hid => ?_
      rw [← (h.named p hp).named k a hk, ← (h.named p hp).named k' a' hk']
      exact hid
  same := by
    intro p hp q hq a ha b hb hname
    obtain ⟨⟨id, hid⟩, -⟩ := mem_keyRows.mp ha
    obtain ⟨⟨id', hid'⟩, -⟩ := mem_keyRows.mp hb
    have hget := (h.named p hp).get_id hid
    have hget' := (h.named q hq).get_id hid'
    rw [show b.id = a.id from hname.symm] at hget'
    exact congrArg toLex (h.same p hp q hq _ _ _ hget hget')

/-- Whenever a page is asked for after a key, that key matches, or no key that matches
throughout was created after it. -/
def CursorsMatch (service : ApiKeyService) (tenantId : String) (query : ListQuery) {α : Type}
    (pages : List (PageTaken τ α)) : Prop :=
  ∀ p ∈ pages, ∀ c, p.after = some c → service.KeyMatches tenantId query p.world c ∨
    ∀ id, (∀ q ∈ pages, service.KeyMatches tenantId query q.world id) →
      ∀ q ∈ pages, service.KeyMatches tenantId query q.world c → ¬ CreatedBefore q.world c id

/-- A walk through the keys misses none exactly where its cursors match. -/
theorem listApiKeys_complete_iff {options : List (String × JsValue)}
    (hquery : listQuery (.obj options) = .ok query) (hfirst : query.after = none)
    {pages : List (PageTaken τ (ApiKeyView τ))} (hkeys : service.KeysBetween tenantId pages)
    (hwalk : Walked (fun after => service.listApiKeys tenantId (askAfter options after))
      ApiKeyView.place none pages) :
    Complete ApiKeyView.place (fun id => ∀ p ∈ pages, service.KeyMatches tenantId query p.world id)
      pages ↔ service.CursorsMatch tenantId query pages := by
  have hiff := Rows.complete_iff (service.listApiKeys_paged hquery hfirst)
    (listLimit_pos (listQuery_eq_ok.mp hquery).2.1) hkeys.standing hwalk
  have hhas : ∀ id, (∀ p ∈ pages, (service.keyRows tenantId query).Has p.world id) ↔
      ∀ p ∈ pages, service.KeyMatches tenantId query p.world id := fun id =>
    forall₂_congr fun p hp => keyRows_has (hkeys.named p hp)
  have hcursors : (service.keyRows tenantId query).CursorsStand pages ↔
      service.CursorsMatch tenantId query pages := by
    unfold Rows.CursorsStand CursorsMatch
    refine forall₂_congr fun p hp => forall₂_congr fun c hc => ?_
    rw [keyRows_has (hkeys.named p hp)]
    refine or_congr_right (forall_congr' fun id => ?_)
    rw [hhas id]
    constructor
    · intro hnot hid q hq hmatch hbefore
      exact hnot hid q hq ((keyRows_before (hkeys.named q hq)).mpr ⟨hmatch, hid q hq, hbefore⟩)
    · intro hnot hid q hq hbefore
      obtain ⟨hmatch, -, hcreated⟩ := (keyRows_before (hkeys.named q hq)).mp hbefore
      exact hnot hid q hq hmatch hcreated
  rw [← hcursors, ← hiff]
  simp only [hhas]

end keys

/-! ### Walks through the audit -/

section audits

variable [Timestamp τ]

/-- The events that are reported, in order, as they are shown. -/
def auditRows (tenantId : String) (credentialId : Option String) :
    Rows τ (ApiKeyAuditEvent τ) (ApiKeyAuditEvent τ) where
  rows w := ((w.apiKeyAudit.reverse.filter fun event => event.tenantId == tenantId).filter
    (service.reports tenantId (w.apiKeys.keys.find fun key => key.tenantId == tenantId)
      credentialId)).mergeSort fun a b => listedBefore service.node a.place b.place
  place := ApiKeyAuditEvent.place
  shown _ event := toAuditView event

/-- The tenant of a caller. -/
def callerTenant : PrincipalInput → String
  | .object p _ => p.tenantId
  | _ => ""

theorem ensures_auditPage {w₀ w : World τ} (hsame : SameStores w₀ w) (tenantId : String)
    (credentialId : Option String) (query : ListQuery) :
    (service.auditPage tenantId credentialId query).Ensures (alone τ) w (fun r w' =>
      SameStores w₀ w' ∧ ∀ taken, r = .ok taken →
        taken = (page ApiKeyAuditEvent.id ((service.auditRows tenantId credentialId).rows w₀)
          query.after query.limit).map toAuditView) := by
  unfold auditPage
  have hkeys : ∀ choice, AppOp.exec (.apiKeys (.listKeys tenantId)) choice w =
      stored choice w (.ok (w.apiKeys.keys.find fun key => key.tenantId == tenantId), w) :=
    fun _ => rfl
  refine Task.Ensures.bind (ensures_alone_stored _ hkeys) ?_ ?_
  · rintro keys w₁ ⟨rfl, hread⟩
    obtain rfl := hread keys rfl
    have hevents : ∀ choice, AppOp.exec (.authority (.listKeyAudit tenantId)) choice w₁ =
        stored choice w₁
          (.ok (w₁.apiKeyAudit.reverse.filter fun event => event.tenantId == tenantId), w₁) :=
      fun _ => rfl
    refine Task.Ensures.bind (ensures_alone_stored _ hevents) ?_ ?_
    · rintro events w₂ ⟨rfl, hread'⟩
      obtain rfl := hread' events rfl
      refine ⟨hsame, fun taken htaken => ?_⟩
      obtain rfl := Except.ok.inj htaken
      simp only [auditRows, hsame.apiKeys, hsame.apiKeyAudit]
    · rintro e w₂ ⟨rfl, -⟩
      exact kept_error hsame e
  · rintro e w₁ ⟨rfl, -⟩
    exact kept_error hsame e

theorem ensures_listApiKeyAuditEvents (query : ApiKeyAuditQuery) (caller : PrincipalInput)
    (w : World τ) :
    (service.listApiKeyAuditEvents query caller).Ensures (alone τ) w (fun r _ =>
      ∀ taken, r = .ok taken → ∃ credentialId listing,
        auditedKey query.credentialId = .ok credentialId ∧
        listQuery (auditOptions query) = .ok listing ∧
        taken = (page ApiKeyAuditEvent.id
          ((service.auditRows (callerTenant caller) credentialId).rows w) listing.after
            listing.limit).map toAuditView) := by
  unfold listApiKeyAuditEvents
  have hkept := sameStores_kept w
  have hprincipal := (hkept.ensures (uses_requireVerifiedPrincipal caller) (SameStores.refl w)).yields
    (yields_requireVerifiedPrincipal caller)
  refine Task.Ensures.bind hprincipal ?_ (fun e _ _ taken h => by cases h)
  rintro principal w₁ ⟨hsame, hobject⟩
  have hobject := hobject principal rfl
  refine Task.Ensures.bind (Task.ensures_ofExcept _ w₁) ?_ (fun e _ _ taken h => by cases h)
  rintro tenantId w₂ ⟨htenant, rfl⟩
  obtain ⟨rfl, -⟩ := resolveTenant_eq_ok.mp htenant.symm
  refine Task.Ensures.bind (Task.ensures_ofExcept _ w₂) ?_ (fun e _ _ taken h => by cases h)
  rintro credentialId w₃ ⟨hcredential, rfl⟩
  refine Task.Ensures.bind (Task.ensures_ofExcept _ w₃) ?_ (fun e _ _ taken h => by cases h)
  rintro listing w₄ ⟨hlisting, rfl⟩
  refine Task.Ensures.bind (Task.ensures_ofExcept _ w₄) ?_ (fun e _ _ taken h => by cases h)
  rintro gateway w₅ ⟨-, rfl⟩
  refine Task.Ensures.mono ?_ (ensures_execute_keeping hkept.gateway
    (fun _ _ w₆ hsame₆ => service.ensures_auditPage hsame₆ principal.tenantId credentialId listing)
    hsame)
  rintro r w₆ ⟨-, htaken⟩ taken rfl
  refine ⟨credentialId, listing, hcredential.symm, hlisting.symm, ?_⟩
  rw [htaken taken rfl]
  obtain ⟨hasScopes, rfl⟩ := hobject
  rfl

/-- The query of a page: the first as it is, a later one after an id. -/
def auditAfter (query : ApiKeyAuditQuery) : Option String → ApiKeyAuditQuery
  | none => query
  | some after => { query with after := .str after }

theorem auditOptions_after (query : ApiKeyAuditQuery) (after : String) :
    listQuery (auditOptions (auditAfter query (some after))) =
      listQuery (.obj [("limit", (auditOptions query).prop "limit"), ("after", .str after)]) := rfl

theorem listQuery_auditAfter {query : ApiKeyAuditQuery} {listing listing' : ListQuery}
    (hlisting : listQuery (auditOptions query) = .ok listing) (hfirst : listing.after = none)
    {after : Option String}
    (h : listQuery (auditOptions (auditAfter query after)) = .ok listing') :
    listing' = { listing with after } := by
  cases after with
  | none =>
    rw [auditAfter, hlisting] at h
    obtain rfl := Except.ok.inj h
    rw [← hfirst]
  | some after =>
    obtain ⟨hstatus, hlimit, hcreatedBy, -⟩ := listQuery_eq_ok.mp hlisting
    obtain ⟨hstatus', hlimit', hcreatedBy', hafter'⟩ := listQuery_eq_ok.mp h
    have hafter : listing'.after = some after := by
      have hprop : (auditOptions (auditAfter query (some after))).prop "after" = .str after := rfl
      rw [auditOptions] at hprop
      rw [hprop, listText] at hafter'
      split at hafter'
      · cases hafter'
      · exact (Except.ok.inj hafter').symm
    have hsame : listing'.status = listing.status ∧ listing'.limit = listing.limit ∧
        listing'.createdBy = listing.createdBy :=
      ⟨Except.ok.inj (hstatus'.symm.trans hstatus), Except.ok.inj (hlimit'.symm.trans hlimit),
        Except.ok.inj (hcreatedBy'.symm.trans hcreatedBy)⟩
    cases listing'
    cases listing
    simp_all

/-- A later page is a page of the events that are reported. -/
theorem listApiKeyAuditEvents_paged {query : ApiKeyAuditQuery} {caller : PrincipalInput}
    {credentialId : Option String} {listing : ListQuery}
    (hcredential : auditedKey query.credentialId = .ok credentialId)
    (hlisting : listQuery (auditOptions query) = .ok listing) (hfirst : listing.after = none) :
    (service.auditRows (τ := τ) (callerTenant caller) credentialId).PagedBy
      (fun after => service.listApiKeyAuditEvents (auditAfter query after) caller)
      ApiKeyAuditEvent.place listing.limit where
  place := fun _ _ => rfl
  pages := by
    intro after w taken w' hsettles
    obtain ⟨credentialId', listing', hcredential', hlisting', rfl⟩ :=
      (service.ensures_listApiKeyAuditEvents (auditAfter query after) caller w).settles hsettles
        taken rfl
    have hquery : (auditAfter query after).credentialId = query.credentialId := by
      cases after <;> rfl
    rw [hquery, hcredential] at hcredential'
    obtain rfl := Except.ok.inj hcredential'
    obtain rfl := listQuery_auditAfter hlisting hfirst hlisting'
    rw [page_eq]
    rfl

/-- An event of this id is stored, and is reported. -/
def EventReported (tenantId : String) (credentialId : Option String) (w : World τ) (id : String) :
    Prop :=
  ∃ event ∈ w.apiKeyAudit, event.id = id ∧ event.tenantId = tenantId ∧
    (∃ key, w.apiKeys.keys.get event.credentialId = some key ∧ key.tenantId = tenantId ∧
      key.applicationId = some service.applicationId) ∧
    credentialId.all (fun id => event.credentialId == id) = true

/-- What happens to the keys and the events of a tenant while a walk goes on: keys stand,
and events are appended. -/
structure EventsBetween (tenantId : String) {α : Type} (pages : List (PageTaken τ α)) : Prop where
  named : ∀ p ∈ pages, KeysNamed p.world
  keysStand : pages.Pairwise fun p q => KeysStand p.world q.world
  nodup : ∀ p ∈ pages, (p.world.apiKeyAudit.map ApiKeyAuditEvent.id).Nodup
  eventsStand : pages.Pairwise fun p q => ∀ event ∈ p.world.apiKeyAudit,
    event ∈ q.world.apiKeyAudit
  collated : ∀ p ∈ pages, Collated service.node (p.world.apiKeyAudit.map ApiKeyAuditEvent.place)

variable {service} {tenantId : String} {credentialId : Option String}

omit [Timestamp τ] in
theorem reports_iff {w : World τ} (h : KeysNamed w) {event : ApiKeyAuditEvent τ} :
    service.reports tenantId (w.apiKeys.keys.find fun key => key.tenantId == tenantId) credentialId
      event = true ↔ event.tenantId = tenantId ∧
        (∃ key, w.apiKeys.keys.get event.credentialId = some key ∧ key.tenantId = tenantId ∧
          key.applicationId = some service.applicationId) ∧
        credentialId.all (fun id => event.credentialId == id) = true := by
  simp only [reports, Bool.and_eq_true, beq_iff_eq, List.any_eq_true, Table.mem_find, owns,
    Bool.false_and, Bool.or_false, and_assoc]
  refine and_congr_right fun _ => and_congr_left fun _ => ?_
  constructor
  · rintro ⟨key, ⟨id, hget⟩, htenant, -, happlication, hid⟩
    refine ⟨key, ?_, htenant, happlication⟩
    rw [← hid]
    exact h.get_id hget
  · rintro ⟨key, hget, htenant, happlication⟩
    exact ⟨key, ⟨_, hget⟩, htenant, htenant, happlication, h.named _ key hget⟩

theorem mem_auditRows {w : World τ} (h : KeysNamed w) {event : ApiKeyAuditEvent τ} :
    event ∈ (service.auditRows tenantId credentialId).rows w ↔ event ∈ w.apiKeyAudit ∧
      event.tenantId = tenantId ∧
      (∃ key, w.apiKeys.keys.get event.credentialId = some key ∧ key.tenantId = tenantId ∧
        key.applicationId = some service.applicationId) ∧
      credentialId.all (fun id => event.credentialId == id) = true := by
  have hreports := @reports_iff τ service tenantId credentialId w h event
  simp only [auditRows, List.mem_mergeSort, List.mem_filter, List.mem_reverse, beq_iff_eq, hreports]
  constructor
  · rintro ⟨⟨hmem, -⟩, hrest⟩
    exact ⟨hmem, hrest⟩
  · rintro ⟨hmem, htenant, hrest⟩
    exact ⟨⟨hmem, htenant⟩, htenant, hrest⟩

theorem auditRows_has {w : World τ} (h : KeysNamed w) {id : String} :
    (service.auditRows tenantId credentialId).Has w id ↔
      service.EventReported tenantId credentialId w id := by
  constructor
  · rintro ⟨event, hevent, hname⟩
    obtain ⟨hmem, hrest⟩ := (mem_auditRows h).mp hevent
    exact ⟨event, hmem, hname, hrest⟩
  · rintro ⟨event, hmem, hname, hrest⟩
    exact ⟨event, (mem_auditRows h).mpr ⟨hmem, hrest⟩, hname⟩

/-- An id is that of one event, in whatever worlds of the walk it is. -/
theorem EventsBetween.same {α : Type} {pages : List (PageTaken τ α)}
    (h : service.EventsBetween tenantId pages) : ∀ p ∈ pages, ∀ q ∈ pages,
      ∀ a ∈ p.world.apiKeyAudit, ∀ b ∈ q.world.apiKeyAudit, a.id = b.id → a = b := by
  have hstand : pages.Pairwise fun p q : PageTaken τ α =>
      ∀ a ∈ p.world.apiKeyAudit, ∀ b ∈ q.world.apiKeyAudit, a.id = b.id → a = b := by
    refine h.eventsStand.imp_of_mem fun {p q} hp hq hstand a ha b hb hid => ?_
    exact List.inj_on_of_nodup_map (h.nodup q hq) (hstand a ha) hb hid
  intro p hp q hq
  refine List.Pairwise.forall_of_forall_of_flip ?_ hstand ?_ hp hq
  · intro p hp a ha b hb hid
    exact List.inj_on_of_nodup_map (h.nodup p hp) ha hb hid
  · exact hstand.imp fun hpq a ha b hb hid => (hpq b hb a ha hid.symm).symm

theorem EventsBetween.standing {pages : List (PageTaken τ (ApiKeyAuditEvent τ))}
    (h : service.EventsBetween tenantId pages) :
    (service.auditRows tenantId credentialId).Standing pages where
  sorted := by
    intro p hp
    have hsub : (((p.world.apiKeyAudit.reverse.filter fun event => event.tenantId == tenantId).filter
        (service.reports tenantId (p.world.apiKeys.keys.find fun key => key.tenantId == tenantId)
          credentialId)).map ApiKeyAuditEvent.id).Nodup := by
      refine List.Nodup.sublist (List.Sublist.map _ (List.filter_sublist.trans List.filter_sublist)) ?_
      rw [List.map_reverse, List.nodup_reverse]
      exact h.nodup p hp
    refine pairwise_sorted ?_ hsub
    intro a ha b hb
    obtain ⟨event, hevent, rfl⟩ := List.mem_map.mp ha
    obtain ⟨event', hevent', rfl⟩ := List.mem_map.mp hb
    have hstored : ∀ {event : ApiKeyAuditEvent τ}, event ∈ (p.world.apiKeyAudit.reverse.filter
        fun event => event.tenantId == tenantId).filter (service.reports tenantId
          (p.world.apiKeys.keys.find fun key => key.tenantId == tenantId) credentialId) →
        event ∈ p.world.apiKeyAudit := fun hmem =>
      List.mem_reverse.mp (List.mem_of_mem_filter (List.mem_of_mem_filter hmem))
    exact h.collated p hp _ (List.mem_map_of_mem (hstored hevent)) _
      (List.mem_map_of_mem (hstored hevent'))
  same := by
    intro p hp q hq a ha b hb hname
    have hmem := ((mem_auditRows (h.named p hp)).mp ha).1
    have hmem' := ((mem_auditRows (h.named q hq)).mp hb).1
    rw [h.same p hp q hq a hmem b hmem' hname]

/-- An event that is reported goes on being reported. -/
theorem EventsBetween.stay {pages : List (PageTaken τ (ApiKeyAuditEvent τ))}
    (h : service.EventsBetween tenantId pages) :
    pages.Pairwise fun p q => ∀ id, (service.auditRows tenantId credentialId).Has p.world id →
      (service.auditRows tenantId credentialId).Has q.world id := by
  refine (h.keysStand.and h.eventsStand).imp_of_mem fun {p q} hp hq hstand id hhas => ?_
  rw [auditRows_has (h.named p hp)] at hhas
  rw [auditRows_has (h.named q hq)]
  obtain ⟨event, hmem, hid, htenant, ⟨key, hget, hkeyTenant, happlication⟩, hcredential⟩ := hhas
  obtain ⟨key', hget', hkeyTenant', happlication', -⟩ := hstand.1 _ key hget
  exact ⟨event, hstand.2 event hmem, hid, htenant,
    ⟨key', hget', hkeyTenant'.trans hkeyTenant, happlication'.trans happlication⟩, hcredential⟩

/-- A walk through the audit misses no event. -/
theorem listApiKeyAuditEvents_complete {query : ApiKeyAuditQuery} {caller : PrincipalInput}
    {listing : ListQuery} (hcredential : auditedKey query.credentialId = .ok credentialId)
    (hlisting : listQuery (auditOptions query) = .ok listing) (hfirst : listing.after = none)
    {pages : List (PageTaken τ (ApiKeyAuditEvent τ))}
    (hevents : service.EventsBetween (callerTenant caller) pages)
    (hwalk : Walked (fun after => service.listApiKeyAuditEvents (auditAfter query after) caller)
      ApiKeyAuditEvent.place none pages) :
    Complete ApiKeyAuditEvent.place
      (fun id => ∀ p ∈ pages, service.EventReported (callerTenant caller) credentialId p.world id)
      pages := by
  have hcall := @listApiKeyAuditEvents_paged τ service _ query caller _ _ hcredential hlisting hfirst
  have hstands : (service.auditRows (callerTenant caller) credentialId).CursorsStand pages :=
    fun p hp c hc => .inl (Rows.cursorsStand_of_stay hcall hevents.stay
      (fun _ h => absurd h (Option.some_ne_none _).symm) hwalk p hp c hc)
  have hcomplete := (Rows.complete_iff hcall (listLimit_pos (listQuery_eq_ok.mp hlisting).2.1)
    hevents.standing hwalk).mpr hstands
  refine ⟨fun id hthrough => hcomplete.once id fun p hp => ?_, hcomplete.ordered⟩
  exact (auditRows_has (hevents.named p hp)).mpr (hthrough p hp)

end audits

/-! ### Both listings -/

/-- **A walk through the keys yields every key that matched throughout exactly once and in
order, exactly where its cursors match; a walk through the audit always does.** -/
theorem listings_miss_nothing [Timestamp τ] (service : ApiKeyService) :
    (∀ {tenantId : String} {options : List (String × JsValue)} {query : ListQuery}
      {pages : List (PageTaken τ (ApiKeyView τ))},
      listQuery (.obj options) = .ok query → query.after = none →
      service.KeysBetween tenantId pages →
      Walked (fun after => service.listApiKeys tenantId (askAfter options after)) ApiKeyView.place
        none pages →
      (Complete ApiKeyView.place
        (fun id => ∀ p ∈ pages, service.KeyMatches tenantId query p.world id) pages ↔
        service.CursorsMatch tenantId query pages)) ∧
    (∀ {query : ApiKeyAuditQuery} {caller : PrincipalInput} {credentialId : Option String}
      {listing : ListQuery} {pages : List (PageTaken τ (ApiKeyAuditEvent τ))},
      auditedKey query.credentialId = .ok credentialId →
      listQuery (auditOptions query) = .ok listing → listing.after = none →
      service.EventsBetween (callerTenant caller) pages →
      Walked (fun after => service.listApiKeyAuditEvents (auditAfter query after) caller)
        ApiKeyAuditEvent.place none pages →
      Complete ApiKeyAuditEvent.place
        (fun id => ∀ p ∈ pages, service.EventReported (callerTenant caller) credentialId p.world id)
        pages) :=
  ⟨fun hquery hfirst hkeys hwalk => listApiKeys_complete_iff hquery hfirst hkeys hwalk,
    fun hcredential hlisting hfirst hevents hwalk =>
      listApiKeyAuditEvents_complete hcredential hlisting hfirst hevents hwalk⟩

section sample

/-- Where the store does not reject, `listApiKeys` settles with its page. -/
theorem settles_listApiKeys [Timestamp τ] (service : ApiKeyService) {tenantId : String}
    {options : List (String × JsValue)} {query : ListQuery} {items : List (ApiKey τ)} {w : World τ}
    {taken : List (ApiKeyView τ)} (hquery : listQuery (.obj options) = .ok query)
    (hitems : (service.keyRows tenantId query).rows w = items)
    (htaken : (page ApiKey.id items query.after query.limit).map (fun key => toView key w.clock) =
      taken) :
    Task.Settles (S := services τ) (alone τ) (service.listApiKeys tenantId (.obj options)) w
      (.ok taken) w := by
  subst hitems htaken
  refine ⟨w, _, w, rfl, ⟨.proceed, rfl⟩, w, _, w, rfl, ⟨.proceed, rfl⟩, ?_⟩
  simp only [check, hquery]
  exact ⟨rfl, rfl⟩

def sampleGateway : ServiceGateway :=
  { application := "crm", authorizer := true, credentials := false }

/-- A service whose collation is the order of texts. -/
def listingService : ApiKeyService where
  node := {
    hmac := fun _ secret => secret
    scrypt := fun _ _ keylen => ⟨List.replicate keylen 0, List.length_replicate⟩
    localeCompare := fun a b => cmp a b }
  applicationId := "crm"
  authority := some sampleGateway

def listedKey (id : String) (createdAt : Nat) : ApiKey Nat where
  id
  tenantId := "acme"
  applicationId := some "crm"
  name := id
  keyPrefix := id
  secretHash := ""
  createdAt
  createdBy := "ada"

/-- Two keys of a tenant. -/
def twoKeys : World Nat where
  clock := 5
  apiKeys := {
    keys := (Table.empty.put "k1" (listedKey "k1" 1)).put "k2" (listedKey "k2" 2) }

def revokedKey : ApiKey Nat := { listedKey "k1" 1 with revokedAt := some 6 }

/-- The first of them was revoked. -/
def firstRevoked : World Nat where
  clock := 6
  apiKeys := { keys := (Table.empty.put "k1" revokedKey).put "k2" (listedKey "k2" 2) }

def ada : VerifiedPrincipal :=
  mintedPrincipal { principalId := "ada", principalType := "user", tenantId := "acme" } .host 0

def listedEvent (id : String) (timestamp : Nat) : ApiKeyAuditEvent Nat where
  id
  type := "api_key.created"
  credentialId := "k1"
  tenantId := "acme"
  principalId := "ada"
  timestamp
  result := "success"

/-- One event is stored. -/
def oneEvent : World Nat :=
  { twoKeys with verified := [ada], apiKeyAudit := [listedEvent "e1" 1] }

/-- Another was appended. -/
def twoEvents : World Nat :=
  { twoKeys with verified := [ada], apiKeyAudit := [listedEvent "e2" 2, listedEvent "e1" 1] }

/-- The authorizer allows the audit, and nothing rejects. -/
def auditAllowed : List Choice :=
  let decision : JsValue := .obj [
    ("decision_id", .str "d1"), ("allowed", .bool true), ("capability", .str "apikeys.audit"),
    ("tenant_id", .str "acme"), ("application_id", .str "crm"),
    ("subject", .obj [("id", .str "ada")]),
    ("resource", .obj [("uri", .str "appport://crm/tenants/acme/api_key/*")])]
  [.proceed, .draw "request", .proceed, .proceed, .proceed, .proceed, .decision false (.ok decision),
    .proceed, .proceed, .proceed, .proceed, .proceed, .draw "row", .proceed, .proceed, .proceed,
    .proceed, .proceed, .proceed, .proceed]

/-- The answer of a page of the audit, whichever way the run takes. -/
theorem settles_audit {w : World Nat} {query : ApiKeyAuditQuery} {after : Option String}
    {events taken : List (ApiKeyAuditEvent Nat)}
    (hrun : (Task.after (S := services Nat) AppOp.exec auditAllowed
      (listingService.listApiKeyAuditEvents query (.of ada)) w).bind resolvedTo =
        some ((page ApiKeyAuditEvent.id ((listingService.auditRows "acme" none).rows w) after
          100).map toAuditView))
    (hevents : (listingService.auditRows "acme" none).rows w = events)
    (htaken : (page ApiKeyAuditEvent.id events after 100).map toAuditView = taken) :
    ∃ w', Task.Settles (S := services Nat) (alone Nat)
      (listingService.listApiKeyAuditEvents query (.of ada)) w (.ok taken) w' := by
  rw [hevents, htaken] at hrun
  exact settles_of_after hrun

/-- A walk of one key a page, over which the first key is revoked. -/
def keyPages : List (PageTaken Nat (ApiKeyView Nat)) :=
  [{ after := none, world := twoKeys, page := [toView (listedKey "k1" 1) 5] },
   { after := some "k1", world := firstRevoked, page := [toView (listedKey "k2" 2) 6] },
   { after := some "k2", world := firstRevoked, page := [] }]

/-- A walk through the audit, over which an event is appended. -/
def auditPages : List (PageTaken Nat (ApiKeyAuditEvent Nat)) :=
  [{ after := none, world := oneEvent, page := [listedEvent "e1" 1] },
   { after := some "e1", world := twoEvents, page := [listedEvent "e2" 2] },
   { after := some "e2", world := twoEvents, page := [] }]

theorem keyPages_walked :
    Walked (fun after => listingService.listApiKeys "acme" (askAfter [("limit", .num 1)] after))
      ApiKeyView.place none keyPages := by
  have hrows : (listingService.keyRows "acme" ⟨none, none, 1, none⟩).rows twoKeys =
      [listedKey "k1" 1, listedKey "k2" 2] :=
    (List.mergeSort_of_pairwise (by decide +kernel)).trans (by decide +kernel)
  have hrows' : (listingService.keyRows "acme" ⟨none, none, 1, none⟩).rows firstRevoked =
      [revokedKey, listedKey "k2" 2] :=
    (List.mergeSort_of_pairwise (by decide +kernel)).trans (by decide +kernel)
  -- the order of the rows does not look at where a page begins
  have hrowsAfter : ∀ after,
      (listingService.keyRows "acme" ⟨none, none, 1, after⟩).rows firstRevoked =
        [revokedKey, listedKey "k2" 2] := fun _ => hrows'
  refine ⟨rfl, ⟨_, settles_listApiKeys listingService rfl hrows rfl⟩, ?_⟩
  refine ⟨rfl, ⟨_, settles_listApiKeys listingService rfl (hrowsAfter (some "k1")) rfl⟩, ?_⟩
  exact ⟨rfl, ⟨_, settles_listApiKeys listingService rfl (hrowsAfter (some "k2")) rfl⟩, rfl⟩

theorem auditPages_walked :
    Walked (fun after => listingService.listApiKeyAuditEvents (auditAfter {} after) (.of ada))
      ApiKeyAuditEvent.place none auditPages := by
  have hrows : (listingService.auditRows "acme" none).rows oneEvent = [listedEvent "e1" 1] :=
    (List.mergeSort_of_pairwise (by decide +kernel)).trans (by decide +kernel)
  have hrows' : (listingService.auditRows "acme" none).rows twoEvents =
      [listedEvent "e1" 1, listedEvent "e2" 2] :=
    (List.mergeSort_of_pairwise (by decide +kernel)).trans (by decide +kernel)
  refine ⟨rfl, settles_audit rfl hrows rfl, ?_⟩
  refine ⟨rfl, settles_audit rfl hrows' rfl, ?_⟩
  exact ⟨rfl, settles_audit rfl hrows' rfl, rfl⟩

theorem get_twoKeys {id : String} {key : ApiKey Nat} :
    twoKeys.apiKeys.keys.get id = some key ↔
      (id = "k2" ∧ key = listedKey "k2" 2) ∨ (id = "k1" ∧ key = listedKey "k1" 1) := by
  simp only [twoKeys, Table.get_put, Table.get_empty]
  by_cases h2 : id = "k2"
  · simp [h2, eq_comm]
  · by_cases h1 : id = "k1" <;> simp [h1, h2, eq_comm]

theorem get_firstRevoked {id : String} {key : ApiKey Nat} :
    firstRevoked.apiKeys.keys.get id = some key ↔
      (id = "k2" ∧ key = listedKey "k2" 2) ∨ (id = "k1" ∧ key = revokedKey) := by
  simp only [firstRevoked, Table.get_put, Table.get_empty]
  by_cases h2 : id = "k2"
  · simp [h2, eq_comm]
  · by_cases h1 : id = "k1" <;> simp [h1, h2, eq_comm]

theorem twoKeys_named : KeysNamed twoKeys where
  nodup := by decide
  named := by
    intro id key hget
    rcases get_twoKeys.mp hget with ⟨rfl, rfl⟩ | ⟨rfl, rfl⟩ <;> rfl

theorem firstRevoked_named : KeysNamed firstRevoked where
  nodup := by decide
  named := by
    intro id key hget
    rcases get_firstRevoked.mp hget with ⟨rfl, rfl⟩ | ⟨rfl, rfl⟩ <;> rfl

theorem keysStand_refl (w : World τ) : KeysStand w w :=
  fun _ key hget => ⟨key, hget, rfl, rfl, rfl⟩

theorem twoKeys_stand : KeysStand twoKeys firstRevoked := by
  intro id key hget
  rcases get_twoKeys.mp hget with ⟨rfl, rfl⟩ | ⟨rfl, rfl⟩
  · exact ⟨_, get_firstRevoked.mpr (.inl ⟨rfl, rfl⟩), rfl, rfl, rfl⟩
  · exact ⟨_, get_firstRevoked.mpr (.inr ⟨rfl, rfl⟩), rfl, rfl, rfl⟩

theorem keyPages_between : listingService.KeysBetween "acme" keyPages where
  named := by
    intro p hp
    simp only [keyPages, List.mem_cons, List.not_mem_nil, or_false] at hp
    rcases hp with rfl | rfl | rfl
    · exact twoKeys_named
    · exact firstRevoked_named
    · exact firstRevoked_named
  stand := by
    simp only [keyPages, List.pairwise_cons, List.mem_cons, List.not_mem_nil, or_false,
      forall_eq_or_imp, forall_eq, false_implies, implies_true, List.Pairwise.nil, and_true]
    exact ⟨⟨twoKeys_stand, twoKeys_stand⟩, keysStand_refl _⟩
  collated := by
    intro p hp
    simp only [keyPages, List.mem_cons, List.not_mem_nil, or_false] at hp
    rcases hp with rfl | rfl | rfl <;> decide +kernel

theorem auditPages_between :
    listingService.EventsBetween (callerTenant (.of ada)) auditPages where
  named := by
    intro p hp
    simp only [auditPages, List.mem_cons, List.not_mem_nil, or_false] at hp
    rcases hp with rfl | rfl | rfl <;> exact ⟨twoKeys_named.nodup, twoKeys_named.named⟩
  keysStand := by
    simp only [auditPages, List.pairwise_cons, List.mem_cons, List.not_mem_nil, or_false,
      forall_eq_or_imp, forall_eq, false_implies, implies_true, List.Pairwise.nil, and_true]
    exact ⟨⟨keysStand_refl twoKeys, keysStand_refl twoKeys⟩, keysStand_refl twoKeys⟩
  nodup := by
    intro p hp
    simp only [auditPages, List.mem_cons, List.not_mem_nil, or_false] at hp
    rcases hp with rfl | rfl | rfl <;> decide
  eventsStand := by
    simp only [auditPages, List.pairwise_cons, List.mem_cons, List.not_mem_nil, or_false,
      forall_eq_or_imp, forall_eq, false_implies, implies_true, List.Pairwise.nil, and_true]
    decide
  collated := by
    intro p hp
    simp only [auditPages, List.mem_cons, List.not_mem_nil, or_false] at hp
    rcases hp with rfl | rfl | rfl <;> decide +kernel

/-- The keys of the first walk are returned, and the events of the second. -/
theorem listings_miss_nothing_sample :
    (Complete ApiKeyView.place (fun id => ∀ p ∈ keyPages,
        listingService.KeyMatches "acme" ⟨none, none, 1, none⟩ p.world id) keyPages ↔
      listingService.CursorsMatch "acme" ⟨none, none, 1, none⟩ keyPages) ∧
    Complete ApiKeyAuditEvent.place (fun id => ∀ p ∈ auditPages,
      listingService.EventReported (callerTenant (.of ada)) none p.world id) auditPages :=
  ⟨(listings_miss_nothing listingService).1 rfl rfl keyPages_between keyPages_walked,
    (listings_miss_nothing listingService).2 rfl rfl rfl auditPages_between auditPages_walked⟩

/-- A walk of one active key a page, over which the first key is revoked. -/
def activePages : List (PageTaken Nat (ApiKeyView Nat)) :=
  [{ after := none, world := twoKeys, page := [toView (listedKey "k1" 1) 5] },
   { after := some "k1", world := firstRevoked, page := [] }]

theorem activePages_walked :
    Walked (fun after => listingService.listApiKeys "acme"
      (askAfter [("status", .str "active"), ("limit", .num 1)] after)) ApiKeyView.place none
      activePages := by
  have hrows : (listingService.keyRows "acme" ⟨some .active, none, 1, none⟩).rows twoKeys =
      [listedKey "k1" 1, listedKey "k2" 2] :=
    (List.mergeSort_of_pairwise (by decide +kernel)).trans (by decide +kernel)
  have hrows' : (listingService.keyRows "acme" ⟨some .active, none, 1, some "k1"⟩).rows
      firstRevoked = [listedKey "k2" 2] :=
    (List.mergeSort_of_pairwise (by decide +kernel)).trans (by decide +kernel)
  refine ⟨rfl, ⟨_, settles_listApiKeys listingService rfl hrows rfl⟩, ?_⟩
  exact ⟨rfl, ⟨_, settles_listApiKeys listingService rfl hrows' rfl⟩, rfl⟩

/-- **A key that is active throughout is missed** where the key the walk stopped at is
revoked before the next page. -/
theorem listApiKeys_misses_key :
    Walked (fun after => listingService.listApiKeys "acme"
      (askAfter [("status", .str "active"), ("limit", .num 1)] after)) ApiKeyView.place none
      activePages ∧
    (∀ p ∈ activePages, listingService.KeyMatches "acme" ⟨some .active, none, 1, none⟩ p.world "k2") ∧
    "k2" ∉ (activePages.flatMap PageTaken.page).map ApiKeyView.id := by
  refine ⟨activePages_walked, ?_, by decide⟩
  intro p hp
  simp only [activePages, List.mem_cons, List.not_mem_nil, or_false] at hp
  rcases hp with rfl | rfl
  · exact ⟨_, get_twoKeys.mpr (.inl ⟨rfl, rfl⟩), rfl, by decide⟩
  · exact ⟨_, get_firstRevoked.mpr (.inl ⟨rfl, rfl⟩), rfl, by decide⟩

end sample

end ApiKeyService

end AppPort
