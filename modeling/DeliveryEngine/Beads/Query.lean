import DeliveryEngine.Beads.Revisions
import DeliveryEngine.Go.Files
import Mathlib.Data.Prod.Lex
import Mathlib.Data.String.Basic

/-!
# Listing the store in memory

`List` filters, sorts and cuts.  A client that resumes each page after the last row of the one before sees every row
of the uncut listing once and in its order (`pages_eq_list`): the cursor comparison and the comparison of the sort are
written apart, and agree on beads of which no two share both creation time and identifier.
-/

namespace DeliveryEngine.MemStore

open List
open Beads (Metadata)

inductive SortOrder
  | default
  | createdAsc
  | createdDesc
  deriving DecidableEq

inductive TierMode
  | issues
  | wisps
  | both

/-- The last row that a client has seen. -/
structure SeekBoundary where
  createdAt : Go.Time
  id : String

/-- A lookup: every populated field must match. -/
structure ListQuery where
  status : Status := .other ""
  type : String := ""
  label : String := ""
  assignee : String := ""
  assignees : List String := []
  parentID : String := ""
  metadata : Metadata := []
  createdBefore : Go.Time := .zero
  updatedBefore : Go.Time := .zero
  limit : ℤ := 0
  includeClosed : Bool := false
  allowScan : Bool := false
  sort : SortOrder := .default
  tierMode : TierMode := .issues
  seekAfter : Option SeekBoundary := none

def Bead.boundary (b : Bead) : SeekBoundary := ⟨b.createdAt, b.id⟩

/-- `SeekBoundary.After`. -/
def SeekBoundary.after (sb : SeekBoundary) (b : Bead) (order : SortOrder) : Bool :=
  match order with
  | .createdAsc => b.createdAt.after sb.createdAt || (b.createdAt = sb.createdAt ∧ sb.id < b.id)
  | .createdDesc => b.createdAt.before sb.createdAt || (b.createdAt = sb.createdAt ∧ b.id < sb.id)
  | .default => false

/-- The comparison that `sortBeadsForQuery` sorts by. -/
def SortOrder.less (order : SortOrder) (a b : Bead) : Bool :=
  match order with
  | .createdAsc => if a.createdAt = b.createdAt then a.id < b.id else a.createdAt.before b.createdAt
  | .createdDesc => if a.createdAt = b.createdAt then b.id < a.id else a.createdAt.after b.createdAt
  | .default => false

/-- Without an order nothing moves. -/
def sortBeadsForQuery (items : List Bead) (order : SortOrder) : List Bead :=
  items.insertionSort fun a b => !order.less b a

namespace ListQuery

/-- `HasFilter`. -/
def hasFilter (q : ListQuery) : Bool :=
  q.status ≠ .other "" || q.type ≠ "" || q.label ≠ "" || q.assignee ≠ "" || q.assignees ≠ [] ||
    q.parentID ≠ "" || q.metadata ≠ [] || !q.createdBefore.isZero || !q.updatedBefore.isZero ||
    q.seekAfter.isSome

variable (q : ListQuery) (b : Bead)

def matchesTier : Bool :=
  match q.tierMode with
  | .wisps => b.ephemeral || b.noHistory
  | .both => true
  | .issues => !b.ephemeral

def updatedReferenceTime (b : Bead) : Go.Time := if b.updatedAt.isZero then b.createdAt else b.updatedAt

/-- The part of `Matches` before the seek. -/
def selects : Bool :=
  q.matchesTier b && (if q.status ≠ .other "" then b.status = q.status else q.includeClosed || b.status ≠ .closed) &&
    (q.type = "" || b.type = q.type) && (q.label = "" || b.labels.contains q.label) &&
    (q.assignee = "" || b.assignee = q.assignee) && (q.assignees = [] || q.assignees.contains b.assignee) &&
    (q.parentID = "" || b.parentID = q.parentID) && q.metadata.all (fun kv => b.metadata.get kv.1 = kv.2) &&
    (q.createdBefore.isZero || b.createdAt.before q.createdBefore) &&
    (q.updatedBefore.isZero || (updatedReferenceTime b).before q.updatedBefore)

/-- `Matches`. -/
def matchesBead : Bool := q.selects b && q.seekAfter.all (·.after b q.sort)

end ListQuery

variable (s : State) (q : ListQuery)

/-- The rows of a listing before the limit cuts them. -/
def State.rows : List Bead := sortBeadsForQuery (s.beads.filter q.matchesBead) q.sort

def State.list : Except String (List Bead) :=
  if !q.hasFilter && !q.allowScan then .error "listing beads: bead query requires scan"
  else
    let result := s.rows q
    .ok (if 0 < q.limit ∧ q.limit < result.length then result.take q.limit.toNat else result)

/-- A client that lists page after page, each from the last row of the page before, until one is empty;
`none` when it runs out of calls. -/
def State.pages (s : State) (q : ListQuery) : ℕ → Except String (Option (List Bead))
  | 0 => .ok none
  | calls + 1 => do
    let page ← s.list q
    match page.getLast? with
    | none => pure (some [])
    | some last =>
      let rest ← s.pages { q with seekAfter := some last.boundary } calls
      pure (rest.map (page ++ ·))

/-! ## One order -/

/-- No two beads share both creation time and identifier. -/
def Apart (beads : List Bead) : Prop := (beads.map Bead.boundary).Nodup

def Bead.key (b : Bead) : ℤ ×ₗ String := toLex (b.createdAt.ns, b.id)

lemma boundary_of_key {a b : Bead} (h : a.key = b.key) : a.boundary = b.boundary := by
  obtain ⟨hns, hid⟩ := Prod.mk.inj (toLex_inj.mp h)
  rw [← Go.Time.mk.injEq] at hns
  exact congrArg₂ SeekBoundary.mk hns hid

variable (a b : Bead)

lemma less_createdAsc : SortOrder.createdAsc.less a b = true ↔ a.key < b.key := by
  rw [SortOrder.less, Bead.key, Bead.key, Prod.Lex.toLex_lt_toLex]
  by_cases h : a.createdAt = b.createdAt
  · simp [h]
  · have hns : a.createdAt.ns ≠ b.createdAt.ns := by rwa [Ne, ← Go.Time.mk.injEq]
    simp [h, hns]

lemma less_createdDesc : SortOrder.createdDesc.less a b = SortOrder.createdAsc.less b a := by
  simp only [SortOrder.less, @eq_comm _ b.createdAt]
  rfl

lemma after_boundary (order : SortOrder) : a.boundary.after b order = order.less a b := by
  rw [Bool.eq_iff_iff]
  cases order with
  | default => rfl
  | createdAsc =>
    by_cases h : a.createdAt = b.createdAt
    · simp [SeekBoundary.after, SortOrder.less, Bead.boundary, h]
    · simp [SeekBoundary.after, SortOrder.less, Bead.boundary, h, Ne.symm h]
  | createdDesc =>
    by_cases h : a.createdAt = b.createdAt
    · simp [SeekBoundary.after, SortOrder.less, Bead.boundary, h]
    · simp [SeekBoundary.after, SortOrder.less, Bead.boundary, h, Ne.symm h]

/-- A created order is the order of a key that tells beads with different boundaries apart. -/
structure OrderedBy {β : Type} [LinearOrder β] (order : SortOrder) (key : Bead → β) : Prop where
  less : ∀ a b, order.less a b = true ↔ key a < key b
  boundary : ∀ {a b}, key a = key b → a.boundary = b.boundary

lemma orderedBy_createdAsc : OrderedBy .createdAsc Bead.key := ⟨less_createdAsc, boundary_of_key⟩

lemma orderedBy_createdDesc : OrderedBy .createdDesc (OrderDual.toDual ∘ Bead.key) where
  less a b := by
    rw [less_createdDesc, less_createdAsc]
    rfl
  boundary := boundary_of_key

/-! ## Pages -/

section Pages
variable {β : Type} [LinearOrder β] {key : Bead → β} {s : State} {q : ListQuery} (hkey : OrderedBy q.sort key)
include hkey

lemma rows_eq : s.rows q = (s.beads.filter q.matchesBead).insertionSort (key · ≤ key ·) := by
  rw [State.rows, sortBeadsForQuery]
  congr! with a b
  rw [Bool.not_eq_true', ← Bool.not_eq_true, hkey.less, not_lt]

lemma pairwise_rows (hs : Apart s.beads) : (s.rows q).Pairwise (key · < key ·) := by
  have hsorted := pairwise_insertionSort (key · ≤ key ·) (s.beads.filter q.matchesBead)
  rw [← rows_eq hkey] at hsorted
  have hapart : (s.rows q).Pairwise fun a b => a.boundary ≠ b.boundary :=
    ((pairwise_map.mp hs).filter _).perm (perm_insertionSort _ _).symm Ne.symm
  exact (hsorted.and hapart).imp fun ⟨hle, hab⟩ => lt_of_le_of_ne hle fun he => hab (hkey.boundary he)

lemma matchesBead_seek {x : Bead} (hx : q.matchesBead x = true) (b : Bead) :
    { q with seekAfter := some x.boundary }.matchesBead b = (q.matchesBead b && q.sort.less x b) := by
  have hselects : { q with seekAfter := some x.boundary }.selects b = q.selects b := rfl
  obtain ⟨-, hseek⟩ := Bool.and_eq_true_iff.mp hx
  rw [ListQuery.matchesBead, Option.all_some, after_boundary, ListQuery.matchesBead, Bool.and_assoc]
  congr 1
  by_cases hless : q.sort.less x b = true
  · rw [hless, Bool.and_true, eq_comm, Option.all_eq_true]
    intro sb hsb
    -- The boundary that the query had is that of some bead, so the two comparisons chain.
    have hsbx := (Option.all_eq_true _ _).mp hseek sb hsb
    rw [show sb = Bead.boundary { createdAt := sb.createdAt, id := sb.id } from rfl, after_boundary, hkey.less] at *
    exact hsbx.trans hless
  · rw [Bool.not_eq_true] at hless
    rw [hless, Bool.and_false]

lemma rows_seek (hs : Apart s.beads) {before rest : List Bead} {x : Bead}
    (h : s.rows q = before ++ x :: rest) : s.rows { q with seekAfter := some x.boundary } = rest := by
  have hperm : (s.rows q).Perm (s.beads.filter q.matchesBead) := perm_insertionSort _ _
  have hx : x ∈ s.beads.filter q.matchesBead := hperm.subset (h ▸ mem_append_right _ mem_cons_self)
  have hmatches : { q with seekAfter := some x.boundary }.matchesBead = fun b => q.sort.less x b && q.matchesBead b :=
    funext fun b => (matchesBead_seek hkey (mem_filter.mp hx).2 b).trans (Bool.and_comm _ _)
  obtain ⟨-, hrest, hbefore⟩ := pairwise_append.mp (h ▸ pairwise_rows hkey hs)
  obtain ⟨hafter, hrest⟩ := pairwise_cons.mp hrest
  have hfilter : (s.rows q).filter (q.sort.less x) = rest := by
    rw [h, filter_append, filter_cons_of_neg, filter_eq_nil_iff.mpr, filter_eq_self.mpr, nil_append]
    · exact fun y hy => (hkey.less x y).mpr (hafter y hy)
    · exact fun y hy hless => lt_asymm ((hkey.less x y).mp hless) (hbefore y hy x mem_cons_self)
    · exact fun hless => lt_irrefl _ ((hkey.less x x).mp hless)
  rw [rows_eq (q := { q with seekAfter := some x.boundary }) hkey, hmatches, ← filter_filter]
  exact Go.insertionSort_eq_of_perm (pairwise_map.mpr (hrest.imp ne_of_lt)) (hfilter ▸ (hperm.filter _).symm)
    (hrest.imp le_of_lt)

omit hkey in
lemma list_eq (hscan : (q.hasFilter || q.allowScan) = true) {n : ℕ} (hn : 1 ≤ n) :
    s.list { q with limit := n } = .ok ((s.rows q).take n) ∧ s.list { q with limit := 0 } = .ok (s.rows q) := by
  have hasked : (!q.hasFilter && !q.allowScan) = false := by rw [← Bool.not_or, hscan]; rfl
  have hrows (limit : ℤ) : s.rows { q with limit } = s.rows q := rfl
  refine ⟨(if_neg (ne_true_of_eq_false hasked)).trans ?_, if_neg (ne_true_of_eq_false hasked)⟩
  simp only [hrows]
  split
  · rfl
  · rw [take_of_length_le (by omega)]

lemma pages_eq_rows (hs : Apart s.beads) {n : ℕ} (hn : 1 ≤ n)
    (hscan : (q.hasFilter || q.allowScan) = true) {calls : ℕ} (hcalls : (s.rows q).length < calls) :
    s.pages { q with limit := n } calls = .ok (some (s.rows q)) := by
  induction calls generalizing q with
  | zero => omega
  | succ calls ih =>
    have hsplit := take_append_drop n (s.rows q)
    rw [State.pages, (list_eq hscan hn).1]
    rcases eq_nil_or_concat ((s.rows q).take n) with hnil | ⟨before, x, hpage⟩
    · have hrows : s.rows q = [] := (take_eq_nil_iff.mp hnil).resolve_left (by omega)
      rw [hrows, take_nil]
      rfl
    · rw [concat_eq_append] at hpage
      rw [hpage, append_assoc, singleton_append] at hsplit
      have hrest := rows_seek hkey hs hsplit.symm
      have hlength := congrArg length hsplit
      rw [length_append, length_cons] at hlength
      have hnext := ih (q := { q with seekAfter := some x.boundary }) hkey
        (by simp [ListQuery.hasFilter]) (by rw [hrest]; omega)
      rw [hrest] at hnext
      simp only [hpage, bind, Except.bind, getLast?_concat, hnext, pure, Except.pure, Option.map_some, append_assoc,
        singleton_append, hsplit]

end Pages

lemma apart_run (idPrefix : String) (disabled : Bool) (calls : List (Go.Time × Op)) :
    Apart (run (.empty idPrefix disabled) calls).beads :=
  .of_map SeekBoundary.id (by
    rw [map_map]
    exact (run_advances calls _ (State.wellFormed_empty idPrefix disabled)).1.nodup)

/-- A client that pages through a listing in either created order, `n` rows at a time, gets what one listing without
a limit returns, and that has every matching bead once. -/
theorem pages_eq_list {s : State} (hs : Apart s.beads) {q : ListQuery} (hsort : q.sort ≠ .default) {n : ℕ} (hn : 1 ≤ n)
    {calls : ℕ} (hcalls : s.beads.length < calls) :
    s.pages { q with limit := n } calls = (s.list { q with limit := 0 }).map some ∧
    ∀ rows, s.list { q with limit := 0 } = .ok rows → rows.Perm (s.beads.filter q.matchesBead) := by
  have hperm : (s.rows q).Perm (s.beads.filter q.matchesBead) := perm_insertionSort _ _
  by_cases hscan : (q.hasFilter || q.allowScan) = true
  · have hlength : (s.rows q).length < calls := by
      rw [hperm.length_eq]
      exact (length_filter_le _ _).trans_lt hcalls
    have hpages : s.pages { q with limit := n } calls = .ok (some (s.rows q)) := by
      obtain horder | horder : q.sort = .createdAsc ∨ q.sort = .createdDesc := by cases h : q.sort <;> simp_all
      · exact pages_eq_rows (horder ▸ orderedBy_createdAsc) hs hn hscan hlength
      · exact pages_eq_rows (horder ▸ orderedBy_createdDesc) hs hn hscan hlength
    rw [(list_eq hscan hn).2, hpages]
    refine ⟨rfl, fun rows hrows => ?_⟩
    cases hrows
    exact hperm
  · have hrefused (limit : ℤ) : s.list { q with limit } = .error "listing beads: bead query requires scan" :=
      if_pos (by simpa [ListQuery.hasFilter] using hscan)
    obtain ⟨calls, rfl⟩ : ∃ k, calls = k + 1 := ⟨calls - 1, by omega⟩
    rw [State.pages, hrefused, hrefused]
    exact ⟨rfl, fun _ h => nomatch h⟩

/-- Two beads of one moment, one to a page. -/
theorem pages_eq_list_one_moment :
    let s := run (.empty "" false) [(.zero, .create { title := "first" }), (.zero, .create { title := "second" })]
    let q : ListQuery := { allowScan := true, sort := .createdDesc }
    s.pages { q with limit := 1 } 3 = (s.list { q with limit := 0 }).map some :=
  (pages_eq_list (apart_run _ _ _) (by decide) (le_refl 1) (by decide)).1

/-- Of two beads that share both, a page that ends with one is followed by none that has the other. -/
theorem pages_skip_duplicate :
    let first : Bead := { id := "gc-1", title := "first" }
    let second : Bead := { id := "gc-1", title := "second" }
    let s : State := { beads := [first, second] }
    let q : ListQuery := { allowScan := true, sort := .createdAsc }
    s.pages { q with limit := 1 } 3 = .ok (some [first]) ∧ s.list { q with limit := 0 } = .ok [first, second] :=
  ⟨rfl, rfl⟩

end DeliveryEngine.MemStore
