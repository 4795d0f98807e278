import Mathlib.Data.List.Chain
import Mathlib.Data.List.Dedup
import Mathlib.Data.List.Perm.Subperm
import Mathlib.Logic.Function.Basic
import Mathlib.Logic.Relation
import Mathlib.Tactic.Lemma

/-!
# Cycle search by three-colour depth-first walk

A node is white before its walk starts, grey while it is on the walk's stack, and black once all of its successors have
been walked.  Meeting a grey node closes a cycle.  What a search that returns nothing leaves behind is an order in which
every node comes after its successors (`Finished`), the order in which the nodes turned black; and where there is such
an order the search returns nothing (`findCycle_eq_none_of_finished`).  What it returns otherwise is a walk that comes
back to a node it has passed (`findCycle_spec`).
-/

namespace DeliveryEngine.ThreeColour

open List

variable {α : Type} [DecidableEq α]

/-- The three colours of a walk. -/
inductive Color
  | white
  | grey
  | black
  deriving DecidableEq

/-- The state of a walk: the colour map and the stack of grey nodes, bottom first. -/
structure Walk (α : Type) where
  color : α → Color
  stack : List α

/-- The walk before any node is visited. -/
def Walk.start : Walk α := ⟨fun _ => .white, []⟩

variable (w : Walk α) (id : α)

/-- Open a node: colour it grey and push it. -/
def Walk.enter : Walk α := ⟨Function.update w.color id .grey, w.stack ++ [id]⟩

/-- Close the node on top of the stack: pop it and colour it black. -/
def Walk.leave : Walk α := ⟨Function.update w.color id .black, w.stack.dropLast⟩

variable (succ : α → List α) (known : α → Bool)

/-- One successor of the node being walked, with `deeper` the walk of a white one.  A successor
that is not a node of the graph is passed over. -/
def visit (deeper : α → Walk α → Except (List α) (Walk α)) (w : Walk α) (next : α) : Except (List α) (Walk α) :=
  if known next then
    match w.color next with
    | .grey => .error (w.stack ++ [next])
    | .white => deeper next w
    | .black => .ok w
  else .ok w

/-- Walk a white node and everything below it.  The error is a cycle, as the stack with the node
that closes it appended.  The fuel bounds the depth of the stack. -/
def walk : ℕ → α → Walk α → Except (List α) (Walk α)
  | 0, id, w => .error (w.stack ++ [id])
  | fuel + 1, id, w =>
    match (succ id).foldlM (visit known (walk fuel)) (w.enter id) with
    | .error cycle => .error cycle
    | .ok w' => .ok (w'.leave id)

def walkRoots (fuel : ℕ) : List α → Walk α → Except (List α) (Walk α)
  | [], w => .ok w
  | id :: ids, w =>
    if w.color id = .white then
      match walk succ known fuel id w with
      | .error cycle => .error cycle
      | .ok w' => walkRoots fuel ids w'
    else walkRoots fuel ids w

/-- The cycle the search reports, if it finds one. -/
def findCycle (ids : List α) : Option (List α) :=
  match walkRoots succ known (ids.length + 1) ids Walk.start with
  | .error cycle => some cycle
  | .ok _ => none

/-! ## The finishing order -/

/-- An order in which every node comes after its successors: each entry's successors that are
nodes of the graph stand in the part of the list behind it. -/
inductive Finished : List α → Prop
  | nil : Finished []
  | cons {x : α} {l : List α} (below : ∀ y ∈ succ x, known y = true → y ∈ l)
      (rest : Finished l) : Finished (x :: l)

variable {succ known} {l : List α}

omit [DecidableEq α] in
lemma Finished.exists_lowest (h : Finished succ known l) (P : α → Prop) (hP : ∃ x ∈ l, P x) :
    ∃ x ∈ l, P x ∧ ∀ y ∈ succ x, known y = true → ¬ P y := by
  induction h with
  | nil =>
    obtain ⟨x, hx, -⟩ := hP
    cases hx
  | @cons x l below _ ih =>
    by_cases hl : ∃ y ∈ l, P y
    · obtain ⟨y, hy, hlow⟩ := ih hl
      exact ⟨y, mem_cons_of_mem _ hy, hlow⟩
    · -- The head is then the only candidate, and its successors all lie in the tail.
      obtain ⟨z, hz, hPz⟩ := hP
      rcases mem_cons.mp hz with rfl | hz
      · exact ⟨z, mem_cons_self, hPz, fun y hy hk hPy => hl ⟨y, below y hy hk, hPy⟩⟩
      · exact absurd ⟨z, hz, hPz⟩ hl

omit [DecidableEq α] in
lemma Finished.mem_below {before below : List α} {x : α} (h : Finished succ known (before ++ x :: below))
    {y : α} (hy : y ∈ succ x) (hk : known y = true) : y ∈ below := by
  induction before with
  | nil =>
    cases h with
    | cons hbelow _ => exact hbelow y hy hk
  | cons z before ih =>
    cases h with
    | cons _ hrest => exact ih hrest

/-! ## What a walk has established -/

/-- A node of the graph that another one leads to. -/
def Edge (succ : α → List α) (known : α → Bool) (x y : α) : Prop := y ∈ succ x ∧ known y = true

/-- A walk along edges whose last node is one it has passed. -/
structure Closing (edge : α → α → Prop) (c : List α) : Prop where
  again : ∃ before last, c = before ++ [last] ∧ last ∈ before
  walk : c.IsChain edge

omit [DecidableEq α] in
lemma Closing.exists_transGen {edge : α → α → Prop} {c : List α} (h : Closing edge c) :
    ∃ x, Relation.TransGen edge x x := by
  obtain ⟨before, last, rfl, hlast⟩ := h.again
  obtain ⟨p, q, rfl⟩ := append_of_mem hlast
  have hchain : (last :: (q ++ [last])).IsChain edge := h.walk.suffix ⟨p, by simp⟩
  cases q with
  | nil => exact ⟨last, .single (isChain_pair.mp hchain)⟩
  | cons y q =>
    obtain ⟨hy, hrest⟩ := isChain_cons_cons.mp hchain
    exact ⟨last, .head' hy (relationReflTransGen_of_exists_isChain_cons _ hrest (by simp))⟩

section Search
variable (ids : List α)

/-- The walk's black nodes are exactly the finished ones, and its grey ones a path from a root. -/
structure Closed (succ : α → List α) (known : α → Bool) (w : Walk α) (l : List α) : Prop where
  black_iff : ∀ x, w.color x = .black ↔ x ∈ l
  grey_iff : ∀ x, w.color x = .grey ↔ x ∈ w.stack
  finished : Finished succ known l
  chain : w.stack.IsChain (Edge succ known)
  nodup : w.stack.Nodup
  subset : w.stack ⊆ ids

/-- From `w` to `w'` the walk has finished more nodes and left the grey ones alone. -/
structure Advances (succ : α → List α) (known : α → Bool) (w w' : Walk α) (l l' : List α) : Prop where
  closed : Closed ids succ known w' l'
  subset : l ⊆ l'
  stack_eq : w'.stack = w.stack

/-- What a walk from `w` may come to: a cycle, or more nodes that are finished. -/
inductive Comes (succ : α → List α) (known : α → Bool) (w : Walk α) (l : List α) (Q : List α → Prop) :
    Except (List α) (Walk α) → Prop
  | cycle {c : List α} (h : Closing (Edge succ known) c) : Comes succ known w l Q (.error c)
  | done {w' : Walk α} {l' : List α} (h : Advances ids succ known w w' l l') (hQ : Q l') :
      Comes succ known w l Q (.ok w')

/-- A walk function that finishes the white node it is given, or finds a cycle. -/
def Finishes (succ : α → List α) (known : α → Bool) (fuel : ℕ)
    (deeper : α → Walk α → Except (List α) (Walk α)) : Prop :=
  ∀ {id : α} {w : Walk α} {l : List α}, id ∈ ids → w.color id = .white → Closed ids succ known w l →
    (w.stack ++ [id]).IsChain (Edge succ known) → w.stack.length + fuel = ids.length + 1 →
    Comes ids succ known w l (id ∈ ·) (deeper id w)

variable {ids} {w : Walk α}

omit [DecidableEq α] in
lemma Advances.refl (h : Closed ids succ known w l) : Advances ids succ known w w l l :=
  ⟨h, List.Subset.refl l, rfl⟩

omit [DecidableEq α] in
lemma Comes.after {w₁ : Walk α} {l₁ : List α} {Q Q' : List α → Prop}
    {result : Except (List α) (Walk α)} (hadv : Advances ids succ known w w₁ l l₁)
    (h : Comes ids succ known w₁ l₁ Q result) (hQ : ∀ l', l₁ ⊆ l' → Q l' → Q' l') :
    Comes ids succ known w l Q' result := by
  cases h with
  | cycle h => exact .cycle h
  | done h hdone =>
    exact .done ⟨h.closed, List.Subset.trans hadv.subset h.subset, h.stack_eq.trans hadv.stack_eq⟩
      (hQ _ h.subset hdone)

variable {deeper : α → Walk α → Except (List α) (Walk α)} {fuel : ℕ} (hknown : ∀ y, known y = true → y ∈ ids)
include hknown

omit [DecidableEq α] in
lemma visits_come (hd : Finishes ids succ known fuel deeper) (ns : List α) (hw : Closed ids succ known w l)
    (hns : ∀ n ∈ ns, known n = true → (w.stack ++ [n]).IsChain (Edge succ known))
    (hfuel : w.stack.length + fuel = ids.length + 1) :
    Comes ids succ known w l (fun l' => ∀ y ∈ ns, known y = true → y ∈ l') (ns.foldlM (visit known deeper) w) := by
  induction ns generalizing w l with
  | nil => exact .done (.refl hw) (by simp)
  | cons n ns ih =>
    rw [foldlM_cons]
    have hvisit : Comes ids succ known w l (fun l' => known n = true → n ∈ l') (visit known deeper w n) := by
      unfold visit
      split_ifs with hk
      · have hchain := hns n mem_cons_self hk
        split
        · next hgrey => exact .cycle ⟨⟨_, n, rfl, (hw.grey_iff n).mp hgrey⟩, hchain⟩
        · next hwhite => exact (hd (hknown n hk) hwhite hw hchain hfuel).after (.refl hw) fun _ _ h _ => h
        · next hblack => exact .done (.refl hw) fun _ => (hw.black_iff n).mp hblack
      · exact .done (.refl hw) fun h => absurd h hk
    generalize visit known deeper w n = result at hvisit
    cases hvisit with
    | cycle h => exact .cycle h
    | done hadv hn =>
      rw [← hadv.stack_eq] at hns hfuel
      exact (ih hadv.closed (fun m hm => hns m (mem_cons_of_mem _ hm)) hfuel).after hadv fun l' hsub hns =>
        forall_mem_cons.mpr ⟨fun hk => hsub (hn hk), hns⟩

omit hknown in
lemma Closed.enter {id : α} (h : Closed ids succ known w l) (hmem : id ∈ ids) (hid : w.color id = .white)
    (hchain : (w.stack ++ [id]).IsChain (Edge succ known)) : Closed ids succ known (w.enter id) l := by
  have hopen : id ∉ w.stack := fun hmem => by
    rw [← h.grey_iff, hid] at hmem
    cases hmem
  have hnot : id ∉ l := fun hmem => by
    rw [← h.black_iff, hid] at hmem
    cases hmem
  refine ⟨fun x => ?_, fun x => ?_, h.finished, hchain, ?_, append_subset.mpr ⟨h.subset, by simpa using hmem⟩⟩
  · by_cases hx : x = id
    · subst hx
      simp [Walk.enter, hnot]
    · simp [Walk.enter, Function.update_of_ne hx, h.black_iff]
  · by_cases hx : x = id
    · simp [Walk.enter, hx]
    · simp [Walk.enter, h.grey_iff, hx]
  · exact h.nodup.append (nodup_singleton id) (by simpa using hopen)

/-- Walking a white node finishes it, or finds a cycle: the nodes on the stack are different, so there is
fuel for another one. -/
lemma walk_finishes (fuel : ℕ) : Finishes ids succ known fuel (walk succ known fuel) := by
  induction fuel with
  | zero =>
    intro id w l _ _ hw _ hfuel
    exact absurd (subperm_of_subset hw.nodup hw.subset).length_le (by omega)
  | succ fuel ih =>
    intro id w l hmem hid hw hchain hfuel
    rw [walk]
    have hbelow : ∀ n ∈ succ id, known n = true → ((w.enter id).stack ++ [n]).IsChain (Edge succ known) := by
      intro n hn hk
      simpa [Walk.enter, isChain_append, Edge, hn, hk] using hchain
    have hloop := visits_come hknown ih (succ id) (hw.enter hmem hid hchain) hbelow
      (by simp only [Walk.enter, length_append, length_singleton]; omega)
    generalize (succ id).foldlM (visit known (walk succ known fuel)) (w.enter id) = result at hloop
    cases hloop with
    | cycle h => exact .cycle h
    | @done w₁ l₁ hadv hbelow =>
      have hstack : (w₁.leave id).stack = w.stack := by simp [Walk.leave, hadv.stack_eq, Walk.enter]
      have hopen : id ∉ w.stack := fun hmem => by
        rw [← hw.grey_iff, hid] at hmem
        cases hmem
      refine .done ⟨⟨fun x => ?_, fun x => ?_, .cons hbelow hadv.closed.finished, ?_, ?_, ?_⟩, ?_, hstack⟩ mem_cons_self
      · by_cases hx : x = id
        · simp [Walk.leave, hx]
        · simp [Walk.leave, hadv.closed.black_iff, hx]
      · rw [hstack]
        by_cases hx : x = id
        · simp [Walk.leave, hx, hopen]
        · simp [Walk.leave, hadv.closed.grey_iff, hx, hadv.stack_eq, Walk.enter]
      · exact hstack ▸ hw.chain
      · exact hstack ▸ hw.nodup
      · exact hstack ▸ hw.subset
      · exact fun y hy => mem_cons_of_mem _ (hadv.subset hy)

lemma walkRoots_come (roots : List α) (hroots : roots ⊆ ids) (hw : Closed ids succ known w l) (hstack : w.stack = []) :
    Comes ids succ known w l (fun l' => ∀ id ∈ roots, id ∈ l') (walkRoots succ known (ids.length + 1) roots w) := by
  induction roots generalizing w l with
  | nil => exact .done (.refl hw) (by simp)
  | cons id roots ih =>
    rw [cons_subset] at hroots
    rw [walkRoots]
    split_ifs with hwhite
    · have hwalk := walk_finishes hknown (ids.length + 1) hroots.1 hwhite hw (by simp [hstack]) (by simp [hstack])
      generalize walk succ known (ids.length + 1) id w = result at hwalk
      cases hwalk with
      | cycle h => exact .cycle h
      | done hadv hid =>
        refine (ih hroots.2 hadv.closed (hadv.stack_eq.trans hstack)).after hadv fun l' hsub hids => ?_
        exact forall_mem_cons.mpr ⟨hsub hid, hids⟩
    · refine (ih hroots.2 hw hstack).after (.refl hw) fun l' hsub hids => forall_mem_cons.mpr ⟨hsub ?_, hids⟩
      -- A root that is neither white nor grey was finished below an earlier root.
      rw [← hw.black_iff]
      cases hc : w.color id with
      | white => exact absurd hc hwhite
      | grey => simp [hw.grey_iff, hstack] at hc
      | black => rfl

variable (succ) in
/-- A search reports a cycle of the graph, or leaves an order in which each node comes after its successors. -/
theorem findCycle_spec : (∃ c, findCycle succ known ids = some c ∧ Closing (Edge succ known) c) ∨
    findCycle succ known ids = none ∧ ∃ l, Finished succ known l ∧ ∀ id ∈ ids, id ∈ l := by
  have hstart : Closed ids succ known Walk.start [] :=
    ⟨by simp [Walk.start], by simp [Walk.start], .nil, .nil, nodup_nil, by simp [Walk.start]⟩
  have hroots := walkRoots_come hknown ids (List.Subset.refl ids) hstart rfl
  unfold findCycle
  generalize walkRoots succ known (ids.length + 1) ids Walk.start = result at hroots
  cases hroots with
  | cycle h => exact .inl ⟨_, rfl, h⟩
  | done hadv hids => exact .inr ⟨rfl, _, hadv.closed.finished, hids⟩

end Search

variable {w : Walk α} {deeper : α → Walk α → Except (List α) (Walk α)} {fuel : ℕ} {ids : List α}

/-! ## Where there is an order, no cycle is reported -/

/-- A height for each node of an order, below which its successors lie. -/
structure Heights (succ : α → List α) (known : α → Bool) (l : List α) (height : α → ℕ) : Prop where
  mem : ∀ x ∈ l, ∀ y ∈ succ x, known y = true → y ∈ l
  lt : ∀ x ∈ l, ∀ y ∈ succ x, known y = true → height y < height x
  le : ∀ x ∈ l, height x < l.length

lemma Finished.exists_heights (h : Finished succ known l) : ∃ height, Heights succ known l height := by
  have hbelow : ∀ x ∈ l, ∀ y ∈ succ x, known y = true → y ∈ l ∧ l.reverse.idxOf y < l.reverse.idxOf x := by
    intro x hx y hy hk
    obtain ⟨below, before, heq, hnot⟩ := eq_append_cons_of_mem (mem_reverse.mpr hx)
    have hl : l = before.reverse ++ x :: below.reverse := by
      rw [← reverse_reverse l, heq]
      simp
    have hmem : y ∈ below := mem_reverse.mp ((hl ▸ h).mem_below hy hk)
    refine ⟨by simp [hl, hmem], ?_⟩
    rw [heq, idxOf_append_of_notMem hnot, idxOf_append_of_mem hmem, idxOf_cons_self]
    exact idxOf_lt_length_of_mem hmem
  refine ⟨l.reverse.idxOf, fun x hx y hy hk => (hbelow x hx y hy hk).1,
    fun x hx y hy hk => (hbelow x hx y hy hk).2, fun x hx => ?_⟩
  simpa using idxOf_lt_length_of_mem (mem_reverse.mpr hx)

omit [DecidableEq α] in
lemma Heights.transGen_lt {height : α → ℕ} (h : Heights succ known l height) {x y : α} (hx : x ∈ l)
    (hxy : Relation.TransGen (Edge succ known) x y) : y ∈ l ∧ height y < height x := by
  induction hxy with
  | single hy => exact ⟨h.mem x hx _ hy.1 hy.2, h.lt x hx _ hy.1 hy.2⟩
  | tail _ hy ih => exact ⟨h.mem _ ih.1 _ hy.1 hy.2, (h.lt _ ih.1 _ hy.1 hy.2).trans ih.2⟩

omit [DecidableEq α] in
/-- Some of the names of an order can be put before another order, where each waits for names of that order and for
some of those it waited for. -/
lemma Finished.filter_append {succ' : α → List α} {known' : α → Bool} {base : List α}
    (h : Finished succ known l) (hbase : Finished succ' known' base) {P : α → Bool}
    (hstep : ∀ x, P x = true → ∀ y ∈ succ' x, known' y = true →
      y ∈ base ∨ y ∈ succ x ∧ known y = true ∧ P y = true) :
    Finished succ' known' (l.filter P ++ base) := by
  induction h with
  | nil => exact hbase
  | @cons x l below _ ih =>
    rw [filter_cons]
    split_ifs with hx
    · refine .cons (fun y hy hk => mem_append.mpr ?_) ih
      rcases hstep x hx y hy hk with hy | ⟨hy, hk, hP⟩
      · exact .inr hy
      · exact .inl (mem_filter.mpr ⟨below y hy hk, hP⟩)
    · exact ih

lemma Finished.dedup (h : Finished succ known l) : Finished succ known l.dedup := by
  induction h with
  | nil => exact .nil
  | @cons x l below _ ih =>
    by_cases hx : x ∈ l
    · rwa [dedup_cons_of_mem hx]
    · rw [dedup_cons_of_notMem hx]
      exact .cons (fun y hy hk => mem_dedup.mpr (below y hy hk)) ih

lemma Walk.enter_color_of_ne {id x : α} (hx : x ≠ id) : (w.enter id).color x = w.color x :=
  Function.update_of_ne hx _ _

lemma Walk.leave_color_of_ne {id x : α} (hx : x ≠ id) : (w.leave id).color x = w.color x :=
  Function.update_of_ne hx _ _

/-- The walk came to an end and opened nothing that it did not close. -/
def Ends (w : Walk α) (result : Except (List α) (Walk α)) : Prop :=
  ∃ w', result = .ok w' ∧ ∀ x, w'.color x = .grey → w.color x = .grey

omit [DecidableEq α] in
lemma Ends.refl (w : Walk α) : Ends w (.ok w) := ⟨w, rfl, fun _ hx => hx⟩

omit [DecidableEq α] in
lemma visits_end {height : α → ℕ} {bound : ℕ} (ns : List α) (hns : ∀ n ∈ ns, known n = true → height n < bound ∧
      ∀ w : Walk α, (∀ x, w.color x = .grey → height n < height x) → Ends w (deeper n w))
    (hgrey : ∀ x, w.color x = .grey → bound ≤ height x) :
    Ends w (ns.foldlM (visit known deeper) w) := by
  induction ns generalizing w with
  | nil => exact .refl w
  | cons n ns ih =>
    have hvisit : Ends w (visit known deeper w n) := by
      unfold visit
      split_ifs with hk
      · obtain ⟨hlt, hdeeper⟩ := hns n mem_cons_self hk
        split
        · next hcolor => exact absurd (hgrey n hcolor) (by omega)
        · exact hdeeper w fun x hx => Nat.lt_of_lt_of_le hlt (hgrey x hx)
        · exact .refl w
      · exact .refl w
    obtain ⟨w₁, hw₁, hgrey₁⟩ := hvisit
    obtain ⟨w₂, hw₂, hgrey₂⟩ := ih (fun m hm => hns m (mem_cons_of_mem _ hm)) fun x hx => hgrey x (hgrey₁ x hx)
    refine ⟨w₂, ?_, fun x hx => hgrey₁ x (hgrey₂ x hx)⟩
    rw [foldlM_cons, hw₁]
    exact hw₂

variable {height : α → ℕ}

lemma walk_ends (hl : Heights succ known l height) (fuel : ℕ) {id : α} (hid : id ∈ l) (hfuel : height id < fuel)
    (hgrey : ∀ x, w.color x = .grey → height id < height x) :
    Ends w (walk succ known fuel id w) := by
  induction fuel generalizing id w with
  | zero => omega
  | succ fuel ih =>
    have hbelow : ∀ n ∈ succ id, known n = true → height n < height id ∧
        ∀ w : Walk α, (∀ x, w.color x = .grey → height n < height x) → Ends w (walk succ known fuel n w) := by
      intro n hn hk
      have hlt := hl.lt id hid n hn hk
      exact ⟨hlt, fun w hw => ih (hl.mem id hid n hn hk) (by omega) hw⟩
    have hopen : ∀ x, (w.enter id).color x = .grey → height id ≤ height x := by
      intro x hx
      by_cases hxid : x = id
      · exact Nat.le_of_eq (by rw [hxid])
      · rw [Walk.enter_color_of_ne hxid] at hx
        exact Nat.le_of_lt (hgrey x hx)
    obtain ⟨w₁, hw₁, hgrey₁⟩ := visits_end (succ id) hbelow hopen
    refine ⟨w₁.leave id, by rw [walk, hw₁], fun x hx => ?_⟩
    have hxid : x ≠ id := by
      rintro rfl
      simp [Walk.leave] at hx
    rw [Walk.leave_color_of_ne hxid] at hx
    have henter := hgrey₁ x hx
    rwa [Walk.enter_color_of_ne hxid] at henter

lemma walkRoots_ends (hl : Heights succ known l height)
    (hfuel : ∀ x ∈ l, height x < fuel) (ids : List α) (hids : ∀ id ∈ ids, id ∈ l)
    (hgrey : ∀ x, w.color x ≠ .grey) : ∃ w', walkRoots succ known fuel ids w = .ok w' := by
  induction ids generalizing w with
  | nil => exact ⟨w, rfl⟩
  | cons id ids ih =>
    have hrest : ∀ i ∈ ids, i ∈ l := fun i hi => hids i (mem_cons_of_mem _ hi)
    rw [walkRoots]
    split_ifs with hwhite
    · have hid := hids id mem_cons_self
      obtain ⟨w₁, hw₁, hgrey₁⟩ := walk_ends hl fuel hid (hfuel id hid) fun x hx => absurd hx (hgrey x)
      rw [hw₁]
      exact ih hrest fun x hx => hgrey x (hgrey₁ x hx)
    · exact ih hrest hgrey

/-- Where every node of the graph is a root and the roots are in an order, the search reports no cycle. -/
theorem findCycle_eq_none_of_finished (hknown : ∀ y, known y = true → y ∈ ids)
    (h : Finished succ known l) (hids : ∀ id ∈ ids, id ∈ l) : findCycle succ known ids = none := by
  -- The order without repetitions and foreign names is no longer than the list of roots.
  have horder : Finished succ known (l.filter (· ∈ ids) ++ []) :=
    h.filter_append .nil fun x _ y hy hk => .inr ⟨hy, hk, decide_eq_true (hknown y hk)⟩
  rw [append_nil] at horder
  obtain ⟨height, hl⟩ := horder.dedup.exists_heights
  have hlength : (l.filter (· ∈ ids)).dedup.length ≤ ids.length := by
    refine (subperm_of_subset (nodup_dedup _) fun x hx => ?_).length_le
    simpa using (mem_filter.mp (mem_dedup.mp hx)).2
  have hfuel : ∀ x ∈ (l.filter (· ∈ ids)).dedup, height x < ids.length + 1 := by
    intro x hx
    have hlt := hl.le x hx
    omega
  have hroots : ∀ id ∈ ids, id ∈ (l.filter (· ∈ ids)).dedup := by
    intro id hid
    exact mem_dedup.mpr (mem_filter.mpr ⟨hids id hid, by simpa using hid⟩)
  have hgrey : ∀ x : α, Walk.start.color x ≠ .grey := by simp [Walk.start]
  obtain ⟨w', hw'⟩ := walkRoots_ends hl hfuel ids hroots hgrey
  rw [findCycle, hw']

end DeliveryEngine.ThreeColour
