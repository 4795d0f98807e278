import DeliveryEngine.Go.Map
import DeliveryEngine.Go.Text
import DeliveryEngine.Graph.ThreeColour

/-!
# Dependency listings

Work is declared as a list of named items, each with the names it waits for.  `edges` is the graph of
such a listing, and `findCycle` the text of a cycle in it.  There is none exactly when the names can be put in
an order in which each comes after those it waits for (`findCycle_eq_empty_iff`).
-/

namespace DeliveryEngine.Listing

open Go List
open Prod (fst snd)

/-- The graph of a listing.  A repeated name keeps what its last item waits for. -/
def edges (items : List (String × List String)) : GoMap (List String) := GoMap.indexBy fst snd items

variable (items : List (String × List String)) (id : String)

def waits : List String := (edges items).getD id []

def known : Bool := ((edges items).get? id).isSome

/-- A readable cycle of the graph, or the empty text. -/
def findCycle (items : List (String × List String)) : String :=
  match ThreeColour.findCycle (waits items) (known items) (sortStrings (items.map fst)) with
  | some cycle => joinWith cycle " -> "
  | none => ""

variable {items : List (String × List String)} {id : String} {names : List String}

section
variable (hnodup : (items.map fst).Nodup) (hitem : (id, names) ∈ items)
include hnodup hitem

lemma get?_edges : (edges items).get? id = some names := GoMap.get?_indexBy (x := (id, names)) hnodup hitem

lemma waits_eq : waits items id = names := by
  rw [waits, GoMap.getD, get?_edges hnodup hitem, Option.getD_some]

lemma known_eq_true : known items id = true := by
  rw [known, get?_edges hnodup hitem, Option.isSome_some]

end

lemma get?_edges_eq_none (hid : id ∉ items.map fst) : (edges items).get? id = none :=
  GoMap.get?_indexBy_of_notMem fun _ hitem heq => hid (heq ▸ mem_map_of_mem hitem)

lemma waits_eq_nil (hid : id ∉ items.map fst) : waits items id = [] := by
  rw [waits, GoMap.getD, get?_edges_eq_none hid, Option.getD_none]

/-- An order in which every name comes after those it waits for. -/
abbrev Ordered (items : List (String × List String)) (order : List String) : Prop :=
  ThreeColour.Finished (waits items) (known items) order

lemma mem_of_known (h : known items id = true) : id ∈ items.map fst := by
  by_contra hid
  rw [known, get?_edges_eq_none hid] at h
  cases h

lemma findCycle_spec (items : List (String × List String)) :
    (∃ cycle, findCycle items = joinWith cycle " -> " ∧ findCycle items ≠ "" ∧
      ThreeColour.Closing (ThreeColour.Edge (waits items) (known items)) cycle) ∨
    findCycle items = "" ∧ ∃ order, Ordered items order ∧ ∀ id ∈ items.map fst, id ∈ order := by
  rw [findCycle]
  have hknown : ∀ y, known items y = true → y ∈ sortStrings (items.map fst) :=
    fun y hy => mem_sortStrings.mpr (mem_of_known hy)
  rcases ThreeColour.findCycle_spec (waits items) hknown with
    ⟨cycle, hcycle, hclosing⟩ | ⟨hnone, order, hfin, hmem⟩
  · rw [hcycle]
    refine .inl ⟨cycle, rfl, ?_, hclosing⟩
    -- The last node is there twice, so the text has a separator.
    obtain ⟨before, last, rfl, hlast⟩ := hclosing.again
    obtain ⟨first, rest, rfl⟩ := exists_cons_of_ne_nil (ne_nil_of_mem hlast)
    obtain ⟨next, rest, hnext⟩ := exists_cons_of_ne_nil (concat_ne_nil last rest)
    rw [cons_append, hnext]
    exact joinWith_ne_empty (by decide)
  · rw [hnone]
    exact .inr ⟨rfl, order, hfin, fun id hid => hmem id (mem_sortStrings.mpr hid)⟩

lemma exists_finished (h : findCycle items = "") : ∃ order, Ordered items order ∧
      ∀ id ∈ items.map fst, id ∈ order := by
  rcases findCycle_spec items with ⟨_, _, hne, _⟩ | ⟨-, horder⟩
  · exact absurd h hne
  · exact horder

lemma findCycle_eq_empty_iff : findCycle items = "" ↔
      ∃ order, Ordered items order ∧ ∀ id ∈ items.map fst, id ∈ order := by
  refine ⟨exists_finished, ?_⟩
  rintro ⟨order, hfinished, hmem⟩
  rw [findCycle, ThreeColour.findCycle_eq_none_of_finished
    (fun y hy => mem_sortStrings.mpr (mem_of_known hy)) hfinished
    (fun id hid => hmem id (mem_sortStrings.mp hid))]

/-! ## Cycles -/

/-- An item waits for another one. -/
def Edge (items : List (String × List String)) (x y : String) : Prop :=
  ∃ names, (x, names) ∈ items ∧ y ∈ names ∧ y ∈ items.map fst

/-- A text says whether there is a cycle: it is empty, or it reads out a walk that comes back to a node it has
passed. -/
structure Exact (edge : String → String → Prop) (text : String) : Prop where
  eq_empty_iff : text = "" ↔ ∀ x, ¬Relation.TransGen edge x x
  reads : text ≠ "" → ∃ cycle, text = joinWith cycle " -> " ∧ ThreeColour.Closing edge cycle

lemma edge_eq (hnodup : (items.map fst).Nodup) : ThreeColour.Edge (waits items) (known items) = Edge items := by
  ext x y
  constructor
  · rintro ⟨hy, hk⟩
    have hx : x ∈ items.map fst := by
      by_contra hx
      rw [waits_eq_nil hx] at hy
      cases hy
    obtain ⟨⟨_, names⟩, hitem, rfl⟩ := mem_map.mp hx
    rw [waits_eq hnodup hitem] at hy
    exact ⟨names, hitem, hy, mem_of_known hk⟩
  · rintro ⟨names, hitem, hy, hmem⟩
    obtain ⟨⟨_, names'⟩, hitem', rfl⟩ := mem_map.mp hmem
    exact ⟨by rwa [waits_eq hnodup hitem], known_eq_true hnodup hitem'⟩

lemma findCycle_exact (hnodup : (items.map fst).Nodup) : Exact (Edge items) (findCycle items) := by
  rw [← edge_eq hnodup]
  rcases findCycle_spec items with ⟨cycle, htext, hne, hclosing⟩ | ⟨hempty, order, horder, hmem⟩
  · obtain ⟨x, hx⟩ := hclosing.exists_transGen
    exact ⟨iff_of_false hne fun hnone => hnone x hx, fun _ => ⟨cycle, htext, hclosing⟩⟩
  · obtain ⟨height, hheights⟩ := horder.exists_heights
    refine ⟨iff_of_true hempty fun x hx => ?_, fun hne => absurd hempty hne⟩
    obtain ⟨_, _, hedge⟩ := Relation.TransGen.tail'_iff.mp hx
    exact lt_irrefl _ (hheights.transGen_lt (hmem x (mem_of_known hedge.2)) hx).2

/-- Every item waits only for the names given and for earlier items. -/
def Backward (seen : List String) : List (String × List String) → Prop
  | [] => True
  | item :: items => (∀ name ∈ item.2, name ∈ seen) ∧ Backward (item.1 :: seen) items

variable {seen : List String}

lemma Backward.mono {seen' : List String} (h : Backward seen items) (hsub : seen ⊆ seen') :
    Backward seen' items := by
  induction items generalizing seen seen' with
  | nil => trivial
  | cons item items ih => exact ⟨fun name hname => hsub (h.1 name hname), ih h.2 (cons_subset_cons _ hsub)⟩

lemma Backward.append {more : List (String × List String)} (h : Backward seen items)
    (hmore : Backward ((items.map fst).reverse ++ seen) more) :
    Backward seen (items ++ more) := by
  induction items generalizing seen with
  | nil => exact hmore
  | cons item items ih =>
    refine ⟨h.1, ih h.2 ?_⟩
    rwa [map_cons, reverse_cons, append_assoc] at hmore

variable {item : String × List String}

lemma Backward.mem (h : Backward seen items) (hitem : item ∈ items)
    {name : String} (hname : name ∈ item.2) : name ∈ items.map fst ∨ name ∈ seen := by
  induction items generalizing seen with
  | nil => cases hitem
  | cons first items ih =>
    rw [map_cons, mem_cons]
    rcases mem_cons.mp hitem with rfl | hitem
    · exact .inr (h.1 name hname)
    · rcases ih h.2 hitem with hlisted | hseen
      · exact .inl (.inr hlisted)
      · rcases mem_cons.mp hseen with heq | hseen
        · exact .inl (.inl heq)
        · exact .inr hseen

lemma Backward.ne (h : Backward seen items) (hnodup : (items.map fst).Nodup) (hnew : ∀ id ∈ items.map fst, id ∉ seen)
    (hitem : item ∈ items) {name : String} (hname : name ∈ item.2) : name ≠ item.1 := by
  induction items generalizing seen with
  | nil => cases hitem
  | cons first items ih =>
    rw [map_cons, nodup_cons] at hnodup
    rcases mem_cons.mp hitem with rfl | hitem
    · rintro rfl
      exact hnew item.1 mem_cons_self (h.1 item.1 hname)
    · refine ih h.2 hnodup.2 (fun id hid hmem => ?_) hitem
      rcases mem_cons.mp hmem with rfl | hmem
      · exact hnodup.1 hid
      · exact hnew id (mem_cons_of_mem _ hid) hmem

lemma Backward.finished (hnodup : (items.map fst).Nodup) (h : Backward [] items) :
    Ordered items (items.map fst).reverse := by
  have hrest : ∀ before after, items = before ++ after → Backward (before.map fst).reverse after →
      Ordered items (before.map fst).reverse →
      Ordered items (items.map fst).reverse := by
    intro before after
    induction after generalizing before with
    | nil =>
      intro hitems _ hfinished
      rw [append_nil] at hitems
      exact hitems ▸ hfinished
    | cons item after ih =>
      intro hitems hback hfinished
      have hitem : (item.1, item.2) ∈ items := by
        rw [hitems]
        simp
      have hsnoc : ((before ++ [item]).map fst).reverse = item.1 :: (before.map fst).reverse := by simp
      refine ih (before ++ [item]) (by simpa using hitems) (hsnoc ▸ hback.2) ?_
      rw [hsnoc]
      refine .cons (fun name hname _ => ?_) hfinished
      rw [waits_eq hnodup hitem] at hname
      exact hback.1 name hname
  exact hrest [] items rfl h .nil

/-- Items that wait for each other as they did in another listing can be put after a listing that is complete in
itself. -/
lemma findCycle_append {base other more : List (String × List String)}
    (hnodup : ((base ++ more).map fst).Nodup) (hother : ((other ++ more).map fst).Nodup)
    (hbase : ∀ item ∈ base, ∀ name ∈ item.2, name ∈ base.map fst)
    (hacyclic : findCycle base = "") (hbefore : findCycle (other ++ more) = "") :
    findCycle (base ++ more) = "" := by
  obtain ⟨order, horder, hmem⟩ := findCycle_eq_empty_iff.mp hacyclic
  obtain ⟨order', horder', hmem'⟩ := findCycle_eq_empty_iff.mp hbefore
  have hnames : ∀ name, known (base ++ more) name = true →
      name ∈ base.map fst ∨ name ∈ more.map fst := fun name hname => by
    simpa only [map_append, mem_append] using mem_of_known hname
  have hbaseNodup : (base.map fst).Nodup := (nodup_append.mp (map_append ▸ hnodup)).1
  have hfirst : Ordered (base ++ more) (order.filter (· ∈ base.map fst) ++ []) := by
    refine horder.filter_append .nil fun x hx y hy _ => .inr ?_
    obtain ⟨item, hitem, rfl⟩ := mem_map.mp (of_decide_eq_true hx)
    rw [waits_eq hnodup (mem_append_left _ hitem)] at hy
    have hlisted := hbase item hitem y hy
    obtain ⟨target, htarget, rfl⟩ := mem_map.mp hlisted
    exact ⟨by rwa [waits_eq hbaseNodup hitem], known_eq_true hbaseNodup htarget, decide_eq_true hlisted⟩
  rw [append_nil] at hfirst
  have hsecond : Ordered (base ++ more) (order'.filter (· ∈ more.map fst) ++ order.filter (· ∈ base.map fst)) := by
    refine horder'.filter_append hfirst fun x hx y hy hknown => ?_
    obtain ⟨item, hitem, rfl⟩ := mem_map.mp (of_decide_eq_true hx)
    rw [waits_eq hnodup (mem_append_right _ hitem)] at hy
    refine (hnames y hknown).imp (fun hy' => mem_filter.mpr ⟨hmem y hy', decide_eq_true hy'⟩) fun hy' => ?_
    obtain ⟨target, htarget, rfl⟩ := mem_map.mp hy'
    exact ⟨by rwa [waits_eq hother (mem_append_right _ hitem)], known_eq_true hother (mem_append_right _ htarget),
      decide_eq_true hy'⟩
  refine findCycle_eq_empty_iff.mpr ⟨_, hsecond, fun id hid => ?_⟩
  rw [mem_append, mem_filter, mem_filter, decide_eq_true_iff, decide_eq_true_iff]
  rw [map_append, mem_append] at hid
  rcases hid with hid | hid
  · exact .inr ⟨hmem id hid, hid⟩
  · exact .inl ⟨hmem' id (by rw [map_append]; exact mem_append_right _ hid), hid⟩

end DeliveryEngine.Listing
