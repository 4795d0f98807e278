import Mathlib.Algebra.BigOperators.Group.List.Basic
import Mathlib.Algebra.Order.Ring.Nat
import Mathlib.Logic.Relation

/-!
# Reachability by a worklist

`reaches` takes nodes off a stack, skips those it has seen, and pushes the successors of the others.  `reaches_iff`
says that it finds exactly what can be reached, given fuel for every successor it may push.  The invariant is
`Frontier`: a successor of a seen node is seen or on the stack.
-/

namespace DeliveryEngine.Worklist

open List

variable {α : Type}

/-- One node is a successor of another. -/
def Edge (succ : α → List α) (x y : α) : Prop := y ∈ succ x

/-! ## The frontier -/

variable {succ : α → List α}

/-- What the search keeps: the node looked for has not been seen, and the successors of what has been
seen are seen or on the stack. -/
structure Frontier (succ : α → List α) (target : α) (seen stack : List α) : Prop where
  target_notMem : target ∉ seen
  closed : ∀ x ∈ seen, ∀ y ∈ succ x, y ∈ seen ∨ y ∈ stack

variable {target cur : α} {seen stack : List α}

lemma Frontier.skip (h : Frontier succ target seen (cur :: stack)) (hseen : cur ∈ seen) :
    Frontier succ target seen stack := by
  refine ⟨h.target_notMem, fun x hx y hy => ?_⟩
  rcases h.closed x hx y hy with hy | hy
  · exact .inl hy
  · rcases mem_cons.mp hy with rfl | hy
    · exact .inl hseen
    · exact .inr hy

lemma Frontier.expand (h : Frontier succ target seen (cur :: stack)) (hne : cur ≠ target) :
    Frontier succ target (cur :: seen) ((succ cur).reverse ++ stack) := by
  refine ⟨fun hmem => (mem_cons.mp hmem).elim (fun heq => hne heq.symm) h.target_notMem, ?_⟩
  intro x hx y hy
  rcases mem_cons.mp hx with rfl | hx
  · exact .inr (mem_append_left _ (mem_reverse.mpr hy))
  · rcases h.closed x hx y hy with hy | hy
    · exact .inl (mem_cons_of_mem _ hy)
    · rcases mem_cons.mp hy with rfl | hy
      · exact .inl mem_cons_self
      · exact .inr (mem_append_right _ hy)

lemma Frontier.not_reach {x : α} (h : Frontier succ target seen []) (hx : x ∈ seen) :
    ¬ Relation.ReflTransGen (Edge succ) x target := by
  intro hreach
  refine h.target_notMem ?_
  induction hreach using Relation.ReflTransGen.head_induction_on with
  | refl => exact hx
  | head hedge _ ih => exact ih ((h.closed _ hx _ hedge).resolve_right not_mem_nil)

/-! ## The search -/

variable [DecidableEq α]

/-- Search for a target from the nodes on the stack, the last pushed first. -/
def reaches (succ : α → List α) (target : α) : ℕ → List α → List α → Bool
  | 0, _, _ => false
  | _, _, [] => false
  | fuel + 1, seen, cur :: stack =>
    if cur = target then true
    else if cur ∈ seen then reaches succ target fuel seen stack
    else reaches succ target fuel (cur :: seen) ((succ cur).reverse ++ stack)

variable {fuel : ℕ}

lemma exists_reflTransGen_of_reaches (h : reaches succ target fuel seen stack = true) :
    ∃ x ∈ stack, Relation.ReflTransGen (Edge succ) x target := by
  induction fuel generalizing seen stack with
  | zero => cases h
  | succ fuel ih =>
    cases stack with
    | nil => cases h
    | cons cur stack =>
      rw [reaches] at h
      split_ifs at h with htarget hseen
      · exact ⟨cur, mem_cons_self, htarget ▸ .refl⟩
      · obtain ⟨x, hx, hreach⟩ := ih h
        exact ⟨x, mem_cons_of_mem _ hx, hreach⟩
      · obtain ⟨x, hx, hreach⟩ := ih h
        rcases mem_append.mp hx with hx | hx
        · exact ⟨cur, mem_cons_self, .head (mem_reverse.mp hx) hreach⟩
        · exact ⟨x, mem_cons_of_mem _ hx, hreach⟩

/-- The successors still to be pushed: those of the nodes not seen yet. -/
def remaining (succ : α → List α) (nodes seen : List α) : ℕ :=
  ((nodes.filter (· ∉ seen)).map (fun x => (succ x).length)).sum

variable {nodes : List α}

lemma remaining_cons_of_mem (hnodup : nodes.Nodup) (hmem : cur ∈ nodes) (hseen : cur ∉ seen) :
    remaining succ nodes (cur :: seen) + (succ cur).length = remaining succ nodes seen := by
  unfold remaining
  have hperm : (nodes.filter (· ∉ seen)).Perm (cur :: nodes.filter (· ∉ cur :: seen)) := by
    refine (perm_ext_iff_of_nodup (hnodup.filter _) ?_).mpr fun x => ?_
    · exact nodup_cons.mpr ⟨by simp, hnodup.filter _⟩
    · by_cases hx : x = cur
      · subst hx
        simp [hmem, hseen]
      · simp [hx]
  rw [(hperm.map _).sum_eq, map_cons, sum_cons, Nat.add_comm]

lemma remaining_cons_of_notMem (seen : List α) (hmem : cur ∉ nodes) :
    remaining succ nodes (cur :: seen) = remaining succ nodes seen := by
  have hfilter : nodes.filter (· ∉ cur :: seen) = nodes.filter (· ∉ seen) := by
    refine filter_congr fun x hx => ?_
    have hne : x ≠ cur := fun heq => hmem (heq ▸ hx)
    simp [hne]
  rw [remaining, hfilter, remaining]

/-- With fuel for the stack and for every successor still to be pushed, a search that finds nothing
has nothing to find. -/
lemma not_reach_of_reaches_eq_false (hnodup : nodes.Nodup) (hnodes : ∀ x, x ∉ nodes → succ x = [])
    (hfuel : stack.length + remaining succ nodes seen < fuel)
    (hfront : Frontier succ target seen stack) (h : reaches succ target fuel seen stack = false) :
    ∀ x, x ∈ seen ∨ x ∈ stack → ¬ Relation.ReflTransGen (Edge succ) x target := by
  induction fuel generalizing seen stack with
  | zero => omega
  | succ fuel ih =>
    cases stack with
    | nil => exact fun x hx => hfront.not_reach (hx.resolve_right not_mem_nil)
    | cons cur stack =>
      rw [reaches] at h
      split_ifs at h with htarget hseen
      · intro x hx
        refine ih ?_ (hfront.skip hseen) h x ?_
        · simp only [length_cons] at hfuel
          omega
        · rcases hx with hx | hx
          · exact .inl hx
          · exact (mem_cons.mp hx).imp_left fun (heq : x = cur) => heq ▸ hseen
      · intro x hx
        refine ih ?_ (hfront.expand htarget) h x ?_
        · simp only [length_cons, length_append, length_reverse] at hfuel ⊢
          by_cases hmem : cur ∈ nodes
          · have hsum : remaining succ nodes (cur :: seen) + (succ cur).length =
                remaining succ nodes seen := remaining_cons_of_mem hnodup hmem hseen
            omega
          · rw [remaining_cons_of_notMem seen hmem, hnodes cur hmem, length_nil]
            omega
        · rcases hx with hx | hx
          · exact .inl (mem_cons_of_mem _ hx)
          · rcases mem_cons.mp hx with rfl | hx
            · exact .inl mem_cons_self
            · exact .inr (mem_append_right _ hx)

/-- The search from one node finds exactly what can be reached from it. -/
theorem reaches_iff (hnodup : nodes.Nodup) (hnodes : ∀ x, x ∉ nodes → succ x = [])
    (hfuel : (nodes.map (fun x => (succ x).length)).sum + 1 < fuel) (source target : α) :
    reaches succ target fuel [] [source] = true ↔ Relation.ReflTransGen (Edge succ) source target := by
  constructor
  · intro h
    obtain ⟨x, hx, hreach⟩ := exists_reflTransGen_of_reaches h
    rwa [mem_singleton.mp hx] at hreach
  · intro hreach
    by_contra hfalse
    have hremaining : remaining succ nodes [] = (nodes.map fun x => (succ x).length).sum := by simp [remaining]
    have hfront : Frontier succ target [] [source] := ⟨by simp, by simp⟩
    refine not_reach_of_reaches_eq_false hnodup hnodes ?_ hfront
      (Bool.not_eq_true _ ▸ hfalse) source (.inr mem_cons_self) hreach
    rw [length_singleton]
    omega

end DeliveryEngine.Worklist
