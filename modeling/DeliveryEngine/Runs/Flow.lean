import Mathlib.Data.List.Nodup
import Mathlib.Data.List.Perm.Subperm
import Mathlib.Tactic.Lemma

/-!
# Collections whose entries move on their own

A collection of entries, each with a key, is changed by an operation that treats every entry by itself: an entry
becomes another entry with the same key, or it leaves.  `Flow` is what is known of such a change: where each
entry of the new collection comes from, what has become of each entry of the old one, and that no key has become
more frequent.  Flows compose, run side by side on the parts of a collection, and keep keys distinct.
-/

namespace DeliveryEngine.Runs

open List

/-- From `l` to `l'` entries became others as `moves` allows, or left as `leaves` allows. -/
structure Flow {α κ : Type} (key : α → κ) (moves : α → α → Prop) (leaves : α → Prop) (l l' : List α) : Prop where
  keys : (l'.map key).Subperm (l.map key)
  back : ∀ e' ∈ l', ∃ e ∈ l, moves e e'
  forth : ∀ e ∈ l, leaves e ∨ ∃ e' ∈ l', moves e e'

namespace Flow

variable {α κ : Type} {key : α → κ} {moves moves' moves'' : α → α → Prop} {leaves leaves' leaves'' : α → Prop}
  {l l' l'' m m' : List α}

lemma of_perm (hrefl : ∀ e ∈ l, moves e e) (h : l.Perm l') : Flow key moves leaves l l' where
  keys := (h.map key).symm.subperm
  back e he := ⟨e, h.mem_iff.mpr he, hrefl e (h.mem_iff.mpr he)⟩
  forth e he := .inr ⟨e, h.mem_iff.mp he, hrefl e he⟩

lemma refl (hrefl : ∀ e ∈ l, moves e e) : Flow key moves leaves l l := of_perm hrefl (.refl l)

section
variable (h : Flow key moves leaves l l')
include h

lemma perm (hl : l.Perm m) (hl' : l'.Perm m') : Flow key moves leaves m m' where
  keys := (hl'.map key).symm.subperm.trans (h.keys.trans (hl.map key).subperm)
  back e he := by
    obtain ⟨d, hd, hmove⟩ := h.back e (hl'.mem_iff.mpr he)
    exact ⟨d, hl.mem_iff.mp hd, hmove⟩
  forth e he := by
    refine (h.forth e (hl.mem_iff.mpr he)).imp_right ?_
    rintro ⟨d, hd, hmove⟩
    exact ⟨d, hl'.mem_iff.mp hd, hmove⟩

lemma mono (hmoves : ∀ e ∈ l, ∀ e', moves e e' → moves' e e')
    (hleaves : ∀ e ∈ l, leaves e → leaves' e) : Flow key moves' leaves' l l' where
  keys := h.keys
  back e' he' := by
    obtain ⟨e, he, hmove⟩ := h.back e' he'
    exact ⟨e, he, hmoves e he e' hmove⟩
  forth e he := by
    rcases h.forth e he with hleave | ⟨e', he', hmove⟩
    · exact .inl (hleaves e he hleave)
    · exact .inr ⟨e', he', hmoves e he e' hmove⟩

lemma trans (h' : Flow key moves' leaves' l' l'') (hmoves : ∀ a b c, moves a b → moves' b c → moves'' a c)
    (hleaves : ∀ a, leaves a → leaves'' a) (hleaves' : ∀ a b, moves a b → leaves' b → leaves'' a) :
    Flow key moves'' leaves'' l l'' where
  keys := h'.keys.trans h.keys
  back c hc := by
    obtain ⟨b, hb, hbc⟩ := h'.back c hc
    obtain ⟨a, ha, hab⟩ := h.back b hb
    exact ⟨a, ha, hmoves a b c hab hbc⟩
  forth a ha := by
    rcases h.forth a ha with hleave | ⟨b, hb, hab⟩
    · exact .inl (hleaves a hleave)
    · rcases h'.forth b hb with hleave | ⟨c, hc, hbc⟩
      · exact .inl (hleaves' a b hab hleave)
      · exact .inr ⟨c, hc, hmoves a b c hab hbc⟩

lemma append (hm : Flow key moves leaves m m') : Flow key moves leaves (l ++ m) (l' ++ m') where
  keys := by
    rw [map_append, map_append]
    exact h.keys.append hm.keys
  back e' he' := by
    rcases mem_append.mp he' with he' | he'
    · obtain ⟨e, he, hmove⟩ := h.back e' he'
      exact ⟨e, mem_append_left _ he, hmove⟩
    · obtain ⟨e, he, hmove⟩ := hm.back e' he'
      exact ⟨e, mem_append_right _ he, hmove⟩
  forth e he := by
    rcases mem_append.mp he with he | he
    · refine (h.forth e he).imp_right ?_
      rintro ⟨e', he', hmove⟩
      exact ⟨e', mem_append_left _ he', hmove⟩
    · refine (hm.forth e he).imp_right ?_
      rintro ⟨e', he', hmove⟩
      exact ⟨e', mem_append_right _ he', hmove⟩

lemma nodup (hl : (l.map key).Nodup) : (l'.map key).Nodup := by
  obtain ⟨k, hperm, hsub⟩ := h.keys
  exact hperm.nodup_iff.mp (hl.sublist hsub)

end

end Flow

end DeliveryEngine.Runs
