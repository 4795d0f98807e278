import Mathlib.Data.List.Nodup
import Mathlib.Tactic.Lemma

/-!
# String types with declared constants

A Go enumeration is a defined string type with a list of declared constants.  Nothing stops
another string from inhabiting it, and the source's fail-closed defaults are written for
exactly those inhabitants.  `Named V` is that type: a declared constant `known v`, or a string
no constant spells.  The second constructor carries the proof, so each string is denoted by
exactly one value (`ofText_text`, `text_ofText`).
-/

namespace DeliveryEngine.Go

/-- A finite list of declared constants with pairwise distinct spellings. -/
class Vocabulary (V : Type) where
  all : List V
  text : V → String
  mem_all : ∀ v, v ∈ all
  nodup : (all.map text).Nodup

namespace Vocabulary

variable {V : Type} [Vocabulary V]

/-- The constant a string spells. -/
def find (s : String) : Option V := (all : List V).find? (fun v => text v = s)

lemma text_injective : Function.Injective (text : V → String) := by
  intro a b h
  exact List.inj_on_of_nodup_map nodup (mem_all a) (mem_all b) h

lemma text_of_find {s : String} {v : V} (h : find s = some v) : text v = s := by simpa using List.find?_some h

@[simp] lemma find_text (v : V) : find (text v) = some v := by
  cases h : find (V := V) (text v) with
  | some w => rw [text_injective (text_of_find h)]
  | none =>
    have hnone := List.find?_eq_none.mp h v (mem_all v)
    simp at hnone

end Vocabulary

open Vocabulary in
/-- An inhabitant of a string type: a declared constant, or a string no constant spells. -/
inductive Named (V : Type) [Vocabulary V]
  | known (v : V)
  | other (s : String) (unlisted : find (V := V) s = none)

namespace Named

variable {V : Type} [Vocabulary V]

def text : Named V → String
  | .known v => Vocabulary.text v
  | .other s _ => s

def ofText (s : String) : Named V :=
  match h : Vocabulary.find (V := V) s with
  | some v => .known v
  | none => .other s h

@[simp] lemma text_ofText (s : String) : (ofText s : Named V).text = s := by
  unfold ofText
  split
  · next v h => exact Vocabulary.text_of_find h
  · rfl

lemma text_injective : Function.Injective (text : Named V → String) := by
  intro a b h
  cases a with
  | known v =>
    cases b with
    | known w => exact congrArg known (Vocabulary.text_injective h)
    | other s hs =>
      simp only [text] at h
      rw [← h, Vocabulary.find_text] at hs
      cases hs
  | other s hs =>
    cases b with
    | known w =>
      simp only [text] at h
      rw [h, Vocabulary.find_text] at hs
      cases hs
    | other t ht =>
      subst h
      rfl

@[simp] lemma ofText_text (x : Named V) : ofText x.text = x := text_injective (text_ofText x.text)

instance : DecidableEq (Named V) := fun a b =>
  decidable_of_iff (a.text = b.text) text_injective.eq_iff

/-- Whether the value is one of the declared constants. -/
def isKnown : Named V → Bool
  | .known _ => true
  | .other _ _ => false

end Named

end DeliveryEngine.Go
