import Mathlib.Data.List.AList
import Mathlib.Data.List.Sort
import Mathlib.Data.String.Basic

/-!
# The files of a directory

A directory gives each name in it a content.  A file is written whole, by renaming a finished one into its place.
`listing` is `os.ReadDir` with what the files hold, and `matching` the part of it whose names fit a pattern.

* `matching_insert_of_none`: writing a file whose name does not fit changes nothing that fits.
* `matching_insert_of_some`: a new file whose name fits is one more.
-/

namespace DeliveryEngine.Go

open List

lemma insertionSort_eq_of_perm {α β : Type} [LinearOrder β] {key : α → β} {xs ys : List α}
    (hkeys : (ys.map key).Nodup) (hperm : xs.Perm ys) (hsorted : ys.Pairwise fun x y => key x ≤ key y) :
    xs.insertionSort (fun x y => key x ≤ key y) = ys := by
  have hall := (perm_insertionSort (fun x y => key x ≤ key y) xs).trans hperm
  refine hall.eq_of_pairwise (fun x y hx hy hxy hyx => ?_) (pairwise_insertionSort _ xs) hsorted
  exact inj_on_of_nodup_map hkeys (hall.mem_iff.mp hx) hy (le_antisymm hxy hyx)

/-- The files of a directory, by name. -/
abbrev Files := AList (fun _ : String => List UInt8)

namespace Files

/-- The files in the order of their names. -/
def listing (files : Files) : List (String × List UInt8) :=
  (files.entries.map (fun f => (f.1, f.2))).insertionSort (fun x y => x.1 ≤ y.1)

variable {files : Files}

lemma mem_listing {f : String × List UInt8} : f ∈ files.listing ↔ files.lookup f.1 = some f.2 := by
  obtain ⟨name, data⟩ := f
  rw [listing, mem_insertionSort, ← Option.mem_def, AList.mem_lookup_iff]
  constructor
  · intro h
    obtain ⟨⟨_, _⟩, hmem, heq⟩ := mem_map.mp h
    cases heq
    exact hmem
  · exact fun h => mem_map.mpr ⟨⟨name, data⟩, h, rfl⟩

lemma nodup_listing (files : Files) : (files.listing.map Prod.fst).Nodup := by
  have hperm : (files.listing.map Prod.fst).Perm files.keys := by
    refine ((perm_insertionSort _ _).map _).trans ?_
    rw [map_map]
    exact List.Perm.refl _
  exact hperm.nodup_iff.mpr files.keys_nodup

section Matching
variable {γ : Type} (pattern : String → Option γ)

/-- The files whose names fit a pattern, each with what the pattern finds in the name. -/
def matching (files : Files) : List (String × γ × List UInt8) :=
  files.listing.filterMap (fun f => (pattern f.1).map (fun found => (f.1, found, f.2)))

variable {pattern} {name : String}

lemma mem_matching {found : γ} {data : List UInt8} : (name, found, data) ∈ files.matching pattern ↔
      files.lookup name = some data ∧ pattern name = some found := by
  simp only [matching, mem_filterMap, Option.map_eq_some_iff, Prod.mk.injEq]
  constructor
  · rintro ⟨f, hf, _, hpattern, rfl, rfl, rfl⟩
    exact ⟨mem_listing.mp hf, hpattern⟩
  · rintro ⟨hlookup, hpattern⟩
    exact ⟨(name, data), mem_listing.mpr hlookup, found, hpattern, rfl, rfl, rfl⟩

lemma pairwise_matching (files : Files) : (files.matching pattern).Pairwise (fun x y => x.1 < y.1) := by
  have hsorted : files.listing.Pairwise (fun x y => x.1 ≤ y.1) := pairwise_insertionSort _ _
  have hstrict : files.listing.Pairwise (fun x y => x.1 < y.1) :=
    (hsorted.and (pairwise_map.mp files.nodup_listing)).imp fun h => lt_of_le_of_ne h.1 h.2
  refine List.Pairwise.filterMap _ ?_ hstrict
  intro f g hlt f' hf' g' hg'
  obtain ⟨_, _, rfl⟩ := Option.map_eq_some_iff.mp hf'
  obtain ⟨_, _, rfl⟩ := Option.map_eq_some_iff.mp hg'
  exact hlt

lemma nodup_matching (files : Files) : (files.matching pattern).Nodup :=
  (pairwise_matching files).imp fun h heq => absurd (congrArg Prod.fst heq) h.ne

lemma matching_insert_of_none (h : pattern name = none) (data : List UInt8) :
    Files.matching pattern (files.insert name data) = files.matching pattern := by
  refine List.Perm.eq_of_pairwise (fun _ _ _ _ hlt hgt => absurd hlt hgt.asymm) (pairwise_matching _)
    (pairwise_matching _) ((perm_ext_iff_of_nodup (nodup_matching _) (nodup_matching _)).mpr ?_)
  rintro ⟨name', found, data'⟩
  rw [mem_matching, mem_matching]
  rcases eq_or_ne name' name with rfl | hne
  · simp [h]
  · rw [AList.lookup_insert_ne hne]

lemma matching_insert_of_some {found : γ} (h : pattern name = some found)
    (hnew : files.lookup name = none) (data : List UInt8) :
    (Files.matching pattern (files.insert name data)).Perm ((name, found, data) :: files.matching pattern) := by
  have hnotMem : (name, found, data) ∉ files.matching pattern := by
    rw [mem_matching, hnew]
    simp
  refine (perm_ext_iff_of_nodup (nodup_matching _) (nodup_cons.mpr ⟨hnotMem, nodup_matching _⟩)).mpr ?_
  rintro ⟨name', found', data'⟩
  rw [mem_cons, mem_matching, mem_matching]
  rcases eq_or_ne name' name with rfl | hne
  · rw [AList.lookup_insert, h, hnew]
    simp only [Option.some.injEq, Prod.mk.injEq, true_and, reduceCtorEq, false_and, or_false]
    exact ⟨fun ⟨hdata, hfound⟩ => ⟨hfound.symm, hdata.symm⟩, fun ⟨hfound, hdata⟩ => ⟨hdata.symm, hfound.symm⟩⟩
  · simp [hne]

end Matching

end Files

end DeliveryEngine.Go
