import DeliveryEngine.Go.Bytes
import DeliveryEngine.Handoff.Plan

/-!
# Whether a plan says what its criteria require

`missingBehaviours` reports the behaviours a criterion requires that the packages claiming it do not mention.  A
behaviour is written as alternatives separated by bars, a mention is a whole-word occurrence of one of them, and an
occurrence answers one behaviour only.  Nothing is assumed about `toLower`, Go's table of lower-case letters.
-/

namespace DeliveryEngine.Handoff

open Go List

variable (toLower : Char → Char)

/-- `strings.ToLower`. -/
def lowerCase (s : String) : String := String.ofList (s.toList.map toLower)

variable (pkgs : List WorkPackage)

def coveringPackages (criterion : String) : List WorkPackage := pkgs.filter (fun wp => criterion ∈ wp.satisfies)

/-- Everything the packages say they will do, as one document. -/
def coveringText : String :=
  lowerCase toLower (String.join (pkgs.map (fun wp =>
    wp.title ++ "\n" ++ wp.objective ++ "\n" ++ wp.artifact ++ "\n" ++ joinWith wp.gates "\n" ++ "\n")))

/-! ## Occurrences -/

variable (said : List UInt8)

def isWordByte (i : ℤ) : Bool :=
  0 ≤ i && match said[i.toNat]? with
    | some c => c = 95 || (97 ≤ c && c ≤ 122) || (48 ≤ c && c ≤ 57)
    | none => false

/-- Whether a span stands on its own rather than inside a longer word. -/
def wholeWord (start stop : ℕ) : Bool := !isWordByte said (start - 1) && !isWordByte said stop

variable (spent : List Bool)

def spanIsSpent (start stop : ℕ) : Bool := ((spent.take stop).drop start).any id

/-- Mark a span as spent. -/
def spend (start stop : ℕ) : List Bool := spent.mapIdx (fun i b => b || (start ≤ i && i < stop))

/-- The first occurrence of a text at a position or after it. -/
def indexFrom (alt : List UInt8) (i : ℕ) : Option ℕ :=
  (List.range' i (said.length + 1 - i)).find? (fun k => alt.isPrefixOf (said.drop k))

/-- Spend the first unspent whole-word occurrence of one spelling.  Each turn of the loop looks behind
the occurrence before, so the length of the text bounds the turns. -/
def claimSpelling (said alt : List UInt8) (spent : List Bool) : ℕ → ℕ → Option (List Bool)
  | 0, _ => none
  | fuel + 1, i =>
    match indexFrom said alt i with
    | none => none
    | some start =>
      let stop := start + alt.length
      if !wholeWord said start stop || spanIsSpent spent start stop then
        claimSpelling said alt spent fuel (start + 1)
      else some (spend spent start stop)

variable (required : String)

/-- The spellings of a behaviour, in the order they are looked for. -/
def spellings : List (List UInt8) :=
  (((splitOn required '|').map (fun alt => lowerCase toLower (trimSpace alt))).filter (· ≠ "")).map bytes

/-- Spend the first unspent whole-word occurrence of any of a behaviour's spellings. -/
def claimOccurrence : Option (List Bool) :=
  (spellings toLower required).findSome? (fun alt =>
    claimSpelling said alt spent (said.length + 1) 0)

/-- The length of the longest spelling a behaviour accepts. -/
def longestAlternative : ℕ := ((splitOn required '|').map (fun alt => (bytes (trimSpace alt)).length)).foldl max 0

/-- Match the behaviours one by one, and keep the positions of those that are not mentioned. -/
def unmetBehaviours (said : List UInt8) : List Bool → List (String × ℕ) → List ℕ
  | _, [] => []
  | spent, (required, i) :: rest =>
    match claimOccurrence toLower said spent required with
    | some spent' => unmetBehaviours said spent' rest
    | none => i :: unmetBehaviours said spent rest

/-- The required behaviours the text does not mention, in the order the author wrote them. -/
def missingBehaviours (said : String) (required : List String) : List String :=
  let order := required.zipIdx.insertionSort (fun a b => longestAlternative b.1 ≤ longestAlternative a.1)
  let unmet := unmetBehaviours toLower (bytes said) ((bytes said).map (fun _ => false)) order
  (required.zipIdx.filter (·.2 ∈ unmet)).map Prod.fst

example : missingBehaviours Char.toLower "text, integer or date; columns of mixed inferred types"
    ["mixed", "date|day", "mixed inferred types"] = ["mixed"] := by
  decide

/-! ## What an empty answer is evidence of -/

/-- A letter, a digit or an underscore, in a text without capitals. -/
def WordByte (c : UInt8) : Prop := c = 95 ∨ 97 ≤ c ∧ c ≤ 122 ∨ 48 ≤ c ∧ c ≤ 57

/-- The span is a whole-word occurrence of the spelling in the text: no word goes on before it or behind it. -/
structure Occurs (said alt : List UInt8) (span : ℕ × ℕ) : Prop where
  stop_eq : span.2 = span.1 + alt.length
  found : alt <+: said.drop span.1
  before : ∀ c, 0 < span.1 → said[span.1 - 1]? = some c → ¬WordByte c
  behind : ∀ c, said[span.2]? = some c → ¬WordByte c

variable {said} in
lemma not_wordByte {i : ℕ} (h : isWordByte said i = false) {c : UInt8} (hc : said[i]? = some c) : ¬WordByte c := by
  simpa [isWordByte, WordByte, hc, and_assoc] using h

/-- The span is an occurrence of one of a behaviour's spellings. -/
def Answers (span : ℕ × ℕ) : Prop := ∃ alt ∈ spellings toLower required, alt ≠ [] ∧ Occurs said alt span

/-- The two spans have no byte in common. -/
def Apart (a b : ℕ × ℕ) : Prop := a.2 ≤ b.1 ∨ b.2 ≤ a.1

/-- The span lies in the text, is not empty, and none of its bytes is spent. -/
def Unspent (span : ℕ × ℕ) : Prop :=
  span.1 < span.2 ∧ span.2 ≤ spent.length ∧ spanIsSpent spent span.1 span.2 = false

lemma getElem?_spend (start stop i : ℕ) :
    (spend spent start stop)[i]? = spent[i]?.map (fun b => b || (start ≤ i && i < stop)) := by
  simp [spend]

variable {spent : List Bool}

lemma spanIsSpent_eq_false_iff {start stop : ℕ} : spanIsSpent spent start stop = false ↔
      ∀ i, start ≤ i → i < stop → spent[i]? ≠ some true := by
  rw [spanIsSpent, any_eq_false]
  constructor
  · intro h i hstart hstop htrue
    refine h true (mem_iff_getElem?.mpr ⟨i - start, ?_⟩) rfl
    rw [getElem?_drop, getElem?_take, if_pos (by omega), ← htrue]
    congr 1
    omega
  · rintro h b hb rfl
    obtain ⟨k, hk⟩ := mem_iff_getElem?.mp hb
    rw [getElem?_drop, getElem?_take] at hk
    split at hk
    · exact h (start + k) (by omega) (by omega) hk
    · cases hk

lemma Unspent.of_spend {a b : ℕ × ℕ} (ha : Unspent spent a) (hb : Unspent (spend spent a.1 a.2) b) :
    Unspent spent b ∧ Apart a b := by
  obtain ⟨hne, hle, hfree⟩ := hb
  rw [spend, length_mapIdx] at hle
  rw [spanIsSpent_eq_false_iff] at hfree
  have hlt (i : ℕ) (hi : i < b.2) : spent[i]? = some (spent.get ⟨i, by omega⟩) := by simp
  constructor
  · refine ⟨hne, hle, spanIsSpent_eq_false_iff.mpr fun i hstart hstop htrue => ?_⟩
    exact hfree i hstart hstop (by rw [getElem?_spend, htrue]; rfl)
  · -- The larger of the two starts lies in both spans otherwise.
    by_contra happart
    have hcommon : ∀ i, a.1 ≤ i → i < a.2 → b.1 ≤ i → i < b.2 → False := by
      intro i h₁ h₂ h₃ h₄
      refine hfree i h₃ h₄ ?_
      rw [getElem?_spend, hlt i h₄]
      simp [h₁, h₂]
    have hne' := ha.1
    unfold Apart at happart
    exact hcommon (max a.1 b.1) (by omega) (by omega) (by omega) (by omega)

variable {said : List UInt8} {spent' : List Bool}

lemma claimSpelling_spec {alt : List UInt8} (hlen : spent.length = said.length) (halt : alt ≠ []) {fuel i : ℕ}
    (h : claimSpelling said alt spent fuel i = some spent') :
    ∃ span, Occurs said alt span ∧ Unspent spent span ∧ spent' = spend spent span.1 span.2 := by
  induction fuel generalizing i with
  | zero => cases h
  | succ fuel ih =>
    rw [claimSpelling] at h
    cases hindex : indexFrom said alt i with
    | none =>
      rw [hindex] at h
      cases h
    | some start =>
      rw [hindex] at h
      dsimp only at h
      split at h
      · exact ih h
      · next hfree =>
        simp only [Bool.or_eq_true, Bool.not_eq_true', not_or, Bool.not_eq_false, Bool.not_eq_true] at hfree
        have hfound : alt <+: said.drop start := isPrefixOf_iff_prefix.mp
          (find?_some (p := fun k => alt.isPrefixOf (said.drop k)) hindex)
        have hbound := hfound.length_le
        have hpos := length_pos_of_ne_nil halt
        rw [length_drop] at hbound
        simp only [wholeWord, Bool.and_eq_true, Bool.not_eq_true'] at hfree
        have hbefore : ∀ c, 0 < start → said[start - 1]? = some c → ¬WordByte c := fun c hstart hc =>
          not_wordByte (by rw [Int.natCast_sub hstart]; exact hfree.1.1) hc
        exact ⟨(start, start + alt.length), ⟨rfl, hfound, hbefore, fun c hc => not_wordByte hfree.1.2 hc⟩,
          ⟨by simpa using hpos, by dsimp only; omega, hfree.2⟩, (Option.some.inj h).symm⟩

lemma claimOccurrence_spec (hlen : spent.length = said.length)
    {required : String} (h : claimOccurrence toLower said spent required = some spent') :
    ∃ span, Answers toLower said required span ∧ Unspent spent span ∧ spent' = spend spent span.1 span.2 := by
  obtain ⟨alt, hmem, halt⟩ := exists_of_findSome?_eq_some h
  have hne : alt ≠ [] := by
    obtain ⟨s, hs, rfl⟩ := mem_map.mp hmem
    have hempty : s ≠ "" := by simpa using (mem_filter.mp hs).2
    intro hnil
    exact hempty (String.toByteArray_inj.mp (ByteArray.ext (Array.toList_inj.mp hnil)))
  obtain ⟨span, hoccurs, hspan⟩ := claimSpelling_spec hlen hne halt
  exact ⟨span, ⟨alt, hmem, hne, hoccurs⟩, hspan⟩

variable {order : List (String × ℕ)}

/-- When every behaviour of a matching is mentioned, each has an occurrence of its own. -/
lemma exists_spans (hnodup : (order.map Prod.snd).Nodup)
    (hlen : spent.length = said.length) (h : unmetBehaviours toLower said spent order = []) :
    ∃ span : ℕ → ℕ × ℕ, (∀ r ∈ order, Answers toLower said r.1 (span r.2) ∧ Unspent spent (span r.2)) ∧
      order.Pairwise (fun r r' => Apart (span r.2) (span r'.2)) := by
  induction order generalizing spent with
  | nil => exact ⟨fun _ => (0, 0), by simp, .nil⟩
  | cons r order ih =>
    obtain ⟨required, i⟩ := r
    obtain ⟨hnew, hnodup⟩ := nodup_cons.mp hnodup
    rw [unmetBehaviours] at h
    cases hclaim : claimOccurrence toLower said spent required with
    | none =>
      rw [hclaim] at h
      cases h
    | some spent' =>
      rw [hclaim] at h
      obtain ⟨own, hanswers, hunspent, rfl⟩ := claimOccurrence_spec toLower hlen hclaim
      obtain ⟨span, hspan, hapart⟩ := ih hnodup (by rw [spend, length_mapIdx, hlen]) h
      have hother : ∀ r ∈ order, Function.update span i own r.2 = span r.2 := fun r hr =>
        Function.update_of_ne (fun heq => hnew (mem_map.mpr ⟨r, hr, heq⟩)) ..
      refine ⟨Function.update span i own, forall_mem_cons.mpr ⟨?_, fun r hr => ?_⟩,
        pairwise_cons.mpr ⟨fun r hr => ?_, hapart.imp_of_mem fun hr hr' => ?_⟩⟩
      · simpa using ⟨hanswers, hunspent⟩
      · rw [hother r hr]
        exact ⟨(hspan r hr).1, (hunspent.of_spend (hspan r hr).2).1⟩
      · rw [hother r hr, Function.update_self]
        exact (hunspent.of_spend (hspan r hr).2).2
      · rw [hother _ hr, hother _ hr']
        exact id

lemma mem_order_of_unmet {i : ℕ} (h : i ∈ unmetBehaviours toLower said spent order) : i ∈ order.map Prod.snd := by
  induction order generalizing spent with
  | nil => cases h
  | cons r order ih =>
    rw [unmetBehaviours] at h
    split at h
    · exact mem_cons_of_mem _ (ih h)
    · rcases mem_cons.mp h with rfl | h
      · exact mem_cons_self
      · exact mem_cons_of_mem _ (ih h)

/-- Fidelity is sound.  If no required behaviour is missing, each has a span of the text that is a
whole-word occurrence of one of its spellings, and the spans of different behaviours have no byte in
common. -/
theorem fidelity_sound (said : String) (required : List String) (h : missingBehaviours toLower said required = []) :
    ∃ span : ℕ → ℕ × ℕ, (∀ i r, required[i]? = some r → Answers toLower (bytes said) r (span i)) ∧
        ∀ i j, i < required.length → j < required.length → i ≠ j → Apart (span i) (span j) := by
  set order := required.zipIdx.insertionSort (fun a b => longestAlternative b.1 ≤ longestAlternative a.1) with horder
  have hperm : order.Perm required.zipIdx := perm_insertionSort _ _
  have hsnd : (required.zipIdx.map Prod.snd).Nodup := by
    rw [zipIdx_map_snd]
    exact nodup_range' 
  have hunmet : unmetBehaviours toLower (bytes said) ((bytes said).map fun _ => false) order = [] := by
    refine eq_nil_iff_forall_not_mem.mpr fun i hi => ?_
    obtain ⟨r, hr, rfl⟩ := mem_map.mp (mem_order_of_unmet toLower hi)
    have hnone := filter_eq_nil_iff.mp (map_eq_nil_iff.mp h) r (hperm.mem_iff.mp hr)
    exact hnone (by simpa using hi)
  obtain ⟨span, hspan, hapart⟩ := exists_spans toLower ((hperm.map _).nodup_iff.mpr hsnd) (by simp) hunmet
  have hmem : ∀ i r, required[i]? = some r → (r, i) ∈ order := fun i r hr =>
    hperm.mem_iff.mpr (mem_zipIdx_iff_getElem?.mpr hr)
  refine ⟨span, fun i r hr => (hspan _ (hmem i r hr)).1, fun i j hi hj hne => ?_⟩
  have : Std.Symm (fun r r' : String × ℕ => Apart (span r.2) (span r'.2)) := ⟨fun _ _ => Or.symm⟩
  exact hapart.forall (hmem i _ (getElem?_eq_getElem hi)) (hmem j _ (getElem?_eq_getElem hj)) (by simp [hne])

/-- The two words of a text answer two behaviours. -/
theorem fidelity_sound_two : missingBehaviours Char.toLower "ab cd" ["ab", "cd|ab"] = [] ∧
      ∃ a b, Answers Char.toLower (bytes "ab cd") "ab" a ∧ Answers Char.toLower (bytes "ab cd") "cd|ab" b ∧ Apart a b := by
  have h : missingBehaviours Char.toLower "ab cd" ["ab", "cd|ab"] = [] := by decide
  obtain ⟨span, hspan, hapart⟩ := fidelity_sound Char.toLower "ab cd" ["ab", "cd|ab"] h
  exact ⟨h, span 0, span 1, hspan 0 _ rfl, hspan 1 _ rfl, hapart 0 1 (by decide) (by decide) (by decide)⟩

end DeliveryEngine.Handoff
