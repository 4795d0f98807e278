import Mathlib.Data.List.Infix
import Mathlib.Data.List.Sort
import Mathlib.Data.List.TakeWhile
import Mathlib.Data.String.Basic
import Mathlib.Tactic.Lemma

/-!
# Go's string functions

The functions of `strings`, `sort` and `fmt` that the source uses, over `String`, by recursion on the character list so
that they evaluate in the kernel.  A Go string is a byte sequence and a Lean `String` a sequence of Unicode scalars;
the two agree on valid UTF-8, because it is self-synchronizing and its byte-wise order is the scalar order.
-/

namespace DeliveryEngine.Go

open List

/-! ## White space -/

/-- The scalars `unicode.IsSpace` accepts: the White_Space property. -/
def isSpace (c : Char) : Bool :=
  let n := c.toNat
  (9 ≤ n && n ≤ 13) || n == 0x20 || n == 0x85 || n == 0xA0 || n == 0x1680 ||
    (0x2000 ≤ n && n ≤ 0x200A) || n == 0x2028 || n == 0x2029 || n == 0x202F ||
    n == 0x205F || n == 0x3000

/-- `strings.TrimSpace` on the character list. -/
def trimSpaceList (cs : List Char) : List Char := ((cs.dropWhile isSpace).reverse.dropWhile isSpace).reverse

/-- `strings.TrimSpace`. -/
def trimSpace (s : String) : String := String.ofList (trimSpaceList s.toList)

variable {s : String}

@[simp] lemma trimSpace_empty : trimSpace "" = "" := by decide

lemma ne_empty_of_trimSpace_ne (h : trimSpace s ≠ "") : s ≠ "" := by
  rintro rfl
  exact h trimSpace_empty

variable {c : Char}

lemma mem_dropWhile_isSpace {cs : List Char} (hc : c ∈ cs) (hspace : isSpace c = false) :
    c ∈ cs.dropWhile isSpace := by
  rw [← takeWhile_append_dropWhile (p := isSpace) (l := cs), mem_append] at hc
  refine hc.resolve_left fun htake => ?_
  rw [mem_takeWhile_imp htake] at hspace
  cases hspace

lemma mem_trimSpace (hc : c ∈ s.toList) (hspace : isSpace c = false) : c ∈ (trimSpace s).toList := by
  rw [trimSpace, String.toList_ofList, trimSpaceList, mem_reverse]
  exact mem_dropWhile_isSpace (mem_reverse.mpr (mem_dropWhile_isSpace hc hspace)) hspace

lemma mem_of_mem_trimSpace (hc : c ∈ (trimSpace s).toList) : c ∈ s.toList := by
  rw [trimSpace, String.toList_ofList, trimSpaceList, mem_reverse] at hc
  exact (dropWhile_suffix _).subset (mem_reverse.mp ((dropWhile_suffix _).subset hc))

lemma trimSpace_ne_empty_iff : trimSpace s ≠ "" ↔ ∃ c ∈ s.toList, isSpace c = false := by
  refine ⟨fun h => ?_, ?_⟩
  · by_contra hall
    push Not at hall
    have hdrop : s.toList.dropWhile isSpace = [] := dropWhile_eq_nil_iff.mpr fun c hc => by simpa using hall c hc
    exact h (by simp [trimSpace, trimSpaceList, hdrop])
  · rintro ⟨c, hc, hspace⟩ hempty
    have hmem := mem_trimSpace hc hspace
    rw [hempty] at hmem
    cases hmem

/-- `strings.Fields` on the character list: the maximal runs of non-space characters. -/
def fieldsList : List Char → List Char → List (List Char)
  | [], [] => []
  | [], cur => [cur.reverse]
  | c :: cs, cur =>
    if isSpace c then
      match cur with
      | [] => fieldsList cs []
      | _ => cur.reverse :: fieldsList cs []
    else fieldsList cs (c :: cur)

/-- `strings.Fields`. -/
def fields (s : String) : List String := (fieldsList s.toList []).map String.ofList

/-! ## Substrings -/

/-- `strings.HasPrefix`. -/
def hasPrefix (s pre : String) : Bool := pre.toList.isPrefixOf s.toList

/-- `strings.HasSuffix`. -/
def hasSuffix (s suf : String) : Bool := suf.toList.isSuffixOf s.toList

/-- `strings.Contains`. -/
def contains (s sub : String) : Bool := s.toList.tails.any (sub.toList.isPrefixOf ·)

lemma contains_singleton : contains s (String.singleton c) = true ↔ c ∈ s.toList := by
  simp only [contains, any_eq_true, mem_tails, String.toList_singleton]
  constructor
  · rintro ⟨t, ht, hprefix⟩
    cases t with
    | nil => cases hprefix
    | cons d t =>
      have hd : c = d := by simpa using hprefix
      exact ht.subset (hd ▸ mem_cons_self)
  · intro hc
    obtain ⟨before, after, heq⟩ := append_of_mem hc
    exact ⟨c :: after, ⟨before, heq.symm⟩, by simp⟩

/-- `strings.ContainsAny`. -/
def containsAny (s chars : String) : Bool := s.toList.any (chars.toList.contains ·)

/-- `strings.Split` at a one-character separator, on the character list. -/
def splitList (sep : Char) : List Char → List Char → List (List Char)
  | [], cur => [cur.reverse]
  | c :: cs, cur =>
    if c = sep then cur.reverse :: splitList sep cs [] else splitList sep cs (c :: cur)

/-- `strings.Split` at a one-character separator. -/
def splitOn (s : String) (sep : Char) : List String := (splitList sep s.toList []).map String.ofList

/-- `strings.ReplaceAll` of one character by another. -/
def replaceChar (s : String) (old new : Char) : String :=
  String.ofList (s.toList.map (fun c => if c = old then new else c))

/-- `strings.Join`. -/
def joinWith (parts : List String) (sep : String) : String := sep.intercalate parts

lemma joinWith_ne_empty {a b : String} {rest : List String} {sep : String} (hsep : sep ≠ "") :
    joinWith (a :: b :: rest) sep ≠ "" := by
  intro h
  have hlen := congrArg String.toList h
  rw [joinWith, String.intercalate_cons_cons] at hlen
  simp only [String.toList_append, String.toList_empty, append_eq_nil_iff] at hlen
  exact hsep (String.toList_inj.mp hlen.1.2)

lemma exists_joinWith_concat (parts : List String) (last sep : String) :
    ∃ before, joinWith (parts ++ [last]) sep = before ++ last := by
  induction parts with
  | nil => exact ⟨"", by simp [joinWith]⟩
  | cons part parts ih =>
    obtain ⟨before, hbefore⟩ := ih
    obtain ⟨next, rest, hnext⟩ := exists_cons_of_ne_nil (concat_ne_nil last parts)
    refine ⟨part ++ sep ++ before, ?_⟩
    rw [cons_append, hnext, joinWith, String.intercalate_cons_cons, ← hnext,
      show sep.intercalate (parts ++ [last]) = _ from hbefore]
    exact String.append_assoc.symm

variable {sep : Char}

lemma splitList_of_notMem {ds : List Char} (hsep : sep ∉ ds) (cur : List Char) :
    splitList sep ds cur = [cur.reverse ++ ds] := by
  induction ds generalizing cur with
  | nil => simp [splitList]
  | cons d ds ih =>
    rw [mem_cons, not_or] at hsep
    rw [splitList, if_neg (Ne.symm hsep.1), ih hsep.2]
    simp

lemma splitOn_of_notMem (hsep : sep ∉ s.toList) : splitOn s sep = [s] := by
  simp [splitOn, splitList_of_notMem hsep]

lemma splitOn_append_sep (a b : String) (hsep : sep ∉ b.toList) :
    splitOn (a ++ String.singleton sep ++ b) sep = splitOn a sep ++ [b] := by
  have hsplit : ∀ cs cur : List Char,
      splitList sep (cs ++ sep :: b.toList) cur = splitList sep cs cur ++ [b.toList] := by
    intro cs
    induction cs with
    | nil => exact fun cur => by simp [splitList, splitList_of_notMem hsep]
    | cons c cs ih =>
      intro cur
      rw [cons_append, splitList, splitList]
      split_ifs
      · rw [ih, cons_append]
      · exact ih _
  simp [splitOn, hsplit]

/-! ## Ordering and quoting -/

/-- `sort.Strings`. -/
def sortStrings (xs : List String) : List String := xs.insertionSort (· ≤ ·)

variable {xs : List String}

@[simp] lemma mem_sortStrings {x : String} : x ∈ sortStrings xs ↔ x ∈ xs := (perm_insertionSort _ xs).mem_iff

@[simp] lemma sortStrings_eq_nil : sortStrings xs = [] ↔ xs = [] := by
  constructor
  · intro h
    have hperm := perm_insertionSort (· ≤ ·) xs
    rw [show xs.insertionSort (· ≤ ·) = [] from h] at hperm
    exact hperm.symm.eq_nil
  · rintro rfl
    rfl

lemma sortStrings_congr {ys : List String} (h : xs.Perm ys) : sortStrings xs = sortStrings ys := by
  have hperm : (sortStrings xs).Perm (sortStrings ys) :=
    (perm_insertionSort _ xs).trans (h.trans (perm_insertionSort _ ys).symm)
  exact hperm.eq_of_pairwise' (pairwise_insertionSort _ xs) (pairwise_insertionSort _ ys)

/-- A hexadecimal digit, in lower case. -/
def hexDigit (n : ℕ) : Char := "0123456789abcdef".toList.getD n '0'

/-- How `%q` prints a scalar inside its quotes.  A scalar above ASCII is taken to be printable. -/
def quoteChar (c : Char) : List Char :=
  match c.toNat with
  | 7 => ['\\', 'a']
  | 8 => ['\\', 'b']
  | 9 => ['\\', 't']
  | 10 => ['\\', 'n']
  | 11 => ['\\', 'v']
  | 12 => ['\\', 'f']
  | 13 => ['\\', 'r']
  | 34 => ['\\', '"']
  | 92 => ['\\', '\\']
  | n => if n < 32 ∨ n = 127 then ['\\', 'x', hexDigit (n / 16), hexDigit (n % 16)] else [c]

/-- The verb `%q`. -/
def quote (s : String) : String := "\"" ++ String.ofList (s.toList.flatMap quoteChar) ++ "\""

example : quote "a\"b\nc\x01" = "\"a\\\"b\\nc\\x01\"" := by decide

end DeliveryEngine.Go
