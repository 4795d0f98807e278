import DeliveryEngine.Go.Text

/-!
# Go's slash-separated paths

`clean` is `path.Clean`: the shortest path equivalent to its argument by purely lexical processing.
It is also `filepath.Clean` where the separator is the slash.
-/

namespace DeliveryEngine.Go

open List

namespace Path

/-- Fold one element into the elements kept so far, the last first.  A parent element takes back the
element before it, disappears at the root, and stays at the start of a relative path. -/
def step (rooted : Bool) (kept : List String) (element : String) : List String :=
  if element = "" ∨ element = "." then kept
  else if element = ".." then
    match kept with
    | [] => if rooted then [] else [".."]
    | ".." :: _ => ".." :: kept
    | _ :: rest => rest
  else element :: kept

/-- `path.Clean`. -/
def clean (p : String) : String :=
  let rooted := hasPrefix p "/"
  let elements := ((splitOn p '/').foldl (step rooted) []).reverse
  let body := (if rooted then "/" else "") ++ joinWith elements "/"
  if body = "" then "." else body

/-- `filepath.Join` of two elements. -/
def join (a b : String) : String :=
  if a = "" ∧ b = "" then ""
  else if a = "" then clean b
  else if b = "" then clean a
  else clean (a ++ "/" ++ b)

lemma exists_clean_eq {p last : String} {before : List String} (hsplit : splitOn p '/' = before ++ [last])
    (hne : last ≠ "") (hdot : last ≠ ".") (hdots : last ≠ "..") : ∃ pre, clean p = pre ++ last := by
  have hstep (rooted : Bool) (kept : List String) : step rooted kept last = last :: kept := by
    simp [step, hne, hdot, hdots]
  unfold clean
  dsimp only
  rw [hsplit, foldl_append, foldl_cons, foldl_nil, hstep, reverse_cons]
  obtain ⟨pre, hpre⟩ := exists_joinWith_concat (before.foldl (step (hasPrefix p "/")) []).reverse last "/"
  rw [hpre, if_neg]
  · exact ⟨_, String.append_assoc.symm⟩
  · intro hbody
    have hchars := congrArg String.toList hbody
    simp only [String.toList_append, String.toList_empty, append_eq_nil_iff] at hchars
    exact hne (String.toList_inj.mp (by simpa using hchars.2.2))

lemma exists_join_eq (a : String) {b : String} (hslash : '/' ∉ b.toList) (hne : b ≠ "") (hdot : b ≠ ".")
    (hdots : b ≠ "..") : ∃ pre, join a b = pre ++ b := by
  have hsep (a : String) : splitOn (a ++ "/" ++ b) '/' = splitOn a '/' ++ [b] := splitOn_append_sep a b hslash
  unfold join
  split_ifs with hempty ha
  · exact absurd hempty.2 hne
  · have hsingle : splitOn b '/' = [] ++ [b] := splitOn_of_notMem hslash
    exact exists_clean_eq hsingle hne hdot hdots
  · exact exists_clean_eq (hsep a) hne hdot hdots

example : ["", "a//b/./c", "a/b/../../..", "/../a/"].map clean = [".", "a/b/c", "..", "/a"] := by
  decide

end Path

end DeliveryEngine.Go
