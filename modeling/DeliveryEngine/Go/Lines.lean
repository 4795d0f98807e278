import DeliveryEngine.Go.Bytes

/-!
# Reading a file line by line

`scanLines` is what a loop over a `bufio.Scanner` collects: the lines of a file, each without its end, or
nothing when a line is too long for the scanner's buffer.  A last line without an end counts, unless it
is empty.
-/

namespace DeliveryEngine.Go

open List

/-- The line end. -/
def newline : UInt8 := 0x0a

/-- The lines of a file, after the bytes of a line already read, the last of them first. -/
def splitLinesFrom : List UInt8 → List UInt8 → List (List UInt8)
  | [], cur => if cur = [] then [] else [cur.reverse]
  | b :: bs, cur =>
    if b = newline then cur.reverse :: splitLinesFrom bs [] else splitLinesFrom bs (b :: cur)

def splitLines (bs : List UInt8) : List (List UInt8) := splitLinesFrom bs []

/-- A line without the carriage return that ends it. -/
def dropCR (line : List UInt8) : List UInt8 :=
  if line.getLast? = some 0x0d then line.dropLast else line

/-- The lines that a scanner with a buffer of the given size yields, unless one and its end do not fit
the buffer. -/
def scanLines (size : ℕ) (bs : List UInt8) : Option (List (List UInt8)) :=
  if (splitLines bs).all (·.length < size) then some ((splitLines bs).map dropCR)
  else none

example : scanLines 4 [0x61, 0x0d, 0x0a, 0x0a, 0x62, 0x63] = some [[0x61], [], [0x62, 0x63]] := by decide

variable {line : List UInt8}

section
variable (h : newline ∉ line)
include h

lemma splitLinesFrom_append (rest cur : List UInt8) :
    splitLinesFrom (line ++ newline :: rest) cur = (cur.reverse ++ line) :: splitLines rest := by
  induction line generalizing cur with
  | nil => simp [splitLinesFrom, splitLines]
  | cons b line ih =>
    rw [mem_cons, not_or] at h
    rw [cons_append, splitLinesFrom, if_neg (Ne.symm h.1), ih h.2]
    simp

lemma splitLines_append (rest : List UInt8) :
    splitLines (line ++ newline :: rest) = line :: splitLines rest := splitLinesFrom_append h rest []

lemma splitLines_single (hne : line ≠ []) :
    splitLines line = [line] := by
  have hfrom : ∀ (bs cur : List UInt8), newline ∉ bs → cur.reverse ++ bs ≠ [] →
      splitLinesFrom bs cur = [cur.reverse ++ bs] := by
    intro bs
    induction bs with
    | nil =>
      intro cur _ hne
      rw [splitLinesFrom, if_neg (by simpa using hne), append_nil]
    | cons b bs ih =>
      intro cur hbs _
      rw [mem_cons, not_or] at hbs
      rw [splitLinesFrom, if_neg (Ne.symm hbs.1), ih (b :: cur) hbs.2 (by simp)]
      simp
  exact hfrom line [] h hne

end

lemma splitLines_flatMap {lines : List (List UInt8)} (h : ∀ line ∈ lines, newline ∉ line) (rest : List UInt8) :
    splitLines (lines.flatMap (· ++ [newline]) ++ rest) = lines ++ splitLines rest := by
  induction lines with
  | nil => rfl
  | cons line lines ih =>
    obtain ⟨hline, hlines⟩ := forall_mem_cons.mp h
    simp only [flatMap_cons, append_assoc, cons_append, nil_append]
    rw [splitLines_append hline, ih hlines]

end DeliveryEngine.Go
