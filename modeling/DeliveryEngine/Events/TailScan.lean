import DeliveryEngine.Go.Lines
import DeliveryEngine.Go.Text
import Mathlib.Data.List.DropRight

/-!
# The event log, read from its end

An event log is read backwards, in chunks of 64 KiB.  `readFilteredTailFromFile` looks for the last events that match a
filter and carries the beginning of a chunk, which may be half a line, to the next one; `readLatestSeqFromTail` looks
for the last sequence number and carries all that it has read.  The first finds what a scan from the beginning finds.
The second does under `SeqFound`: it forgets after the first chunk that the last line has no end, and panics where that
chunk has one line end only and does not end with it (`readLatestSeq_panics`).
-/

namespace DeliveryEngine.Events

open List Go

/-- What both scans make of a line: `unmarshal` says which value of JSON it is, if any. -/
def readLine {α : Type} (unmarshal : List UInt8 → Option α) (line : List UInt8) : Option α :=
  if (runes (dropCR line)).all isSpace then none else unmarshal (dropCR line)

/-! ## Chunks -/

def chunkSize : ℕ := 64 * 1024

/-- Where the chunk begins that ends at `finish`. -/
def chunkStart (finish : ℕ) : ℕ := finish - min chunkSize finish

lemma chunkStart_eq (finish : ℕ) : chunkStart finish = finish - chunkSize := by
  rw [chunkStart]
  omega

lemma chunkStart_lt {finish : ℕ} (h : 0 < finish) : chunkStart finish < finish := by
  rw [chunkStart_eq]
  exact Nat.sub_lt h (by decide)

lemma exists_chunk {front : List UInt8} (h : front ≠ []) :
    ∃ earlier chunk, chunk ≠ [] ∧ front = earlier ++ chunk ∧ chunkStart front.length = earlier.length := by
  have hlt := chunkStart_lt (length_pos_iff.mpr h)
  refine ⟨front.take (chunkStart front.length), front.drop (chunkStart front.length), by simpa using hlt, ?_, ?_⟩
  · rw [take_append_drop]
  · rw [length_take_of_le hlt.le]

lemma chunk_induction {P : List UInt8 → List UInt8 → Prop} (hnil : ∀ back, P [] back)
    (hchunk : ∀ earlier chunk back, chunk ≠ [] → chunkStart (earlier ++ chunk).length = earlier.length →
      P earlier (chunk ++ back) → P (earlier ++ chunk) back) (front back : List UInt8) : P front back := by
  induction hlength : front.length using Nat.strong_induction_on generalizing front back with
  | _ n ih =>
    by_cases h : front = []
    · exact h ▸ hnil back
    · obtain ⟨earlier, chunk, hne, rfl, hstart⟩ := exists_chunk h
      refine hchunk earlier chunk back hne hstart (ih earlier.length ?_ _ _ rfl)
      simpa [← hlength] using length_pos_iff.mpr hne

lemma take_drop_chunk (earlier chunk back : List UInt8) :
    ((earlier ++ chunk ++ back).take (earlier ++ chunk).length).drop earlier.length = chunk := by
  rw [take_left, drop_left]

/-! ## Lines -/

abbrev split (data : List UInt8) : List (List UInt8) := splitOn newline data

lemma split_append_newline (a b : List UInt8) : split (a ++ newline :: b) = split a ++ split b :=
  splitOnP_append_cons a b (beq_self_eq_true newline)

lemma split_of_notMem {a : List UInt8} (h : newline ∉ a) : split a = [a] :=
  splitOnP_eq_singleton fun _ hb => beq_false_of_ne fun heq => h (heq ▸ hb)

lemma split_eq_cons (a : List UInt8) : ∃ p rest, split a = p :: rest := exists_cons_of_ne_nil (splitOnP_ne_nil _ a)

lemma split_cases (b : List UInt8) : newline ∉ b ∧ split b = [b] ∨
    ∃ p rest, newline ∉ p ∧ b = p ++ newline :: rest ∧ split b = p :: split rest := by
  by_cases h : newline ∈ b
  · obtain ⟨p, rest, rfl, hp⟩ := eq_append_cons_of_mem h
    exact .inr ⟨p, rest, hp, rfl, by rw [split_append_newline, split_of_notMem hp, singleton_append]⟩
  · exact .inl ⟨h, split_of_notMem h⟩

variable {rest : List (List UInt8)}

lemma split_append {a b p : List UInt8} (h : split b = p :: rest) :
    split (a ++ b) = split (a ++ p) ++ rest := by
  obtain ⟨-, hb⟩ | ⟨p', b', -, rfl, hb⟩ := split_cases b
  · obtain ⟨rfl, rfl⟩ := cons.inj (hb.symm.trans h)
    rw [append_nil]
  · obtain ⟨rfl, rfl⟩ := cons.inj (hb.symm.trans h)
    rw [← append_assoc, split_append_newline]

/-! ## The last events -/

section
variable {ε : Type} (read : List UInt8 → Option ε) (limit : ℕ)

/-- The lines of a chunk, the last one first, until there are enough events. -/
def collect : List ε → List (List UInt8) → List ε
  | reversed, [] => reversed
  | reversed, line :: lines =>
    if reversed.length < limit then collect (reversed ++ (read line).toList) lines else reversed

def tailFrom (content : List UInt8) (reversed : List ε) (pending : List UInt8) (finish : ℕ) : List ε :=
  if _h : 0 < finish ∧ reversed.length < limit then
    let start := chunkStart finish
    let parts := split ((content.take finish).drop start ++ pending)
    if 0 < start then tailFrom content (collect read limit reversed parts.tail.reverse) (parts.headD []) start
    else tailFrom content (collect read limit reversed parts.reverse) [] start
  else reversed.reverse
termination_by finish
decreasing_by all_goals exact chunkStart_lt _h.1

variable (unmarshal : List UInt8 → Option ε) (matchesFilter : ε → Bool) (content : List UInt8)

def readFilteredTailFromFile : List ε :=
  tailFrom (fun line => (readLine unmarshal line).filter matchesFilter) limit content [] [] content.length

lemma collect_eq (found : List ε) (lines : List (List UInt8)) :
    collect read limit (found.take limit) lines = (found ++ lines.filterMap read).take limit := by
  induction lines generalizing found with
  | nil => simp [collect]
  | cons line lines ih =>
    rw [collect, length_take]
    split_ifs with hlt
    · have hall : found.take limit = found := take_of_length_le (by omega)
      have hmore : (found ++ (read line).toList).take limit = found ++ (read line).toList := by
        have := Option.length_toList_le (o := read line)
        exact take_of_length_le (by rw [length_append]; omega)
      rw [hall, ← hmore, ih]
      cases hread : read line <;> simp [hread]
    · rw [take_append_of_le_length (by omega)]

lemma tailFrom_eq {front back pending : List UInt8} (hfront : front ≠ []) (hback : split back = pending :: rest) :
    tailFrom read limit (front ++ back) ((rest.reverse.filterMap read).take limit) pending front.length =
      ((split (front ++ back)).filterMap read).rtake limit := by
  induction front, back using chunk_induction generalizing pending rest with
  | hnil => exact absurd rfl hfront
  | hchunk earlier chunk back hne hstart ih =>
    have hsplit : split (chunk ++ back) = split (chunk ++ pending) ++ rest := split_append hback
    rw [tailFrom]
    simp only [hstart, take_drop_chunk, length_pos_iff.mpr hfront, true_and]
    split_ifs with hmore hpos
    · obtain ⟨p, lines, hparts⟩ := split_eq_cons (chunk ++ pending)
      rw [hparts] at hsplit
      rw [hparts, collect_eq, ← filterMap_append, ← reverse_append, append_assoc]
      exact ih (length_pos_iff.mp hpos) hsplit
    · obtain rfl := length_eq_zero_iff.mp (Nat.eq_zero_of_not_pos hpos)
      rw [tailFrom, dif_neg fun h => hpos h.1, collect_eq, nil_append, hsplit, rtake_eq_reverse_take_reverse,
        ← filterMap_reverse, reverse_append, filterMap_append]
    · rw [split_append hback, rtake_eq_reverse_take_reverse, ← filterMap_reverse, reverse_append, filterMap_append,
        take_append_of_le_length]
      rw [length_take] at hmore
      omega

lemma readFilteredTail_eq : readFilteredTailFromFile limit unmarshal matchesFilter content =
      ((split content).filterMap fun line => (readLine unmarshal line).filter matchesFilter).rtake limit := by
  by_cases hempty : content = []
  · subst hempty
    rw [readFilteredTailFromFile, tailFrom]
    exact (rtake_nil limit).symm
  · have h := tailFrom_eq (fun line => (readLine unmarshal line).filter matchesFilter) limit hempty
      (show split [] = [] :: [] from rfl)
    rwa [append_nil, reverse_nil, filterMap_nil, take_nil] at h

end

/-! ## The last sequence number -/

variable (unmarshal : List UInt8 → Option ℕ)

/-- The sequence number of a line, if it has one. -/
def seqOf (line : List UInt8) : Option ℕ := (readLine unmarshal line).filter (0 < ·)

def indexByte (data : List UInt8) : Option ℕ := data.idxOf? newline

def lastIndexByte (data : List UInt8) : Option ℕ := (data.reverse.idxOf? newline).map (data.length - 1 - ·)

/-- `data[low:high]`, which panics where the end is before the beginning. -/
def slice (data : List UInt8) (low high : ℕ) : Option (List UInt8) :=
  if low ≤ high then some ((data.take high).drop low) else none

section
variable (seq : List UInt8 → Option ℕ)

/-- The last of some lines that has a sequence number. -/
def lastSeq (lines : List (List UInt8)) : Option ℕ := lines.reverse.findSome? seq

def latestSeqInCompleteLines (data : List UInt8) : Option ℕ := lastSeq seq (split data)

/-- A turn of the loop, which leaves out an unfinished last line, goes on to `next`, and returns nothing where it
panics. -/
def latestTurn (unfinished : Bool) (start : ℕ) (data : List UInt8) (next : Option ℕ) : Option ℕ :=
  let searchEnd := if unfinished then lastIndexByte data else some data.length
  let searchStart := if 0 < start then (indexByte data).map (· + 1) else some 0
  match searchEnd, searchStart with
  | some searchEnd, some searchStart =>
    match slice data searchStart searchEnd with
    | some lines => (latestSeqInCompleteLines seq lines).or next
    | none => none
  | _, _ => next

def latestFrom (content suffix : List UInt8) (first : Bool) (finish : ℕ) : Option ℕ :=
  if _h : 0 < finish then
    let start := chunkStart finish
    let data := (content.take finish).drop start ++ suffix
    latestTurn seq (first && data.getLast? ≠ some newline) start data (latestFrom content data false start)
  else some 0
termination_by finish
decreasing_by exact chunkStart_lt _h

def readLatestSeqFromTail (content : List UInt8) : Option ℕ :=
  latestFrom (seqOf unmarshal) content [] true content.length

variable (content : List UInt8)

/-- The sequence number of the last line that has one and an end, or zero. -/
def latestSeq : ℕ := (lastSeq seq (split content).dropLast).getD 0

/-- What a scan finds that takes the last line for a finished one. -/
def anySeq : ℕ := (lastSeq seq (split content)).getD 0

/-- The file fits a chunk, or its last line has an end.  Otherwise its last chunk must not have exactly one line end, and
must have a sequence number between its first and its last one, unless the unfinished line makes no difference. -/
def SeqFound : Prop :=
  content.length ≤ chunkSize ∨ content.getLast? = some newline ∨ (split (content.rtake chunkSize)).length ≠ 2 ∧
      ((lastSeq seq (split (content.rtake chunkSize)).tail.dropLast).isSome ∨ anySeq seq content = latestSeq seq content)

lemma lastSeq_append (a b : List (List UInt8)) : lastSeq seq (a ++ b) = (lastSeq seq b).or (lastSeq seq a) := by
  rw [lastSeq, reverse_append, findSome?_append, lastSeq, lastSeq]

lemma indexByte_append {p : List UInt8} (hp : newline ∉ p) (rest : List UInt8) :
    indexByte (p ++ newline :: rest) = some p.length := by
  rw [indexByte, idxOf?_eq_some_iff]
  refine ⟨by simp, by simp, fun j hj heq => hp ?_⟩
  rw [getElem_append_left hj] at heq
  exact heq ▸ getElem_mem hj

lemma lastIndexByte_append (m : List UInt8) {u : List UInt8} (hu : newline ∉ u) :
    lastIndexByte (m ++ newline :: u) = some m.length := by
  have h := indexByte_append (p := u.reverse) (by simpa using hu) m.reverse
  rw [indexByte] at h
  simp [lastIndexByte, h]

lemma slice_append (p b c : List UInt8) :
    slice (p ++ newline :: (b ++ c)) (p.length + 1) (p.length + (b.length + 1)) = some b := by
  have hwhole : p ++ newline :: (b ++ c) = (p ++ newline :: b) ++ c := by simp
  have hlength : p.length + (b.length + 1) = (p ++ newline :: b).length := by simp
  rw [slice, hwhole, hlength, take_left]
  simp

lemma latestTurn_false (earlier data : List UInt8) : latestTurn seq false earlier.length data
    (some (if earlier = [] then 0 else anySeq seq (earlier ++ data))) = some (anySeq seq (earlier ++ data)) := by
  by_cases hempty : earlier = []
  · subst hempty
    simp only [latestTurn, anySeq, slice, latestSeqInCompleteLines]
    cases h : lastSeq seq (split data) <;> simp [h]
  · have hpos := length_pos_iff.mpr hempty
    obtain ⟨hnone, -⟩ | ⟨p, b, hp, rfl, hdata⟩ := split_cases data
    · have hindex : indexByte data = none := by simpa [indexByte] using hnone
      simp [latestTurn, hpos, hempty, hindex]
    · have hslice := slice_append p b []
      rw [append_nil] at hslice
      rw [anySeq, split_append hdata, lastSeq_append]
      simp [latestTurn, hpos, hempty, indexByte_append hp, hslice, latestSeqInCompleteLines]
      cases lastSeq seq (split b) <;> rfl

lemma latestTurn_true (start : ℕ) (data : List UInt8) (next : Option ℕ) : latestTurn seq true start data next =
    if 0 < start then if (split data).length = 2 then none else (lastSeq seq (split data).tail.dropLast).or next
    else (lastSeq seq (split data).dropLast).or next := by
  by_cases hmem : newline ∈ data
  · obtain ⟨u, m, hdata, hu⟩ := eq_append_cons_of_mem (mem_reverse.mpr hmem)
    obtain ⟨m, u, rfl, hu⟩ : ∃ m u, data = m ++ newline :: u ∧ newline ∉ u :=
      ⟨m.reverse, u.reverse, by rw [← reverse_reverse data, hdata]; simp, by simpa using hu⟩
    rw [split_append_newline, split_of_notMem hu]
    by_cases hpos : 0 < start
    · obtain ⟨hnone, hm⟩ | ⟨p, b, hp, rfl, hm⟩ := split_cases m
      · simp [latestTurn, hpos, hm, lastIndexByte_append m hu, indexByte_append hnone, slice]
      · have hlast := lastIndexByte_append (p ++ newline :: b) hu
        rw [append_assoc, cons_append, length_append] at hlast
        simp [latestTurn, hpos, hm, hlast, indexByte_append hp, slice_append, latestSeqInCompleteLines]
    · simp [latestTurn, hpos, lastIndexByte_append m hu, slice, latestSeqInCompleteLines]
  · have hindex : lastIndexByte data = none := by simpa [lastIndexByte] using hmem
    simp [latestTurn, hindex, split_of_notMem hmem, lastSeq]

lemma latestFrom_false (front back : List UInt8) : latestFrom seq (front ++ back) back false front.length =
    some (if front = [] then 0 else anySeq seq (front ++ back)) := by
  induction front, back using chunk_induction with
  | hnil back =>
    rw [latestFrom]
    rfl
  | hchunk earlier chunk back hne hstart ih =>
    have hfront : earlier ++ chunk ≠ [] := append_ne_nil_of_right_ne_nil _ hne
    rw [latestFrom, dif_pos (length_pos_iff.mpr hfront), if_neg hfront]
    simp only [hstart, take_drop_chunk, Bool.false_and]
    rw [append_assoc, ih, latestTurn_false]

lemma anySeq_of_finished (hseq : seq [] = none) {content : List UInt8} (h : content.getLast? = some newline) :
    anySeq seq content = latestSeq seq content := by
  obtain ⟨m, rfl⟩ := getLast?_eq_some_iff.mp h
  have hsplit : split (m ++ [newline]) = split m ++ [[]] := split_append_newline m []
  have hnone : lastSeq seq [[]] = none := by simp [lastSeq, hseq]
  rw [anySeq, latestSeq, hsplit, dropLast_concat, lastSeq_append, hnone, Option.none_or]

lemma latestSeq_append {earlier chunk : List UInt8} {n : ℕ} (h : lastSeq seq (split chunk).tail.dropLast = some n) :
    latestSeq seq (earlier ++ chunk) = n := by
  obtain ⟨p, rest, hsplit⟩ := split_eq_cons chunk
  rw [hsplit, tail_cons] at h
  have hrest : rest ≠ [] := by
    rintro rfl
    cases h
  rw [latestSeq, split_append hsplit, dropLast_append_of_ne_nil hrest, lastSeq_append, h]
  rfl

lemma latestFrom_eq_iff (hseq : seq [] = none) (content : List UInt8) :
    latestFrom seq content [] true content.length = some (latestSeq seq content) ↔ SeqFound seq content := by
  by_cases hne : content = []
  · subst hne
    rw [latestFrom]
    exact iff_of_true rfl (.inl (Nat.zero_le _))
  obtain ⟨earlier, chunk, hsome, hwhole, hstart⟩ := exists_chunk hne
  have hrtake : content.rtake chunkSize = chunk := by rw [rtake, ← chunkStart_eq, hstart, hwhole, drop_left]
  have hshort : content.length ≤ chunkSize ↔ earlier = [] := by
    rw [← length_eq_zero_iff, ← hstart, chunkStart_eq, Nat.sub_eq_zero_iff_le]
  have hlast : content.getLast? = chunk.getLast? := by rw [hwhole, getLast?_append_of_ne_nil _ hsome]
  have hturn : latestFrom seq content [] true content.length = latestTurn seq (content.getLast? ≠ some newline)
      earlier.length chunk (some (if earlier = [] then 0 else anySeq seq content)) := by
    have hnext := latestFrom_false seq earlier chunk
    have hchunk := take_drop_chunk earlier chunk []
    rw [append_nil, ← hwhole] at hchunk
    rw [← hwhole] at hnext
    rw [latestFrom, dif_pos (length_pos_iff.mpr hne)]
    simp only [hstart, hchunk, append_nil, Bool.true_and, hlast, hnext]
  rw [hturn, SeqFound, hshort, hrtake]
  by_cases hfinished : content.getLast? = some newline
  · have hany := latestTurn_false seq earlier chunk
    rw [← hwhole, anySeq_of_finished seq hseq hfinished] at hany
    rw [anySeq_of_finished seq hseq hfinished]
    simp [hfinished, hany]
  · rw [decide_eq_true hfinished, latestTurn_true, or_iff_right hfinished]
    by_cases hempty : earlier = []
    · subst hempty
      obtain rfl : content = chunk := hwhole
      refine iff_of_true ?_ (.inl rfl)
      rw [latestSeq, length_nil]
      cases lastSeq seq (split content).dropLast <;> rfl
    · rw [if_pos (length_pos_iff.mpr hempty), if_neg hempty, or_iff_right hempty]
      split_ifs with htwo
      · exact iff_of_false nofun fun h => h.1 htwo
      · rw [and_iff_right htwo]
        cases hinner : lastSeq seq (split chunk).tail.dropLast with
        | none => simp
        | some n => simp [hwhole, latestSeq_append seq hinner]

end

/-- Both scans find what a scan from the beginning finds, if the last sequence number can be found. -/
theorem tail_scans_agree_iff {ε : Type} (unmarshal : List UInt8 → Option ε) (unmarshalSeq : List UInt8 → Option ℕ)
    (content : List UInt8) :
    (∀ matchesFilter limit, 1 ≤ limit → readFilteredTailFromFile limit unmarshal matchesFilter content =
        ((split content).filterMap fun line => (readLine unmarshal line).filter matchesFilter).rtake limit) ∧
      readLatestSeqFromTail unmarshalSeq content = some (latestSeq (seqOf unmarshalSeq) content) ↔
        SeqFound (seqOf unmarshalSeq) content := by
  rw [readLatestSeqFromTail, latestFrom_eq_iff _ rfl]
  exact and_iff_right fun matchesFilter limit _ => readFilteredTail_eq limit unmarshal matchesFilter content

/-- There is one line end in the last chunk, and a byte after it. -/
theorem readLatestSeq_panics : readLatestSeqFromTail (fun _ => none) (replicate chunkSize 0x78 ++ [newline, 0x78]) ≠
    some (latestSeq (seqOf fun _ => none) (replicate chunkSize 0x78 ++ [newline, 0x78])) := by
  have hchunk : split ((replicate chunkSize (0x78 : UInt8) ++ [newline, 0x78]).rtake chunkSize) =
      [replicate (chunkSize - 2) 0x78, [0x78]] := by
    rw [rtake, length_append, length_replicate, length_cons, length_singleton, Nat.add_sub_cancel_left,
      drop_append_of_le_length (by rw [length_replicate]; decide), drop_replicate, split_append_newline,
      split_of_notMem fun h => absurd (eq_of_mem_replicate h) (by decide)]
    rfl
  rw [Ne, readLatestSeqFromTail, latestFrom_eq_iff _ rfl, SeqFound, hchunk]
  rintro (hshort | hlast | ⟨htwo, -⟩)
  · simp at hshort
  · simp [newline] at hlast
  · exact htwo rfl

end DeliveryEngine.Events
