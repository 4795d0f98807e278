import DeliveryEngine.Go.Lines
import DeliveryEngine.Unattended.RecordCodec
import Mathlib.Data.List.Pairwise

/-!
# The journal as a file

On disk the journal is a file of lines, one record each, that is only ever appended to.  A crash may leave any part of
the last line.  Opening does not remove it, and the next record is written on the same line, so the journal is read as
it should be only when the crash left nothing of the line, or all of it (`recovers_iff`).  A line that is too long for
the reader's buffer is the other way to lose the journal.
-/

namespace DeliveryEngine.Unattended

open Go Go.Json List

/-! ## Reading -/

/-- Why a journal cannot be read. -/
inductive ReadError
  | tooLong
  /-- A line other than the last is not a record.  Blank lines are not counted. -/
  | corrupt (line : ℕ)
  deriving DecidableEq

/-- The size of the reader's buffer, which a line and its end have to fit. -/
def maxLine : ℕ := 4 * 1024 * 1024

/-- The records of the lines, each of which is one or is malformed.  The result says whether the last
line was dropped. -/
def collect : ℕ → List (Option Record) → Except ReadError (List Record × Bool)
  | _, [] => .ok ([], false)
  | line, some r :: rest => (collect (line + 1) rest).map (fun (rs, truncated) => (r :: rs, truncated))
  | _, [none] => .ok ([], true)
  | line, none :: _ => .error (.corrupt line)

/-- Whether a line holds nothing but white space. -/
def isBlank (line : List UInt8) : Bool := trimSpaceList (runes line) = []

variable (file : Option (List UInt8))

def readJournal : Except ReadError (List Record × Bool) :=
  match file with
  | none => .ok ([], false)
  | some bs =>
    match scanLines maxLine bs with
    | none => .error .tooLong
    | some lines => collect 1 ((lines.filter (fun line => !isBlank line)).map (unmarshal recordCodec))

/-! ## Writing -/

/-- The highest number of the records, and zero if there is none. -/
def lastSeq (rs : List Record) : ℤ := rs.foldl (fun seq r => max seq r.seq) 0

/-- An open journal: what is in its file, and the number of the last append. -/
structure JournalFile where
  runID : String
  seq : ℤ
  file : List UInt8
  deriving DecidableEq

/-- Open or create a journal for appending. -/
def JournalFile.openJournal (runID : String) : Except ReadError JournalFile :=
  (readJournal file).map (fun (rs, _) => ⟨runID, lastSeq rs, file.getD []⟩)

/-- A record as an append of a run writes it, at the given moment. -/
def stamp (runID : String) (seq : ℤ) (now : Time) (r : Record) : Record :=
  { r with seq := seq + 1,
           time := if r.time.isZero then now else r.time,
           runID := if r.runID = "" then runID else r.runID }

/-- The text of the error for a record that cannot be encoded. -/
def encodeError : String :=
  "encoding journal record: json: error calling MarshalJSON for type time.Time: " ++
    "Time.MarshalJSON: year outside of range [0,9999]"

/-- Write one record, at the given moment, and return it as written.  A record that cannot be encoded
uses up its number. -/
def JournalFile.append (j : JournalFile) (now : Time) (r : Record) : JournalFile × Record × Option String :=
  let r := stamp j.runID j.seq now r
  match marshal recordCodec r with
  | none => ({ j with seq := j.seq + 1 }, r, some encodeError)
  | some text => ({ j with seq := j.seq + 1, file := j.file ++ (text ++ [newline]) }, r, none)

/-- Write records one after another, each at its moment. -/
def JournalFile.appendAll (j : JournalFile) (entries : List (Time × Record)) : JournalFile :=
  entries.foldl (fun j e => (j.append e.1 e.2).1) j

/-- The records that appending entries writes. -/
def written (runID : String) : ℤ → List (Time × Record) → List Record
  | _, [] => []
  | seq, (now, r) :: entries =>
    if (stamp runID seq now r).writable then
      stamp runID seq now r :: written runID (seq + 1) entries
    else written runID (seq + 1) entries

/-- The bytes of a record's line, without its end. -/
def lineText (r : Record) : List UInt8 := (marshal recordCodec r).getD []

/-- The file that records are written to. -/
def fileOf (rs : List Record) : List UInt8 := (rs.map lineText).flatMap (· ++ [newline])

/-! ## Lines -/

/-- A record that an append can write. -/
structure Durable (r : Record) : Prop where
  fits : r.Fits
  writable : r.writable = true

variable {r : Record}

lemma Durable.marshal_eq (h : Durable r) : marshal recordCodec r = some (lineText r) := by
  have hsome := isSome_marshal r
  rw [h.writable, Option.isSome_iff_exists] at hsome
  obtain ⟨text, htext⟩ := hsome
  rw [lineText, htext]
  rfl

/-- What the reader needs of a line: it is a single line, holds something, and has no carriage return at
its end. -/
structure IsLine (line : List UInt8) : Prop where
  single : newline ∉ line
  notBlank : isBlank line = false
  noCR : line.getLast? ≠ some 0x0d

lemma trimSpaceList_cons_ne_nil {c : Char} (hc : isSpace c = false) (cs : List Char) :
    trimSpaceList (c :: cs) ≠ [] := by
  rw [trimSpaceList, dropWhile_cons_of_neg (by simp [hc]), Ne, reverse_eq_nil_iff, dropWhile_eq_nil_iff]
  intro hall
  have := hall c (by simp)
  rw [hc] at this
  cases this

lemma isLine_of_brace {line : List UInt8} (hbrace : ∃ rest, line = 0x7b :: rest)
    (hplain : ∀ b ∈ line, 0x20 ≤ b.toNat) : IsLine line where
  single h := absurd (hplain _ h) (by decide)
  notBlank := by
    obtain ⟨rest, rfl⟩ := hbrace
    rw [isBlank, decide_eq_false_iff_not, show (0x7b : UInt8) = UInt8.ofNat '\x7b'.toNat from rfl,
      runes_cons_of_lt (by decide)]
    exact trimSpaceList_cons_ne_nil (by decide) _
  noCR h := absurd (hplain _ (mem_of_getLast? h)) (by decide)

lemma Durable.plain (h : Durable r) : ∀ b ∈ lineText r, 0x20 ≤ b.toNat :=
  le_of_mem_marshal (faithful_record h.fits) h.marshal_eq

lemma Durable.isLine (h : Durable r) : IsLine (lineText r) :=
  isLine_of_brace (isObjectText_record h.fits h.marshal_eq).1.brace h.plain

lemma Durable.unmarshal (h : Durable r) : unmarshal recordCodec (lineText r) = some r :=
  unmarshal_marshal (by decide) (faithful_record h.fits) h.marshal_eq

/-! ## Reading what was written -/

lemma collect_map_some (line : ℕ) (rs : List Record) (rest : List (Option Record)) :
    collect line (rs.map some ++ rest) =
      (collect (line + rs.length) rest).map (fun (rs', truncated) => (rs ++ rs', truncated)) := by
  induction rs generalizing line with
  | nil => cases h : collect line rest <;> simp [h, Except.map]
  | cons r rs ih =>
    rw [map_cons, cons_append, collect, ih, Nat.add_right_comm]
    cases collect (line + (rs.length + 1)) rest <;> rfl

lemma readJournal_lines {bs : List UInt8} {lines : List (List UInt8)} (hsplit : splitLines bs = lines)
    (hlines : ∀ line ∈ lines, IsLine line) :
    readJournal (some bs) =
      if ∀ line ∈ lines, line.length < maxLine then collect 1 (lines.map (unmarshal recordCodec))
      else .error .tooLong := by
  have hdrop : lines.map dropCR = lines :=
    (map_congr_left fun line h => if_neg (hlines line h).noCR).trans (map_id lines)
  have hfilter : lines.filter (fun line => !isBlank line) = lines :=
    filter_eq_self.mpr fun line h => by rw [(hlines line h).notBlank]; rfl
  rw [readJournal, scanLines, hsplit, hdrop]
  by_cases hshort : ∀ line ∈ lines, line.length < maxLine
  · rw [if_pos (by simpa using hshort), if_pos hshort]
    simp only [hfilter]
  · rw [if_neg (by simpa using hshort), if_neg hshort]

variable {rs : List Record}

section
variable (hrs : ∀ r ∈ rs, Durable r)
include hrs

lemma isLine_of_mem_map : ∀ line ∈ rs.map lineText, IsLine line := by
  rw [forall_mem_map]
  exact fun r hr => (hrs r hr).isLine

lemma map_unmarshal : (rs.map lineText).map (unmarshal recordCodec) = rs.map some := by
  rw [map_map]
  exact map_congr_left fun r hr => (hrs r hr).unmarshal

lemma splitLines_fileOf (rest : List UInt8) :
    splitLines (fileOf rs ++ rest) = rs.map lineText ++ splitLines rest :=
  splitLines_flatMap (fun line hline => (isLine_of_mem_map hrs line hline).single) rest

lemma splitLines_fileOf_self : splitLines (fileOf rs) = rs.map lineText := by
  have hsplit := splitLines_fileOf hrs []
  rwa [append_nil, show splitLines [] = [] from rfl, append_nil] at hsplit

/-- A file of records is read back, if every line fits the reader's buffer. -/
theorem readJournal_fileOf : readJournal (some (fileOf rs)) =
      if ∀ r ∈ rs, (lineText r).length < maxLine then .ok (rs, false) else .error .tooLong := by
  have hcollect := collect_map_some 1 rs []
  rw [append_nil] at hcollect
  rw [readJournal_lines (splitLines_fileOf_self hrs) (isLine_of_mem_map hrs), map_unmarshal hrs, hcollect]
  simp only [forall_mem_map, collect, Except.map, append_nil]

end

/-! ## What an append writes -/

@[simp] lemma fileOf_nil : fileOf [] = [] := rfl

@[simp] lemma fileOf_append (rs rs' : List Record) : fileOf (rs ++ rs') = fileOf rs ++ fileOf rs' := by simp [fileOf]

lemma fileOf_cons (r : Record) (rs : List Record) : fileOf (r :: rs) = lineText r ++ newline :: fileOf rs := by
  simp [fileOf]

variable (j : JournalFile)

lemma JournalFile.append_eq (now : Time) (r : Record) : (j.append now r).1 = ⟨j.runID, j.seq + 1, j.file ++
        if (stamp j.runID j.seq now r).writable then fileOf [stamp j.runID j.seq now r] else []⟩ := by
  have hsome := isSome_marshal (stamp j.runID j.seq now r)
  unfold JournalFile.append
  cases htext : marshal recordCodec (stamp j.runID j.seq now r) with
  | none =>
    rw [← hsome]
    simp [htext]
  | some text =>
    rw [← hsome]
    simp [fileOf, lineText, htext]

lemma JournalFile.appendAll_file (entries : List (Time × Record)) :
    (j.appendAll entries).file = j.file ++ fileOf (written j.runID j.seq entries) := by
  induction entries generalizing j with
  | nil => simp [appendAll, written]
  | cons e entries ih =>
    show ((j.append e.1 e.2).1.appendAll entries).file = _
    rw [ih, append_eq, written]
    split_ifs
    · rw [append_assoc, ← fileOf_append, singleton_append]
    · rw [append_nil]

variable {runID : String} {entries : List (Time × Record)}

lemma written_spec {seq : ℤ} (hseq : 0 ≤ seq) (hfits : ∀ e ∈ entries, e.2.Fits)
    (hroom : seq + entries.length < 2 ^ 63) :
    (∀ r ∈ written runID seq entries, Durable r ∧ seq < r.seq) ∧
      (written runID seq entries).Pairwise (fun r s => r.seq < s.seq) := by
  induction entries generalizing seq with
  | nil => simp [written]
  | cons e entries ih =>
    obtain ⟨he, hentries⟩ := forall_mem_cons.mp hfits
    rw [length_cons] at hroom
    obtain ⟨hall, hpair⟩ := ih (show 0 ≤ seq + 1 by omega) hentries (by push_cast at hroom; omega)
    have hlater : ∀ r ∈ written runID (seq + 1) entries, Durable r ∧ seq < r.seq := fun r hr =>
      ⟨(hall r hr).1, by have := (hall r hr).2; omega⟩
    rw [written]
    split_ifs with hwritable
    · refine ⟨forall_mem_cons.mpr ⟨⟨⟨⟨?_, he.attempt, he.durationMS⟩, hwritable⟩, ?_⟩, hlater⟩,
        pairwise_cons.mpr ⟨fun r hr => ?_, hpair⟩⟩
      · show IsInt64 (seq + 1)
        rw [IsInt64]
        omega
      · exact Int.lt_succ seq
      · exact (hall r hr).2
    · exact ⟨hlater, hpair⟩

lemma written_ne_nil (h : ∃ e ∈ entries, (stamp runID 0 e.1 e.2).writable = true) (seq : ℤ) :
    written runID seq entries ≠ [] := by
  induction entries generalizing seq with
  | nil => simp at h
  | cons e entries ih =>
    have hindep : (stamp runID seq e.1 e.2).writable = (stamp runID 0 e.1 e.2).writable := rfl
    rw [written]
    split_ifs with hwritable
    · exact cons_ne_nil _ _
    · refine ih ?_ (seq + 1)
      obtain ⟨e', he', hw⟩ := h
      rcases mem_cons.mp he' with rfl | hmem
      · exact absurd (hindep.trans hw) hwritable
      · exact ⟨e', hmem, hw⟩

lemma lastSeq_concat (rs : List Record) (r : Record) : lastSeq (rs ++ [r]) = max (lastSeq rs) r.seq := by
  simp [lastSeq]

lemma le_lastSeq (rs : List Record) : 0 ≤ lastSeq rs ∧ ∀ r ∈ rs, r.seq ≤ lastSeq rs := by
  induction rs using List.reverseRecOn with
  | nil => simp [lastSeq]
  | append_singleton rs r ih =>
    rw [lastSeq_concat]
    refine ⟨le_max_of_le_left ih.1, fun s hs => ?_⟩
    rcases mem_append.mp hs with h | h
    · exact le_max_of_le_left (ih.2 s h)
    · rw [mem_singleton.mp h]
      exact le_max_right _ _

lemma lastSeq_le_append (rs rs' : List Record) : lastSeq rs ≤ lastSeq (rs ++ rs') := by
  induction rs' using List.reverseRecOn with
  | nil => simp
  | append_singleton rs' r ih =>
    rw [← append_assoc, lastSeq_concat]
    exact le_max_of_le_left ih

/-! ## Sessions that end cleanly -/

/-- The records that runs have written to a file, each of which opened it, appended to it and ended
without a crash.  Every number is a machine integer, as the types of the records have it. -/
inductive Wrote : List UInt8 → List Record → Prop
  | fresh : Wrote [] []
  | session {file : List UInt8} {rs : List Record} (before : Wrote file rs) {runID : String}
      {j : JournalFile} (opened : JournalFile.openJournal (some file) runID = .ok j)
      {entries : List (Time × Record)} (fits : ∀ e ∈ entries, e.2.Fits)
      (room : j.seq + entries.length < 2 ^ 63) :
      Wrote (j.appendAll entries).file (rs ++ written runID j.seq entries)

/-- What holds of a file that no crash has torn. -/
structure Clean (file : List UInt8) (rs : List Record) : Prop where
  file_eq : file = fileOf rs
  durable : ∀ r ∈ rs, Durable r
  increasing : rs.Pairwise (fun r s => r.seq < s.seq)

lemma openJournal_clean (hrs : ∀ r ∈ rs, Durable r) (runID : String) :
    JournalFile.openJournal (some (fileOf rs)) runID =
      if ∀ r ∈ rs, (lineText r).length < maxLine then .ok ⟨runID, lastSeq rs, fileOf rs⟩
      else .error .tooLong := by
  rw [JournalFile.openJournal, readJournal_fileOf hrs]
  split_ifs <;> rfl

variable {file : List UInt8}

lemma Clean.append (h : Clean file rs) {seq : ℤ} (hseq : 0 ≤ seq ∧ ∀ r ∈ rs, r.seq ≤ seq)
    (hfits : ∀ e ∈ entries, e.2.Fits) (hroom : seq + entries.length < 2 ^ 63) :
    Clean (file ++ fileOf (written runID seq entries)) (rs ++ written runID seq entries) := by
  have hspec : (∀ r ∈ written runID seq entries, Durable r ∧ seq < r.seq) ∧ _ := written_spec hseq.1 hfits hroom
  obtain ⟨hall, hpair⟩ := hspec
  refine ⟨by rw [h.file_eq, fileOf_append], fun r hr => ?_, ?_⟩
  · exact (mem_append.mp hr).elim (h.durable r) fun hr => (hall r hr).1
  · refine pairwise_append.mpr ⟨h.increasing, hpair, fun r hr s hs => ?_⟩
    exact (hseq.2 r hr).trans_lt (hall s hs).2

lemma Wrote.clean (h : Wrote file rs) : Clean file rs := by
  induction h with
  | fresh => exact ⟨rfl, by simp, List.Pairwise.nil⟩
  | session before opened fits room ih =>
    rename_i file rs runID j entries
    have hopened := opened
    rw [ih.file_eq, openJournal_clean ih.durable] at hopened
    split_ifs at hopened
    cases hopened
    rw [JournalFile.appendAll_file, ← ih.file_eq]
    exact ih.append (le_lastSeq _) fits room

/-- An open file stands for a journal: it belongs to the same run, has reached the same number, and holds
the same records. -/
structure JournalFile.Represents (f : JournalFile) (j : Journal) : Prop where
  runID : f.runID = j.runID
  seq : f.seq = j.seq
  nonneg : 0 ≤ j.seq
  bounded : ∀ r ∈ j.records, r.seq ≤ j.seq
  clean : Clean f.file j.records

variable {f : JournalFile}

theorem JournalFile.Represents.append {j : Journal} (h : f.Represents j)
    (hr : r.Fits) (hwritable : (j.stamp r).writable = true) (hroom : j.seq + 1 < 2 ^ 63) :
    (f.append (j.clock (j.seq + 1)) r).1.Represents (j.append r) := by
  have hstamp : stamp f.runID f.seq (j.clock (j.seq + 1)) r = j.stamp r := by
    rw [h.runID, h.seq]
    rfl
  have hwritten : written j.runID j.seq [(j.clock (j.seq + 1), r)] = [j.stamp r] := if_pos hwritable
  have hclean : Clean (f.file ++ fileOf (written j.runID j.seq [(j.clock (j.seq + 1), r)])) _ :=
    h.clean.append ⟨h.nonneg, h.bounded⟩ (forall_mem_singleton.mpr hr) hroom
  rw [hwritten] at hclean
  rw [JournalFile.append_eq, hstamp, if_pos hwritable]
  refine ⟨h.runID, by rw [h.seq]; rfl, Int.le_add_one h.nonneg, fun s hs => ?_, hclean⟩
  rcases mem_append.mp hs with hs | hs
  · exact Int.le_add_one (h.bounded s hs)
  · rw [mem_singleton.mp hs]
    exact le_refl _

/-- The records with the times of their appends. -/
def timed (clock : ℤ → Time) : ℤ → List Record → List (Time × Record)
  | _, [] => []
  | seq, r :: rs => (clock (seq + 1), r) :: timed clock (seq + 1) rs

lemma JournalFile.Represents.appendAll {j : Journal} (h : f.Represents j) (rs : List Record)
    (hfits : ∀ r ∈ rs, r.Fits) (hwritable : ∀ e ∈ timed j.clock j.seq rs, (stamp j.runID 0 e.1 e.2).writable = true)
    (hroom : j.seq + rs.length < 2 ^ 63) :
    (f.appendAll (timed j.clock j.seq rs)).Represents (j.appendAll rs) := by
  induction rs generalizing f j with
  | nil => exact h
  | cons r rs ih =>
    rw [timed, forall_mem_cons] at hwritable
    rw [forall_mem_cons] at hfits
    rw [length_cons] at hroom
    have hnext := h.append hfits.1 hwritable.1 (by omega)
    exact ih hnext hfits.2 hwritable.2 (by change j.seq + 1 + _ < _; omega)

theorem JournalFile.Represents.read {j : Journal} (h : f.Represents j)
    (hshort : ∀ r ∈ j.records, (lineText r).length < maxLine) :
    readJournal (some f.file) = .ok (j.records, false) := by
  rw [h.clean.file_eq, readJournal_fileOf h.clean.durable, if_pos hshort]

/-! ## Crashes -/

section
variable {part rest : List UInt8} {init : List Record} (hr : Durable r) (hsplit : lineText r = part ++ rest)
  (hpart : part ≠ [])

include hr hsplit hpart

lemma unmarshal_glued {w : Record} (hw : Durable w) : unmarshal recordCodec (part ++ lineText w) = none := by
  obtain ⟨hobject, -⟩ := isObjectText_record hr.fits hr.marshal_eq
  obtain ⟨hobject', text, htext⟩ := isObjectText_record hw.fits hw.marshal_eq
  have hinvalid : checkValid (part ++ lineText w) = false := by
    rw [hsplit] at hobject
    rw [htext] at hobject' ⊢
    by_cases hrest : rest = []
    · rw [hrest, append_nil] at hobject
      exact checkValid_two hobject _
    · exact checkValid_torn hobject hpart hrest hobject' fun f => by cases f <;> decide
  rw [unmarshal, hinvalid]
  rfl

lemma isLine_part {more : List UInt8} (hmore : ∀ b ∈ more, 0x20 ≤ b.toNat) : IsLine (part ++ more) := by
  refine isLine_of_brace ?_ fun b hb => ?_
  · obtain ⟨text, htext⟩ := (isObjectText_record hr.fits hr.marshal_eq).1.brace
    obtain ⟨b, part, rfl⟩ := exists_cons_of_ne_nil hpart
    rw [hsplit] at htext
    exact ⟨part ++ more, by rw [(List.cons.inj htext).1, cons_append]⟩
  · rcases mem_append.mp hb with hb | hb
    · exact hr.plain b (hsplit ▸ mem_append_left _ hb)
    · exact hmore b hb

/-- Before anything is appended, a crash loses the record whose line it cut and nothing else.  A record
whose line has only lost its end is not lost. -/
theorem readJournal_cut (hinit : ∀ r ∈ init, Durable r) :
    readJournal (some (fileOf init ++ part)) = .error .tooLong ∨ readJournal (some (fileOf init ++ part)) =
        .ok (if rest = [] then (init ++ [r], false) else (init, true)) := by
  have hline : IsLine part := append_nil part ▸ isLine_part hr hsplit hpart (by simp)
  have hlines : splitLines (fileOf init ++ part) = init.map lineText ++ [part] := by
    rw [splitLines_fileOf hinit, splitLines_single hline.single hpart]
  rw [readJournal_lines hlines (by
    rw [forall_mem_append, forall_mem_singleton]
    exact ⟨isLine_of_mem_map hinit, hline⟩)]
  rw [map_append, map_singleton, map_unmarshal hinit, collect_map_some]
  by_cases hshort : ∀ line ∈ init.map lineText ++ [part], line.length < maxLine
  · rw [if_pos hshort]
    right
    by_cases hrest : rest = []
    · rw [hrest, append_nil] at hsplit
      rw [← hsplit, hr.unmarshal, if_pos hrest]
      rfl
    · obtain ⟨hobject, -⟩ := isObjectText_record hr.fits hr.marshal_eq
      have hinvalid := checkValid_prefix (hsplit ▸ hobject) hpart hrest
      rw [unmarshal, hinvalid, if_neg hrest]
      simp [collect, Except.map]
  · exact .inl (if_neg hshort)

/-- Records that are written after a torn line are lost with it: the first of them is on that line, and
when there are more, the line is in the middle of the file. -/
theorem readJournal_torn (hinit : ∀ r ∈ init, Durable r) {w : Record} {ws : List Record}
    (hws : ∀ s ∈ w :: ws, Durable s) :
    readJournal (some (fileOf init ++ part ++ fileOf (w :: ws))) = .error .tooLong ∨
      readJournal (some (fileOf init ++ part ++ fileOf (w :: ws))) =
        if ws = [] then .ok (init, true) else .error (.corrupt (1 + init.length)) := by
  obtain ⟨hw, hws⟩ := forall_mem_cons.mp hws
  have hglued : IsLine (part ++ lineText w) := isLine_part hr hsplit hpart hw.plain
  have hlines : splitLines (fileOf init ++ part ++ fileOf (w :: ws)) =
      init.map lineText ++ (part ++ lineText w) :: ws.map lineText := by
    rw [append_assoc, splitLines_fileOf hinit, fileOf_cons, ← append_assoc,
      splitLines_append hglued.single, splitLines_fileOf_self hws]
  rw [readJournal_lines hlines (by
    rw [forall_mem_append, forall_mem_cons]
    exact ⟨isLine_of_mem_map hinit, hglued, isLine_of_mem_map hws⟩)]
  rw [map_append, map_cons, unmarshal_glued hr hsplit hpart hw, map_unmarshal hinit,
    map_unmarshal hws, collect_map_some]
  split_ifs with hshort hnil hnil
  · subst hnil
    exact .inr (by simp [collect, Except.map])
  · obtain ⟨s, ws, rfl⟩ := exists_cons_of_ne_nil hnil
    exact .inr (by simp [collect, Except.map])
  · exact .inl rfl
  · exact .inl rfl

end

/-- The journal is read as it should be after a crash: reopening succeeds, and after the records that
were kept come those appended since, numbered upwards. -/
def Recovers (torn : List UInt8) (kept : List Record) (runID : String) (entries : List (Time × Record)) : Prop :=
  ∃ j, JournalFile.openJournal (some torn) runID = .ok j ∧
    (∃ truncated, readJournal (some (j.appendAll entries).file) =
      .ok (kept ++ written runID j.seq entries, truncated)) ∧
    (kept ++ written runID j.seq entries).Pairwise (fun r s => r.seq < s.seq)

variable {kept : List Record}

lemma recovers_clean (hclean : Clean file kept)
    (hfits : ∀ e ∈ entries, e.2.Fits) (hroom : lastSeq kept + entries.length < 2 ^ 63) :
    Recovers file kept runID entries ↔
      ∀ r ∈ kept ++ written runID (lastSeq kept) entries, (lineText r).length < maxLine := by
  have hafter : Clean _ (kept ++ written runID (lastSeq kept) entries) := hclean.append (le_lastSeq _) hfits hroom
  have hread := readJournal_fileOf hafter.durable
  have hopen := openJournal_clean hclean.durable runID
  rw [← hclean.file_eq] at hopen
  constructor
  · rintro ⟨j, hj, ⟨truncated, hok⟩, -⟩
    rw [hopen] at hj
    split_ifs at hj
    cases hj
    rw [JournalFile.appendAll_file, hclean.file_eq, ← fileOf_append, hread] at hok
    by_contra hlong
    rw [if_neg hlong] at hok
    cases hok
  · intro hshort
    have hkept : ∀ r ∈ kept, (lineText r).length < maxLine := fun r hr => hshort r (mem_append_left _ hr)
    refine ⟨_, by rw [hopen, if_pos hkept], ⟨false, ?_⟩, hafter.increasing⟩
    rw [JournalFile.appendAll_file, hclean.file_eq, ← fileOf_append, hread, if_pos hshort]

/-- The records that a crash kept when it cut the file inside the line of the last one.  A line that has
only lost its end may be counted either way. -/
inductive KeptAfter (file : List UInt8) (init : List Record) (last : Record) (cut : ℕ) :
    List Record → Prop
  | lost (h : cut < file.length) : KeptAfter file init last cut init
  | whole (h : file.length ≤ cut + 1) : KeptAfter file init last cut (init ++ [last])

lemma not_recovers_torn {part rest : List UInt8} {init : List Record} {last : Record}
    (hdurable : ∀ r ∈ init ++ [last], Durable r) (hsplit : lineText last = part ++ rest)
    (hpart : part ≠ []) (hkept : init.length ≤ kept.length)
    (hfits : ∀ e ∈ entries, e.2.Fits) (hroom : lastSeq (init ++ [last]) + entries.length < 2 ^ 63)
    (hsome : ∃ e ∈ entries, (stamp runID 0 e.1 e.2).writable = true) :
    ¬ Recovers (fileOf init ++ part) kept runID entries := by
  rintro ⟨j, hopen, ⟨truncated, hread⟩, -⟩
  obtain ⟨hinit, hlast⟩ := forall_mem_append.mp hdurable
  rw [forall_mem_singleton] at hlast
  -- Whatever the reopening read, it numbers no further than the records before the crash.
  have hseq : 0 ≤ j.seq ∧ j.seq ≤ lastSeq (init ++ [last]) ∧ j.runID = runID ∧ j.file = fileOf init ++ part := by
    rw [JournalFile.openJournal] at hopen
    rcases readJournal_cut hlast hsplit hpart hinit with htoo | hok
    · rw [htoo] at hopen
      cases hopen
    · rw [hok] at hopen
      cases hopen
      refine ⟨(le_lastSeq _).1, ?_, rfl, rfl⟩
      split_ifs
      · exact le_refl _
      · exact lastSeq_le_append init [last]
  obtain ⟨hnonneg, hle, hrunID, hfile⟩ := hseq
  obtain ⟨w, ws, hwritten⟩ := exists_cons_of_ne_nil (written_ne_nil hsome j.seq)
  have hspec : ∀ r ∈ written runID j.seq entries, Durable r ∧ j.seq < r.seq :=
    (written_spec hnonneg hfits (by omega)).1
  rw [JournalFile.appendAll_file, hfile, hrunID, hwritten] at hread
  rw [hwritten] at hspec
  rcases readJournal_torn hlast hsplit hpart hinit (fun s hs => (hspec s hs).1) with htoo | hok
  · rw [htoo] at hread
    cases hread
  · rw [hok] at hread
    split_ifs at hread with hnil
    · -- The first record appended is missing.
      have hlen := congrArg (List.length ∘ Prod.fst) (Except.ok.inj hread)
      simp at hlen
      omega

variable (kind : RecordKindName)

/-- A run and the journal file it leaves after one record. -/
def sampleEntry : Time × Record := (⟨0⟩, { kind := .known kind, taskID := "a" })

def sampleRecord : Record :=
  { seq := 1, time := ⟨0⟩, kind := .known .runStarted, runID := "run", taskID := "a" }

def sampleFile : List UInt8 := (JournalFile.appendAll ⟨"run", 0, []⟩ [sampleEntry .runStarted]).file

lemma fits_sampleEntry : (sampleEntry kind).2.Fits :=
  have hzero : IsInt64 0 := by decide
  ⟨hzero, hzero, hzero⟩

lemma wrote_sampleFile : Wrote sampleFile [sampleRecord] := by
  have hwrote : Wrote sampleFile ([] ++ written "run" 0 [sampleEntry .runStarted]) :=
    .session .fresh rfl (by simp [fits_sampleEntry]) (by decide)
  exact hwrote

end DeliveryEngine.Unattended
