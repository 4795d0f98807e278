import DeliveryEngine.Go.Files
import DeliveryEngine.Handoff.Documents
import DeliveryEngine.Handoff.RecordStore

/-!
# The remediation documents of a delivery, and the journal over them

The directory of a delivery holds its remediations, one document each, and the record.  The directory is storage and
not authority: documents are loaded only as the record journals them, each with the digest of its bytes.  A journal
without entries has nothing to say, and every document is taken to predate it.
-/

namespace DeliveryEngine.Handoff

open Go Go.Json List
open Prod (fst snd)

/-! ## The directory -/

/-- A numeral without a sign. -/
structure Numeral where
  digits : List Char
  ne_nil : digits ≠ []
  isDigit : ∀ c ∈ digits, c.isDigit = true

variable {n : ℤ}

namespace Numeral

/-- The number it stands for, of any size. -/
def value (x : Numeral) : ℤ := Duration.digitsValue x.digits

/-- `strconv.Atoi`. -/
def atoi (x : Numeral) : Option ℤ := parseInt x.digits

lemma atoi_eq_some {x : Numeral} : x.atoi = some n ↔ x.value = n ∧ n < 2 ^ 63 := by
  have hdigits : ¬ (x.digits = [] ∨ x.digits.any (fun c => !c.isDigit) = true) := by
    rintro (hnil | hany)
    · exact x.ne_nil hnil
    · obtain ⟨c, hc, hnot⟩ := any_eq_true.mp hany
      rw [x.isDigit c hc] at hnot
      cases hnot
  simp only [atoi, parseInt, splitSign_digits x.isDigit, if_neg hdigits, Bool.false_eq_true, if_false, value]
  split_ifs with hlt
  · rw [Option.some.injEq]
    omega
  · simp only [false_iff]
    omega

end Numeral

/-- The numeral in the name of a remediation document, `remediation-` and three digits or more and `.json`. -/
def remediationNumeral (name : String) : Option Numeral :=
  let digits := (name.toList.drop 12).takeWhile Char.isDigit
  if h : 3 ≤ digits.length ∧ name.toList = "remediation-".toList ++ digits ++ ".json".toList then
    some ⟨digits, ne_nil_of_length_pos (by omega), fun _ => mem_takeWhile_imp⟩
  else none

/-- The name of the document with a sequence number, `remediation-%03d.json`. -/
def remediationName (seq : ℤ) : String :=
  "remediation-" ++
    (if seq < 0 then "-" ++ Duration.padded 2 seq.natAbs else Duration.padded 3 seq.natAbs) ++ ".json"

lemma exists_remediationNumeral_of_digits {name : String} {digits : List Char} (hlen : 3 ≤ digits.length)
    (hall : ∀ c ∈ digits, c.isDigit = true)
    (hname : name.toList = "remediation-".toList ++ digits ++ ".json".toList) :
    ∃ x, remediationNumeral name = some x ∧ x.digits = digits := by
  have hdigits : (name.toList.drop 12).takeWhile Char.isDigit = digits := by
    rw [hname, append_assoc, show (12 : ℕ) = "remediation-".toList.length from rfl, drop_left,
      takeWhile_append_of_pos hall]
    exact append_nil _
  unfold remediationNumeral
  rw [dif_pos (by rw [hdigits]; exact ⟨hlen, hname⟩)]
  exact ⟨_, rfl, hdigits⟩

variable {seq : ℤ}

lemma exists_remediationNumeral (h : 0 ≤ seq) :
    ∃ x, remediationNumeral (remediationName seq) = some x ∧ x.value = seq := by
  obtain ⟨n, rfl⟩ := Int.eq_ofNat_of_zero_le h
  have hlen : 3 ≤ (Duration.padded 3 n).toList.length := by
    rw [padded_toList, length_append, length_replicate]
    omega
  have hname : (remediationName n).toList =
      "remediation-".toList ++ (Duration.padded 3 n).toList ++ ".json".toList := by
    rw [remediationName, if_neg (not_lt.mpr h), Int.natAbs_natCast, String.toList_append, String.toList_append]
  obtain ⟨x, hx, hdigits⟩ := exists_remediationNumeral_of_digits hlen (fun _ hc => isDigit_of_mem_padded hc) hname
  refine ⟨x, hx, ?_⟩
  rw [Numeral.value, hdigits, padded_toList, digitsValue_append, digitsValue_replicate, digitsValue_toDigits,
    Nat.zero_mul, Nat.zero_add]

/-- The directory of a delivery.  The record is the one file of it that is kept as the value it holds. -/
structure Directory where
  files : Files := ∅
  record : Option Record := none

variable {dir : Directory} {data : List UInt8}

namespace Directory

/-- The remediation documents, in the order of the directory. -/
def documentFiles (dir : Directory) : List (String × Numeral × List UInt8) := dir.files.matching remediationNumeral

/-- The remediation documents: the number each is filed under, and its bytes. -/
def documents (dir : Directory) : List (ℤ × List UInt8) := dir.documentFiles.map (fun f => (f.2.1.value, f.2.2))

lemma mem_documents_of_lookup (hseq : 0 ≤ seq)
    (h : dir.files.lookup (remediationName seq) = some data) : (seq, data) ∈ dir.documents := by
  obtain ⟨x, hx, rfl⟩ := exists_remediationNumeral hseq
  exact mem_map.mpr ⟨_, Files.mem_matching.mpr ⟨h, hx⟩, rfl⟩

lemma documents_insert (hseq : 0 ≤ seq)
    (hnew : dir.files.lookup (remediationName seq) = none) (data : List UInt8) (record : Option Record) :
    (Directory.mk (dir.files.insert (remediationName seq) data) record).documents.Perm
      ((seq, data) :: dir.documents) := by
  obtain ⟨x, hx, hvalue⟩ := exists_remediationNumeral hseq
  have hperm := (Files.matching_insert_of_some hx hnew data).map fun f => (f.2.1.value, f.2.2)
  rw [map_cons, hvalue] at hperm
  exact hperm

end Directory

/-! ## Reading the documents -/

/-- What reading and writing documents needs of its surroundings. -/
structure Storage extends Site where
  /-- The fingerprint of a document exactly as installed. -/
  documentDigest : List UInt8 → String
  /-- What the decoder says of a text that it does not take. -/
  decodeError : List UInt8 → String

/-- A map filled by a loop: the last element with a key counts. -/
def seqMap {α β : Type} (key : β → ℤ) (val : β → α) (xs : List β) : AList (fun _ : ℤ => α) :=
  xs.foldl (fun m x => m.insert (key x) (val x)) ∅

variable (journal : List RemediationRef)

/-- The journal by sequence number. -/
def journaledRefs : AList (fun _ : ℤ => RemediationRef) := seqMap RemediationRef.seq id journal

/-- The problems with loaded documents, one after another, and what is left of the journal. -/
def checkLoaded (digests : AList (fun _ : ℤ => String)) : List Remediation → AList (fun _ : ℤ => RemediationRef) →
      List String × AList (fun _ : ℤ => RemediationRef)
  | [], refs => ([], refs)
  | rm :: rest, refs =>
    match refs.lookup rm.seq with
    | none =>
      let result := checkLoaded digests rest refs
      ((s!"remediation {rm.seq} exists on disk but the record's journal never authorized it — a " ++
        "remediation is authorized through the engine, and a document the journal does not name is not " ++
        "corrective work") :: result.1, result.2)
    | some ref =>
      let result := checkLoaded digests rest (refs.erase rm.seq)
      ((if (digests.lookup rm.seq).getD "" = ref.digest then []
        else [s!"remediation {rm.seq} no longer matches the digest journaled when it was authorized — " ++
          "the document was altered after authorization, and an authorization does not cover what was " ++
          "written into it later"]) ++ result.1, result.2)

/-- Check loaded documents against the journal.  An empty journal has nothing to say: every document predates
it. -/
def verifyRemediationJournal (loaded : List Remediation)
    (digests : AList (fun _ : ℤ => String)) : Except String Unit :=
  if journal = [] then .ok ()
  else
    let result := checkLoaded digests loaded (journaledRefs journal)
    let missing := result.2.keys.insertionSort (· ≤ ·)
    let problems := result.1 ++ missing.map (fun seq =>
      s!"the record journals remediation {seq} but its document is gone — an authorized remediation may " ++
        "already have merged work against it, and is never deleted")
    if problems = [] then .ok () else .error (errRecordConflict (joinWith problems "; "))

namespace Storage

variable (storage : Storage)

/-- The path of a file in the directory of a delivery. -/
def filePath (projectID name : String) : String := Path.join (Path.join storage.deliveryRoot projectID) name

/-- Read one document, which has to be what its name says. -/
def readRemediation (projectID : String) (f : String × Numeral × List UInt8) : Except String Remediation :=
  let path := storage.filePath projectID f.1
  match decodeRemediation f.2.2 with
  | none => .error (path ++ ": " ++ errPlanInvalid (storage.decodeError f.2.2))
  | some rm =>
    if f.2.1.atoi ≠ some rm.seq then
      .error (errPlanInvalid s!"{path} holds remediation seq {rm.seq} — a remediation's file name is its sequence")
    else if rm.projectID ≠ projectID then
      .error (errRecordConflict s!"{path} holds a remediation for project {quote rm.projectID}")
    else .ok rm

/-- Read the remediations of a project in the order of their numbers, as the journal has them. -/
def loadRemediations (dir : Directory) (projectID : String) : Except String (List Remediation) := do
  let loaded ← dir.documentFiles.mapM (fun f => do
    let rm ← storage.readRemediation projectID f
    return (rm, storage.documentDigest f.2.2))
  let out := (loaded.map fst).insertionSort (fun x y => x.seq ≤ y.seq)
  match ← loadRecord storage.toSite dir.record projectID with
  | none => return out
  | some r =>
    verifyRemediationJournal r.remediations out (seqMap (·.1.seq) snd loaded)
    return out

end Storage

/-! ## What is loaded -/

/-- A document is read as a remediation. -/
structure ReadsDocument (projectID : String) (doc : ℤ × List UInt8) (rm : Remediation) : Prop where
  decoded : decodeRemediation doc.2 = some rm
  seq : rm.seq = doc.1
  projectID : rm.projectID = projectID
  fits : doc.1 < 2 ^ 63

/-- A journal names exactly the given documents, each once and with the digest of its bytes. -/
structure Storage.Journals (storage : Storage) (journal : List RemediationRef)
    (docs : List (ℤ × List UInt8)) : Prop where
  numbers : (docs.map fst).Nodup
  digests : ∀ n digest, (∃ ref, (journaledRefs journal).lookup n = some ref ∧ ref.digest = digest) ↔
    ∃ data, (n, data) ∈ docs ∧ storage.documentDigest data = digest

/-- A journal is that of remediations of a project with the given documents. -/
structure Storage.Authorized (storage : Storage) (projectID : String) (journal : List RemediationRef)
    (docs : List (ℤ × List UInt8)) : Prop extends storage.Journals journal docs where
  readable : ∀ doc ∈ docs, ∃ rm, ReadsDocument projectID doc rm

section SeqMap
variable {α β : Type} {key : β → ℤ} {val : β → α}

lemma lookup_seqMap_concat (xs : List β) (x : β) (n : ℤ) : (seqMap key val (xs ++ [x])).lookup n =
      if n = key x then some (val x) else (seqMap key val xs).lookup n := by
  rw [seqMap, foldl_append, foldl_cons, foldl_nil]
  split_ifs with h
  · rw [h, AList.lookup_insert]
  · rw [AList.lookup_insert_ne h]
    rfl

lemma lookup_seqMap_of_nodup {xs : List β} (hkeys : (xs.map key).Nodup) {v : α} :
    (seqMap key val xs).lookup n = some v ↔ ∃ x ∈ xs, key x = n ∧ val x = v := by
  induction xs using List.reverseRecOn with
  | nil => simp [seqMap]
  | append_singleton xs x ih =>
    rw [map_append, nodup_append] at hkeys
    obtain ⟨hxs, -, hnew⟩ := hkeys
    simp only [lookup_seqMap_concat, mem_append, mem_singleton, or_and_right, exists_or, exists_eq_left]
    split_ifs with h
    · have hnone : ¬ ∃ y ∈ xs, key y = n ∧ val y = v := by
        rintro ⟨y, hy, hkey, -⟩
        exact hnew _ (mem_map_of_mem hy) (key x) (by simp) (hkey.trans h)
      rw [or_iff_right hnone, Option.some.injEq, and_iff_right h.symm]
    · rw [ih hxs]
      simp [Ne.symm h]

end SeqMap

variable {digests : AList (fun _ : ℤ => String)} {loaded : List Remediation}

lemma checkLoaded_eq_nil_iff
    {refs : AList (fun _ : ℤ => RemediationRef)} :
    (checkLoaded digests loaded refs).1 = [] ↔ (loaded.map Remediation.seq).Nodup ∧ ∀ rm ∈ loaded, ∃ ref,
        refs.lookup rm.seq = some ref ∧ (digests.lookup rm.seq).getD "" = ref.digest := by
  induction loaded generalizing refs with
  | nil => simp [checkLoaded]
  | cons rm rest ih =>
    rw [checkLoaded]
    split
    · next hnone => simp [hnone]
    · next ref href =>
      -- What was matched is taken out of the journal, so that a second document with the number is refused.
      have herase (n : ℤ) (ref' : RemediationRef) :
          (refs.erase rm.seq).lookup n = some ref' ↔ n ≠ rm.seq ∧ refs.lookup n = some ref' := by
        rcases eq_or_ne n rm.seq with rfl | hne
        · simp
        · simp [hne]
      simp only [append_eq_nil_iff, ite_eq_left_iff, reduceCtorEq, imp_false, not_not, ih, herase,
        map_cons, nodup_cons, mem_map, not_exists, not_and, forall_mem_cons, href,
        Option.some.injEq, exists_eq_left']
      constructor
      · rintro ⟨hdigest, hnodup, hrest⟩
        refine ⟨⟨fun rm' hrm' hseq => ?_, hnodup⟩, hdigest, fun rm' hrm' => ?_⟩
        · obtain ⟨_, ⟨hne, -⟩, -⟩ := hrest rm' hrm'
          exact hne hseq
        · obtain ⟨ref', ⟨-, href'⟩, hdigest'⟩ := hrest rm' hrm'
          exact ⟨ref', href', hdigest'⟩
      · rintro ⟨⟨hfresh, hnodup⟩, hdigest, hrest⟩
        refine ⟨hdigest, hnodup, fun rm' hrm' => ?_⟩
        obtain ⟨ref', href', hdigest'⟩ := hrest rm' hrm'
        exact ⟨ref', ⟨hfresh rm' hrm', href'⟩, hdigest'⟩

lemma lookup_checkLoaded (digests : AList fun _ : ℤ => String) (loaded : List Remediation)
    (refs : AList fun _ : ℤ => RemediationRef) (n : ℤ) :
    (checkLoaded digests loaded refs).2.lookup n =
      if n ∈ loaded.map Remediation.seq then none else refs.lookup n := by
  induction loaded generalizing refs with
  | nil => simp [checkLoaded]
  | cons rm rest ih =>
    rw [checkLoaded]
    split
    · next hnone =>
      simp only [ih, map_cons, mem_cons]
      rcases eq_or_ne n rm.seq with rfl | hne
      · simp [hnone]
      · simp [hne]
    · simp only [ih, map_cons, mem_cons]
      rcases eq_or_ne n rm.seq with rfl | hne
      · simp
      · simp [hne]

/-- Documents are loaded: each is read, and its digest taken. -/
def Storage.Loaded (storage : Storage) (projectID : String) (docs : List (ℤ × List UInt8))
    (loaded : List (Remediation × String)) : Prop :=
  List.Forall₂ (fun doc x => ReadsDocument projectID doc x.1 ∧ x.2 = storage.documentDigest doc.2) docs loaded

section Load
variable {storage : Storage} {projectID : String}

lemma readRemediation_eq_ok {f : String × Numeral × List UInt8} {rm : Remediation} :
    storage.readRemediation projectID f = .ok rm ↔ ReadsDocument projectID (f.2.1.value, f.2.2) rm := by
  unfold Storage.readRemediation
  constructor
  · intro h
    split at h
    · cases h
    · next rm' hdecode =>
      split_ifs at h with hseq hproject
      cases h
      obtain ⟨hvalue, hfits⟩ := Numeral.atoi_eq_some.mp (not_not.mp hseq)
      exact ⟨hdecode, hvalue.symm, not_not.mp hproject, lt_of_eq_of_lt hvalue hfits⟩
  · rintro ⟨hdecode, hseq, hproject, hfits⟩
    have hatoi : f.2.1.atoi = some rm.seq := Numeral.atoi_eq_some.mpr ⟨hseq.symm, hseq ▸ hfits⟩
    simp only [hdecode, hatoi, hproject, ne_eq, not_true_eq_false, if_false]

namespace Storage.Loaded

variable {docs : List (ℤ × List UInt8)} {loaded : List (Remediation × String)}

section
variable (h : storage.Loaded projectID docs loaded)
include h

lemma seqs : loaded.map (·.1.seq) = docs.map fst := by
  induction h with
  | nil => rfl
  | cons hdoc _ ih => rw [map_cons, map_cons, hdoc.1.seq, ih]

lemma exists_mem_iff {digest : String} : (∃ x ∈ loaded, x.1.seq = n ∧ x.2 = digest) ↔
      ∃ data, (n, data) ∈ docs ∧ storage.documentDigest data = digest := by
  induction h with
  | nil => simp
  | @cons doc x docs loaded hdoc _ ih =>
    obtain ⟨m, data⟩ := doc
    simp only [mem_cons, or_and_right, exists_or, exists_eq_left, ih, hdoc.1.seq, hdoc.2, Prod.mk.injEq]
    refine or_congr_left ⟨?_, ?_⟩
    · rintro ⟨rfl, rfl⟩
      exact ⟨data, ⟨rfl, rfl⟩, rfl⟩
    · rintro ⟨_, ⟨rfl, rfl⟩, rfl⟩
      exact ⟨rfl, rfl⟩

lemma readable : ∀ doc ∈ docs, ∃ rm, ReadsDocument projectID doc rm := by
  induction h with
  | nil => simp
  | cons hdoc _ ih => exact forall_mem_cons.mpr ⟨⟨_, hdoc.1⟩, ih⟩

lemma lookup_digest (hnumbers : (docs.map fst).Nodup) (hdoc : (n, data) ∈ docs) :
    (seqMap (·.1.seq) snd loaded).lookup n = some (storage.documentDigest data) :=
  (lookup_seqMap_of_nodup (h.seqs ▸ hnumbers)).mpr (h.exists_mem_iff.mpr ⟨data, hdoc, rfl⟩)

end

end Storage.Loaded

variable {docs : List (ℤ × List UInt8)}

lemma exists_loaded (h : ∀ doc ∈ docs, ∃ rm, ReadsDocument projectID doc rm) :
    ∃ loaded, storage.Loaded projectID docs loaded := by
  induction docs with
  | nil => exact ⟨[], .nil⟩
  | cons doc docs ih =>
    obtain ⟨⟨rm, hrm⟩, hdocs⟩ := forall_mem_cons.mp h
    obtain ⟨loaded, hloaded⟩ := ih hdocs
    exact ⟨(rm, storage.documentDigest doc.2) :: loaded, .cons ⟨hrm, rfl⟩ hloaded⟩

variable {journal : List RemediationRef}

/-- What a journal with entries asks of what was loaded: each document is journaled with the digest it has, none
is loaded twice, and no entry is left over. -/
lemma verifyRemediationJournal_eq_ok_iff (hne : journal ≠ []) :
    verifyRemediationJournal journal loaded digests = .ok () ↔
      ((loaded.map Remediation.seq).Nodup ∧ ∀ rm ∈ loaded, ∃ ref,
        (journaledRefs journal).lookup rm.seq = some ref ∧ (digests.lookup rm.seq).getD "" = ref.digest) ∧
      ∀ n ref, (journaledRefs journal).lookup n = some ref → n ∈ loaded.map Remediation.seq := by
  have hmissing : (checkLoaded digests loaded (journaledRefs journal)).2.keys.insertionSort (· ≤ ·) = [] ↔
      ∀ n ref, (journaledRefs journal).lookup n = some ref → n ∈ loaded.map Remediation.seq := by
    rw [← length_eq_zero_iff, length_insertionSort, length_eq_zero_iff, eq_nil_iff_forall_not_mem]
    refine forall_congr' fun n => ?_
    rw [← AList.mem_keys, ← AList.lookup_eq_none, lookup_checkLoaded]
    split_ifs with hmem
    · simp only [hmem, implies_true]
    · simp only [hmem, imp_false, Option.eq_none_iff_forall_ne_some, ne_eq]
  rw [← checkLoaded_eq_nil_iff, ← hmissing, verifyRemediationJournal, if_neg hne]
  dsimp only
  constructor
  · intro h
    split_ifs at h with hproblems
    obtain ⟨hloaded, hrest⟩ := append_eq_nil_iff.mp hproblems
    exact ⟨hloaded, map_eq_nil_iff.mp hrest⟩
  · rintro ⟨hloaded, hrest⟩
    rw [hloaded, hrest]
    rfl

variable {out : List Remediation}

lemma verify_loaded_iff (hne : journal ≠ []) {loaded : List (Remediation × String)}
    (hloaded : storage.Loaded projectID docs loaded)
    (hout : out.Perm (loaded.map fst)) :
    verifyRemediationJournal journal out (seqMap (·.1.seq) snd loaded) = .ok () ↔
      storage.Journals journal docs := by
  have hseqs : (out.map Remediation.seq).Perm (docs.map fst) := by
    have hmap := hout.map Remediation.seq
    rw [map_map] at hmap
    exact hmap.trans (List.Perm.of_eq hloaded.seqs)
  rw [verifyRemediationJournal_eq_ok_iff hne, hseqs.nodup_iff]
  constructor
  · rintro ⟨⟨hnumbers, hjournaled⟩, hleft⟩
    have hfound (n : ℤ) (data : List UInt8) (hdoc : (n, data) ∈ docs) : ∃ ref,
        (journaledRefs journal).lookup n = some ref ∧ ref.digest = storage.documentDigest data := by
      obtain ⟨rm, hrm, hseq⟩ := mem_map.mp (hseqs.mem_iff.mpr (mem_map_of_mem hdoc))
      obtain ⟨ref, href, hdigest⟩ := hjournaled rm hrm
      rw [hseq] at href hdigest
      rw [hloaded.lookup_digest hnumbers hdoc] at hdigest
      exact ⟨ref, href, hdigest.symm⟩
    refine ⟨hnumbers, fun n digest => ⟨?_, ?_⟩⟩
    · rintro ⟨ref, href, rfl⟩
      obtain ⟨⟨_, data⟩, hdoc, rfl⟩ := mem_map.mp (hseqs.mem_iff.mp (hleft n ref href))
      obtain ⟨ref', href', hdigest⟩ := hfound _ data hdoc
      cases Option.some.inj (href.symm.trans href')
      exact ⟨data, hdoc, hdigest.symm⟩
    · rintro ⟨data, hdoc, rfl⟩
      exact hfound n data hdoc
  · rintro ⟨hnumbers, hdigests⟩
    refine ⟨⟨hnumbers, fun rm hrm => ?_⟩, fun n ref href => ?_⟩
    · obtain ⟨⟨n, data⟩, hdoc, hseq⟩ := mem_map.mp (hseqs.mem_iff.mp (mem_map_of_mem hrm))
      obtain ⟨ref, href, hdigest⟩ := (hdigests n _).mpr ⟨data, hdoc, rfl⟩
      rw [← hseq, hloaded.lookup_digest hnumbers hdoc]
      exact ⟨ref, href, hdigest.symm⟩
    · obtain ⟨data, hdoc, -⟩ := (hdigests n ref.digest).mp ⟨ref, href, rfl⟩
      exact hseqs.mem_iff.mpr (mem_map.mpr ⟨_, hdoc, rfl⟩)

/-- Remediations are loaded when the documents are readable and, if the record journals any, the journal names
exactly them. -/
theorem loadRemediations_eq_ok_iff :
    storage.loadRemediations dir projectID = .ok out ↔ ∃ loaded, storage.Loaded projectID dir.documents loaded ∧
        (loaded.map fst).insertionSort (fun x y => x.seq ≤ y.seq) = out ∧
        ∃ stored, loadRecord storage.toSite dir.record projectID = .ok stored ∧
          ∀ r ∈ stored, r.remediations ≠ [] → storage.Journals r.remediations dir.documents := by
  have hfiles (loaded : List (Remediation × String)) : dir.documentFiles.mapM (fun f => do
        let rm ← storage.readRemediation projectID f
        return (rm, storage.documentDigest f.2.2)) = .ok loaded ↔
      storage.Loaded projectID dir.documents loaded := by
    rw [mapM_eq_ok, Storage.Loaded, Directory.documents, List.forall₂_map_left_iff]
    refine Iff.of_eq (congrArg (fun R => List.Forall₂ R dir.documentFiles loaded) ?_)
    funext f x
    refine propext ⟨fun h => ?_, ?_⟩
    · obtain ⟨rm, hrm, hx⟩ := bind_eq_ok.mp h
      cases hx
      exact ⟨readRemediation_eq_ok.mp hrm, rfl⟩
    · rintro ⟨hrm, hdigest⟩
      refine bind_eq_ok.mpr ⟨x.1, readRemediation_eq_ok.mpr hrm, ?_⟩
      rw [← hdigest]
      rfl
  simp only [Storage.loadRemediations, bind_eq_ok, hfiles]
  refine exists_congr fun loaded => and_congr_right fun hloaded => ?_
  constructor
  · rintro ⟨stored, hstored, h⟩
    cases stored with
    | none =>
      cases h
      exact ⟨rfl, none, hstored, by simp⟩
    | some r =>
      obtain ⟨_, hverify, hout⟩ := bind_eq_ok.mp h
      cases hout
      refine ⟨rfl, some r, hstored, ?_⟩
      rintro _ ⟨⟩ hne
      exact (verify_loaded_iff hne hloaded (perm_insertionSort _ _)).mp hverify
  · rintro ⟨rfl, stored, hstored, hjournals⟩
    refine ⟨stored, hstored, ?_⟩
    cases stored with
    | none => rfl
    | some r =>
      refine bind_eq_ok.mpr ⟨(), ?_, rfl⟩
      by_cases hne : r.remediations = []
      · rw [verifyRemediationJournal, if_pos hne]
      · exact (verify_loaded_iff hne hloaded (perm_insertionSort _ _)).mpr (hjournals r rfl hne)

lemma exists_loadRemediations_iff {r : Record}
    (hrecord : loadRecord storage.toSite dir.record projectID = .ok (some r)) (hne : r.remediations ≠ []) :
    (∃ out, storage.loadRemediations dir projectID = .ok out) ↔
      storage.Authorized projectID r.remediations dir.documents := by
  simp only [loadRemediations_eq_ok_iff, hrecord]
  constructor
  · rintro ⟨_, loaded, hloaded, -, _, ⟨⟩, hjournals⟩
    exact ⟨hjournals r rfl hne, hloaded.readable⟩
  · rintro ⟨hjournals, hreadable⟩
    obtain ⟨loaded, hloaded⟩ := exists_loaded hreadable
    refine ⟨_, loaded, hloaded, rfl, _, rfl, ?_⟩
    rintro _ ⟨⟩ -
    exact hjournals

lemma authorized_iff_perm (hdigest : Function.Injective storage.documentDigest)
    {installed : List (ℤ × List UInt8)}
    (hinstalled : storage.Authorized projectID journal installed) :
    storage.Authorized projectID journal docs ↔ docs.Perm installed := by
  have hmem : ∀ {xs ys}, storage.Authorized projectID journal xs → storage.Authorized projectID journal ys →
      ∀ doc ∈ xs, doc ∈ ys := by
    rintro xs ys hxs hys ⟨n, data⟩ hdoc
    obtain ⟨data', hmem, heq⟩ := (hys.digests n _).mp ((hxs.digests n _).mpr ⟨data, hdoc, rfl⟩)
    exact hdigest heq ▸ hmem
  constructor
  · intro hdocs
    refine (perm_ext_iff_of_nodup hdocs.numbers.of_map hinstalled.numbers.of_map).mpr fun doc => ?_
    exact ⟨hmem hdocs hinstalled doc, hmem hinstalled hdocs doc⟩
  · intro hperm
    refine ⟨⟨(hperm.map fst).nodup_iff.mpr hinstalled.numbers, fun n digest => ?_⟩, fun doc hdoc => ?_⟩
    · rw [hinstalled.digests]
      simp only [hperm.mem_iff]
    · exact hinstalled.readable doc (hperm.mem_iff.mp hdoc)

end Load

end DeliveryEngine.Handoff
