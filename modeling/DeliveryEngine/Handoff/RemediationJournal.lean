import DeliveryEngine.Handoff.History
import DeliveryEngine.Handoff.RemediationStore

/-!
# Authorizing a remediation in the directory of a delivery

An authorization installs the document, and then journals it in the record, with the digest of what was installed; a
journal that is written for the first time adopts the documents that predate it.  Either step may fail.
`remediation_journal`: documents are loaded exactly when they are those that were authorized, byte for byte.
-/

namespace DeliveryEngine.Handoff

open Go Go.Json List
open Remediation (seq)
open Record (refOf stamp)
open Prod (fst)

/-- Why a write failed, if it did. -/
structure Faults where
  document : Option String := none
  record : Option String := none

namespace Storage

variable (storage : Storage) (faults : Faults) (dir : Directory)

/-- Write one remediation.  One that is there is not overwritten. -/
def saveRemediation (rm : Remediation) : Except String Directory :=
  let name := remediationName rm.seq
  if rm.projectID = "" then
    .error (errRecordConflict "refusing to write a remediation with no project id")
  else if (dir.files.lookup name).isSome then
    .error (errRecordConflict (s!"remediation {rm.seq} for {quote rm.projectID} already exists at " ++
      s!"{storage.filePath rm.projectID name} — a remediation is the durable authorization for work that may " ++
      "already have merged, and is never rewritten"))
  else
    match marshalRemediation rm with
    | none => .error ("encoding remediation: json: error calling MarshalJSON for type time.Time: " ++
        "Time.MarshalJSON: year outside of range [0,9999]")
    | some data =>
      match faults.document with
      | some err => .error err
      | none => .ok { dir with files := dir.files.insert name data }

variable (r : Record)

def saveRecord : Except String Directory :=
  if r.projectID = "" then .error (errRecordConflict "refusing to write a record with no project id")
  else
    match faults.record with
    | some err => .error err
    | none => .ok { dir with record := some r }

/-- What the operating system says of a file that is not there. -/
def noSuchFile (projectID name : String) : String :=
  s!"open {storage.filePath projectID name}: no such file or directory"

/-- The journal entries of documents that predate the journal.  `seq` is the remediation just installed. -/
def adoptRemediations (projectID : String) (seq : ℤ) (existing : List Remediation) :
    Except String (List RemediationRef) :=
  existing.mapM (fun prior =>
    match dir.files.lookup (remediationName prior.seq) with
    | none => .error (s!"remediation {seq} is authorized and durable, but adopting remediation {prior.seq} " ++
        s!"into the record's journal failed: {storage.noSuchFile projectID (remediationName prior.seq)}")
    | some data => .ok (refOf prior (storage.documentDigest data)))

def journalRemediation (existing : List Remediation) (rm : Remediation) : Except String Directory := do
  let adopted ← (if r.remediations = [] then storage.adoptRemediations dir r.projectID rm.seq existing
    else .ok [])
  match dir.files.lookup (remediationName rm.seq) with
  | none => throw (s!"remediation {rm.seq} is authorized and durable, but re-reading it to journal its digest " ++
      s!"failed: {storage.noSuchFile rm.projectID (remediationName rm.seq)}")
  | some installed =>
    (saveRecord faults dir (r.journal adopted (refOf rm (storage.documentDigest installed)))).mapError (fun err =>
        s!"remediation {rm.seq} is authorized and durable, but journaling it into the record failed — until " ++
        s!"the journal names it, LoadRemediations will refuse it as unauthorized: {err}")

/-- Validate corrective work and install it.  The directory is returned as it was left, also by an authorization
that fails. -/
def authorizeRemediation (plan : DeliveryPlan) (prior : Evidence)
    (rm : Remediation) (actor : String) (now : Time) : Directory × Except String Remediation :=
  let validated : Except String (Directory × List Remediation × Remediation) := do
    r.checkProposal rm actor
    let existing ← storage.loadRemediations dir r.projectID
    let rm ← r.authorization storage.toLower plan prior existing rm actor now
    let installed ← storage.saveRemediation faults dir rm
    return (installed, existing, rm)
  match validated with
  | .error err => (dir, .error err)
  | .ok (installed, existing, rm) =>
    match storage.journalRemediation faults installed r existing rm with
    | .error err => (installed, .error err)
    | .ok journaled => (journaled, .ok rm)

end Storage

/-! ## An authorization that came through -/

variable {r : Record} {existing : List Remediation} {rm : Remediation} {actor : String}
variable {adopted : List RemediationRef} {rm' : Remediation}
variable {plan : DeliveryPlan} {projectID : String} {prior : Evidence}

section Invert
variable {storage : Storage} {faults : Faults} {dir dir' : Directory}

lemma saveRemediation_eq_ok (h : storage.saveRemediation faults dir rm = .ok dir') :
    ∃ data, dir.files.lookup (remediationName rm.seq) = none ∧ marshalRemediation rm = some data ∧
      dir' = { dir with files := dir.files.insert (remediationName rm.seq) data } := by
  unfold Storage.saveRemediation at h
  dsimp only at h
  split_ifs at h with hproject hthere
  split at h
  · cases h
  · next data hdata =>
    split at h
    · cases h
    · cases h
      exact ⟨data, Option.not_isSome_iff_eq_none.mp hthere, hdata, rfl⟩

lemma saveRecord_eq_ok (h : Storage.saveRecord faults dir r = .ok dir') : dir' = { dir with record := some r } := by
  unfold Storage.saveRecord at h
  split_ifs at h
  split at h
  · cases h
  · cases h
    rfl

/-- Each document that predates the journal gets the digest of its file. -/
def Storage.Adopts (storage : Storage) (files : Files) (existing : List Remediation)
    (adopted : List RemediationRef) : Prop :=
  List.Forall₂ (fun prior ref => ∃ data, files.lookup (remediationName prior.seq) = some data ∧
    ref = refOf prior (storage.documentDigest data)) existing adopted

lemma adoptRemediations_eq_ok {seq : ℤ} (h : storage.adoptRemediations dir projectID seq existing = .ok adopted) :
    storage.Adopts dir.files existing adopted := by
  refine (mapM_eq_ok.mp h).imp fun prior ref href => ?_
  split at href
  · cases href
  · next data hdata =>
    cases href
    exact ⟨data, hdata, rfl⟩

lemma journalRemediation_eq_ok (h : storage.journalRemediation faults dir r existing rm = .ok dir') :
    ∃ adopted installed, (r.remediations = [] → storage.Adopts dir.files existing adopted) ∧
      dir.files.lookup (remediationName rm.seq) = some installed ∧
      dir' = ⟨dir.files, some (r.journal adopted (refOf rm (storage.documentDigest installed)))⟩ := by
  obtain ⟨adopted, hadopted, hrest⟩ := bind_eq_ok.mp h
  split at hrest
  · cases hrest
  · next installed hinstalled =>
    refine ⟨adopted, installed, fun hnil => ?_, hinstalled, ?_⟩
    · rw [if_pos hnil] at hadopted
      exact adoptRemediations_eq_ok hadopted
    · cases hsave : Storage.saveRecord faults dir
          (r.journal adopted (refOf rm (storage.documentDigest installed))) with
      | error err =>
        rw [hsave] at hrest
        cases hrest
      | ok saved =>
        rw [hsave] at hrest
        cases hrest
        exact saveRecord_eq_ok hsave

/-- An authorization that came through: what was installed, and what was journaled. -/
structure Storage.Authorization (storage : Storage) (dir dir' : Directory) (r : Record) (rm' : Remediation)
    (existing : List Remediation) (data : List UInt8) (adopted : List RemediationRef) : Prop where
  fresh : dir.files.lookup (remediationName rm'.seq) = none
  marshalled : marshalRemediation rm' = some data
  adopts : r.remediations = [] → storage.Adopts (dir.files.insert (remediationName rm'.seq) data) existing adopted
  left : dir' = ⟨dir.files.insert (remediationName rm'.seq) data,
    some (r.journal adopted (refOf rm' (storage.documentDigest data)))⟩

theorem authorizeRemediation_eq_ok
    {now : Time}
    (h : storage.authorizeRemediation faults dir r plan prior rm actor now = (dir', .ok rm')) :
    r.checkProposal rm actor = .ok () ∧ ∃ existing data adopted,
      storage.loadRemediations dir r.projectID = .ok existing ∧
      r.authorization storage.toLower plan prior existing rm actor now = .ok rm' ∧
      storage.Authorization dir dir' r rm' existing data adopted := by
  unfold Storage.authorizeRemediation at h
  dsimp only at h
  split at h
  · cases h
  · next installed existing rm₁ hvalidated =>
    obtain ⟨_, hproposal, hrest⟩ := bind_eq_ok.mp hvalidated
    obtain ⟨existing', hload, hrest⟩ := bind_eq_ok.mp hrest
    obtain ⟨rm₂, hauthorization, hrest⟩ := bind_eq_ok.mp hrest
    obtain ⟨installed', hsave, hrest⟩ := bind_eq_ok.mp hrest
    cases hrest
    split at h
    · cases h
    · next journaled hjournal =>
      cases h
      obtain ⟨data, hfresh, hdata, rfl⟩ := saveRemediation_eq_ok hsave
      obtain ⟨adopted, data', hadopts, hlookup, rfl⟩ := journalRemediation_eq_ok hjournal
      rw [AList.lookup_insert] at hlookup
      cases hlookup
      exact ⟨hproposal, existing, data, adopted, hload, hauthorization, hfresh, hdata, hadopts, rfl⟩

end Invert

lemma stamp_of_authorization {toLower : Char → Char}
    {now : Time}
    (h : r.authorization toLower plan prior existing rm actor now = .ok rm') :
    rm' = stamp existing rm actor now := by
  simp only [Record.authorization, bind_eq_ok] at h
  obtain ⟨_, _, _, _, _, _, hrm⟩ := h
  cases hrm
  rfl

lemma projectID_of_checkProposal (h : r.checkProposal rm actor = .ok ()) : rm.projectID = r.projectID := by
  by_contra hne
  unfold Record.checkProposal Record.refuse at h
  split at h
  · cases h
  · rw [if_neg fun hnil => ?_] at h
    · cases h
    · simp only [append_eq_nil_iff, cons_ne_nil, false_and] at hnil

lemma loadRecord_journal {site : Site}
    (h : loadRecord site (some r) projectID = .ok (some r)) (adopted : List RemediationRef)
    (ref : RemediationRef) :
    loadRecord site (some (r.journal adopted ref)) projectID = .ok (some (r.journal adopted ref)) := by
  unfold loadRecord at h ⊢
  dsimp only at h
  split_ifs at h with hversion hproject hdigest
  exact (if_neg hversion).trans ((if_neg hproject).trans (if_neg hdigest))

/-! ## The journal afterwards -/

variable {data : List UInt8}

section Journals
variable {storage : Storage} {journal : List RemediationRef} {docs : List (ℤ × List UInt8)}

lemma Storage.Journals.concat (h : storage.Journals journal docs) {ref : RemediationRef}
    (hnew : ref.seq ∉ docs.map fst) (hdigest : ref.digest = storage.documentDigest data) :
    storage.Journals (journal ++ [ref]) ((ref.seq, data) :: docs) where
  numbers := nodup_cons.mpr ⟨hnew, h.numbers⟩
  digests n digest := by
    simp only [journaledRefs, lookup_seqMap_concat, id_eq, mem_cons, Prod.mk.injEq, or_and_right, exists_or]
    split_ifs with hn
    · subst hn
      have hold : ¬ ∃ data', (ref.seq, data') ∈ docs ∧ storage.documentDigest data' = digest := by
        rintro ⟨data', hdoc, -⟩
        exact hnew (mem_map.mpr ⟨_, hdoc, rfl⟩)
      simp [hold, hdigest]
    · simp only [hn, false_and, exists_false, false_or]
      exact h.digests n digest

lemma Storage.Journals.perm (h : storage.Journals journal docs) {docs' : List (ℤ × List UInt8)}
    (hperm : docs'.Perm docs) : storage.Journals journal docs' where
  numbers := (hperm.map fst).nodup_iff.mpr h.numbers
  digests n digest := by
    rw [h.digests]
    simp only [hperm.mem_iff]

variable {files : Files}

namespace Storage.Adopts

section
variable (h : storage.Adopts files existing adopted)
include h

lemma seqs : adopted.map RemediationRef.seq = existing.map seq := by
  induction h with
  | nil => rfl
  | cons href _ ih =>
    obtain ⟨_, -, rfl⟩ := href
    rw [map_cons, ih]
    rfl

lemma exists_mem_iff {n : ℤ} {digest : String} :
    (∃ ref ∈ adopted, ref.seq = n ∧ ref.digest = digest) ↔ n ∈ existing.map seq ∧
      ∃ data, files.lookup (remediationName n) = some data ∧ storage.documentDigest data = digest := by
  induction h with
  | nil => simp
  | @cons prior ref existing adopted href _ ih =>
    obtain ⟨data, hdata, rfl⟩ := href
    simp only [mem_cons, map_cons, or_and_right, exists_or, exists_eq_left, ih, refOf]
    refine or_congr_left ⟨?_, ?_⟩
    · rintro ⟨rfl, rfl⟩
      exact ⟨rfl, data, hdata, rfl⟩
    · rintro ⟨rfl, data', hdata', rfl⟩
      cases Option.some.inj (hdata.symm.trans hdata')
      exact ⟨rfl, rfl⟩

lemma journals (hnumbers : (docs.map fst).Nodup) (hseqs : (existing.map seq).Perm (docs.map fst))
    (hfiles : ∀ n ∈ existing.map seq, ∀ data, files.lookup (remediationName n) = some data →
      (n, data) ∈ docs) : storage.Journals adopted docs where
  numbers := hnumbers
  digests n digest := by
    have hnodup : (adopted.map RemediationRef.seq).Nodup := h.seqs ▸ hseqs.nodup_iff.mpr hnumbers
    have hlookup : (∃ ref, (journaledRefs adopted).lookup n = some ref ∧ ref.digest = digest) ↔
        ∃ ref ∈ adopted, ref.seq = n ∧ ref.digest = digest := by
      simp only [journaledRefs, lookup_seqMap_of_nodup hnodup, id_eq]
      constructor
      · rintro ⟨_, ⟨ref, hmem, hseq, rfl⟩, hdigest⟩
        exact ⟨ref, hmem, hseq, hdigest⟩
      · rintro ⟨ref, hmem, hseq, hdigest⟩
        exact ⟨ref, ⟨ref, hmem, hseq, rfl⟩, hdigest⟩
    rw [hlookup, h.exists_mem_iff]
    constructor
    · rintro ⟨hn, data, hdata, hdigest⟩
      exact ⟨data, hfiles n hn data hdata, hdigest⟩
    · rintro ⟨data, hdoc, hdigest⟩
      have hn : n ∈ existing.map seq := hseqs.mem_iff.mpr (mem_map.mpr ⟨_, hdoc, rfl⟩)
      obtain ⟨ref, hmem, rfl⟩ := mem_map.mp (h.seqs ▸ hn)
      obtain ⟨-, data', hdata', -⟩ := h.exists_mem_iff.mp ⟨ref, hmem, rfl, rfl⟩
      -- The document is the one of its number.
      have hsame : (ref.seq, data') = (ref.seq, data) :=
        inj_on_of_nodup_map hnumbers (hfiles _ hn data' hdata') hdoc rfl
      cases hsame
      exact ⟨hn, data, hdata', hdigest⟩

end

end Storage.Adopts

end Journals

section Authorize
variable {storage : Storage} {faults : Faults} {dir dir' : Directory}
  {existing : List Remediation} {plan : DeliveryPlan} {prior : Evidence} {rm rm' : Remediation}
  {actor : String} {now : Time}

/-- The documents are numbered from one on. -/
def Numbered (n : ℕ) (rms : List Remediation) : Prop :=
  rms.map seq = (List.range n).map (fun k : ℕ => (k : ℤ) + 1)

namespace Numbered

variable {n : ℕ} {rms : List Remediation} (h : Numbered n rms)
include h

lemma length : rms.length = n := by
  have hlength := congrArg List.length h
  rwa [length_map, length_map, length_range] at hlength

lemma concat (hseq : rm.seq = n + 1) : Numbered (n + 1) (rms ++ [rm]) := by
  rw [Numbered, map_append, h, range_succ, map_append, map_singleton, map_singleton, hseq]

lemma pairwise : rms.Pairwise (fun x y => x.seq < y.seq) := by
  rw [← pairwise_map, h, pairwise_map]
  exact pairwise_lt_range.imp fun hlt => by omega

lemma mem_iff {k : ℤ} : k ∈ rms.map seq ↔ 1 ≤ k ∧ k ≤ n := by
  rw [h, mem_map]
  constructor
  · rintro ⟨i, hi, rfl⟩
    have := mem_range.mp hi
    omega
  · rintro ⟨hlo, hhi⟩
    refine ⟨(k - 1).toNat, mem_range.mpr (by omega), by omega⟩

end Numbered

lemma readsDocument_of_authorization (hproposal : r.checkProposal rm actor = .ok ())
    (hauthorization : r.authorization storage.toLower plan prior existing rm actor now = .ok rm')
    (hfits : rm.Fits) (hseq : IsInt64 rm'.seq) (hdata : marshalRemediation rm' = some data) :
    ReadsDocument r.projectID (rm'.seq, data) rm' := by
  have hstamp := stamp_of_authorization hauthorization
  have hfits' : rm'.Fits := by
    refine ⟨?_, hseq, ?_⟩
    · rw [hstamp]
      exact hfits.schemaVersion
    · rw [hstamp]
      exact hfits.repairs
  have hproject := projectID_of_checkProposal hproposal
  refine ⟨decode_remediation hfits' hdata, rfl, ?_, hseq.2⟩
  rw [hstamp]
  exact hproject

lemma Storage.Authorization.journals {n : ℕ}
    (h : storage.Authorization dir dir' r rm' existing data adopted) (hnumbered : Numbered n existing)
    (hseq : rm'.seq = n + 1) (hseqs : (existing.map seq).Perm (dir.documents.map fst))
    (hjournals : r.remediations ≠ [] → storage.Journals r.remediations dir.documents) :
    storage.Journals (r.journal adopted (refOf rm' (storage.documentDigest data))).remediations
      ((rm'.seq, data) :: dir.documents) := by
  have hnew : rm'.seq ∉ dir.documents.map fst := by
    rw [← hseqs.mem_iff, hnumbered.mem_iff]
    omega
  have hnumbers : (dir.documents.map fst).Nodup :=
    hseqs.nodup_iff.mp (pairwise_map.mpr (hnumbered.pairwise.imp ne_of_lt))
  suffices hold : storage.Journals (if r.remediations = [] then adopted else r.remediations) dir.documents from
    hold.concat hnew rfl
  by_cases hnil : r.remediations = []
  · rw [if_pos hnil]
    refine (h.adopts hnil).journals hnumbers hseqs fun k hk data' hdata' => ?_
    obtain ⟨hlo, hhi⟩ := hnumbered.mem_iff.mp hk
    have hdoc : (k, data') ∈ (Directory.mk (dir.files.insert (remediationName rm'.seq) data) none).documents :=
      Directory.mem_documents_of_lookup (by omega) hdata'
    rcases mem_cons.mp ((Directory.documents_insert (by omega) h.fresh data none).mem_iff.mp hdoc) with
      heq | hmem
    · cases heq
      omega
    · exact hmem
  · rw [if_neg hnil]
    exact hjournals hnil

/-- **The state an authorization leaves.**  The remediations are loaded as before, and then the new one, and the
journal names exactly the documents there are. -/
theorem loadRemediations_authorized {n : ℕ} (hrecord : loadRecord storage.toSite dir.record projectID = .ok (some r))
    (hload : storage.loadRemediations dir projectID = .ok existing) (hnumbered : Numbered n existing)
    (hn : IsInt64 (n + 1)) (hfits : rm.Fits)
    (h : storage.authorizeRemediation faults dir r plan prior rm actor now = (dir', .ok rm')) :
    rm'.seq = n + 1 ∧ storage.loadRemediations dir' projectID = .ok (existing ++ [rm']) ∧
      ∃ r', loadRecord storage.toSite dir'.record projectID = .ok (some r') ∧ r'.remediations ≠ [] ∧
        storage.Authorized projectID r'.remediations dir'.documents := by
  have hstored := stored_of_loadRecord hrecord
  obtain rfl := projectID_of_loadRecord hrecord
  obtain ⟨hproposal, existing', data, adopted, hload', hauthorization, hleft⟩ := authorizeRemediation_eq_ok h
  rw [hload] at hload'
  cases hload'
  have hseq : rm'.seq = n + 1 := by
    rw [stamp_of_authorization hauthorization, ← hnumbered.length]
    rfl
  obtain ⟨loaded, hloaded, hsort, stored, hstored', hjournals⟩ := loadRemediations_eq_ok_iff.mp hload
  rw [hrecord] at hstored'
  cases hstored'
  have hexisting : existing.Perm (loaded.map fst) := hsort ▸ perm_insertionSort _ _
  have hseqs : (existing.map seq).Perm (dir.documents.map fst) := by
    have hmap := hexisting.map seq
    rw [map_map] at hmap
    exact hmap.trans (List.Perm.of_eq hloaded.seqs)
  -- The documents there are now, the journal over them, and how they are read.
  have hdocs : dir'.documents.Perm ((rm'.seq, data) :: dir.documents) := by
    rw [hleft.left]
    exact Directory.documents_insert (by omega) hleft.fresh data _
  have hjournals' := (hleft.journals hnumbered hseq hseqs (hjournals r rfl)).perm hdocs
  have hreads := readsDocument_of_authorization hproposal hauthorization hfits (hseq ▸ hn) hleft.marshalled
  obtain ⟨loaded', hloaded', hperm⟩ := perm_comp_forall₂ hdocs
    (List.Forall₂.cons (b := (rm', storage.documentDigest data)) ⟨hreads, rfl⟩ hloaded)
  have hrecord' : loadRecord storage.toSite dir'.record r.projectID =
      .ok (some (r.journal adopted (refOf rm' (storage.documentDigest data)))) := by
    rw [hleft.left]
    exact loadRecord_journal (hstored ▸ hrecord) _ _
  have hnumbered' := hnumbered.concat hseq
  refine ⟨hseq, loadRemediations_eq_ok_iff.mpr ⟨loaded', hloaded', ?_, _, hrecord', ?_⟩, _, hrecord', ?_,
    hjournals', Storage.Loaded.readable hloaded'⟩
  · refine insertionSort_eq_of_perm (pairwise_map.mpr (hnumbered'.pairwise.imp ne_of_lt)) ?_
      (hnumbered'.pairwise.imp le_of_lt)
    calc loaded'.map fst
        _ |>.Perm (rm' :: loaded.map fst) := hperm.map fst
        _ |>.Perm (rm' :: existing) := hexisting.symm.cons rm'
        _ |>.Perm (existing ++ [rm']) := (perm_append_singleton rm' existing).symm
  · rintro _ ⟨⟩ -
    exact hjournals'
  · exact append_ne_nil_of_right_ne_nil _ (cons_ne_nil _ _)

end Authorize

/-- **The integrity of the remediation journal.**  Under an injective digest, and for every directory whose record
journals at least one remediation, remediations are loaded exactly when the documents are those of the journal: the
set that was installed, with unchanged bytes.  And where documents numbered from one to `n` are loaded, an
authorization that comes through leaves a directory from which they are loaded again, followed by the new one with
the number `n + 1`, and a journal that names exactly the documents there are, those from before it included. -/
theorem remediation_journal (storage : Storage) (hdigest : Function.Injective storage.documentDigest)
    (projectID : String) :
    (∀ dir r, loadRecord storage.toSite dir.record projectID = .ok (some r) → r.remediations ≠ [] →
      ((∃ rms, storage.loadRemediations dir projectID = .ok rms) ↔
        storage.Authorized projectID r.remediations dir.documents) ∧
      ∀ installed, storage.Authorized projectID r.remediations installed →
        ((∃ rms, storage.loadRemediations dir projectID = .ok rms) ↔ dir.documents.Perm installed)) ∧
    ∀ dir r existing (n : ℕ), loadRecord storage.toSite dir.record projectID = .ok (some r) →
      storage.loadRemediations dir projectID = .ok existing → Numbered n existing → IsInt64 (n + 1) →
      ∀ faults plan prior (rm : Remediation) actor now dir' rm', rm.Fits →
        storage.authorizeRemediation faults dir r plan prior rm actor now = (dir', .ok rm') →
        rm'.seq = n + 1 ∧ storage.loadRemediations dir' projectID = .ok (existing ++ [rm']) ∧
        ∃ r', loadRecord storage.toSite dir'.record projectID = .ok (some r') ∧ r'.remediations ≠ [] ∧
          storage.Authorized projectID r'.remediations dir'.documents := by
  refine ⟨fun dir r hrecord hne => ?_, ?_⟩
  · have hiff := exists_loadRemediations_iff hrecord hne
    exact ⟨hiff, fun installed hinstalled => hiff.trans (authorized_iff_perm hdigest hinstalled)⟩
  · intro dir r existing n hrecord hload hnumbered hn faults plan prior rm actor now dir' rm' hfits h
    exact loadRemediations_authorized hrecord hload hnumbered hn hfits h

/-! ## An older document -/

/-- A site whose digests keep every byte. -/
def plainStorage : Storage where
  deliveryRoot := "/deliveries"
  library := ⟨fun _ => .error "not a URL", fun a b => a = b⟩
  toLower := Char.toLower
  digest := fun _ => ""
  documentDigest := fun data => String.ofList (data.map Char.ofUInt8)
  decodeError := fun _ => ""

lemma injective_plainStorage : Function.Injective plainStorage.documentDigest := by
  have hchar : Function.Injective Char.ofUInt8 := fun b c h =>
    UInt8.toNat_inj.mp (by rw [← toNat_ofUInt8, ← toNat_ofUInt8, h])
  intro bs cs h
  exact map_injective_iff.mpr hchar (String.ofList_injective h)

/-- A delivery with a finding against it. -/
def disprovedRecord : Record :=
  { startedDelivery.record with invalidations := [crash 1 "it crashes" "issue 7"] }

def proposedFix : Remediation where
  projectID := "shop"
  seq := 0
  repairs := [⟨"ac-1", 1⟩]
  authorizedBy := ""
  packages := [sharedPackage "fix" []]

/-- Found wanting twice: the record says nothing of the remediation whose document answers the first finding. -/
def legacyRecord : Record :=
  { disprovedRecord with invalidations := [crash 1 "it crashes" "issue 7", crash 2 "it crashes again" "issue 9"] }

/-- A document from before there was a journal. -/
def legacyFix : Remediation := stamp [] proposedFix "owner" Time.zero

def legacyDirectory : Directory where
  files := (∅ : Files).insert (remediationName 1) ((marshalRemediation legacyFix).getD [])
  record := some legacyRecord

def secondFix : Remediation := { proposedFix with repairs := [⟨"ac-1", 2⟩], packages := [sharedPackage "refix" []] }

/-- The first authorization of a delivery with an older document adopts it: both are loaded from then on, as long as
the documents are those there were then. -/
theorem remediation_journal_adopting :
    ∃ dir' rm', plainStorage.authorizeRemediation {} legacyDirectory legacyRecord loadPlan {} secondFix
        "owner" Time.zero = (dir', .ok rm') ∧
      rm'.seq = 2 ∧ plainStorage.loadRemediations dir' "shop" = .ok [legacyFix, rm'] ∧
      ∀ dir, dir.record = dir'.record →
        ((∃ rms, plainStorage.loadRemediations dir "shop" = .ok rms) ↔ dir.documents.Perm dir'.documents) := by
  obtain ⟨hintegrity, hauthorize⟩ := remediation_journal plainStorage injective_plainStorage "shop"
  have hload : plainStorage.loadRemediations legacyDirectory "shop" = .ok [legacyFix] := by decide +kernel
  have hok : (plainStorage.authorizeRemediation {} legacyDirectory legacyRecord loadPlan {} secondFix
      "owner" Time.zero).2 = .ok (stamp [legacyFix] secondFix "owner" Time.zero) := by decide +kernel
  obtain ⟨dir', hdir'⟩ : ∃ dir', (plainStorage.authorizeRemediation {} legacyDirectory legacyRecord loadPlan {}
      secondFix "owner" Time.zero).1 = dir' := ⟨_, rfl⟩
  obtain ⟨hseq, hload', r', hrecord', hne, hauthorized⟩ := hauthorize legacyDirectory legacyRecord _ 1 rfl hload rfl
    (by decide) {} loadPlan {} secondFix "owner" Time.zero _ _ ⟨by decide, by decide, by decide⟩ (Prod.ext hdir' hok)
  refine ⟨_, _, Prod.ext hdir' hok, hseq, hload', fun dir hdir => ?_⟩
  exact (hintegrity dir r' (hdir ▸ hrecord') hne).2 _ hauthorized

end DeliveryEngine.Handoff
