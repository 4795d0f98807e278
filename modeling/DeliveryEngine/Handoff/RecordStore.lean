import DeliveryEngine.Handoff.Intent
import DeliveryEngine.Handoff.Record
import DeliveryEngine.Runs.SharedCell

/-!
# The stored record, and the commands that change it

The delivery record of a project is one file, replaced as a whole.  A command reads it, computes the record it wants to
leave, and stores that; nothing keeps another command from doing the same in between.  What a command reads besides the
record is given by its `Circumstances`, and any of it may have changed at any time.

Where nobody saves over a record that was saved since it was loaded, the four lists only grow (`entry_kept`).
`acceptance_lost` is a schedule outside that law.
-/

namespace DeliveryEngine.Handoff

open Go Runs List

/-! ## Reading the record -/

/-- The refusal of a record that cannot be trusted. -/
def errRecordCorrupt (why : String) : String := "handoff: delivery record is unreadable: " ++ why

/-- What the commands of one delivery host share. -/
structure Site where
  deliveryRoot : String
  library : Library
  toLower : Char → Char
  /-- The fingerprint of an intent's terms. -/
  digest : Intent → String

/-- The record a new delivery starts with. -/
def Site.freshRecord (site : Site) (intent : Intent) (now : Time) : Record :=
  { projectID := intent.projectID, intent := intent, intentDigest := site.digest intent,
    createdAt := now, updatedAt := now }

/-- Where the delivery record of a project lives. -/
def Site.recordPath (site : Site) (projectID : String) : String :=
  Path.join (Path.join site.deliveryRoot projectID) "delivery.json"

/-- What was decided about a request to start. -/
inductive Admission
  | created (r : Record)
  | alreadyStarted (r : Record)

/-- The first characters of a digest. -/
def short (digest : String) : String := String.ofList (digest.toList.take 12)

section Load
variable (site : Site) (stored : Option Record)

/-- Read the record of a project.  That there is none is no error. -/
def loadRecord (projectID : String) : Except String (Option Record) :=
  match stored with
  | none => .ok none
  | some r =>
    let path := site.recordPath projectID
    if r.schemaVersion ≠ 1 then
      .error (errRecordCorrupt s!"{path}: schemaVersion {r.schemaVersion}, this engine writes 1")
    else if r.projectID ≠ projectID then
      .error (errRecordConflict s!"{path} holds a record for project {quote r.projectID}")
    else if r.intentDigest ≠ site.digest r.intent then
      .error (errRecordCorrupt s!"{path}: the recorded intent does not match its own digest")
    else .ok (some r)

/-- Decide whether a request to start may proceed. -/
def admitDelivery (intent : Intent) (now : Time) : Except String Admission := do
  intent.validate site.library
  match ← loadRecord site stored intent.projectID with
  | none => return .created (site.freshRecord intent now)
  | some existing =>
    if existing.intentDigest ≠ site.digest intent then
      throw (errRecordConflict (s!"delivery for {quote intent.projectID} already started under " ++
        s!"different terms (recorded digest {short existing.intentDigest}, this request " ++
        s!"{short (site.digest intent)}) — stop the existing delivery and archive its record before " ++
        "starting different work"))
    else return .alreadyStarted existing

end Load

variable {projectID : String}

lemma stored_of_loadRecord {site : Site} {stored found : Option Record}
    (h : loadRecord site stored projectID = .ok found) : found = stored := by
  unfold loadRecord at h
  split at h
  · cases h
    rfl
  · split_ifs at h
    cases h
    rfl

lemma projectID_of_loadRecord {site : Site} {stored : Option Record} {r : Record}
    (h : loadRecord site stored projectID = .ok (some r)) : r.projectID = projectID := by
  unfold loadRecord at h
  split at h
  · cases h
  · split_ifs at h with hversion hproject hdigest
    cases h
    exact not_not.mp hproject

/-! ## Commands -/

/-- A command on the delivery of a project. -/
inductive Command
  | start (intent : Intent) (foreground : Bool)
  | run
  | accept (criterionID actor note : String)
  | invalidate (criterionID actor reason evidence : String)
  | remediate (rm : Remediation) (actor : String)

/-- An entry of the record. -/
inductive Entry
  | run (x : RunRef)
  | acceptance (a : RecordedAcceptance)
  | invalidation (inv : Invalidation)
  | remediation (ref : RemediationRef)

def Record.Holds (r : Record) : Entry → Prop
  | .run x => x ∈ r.runs
  | .acceptance a => a ∈ r.acceptances
  | .invalidation inv => inv ∈ r.invalidations
  | .remediation ref => ref ∈ r.remediations

instance (r : Record) : (entry : Entry) → Decidable (r.Holds entry)
  | .run x => inferInstanceAs (Decidable (x ∈ r.runs))
  | .acceptance a => inferInstanceAs (Decidable (a ∈ r.acceptances))
  | .invalidation inv => inferInstanceAs (Decidable (inv ∈ r.invalidations))
  | .remediation ref => inferInstanceAs (Decidable (ref ∈ r.remediations))

/-- What a command reads besides the record before it stores one. -/
structure Circumstances where
  now : Time
  /-- The assessment of the moment. -/
  prior : Evidence := {}
  plan : DeliveryPlan
  /-- The remediation documents there are, each with the digest of its file. -/
  documents : List (Remediation × String) := []
  /-- The digest of a document the command has itself installed. -/
  installed : String := ""
  /-- Where a run keeps its state, and the working copy it owns. -/
  stateDir : String := ""
  worktree : String := ""

/-- The time of day in the name of a run, `20060102T150405Z`. -/
def runStamp (t : Time) : String :=
  let c := t.civil
  Duration.padded 4 c.year.toNat ++ Duration.padded 2 c.month ++ Duration.padded 2 c.day ++ "T" ++
    Duration.padded 2 c.hour ++ Duration.padded 2 c.minute ++ Duration.padded 2 c.sec ++ "Z"

/-- The record a command wants to leave, and the entry it reports.  `loadedAt` is when it read `r`. -/
def Command.compute (toLower : Char → Char) (cmd : Command) (r : Record) (loadedAt : Time)
    (c : Circumstances) : Except String (Record × Option Entry) :=
  match cmd with
  | .start _ _ => .ok (r, none)
  | .run =>
    let reason := if r.runs.length > 0 then reasonResumed else reasonInitial
    let runID := r.projectID ++ "-" ++ runStamp loadedAt
    .ok ({ r.appendRun runID reason c.now with stateDir := c.stateDir, worktree := c.worktree },
      some (.run ⟨runID, c.now, reason⟩))
  | .accept criterionID actor note =>
    match r.accept criterionID actor note c.now with
    | (_, some err) => .error err
    -- A person who answers again confirms the answer that is there.
    | (r', none) => .ok (r', (r'.acceptances.find? (·.criterionID = criterionID)).map Entry.acceptance)
  | .invalidate criterionID actor reason evidence =>
    match r.invalidate criterionID c.prior actor reason evidence c.now with
    | (_, some err) => .error err
    | (r', none) => .ok (r', (r'.latestInvalidation criterionID).map Entry.invalidation)
  | .remediate rm actor => do
      r.checkProposal rm actor
      let rm ← r.authorization toLower c.plan c.prior (c.documents.map Prod.fst) rm actor c.now
      let ref := Record.refOf rm c.installed
      return (r.journal (c.documents.map (fun doc => Record.refOf doc.1 doc.2)) ref, some (.remediation ref))

/-! ## The store -/

/-- A command under way. -/
inductive Process
  | waiting (cmd : Command)
  /-- The command holds the record it read, or the one it is to start the delivery with. -/
  | holding (cmd : Command) (r : Record) (loadedAt : Time)
  | reported (entry : Option Entry)
  | refused (why : String)

/-- The stored record, and the commands under way. -/
structure Store where
  stored : Option Record
  process : ℕ → Process

/-- A step of one process. -/
inductive Action
  | load (p : ℕ) (now : Time)
  | save (p : ℕ) (c : Circumstances)
  /-- The process ends, or is refused by something the record has no part in. -/
  | fail (p : ℕ) (why : String)

/-- What a step does to the stored record.  A save counts as one even if it is refused; the temporary file, which the
source gives every save of one record, is not modelled. -/
def Action.access : Action → Access ℕ
  | load p _ => .load p
  | save p _ => .save p
  | fail p _ => .leave p

/-- What a command does once its record is stored: one that started a delivery in the foreground goes on to
run it. -/
def Command.next : Command → Option Entry → Process
  | .start _ true, _ => .waiting .run
  | _, entry => .reported entry

/-- The refusal to store a record that names no project. -/
def noProjectID : String := errRecordConflict "refusing to write a record with no project id"

section Step
variable (site : Site) (projectID : String)

/-- The refusal of a command on a project without a delivery. -/
def Command.notStarted : Command → String
  | .accept _ _ _ => "no managed delivery has been started for " ++ projectID
  | .invalidate _ _ _ _ => "no managed delivery has been started for " ++ projectID
  | _ => "no managed delivery has been started for " ++ quote projectID

def Command.concerns : Command → Bool
  | .start intent _ => intent.projectID = projectID
  | _ => true

variable (cmd : Command) (stored : Option Record) (now : Time)

/-- A command on a delivery that has been started reads the record. -/
def Command.read : Process :=
  match loadRecord site stored projectID with
  | .error err => .refused err
  | .ok none => .refused (cmd.notStarted projectID)
  | .ok (some r) => .holding cmd r now

def Command.load : Process :=
  match cmd with
  | .start intent _ =>
    match admitDelivery site stored intent now with
    | .error err => .refused err
    | .ok (.alreadyStarted _) => .reported none
    | .ok (.created r) => .holding cmd r now
  | _ => cmd.read site projectID stored now

/-- Take a step, if it is one the process can take. -/
def Store.step (s : Store) : Action → Option Store
  | .load p now =>
    match s.process p with
    | .waiting cmd =>
      if cmd.concerns projectID then
        some { s with process := Function.update s.process p (cmd.load site projectID s.stored now) }
      else none
    | _ => none
  | .save p c =>
    match s.process p with
    | .holding cmd r loadedAt =>
      match cmd.compute site.toLower r loadedAt c with
      | .error err => some { s with process := Function.update s.process p (.refused err) }
      | .ok (r', entry) =>
        if r'.projectID = "" then
          some { s with process := Function.update s.process p (.refused noProjectID) }
        else some ⟨some r', Function.update s.process p (cmd.next entry)⟩
    | _ => none
  | .fail p why =>
    match s.process p with
    | .waiting _ => some { s with process := Function.update s.process p (.refused why) }
    | .holding _ _ _ => some { s with process := Function.update s.process p (.refused why) }
    | _ => none

/-- Take the steps of a schedule. -/
def Store.run : Store → List Action → Option Store
  | s, [] => some s
  | s, action :: rest =>
    match s.step site projectID action with
    | none => none
    | some s' => Store.run s' rest

end Step

/-! ## What a command leaves -/

lemma Record.Extends.holds {r r' : Record} (h : r.Extends r') {entry : Entry} (he : r.Holds entry) :
    r'.Holds entry := by
  cases entry with
  | run x => exact h.runs.subset he
  | acceptance a => exact h.acceptances.subset he
  | invalidation inv => exact h.invalidations.subset he
  | remediation ref => exact h.remediations.subset he

variable {cmd : Command}

lemma Command.extends_of_compute {toLower : Char → Char} {r r' : Record} {loadedAt : Time}
    {c : Circumstances} {entry : Option Entry}
    (h : cmd.compute toLower r loadedAt c = .ok (r', entry)) :
    r.Extends r' ∧ ∀ e, entry = some e → r'.Holds e := by
  cases cmd with
  | start intent foreground =>
    cases h
    exact ⟨.refl r, nofun⟩
  | run =>
    cases h
    refine ⟨⟨prefix_append _ _, prefix_rfl, prefix_rfl, prefix_rfl⟩, ?_⟩
    rintro e ⟨⟩
    exact mem_append_right _ mem_cons_self
  | accept criterionID actor note =>
    have hholds : ∀ (r' : Record) e, (r'.acceptances.find? fun a => a.criterionID = criterionID).map
        Entry.acceptance = some e → r'.Holds e := by
      intro r' e he
      obtain ⟨a, ha, rfl⟩ := Option.map_eq_some_iff.mp he
      exact mem_of_find?_eq_some ha
    simp only [Command.compute] at h
    obtain ⟨err, h'⟩ | ⟨-, h'⟩ | ⟨a, -, h'⟩ := r.accept_cases criterionID actor note c.now
    all_goals
      rw [h'] at h
      cases h
    · exact ⟨.refl r, hholds _⟩
    · exact ⟨⟨prefix_rfl, prefix_append _ _, prefix_rfl, prefix_rfl⟩, hholds _⟩
  | invalidate criterionID actor reason evidence =>
    simp only [Command.compute] at h
    obtain ⟨err, h'⟩ | ⟨-, -, inv, -, -, h'⟩ := r.invalidate_cases criterionID c.prior actor reason evidence c.now
    all_goals
      rw [h'] at h
      cases h
    refine ⟨⟨prefix_rfl, prefix_rfl, prefix_append _ _, prefix_rfl⟩, fun e he => ?_⟩
    obtain ⟨inv, hinv, rfl⟩ := Option.map_eq_some_iff.mp he
    exact (Record.mem_of_latestInvalidation hinv).1
  | remediate rm actor =>
    simp only [Command.compute, bind_eq_ok] at h
    obtain ⟨_, -, rm', -, heq⟩ := h
    cases heq
    refine ⟨⟨prefix_rfl, prefix_rfl, prefix_rfl, r.prefix_journal _ _⟩, ?_⟩
    rintro e ⟨⟩
    exact mem_append_right _ mem_cons_self

/-! ## One step -/

def Command.isStart : Command → Bool
  | .start _ _ => true
  | _ => false

/-- What a process has read, while it holds on to it. -/
def Process.copy : Process → Option (Option Record)
  -- A delivery is started where no record was found.
  | .holding cmd r _ => some (if cmd.isStart then none else some r)
  | _ => none

/-- The stored record as a cell that the processes share. -/
def Store.cell (s : Store) : Cell ℕ (Option Record) := ⟨s.stored, fun p => (s.process p).copy⟩

variable {overtaken : ℕ → Bool}

section Move
variable {site : Site} {s s' : Store} {action : Action}

/-- What a step can do. -/
inductive Store.Move (site : Site) (projectID : String) (s : Store) : Action → Store → Prop
  | loaded {p : ℕ} {now : Time} {cmd : Command} :
      Move site projectID s (.load p now)
        { s with process := Function.update s.process p (cmd.load site projectID s.stored now) }
  | refused {action : Action} {p : ℕ} {why : String}
      (h : action.access = .save p ∨ action.access = .leave p) :
      Move site projectID s action { s with process := Function.update s.process p (.refused why) }
  | saved {p : ℕ} {c : Circumstances} {cmd : Command} {r r' : Record} {loadedAt : Time}
      {entry : Option Entry} (held : s.process p = .holding cmd r loadedAt)
      (computed : cmd.compute site.toLower r loadedAt c = .ok (r', entry)) :
      Move site projectID s (.save p c) ⟨some r', Function.update s.process p (cmd.next entry)⟩

lemma Store.move_of_step (h : s.step site projectID action = some s') : s.Move site projectID action s' := by
  cases action with
  | load p now =>
    simp only [Store.step] at h
    split at h
    · split_ifs at h
      cases h
      exact .loaded
    · cases h
  | save p c =>
    simp only [Store.step] at h
    split at h
    · next cmd r loadedAt held =>
      split at h
      · cases h
        exact .refused (.inl rfl)
      · next r' entry computed =>
        split_ifs at h
        · cases h
          exact .refused (.inl rfl)
        · cases h
          exact .saved held computed
    · cases h
  | fail p why =>
    simp only [Store.step] at h
    split at h
    · cases h
      exact .refused (.inr rfl)
    · cases h
      exact .refused (.inr rfl)
    · cases h

lemma Command.copy_read (hcmd : cmd.isStart = false) {stored v : Option Record}
    {now : Time} (h : (cmd.read site projectID stored now).copy = some v) : v = stored := by
  unfold Command.read at h
  split at h
  · cases h
  · cases h
  · next r hr =>
    simp only [Process.copy, hcmd, Bool.false_eq_true, if_false, Option.some.injEq] at h
    rw [← h]
    exact stored_of_loadRecord hr

lemma Command.copy_load {stored v : Option Record} {now : Time}
    (h : (cmd.load site projectID stored now).copy = some v) : v = stored := by
  cases cmd with
  | start intent foreground =>
    simp only [Command.load] at h
    split at h
    · cases h
    · cases h
    · next r hr =>
      cases h
      simp only [admitDelivery, bind_eq_ok] at hr
      obtain ⟨_, -, found, hfound, hr⟩ := hr
      rw [← stored_of_loadRecord hfound]
      cases found with
      | none => rfl
      | some existing =>
        dsimp only at hr
        split_ifs at hr
        cases hr
  | _ => exact Command.copy_read rfl h

lemma Command.copy_next (cmd : Command) (entry : Option Entry) : (cmd.next entry).copy = none := by
  unfold Command.next
  split
  · rfl
  · rfl

lemma copy_of_update {process : ℕ → Process} {p q : ℕ} {proc : Process} {v : Option Record}
    (hproc : proc.copy = none) (h : (Function.update process p proc q).copy = some v) :
    (process q).copy = some v := by
  by_cases hpq : q = p
  · rw [hpq, Function.update_self, hproc] at h
    cases h
  · rwa [Function.update_of_ne hpq] at h

lemma Store.Move.next (h : s.Move site projectID action s') : Cell.Next action.access s.cell s'.cell := by
  cases h with
  | @loaded p now cmd =>
    refine ⟨fun _ => rfl, ?_, ?_, by simp [Action.access]⟩
    · rintro q v ⟨⟩ hv
      simp only [Store.cell, Function.update_self] at hv
      exact Command.copy_load hv
    · intro q v hq hv
      have hne : q ≠ p := by
        rintro rfl
        exact hq rfl
      simpa [Store.cell, hne] using hv
  | @refused action p why haccess =>
    refine ⟨fun _ => rfl, ?_, fun q v _ hv => copy_of_update rfl hv, ?_⟩
    · intro q v hq
      rcases haccess with h | h <;> rw [h] at hq <;> cases hq
    · intro q hq
      rcases haccess with h | h <;> rw [h] at hq <;> cases hq
      simp [Store.cell, Process.copy]
  | @saved p c cmd r r' loadedAt entry held computed =>
    refine ⟨fun h => absurd rfl (h p), by simp [Action.access],
      fun q v _ hv => copy_of_update (cmd.copy_next entry) hv, ?_⟩
    rintro q ⟨⟩
    simp [Store.cell, Command.copy_next]

/-! ## Schedules -/

/-- The lists of the stored record have at most been appended to. -/
def StoredExtends (a b : Option Record) : Prop := ∀ r, a = some r → ∃ r', b = some r' ∧ r.Extends r'

lemma StoredExtends.refl (a : Option Record) : StoredExtends a a := fun r hr => ⟨r, hr, .refl r⟩

lemma StoredExtends.trans {a b c : Option Record} (hab : StoredExtends a b) (hbc : StoredExtends b c) :
    StoredExtends a c := by
  intro r hr
  obtain ⟨r', hr', hext⟩ := hab r hr
  obtain ⟨r'', hr'', hext'⟩ := hbc r' hr'
  exact ⟨r'', hr'', hext.trans hext'⟩

/-- What has been reported is recorded. -/
def Store.Kept (s : Store) : Prop :=
  ∀ p entry, s.process p = .reported (some entry) → ∃ r, s.stored = some r ∧ r.Holds entry

lemma Command.load_ne_reported (cmd : Command) (stored : Option Record) (now : Time) (entry : Entry) :
    cmd.load site projectID stored now ≠ .reported (some entry) := by
  intro h
  cases cmd with
  | start intent foreground =>
    simp only [Command.load] at h
    split at h <;> cases h
  | _ =>
    simp only [Command.load, Command.read] at h
    split at h <;> cases h

variable (h : s.Move site projectID action s')
include h

lemma Store.Move.stored (hcurrent : s.cell.Current overtaken) (hlate : action.access.isLate overtaken = false) :
    StoredExtends s.stored s'.stored := by
  cases h with
  | loaded => exact .refl _
  | refused => exact .refl _
  | @saved p c cmd r r' loadedAt entry held computed =>
    have hcopy : (if cmd.isStart then none else some r) = s.stored := by
      refine hcurrent p _ hlate ?_
      simp [Store.cell, held, Process.copy]
    intro old hold
    rw [hold] at hcopy
    split_ifs at hcopy
    cases hcopy
    exact ⟨r', rfl, (Command.extends_of_compute computed).1⟩

lemma Store.Move.kept (hext : StoredExtends s.stored s'.stored) (hkept : s.Kept) : s'.Kept := by
  have hothers : ∀ q entry, s.process q = .reported (some entry) → ∃ r, s'.stored = some r ∧ r.Holds entry := by
    intro q entry hq
    obtain ⟨r, hr, hholds⟩ := hkept q entry hq
    obtain ⟨r', hr', hrr'⟩ := hext r hr
    exact ⟨r', hr', hrr'.holds hholds⟩
  have hself : ∀ {p : ℕ} {proc : Process}, s'.process = Function.update s.process p proc →
      (∀ entry, proc = .reported (some entry) → ∃ r, s'.stored = some r ∧ r.Holds entry) → s'.Kept := by
    intro p proc hprocess hproc q entry hq
    rw [hprocess] at hq
    by_cases hpq : q = p
    · rw [hpq, Function.update_self] at hq
      exact hproc entry hq
    · rw [Function.update_of_ne hpq] at hq
      exact hothers q entry hq
  cases h with
  | loaded => exact hself rfl fun entry he => absurd he (Command.load_ne_reported _ _ _ _)
  | refused => exact hself rfl nofun
  | @saved p c cmd r r' loadedAt entry held computed =>
    refine hself rfl fun e he => ⟨r', rfl, (Command.extends_of_compute computed).2 e ?_⟩
    unfold Command.next at he
    split at he
    · cases he
    · exact Process.reported.inj he

end Move

section Run
variable {site : Site} {s s' s₁ s₂ : Store}

lemma Store.run_cons {action : Action} {rest : List Action} : s.run site projectID (action :: rest) = some s' ↔
      ∃ mid, s.step site projectID action = some mid ∧ mid.run site projectID rest = some s' := by
  simp only [Store.run]
  cases s.step site projectID action with
  | none => simp
  | some mid => simp

/-- Along a schedule in which nobody saves after being overtaken, copies stay current, the stored record is
only extended, and what has been reported stays recorded. -/
lemma Store.run_exclusive {actions : List Action} (h : s.run site projectID actions = some s')
    (hexclusive : Exclusive overtaken (actions.map Action.access) = true)
    (hcurrent : s.cell.Current overtaken) (hkept : s.Kept) :
    s'.cell.Current (overtakenBy overtaken (actions.map Action.access)) ∧ s'.Kept ∧
      StoredExtends s.stored s'.stored := by
  induction actions generalizing s overtaken with
  | nil =>
    cases h
    exact ⟨hcurrent, hkept, .refl _⟩
  | cons action rest ih =>
    obtain ⟨mid, hstep, hrest⟩ := Store.run_cons.mp h
    rw [map_cons, exclusive_cons] at hexclusive
    have hmove := Store.move_of_step hstep
    have hext := hmove.stored hcurrent hexclusive.1
    obtain ⟨hcurrent', hkept', hext'⟩ := ih hrest hexclusive.2 (hcurrent.next hmove.next) (hmove.kept hext hkept)
    exact ⟨hcurrent', hkept', hext.trans hext'⟩

/-- Whatever the commands and however their steps are interleaved: as long as nobody saves over a record that
was saved since they loaded it, the lists of the stored record only grow by appending, and the entry a command
has reported is in every record stored later. -/
theorem entry_kept (before later : List Action) (hwaiting : ∀ p, ∃ cmd, s.process p = .waiting cmd)
    (h₁ : s.run site projectID before = some s₁) (h₂ : s₁.run site projectID later = some s₂)
    (hexclusive : Exclusive (fun _ => false) ((before ++ later).map Action.access) = true) :
    StoredExtends s₁.stored s₂.stored ∧ ∀ p entry, s₁.process p = .reported (some entry) →
        ∃ r, s₂.stored = some r ∧ r.Holds entry := by
  have hcurrent : s.cell.Current (fun _ => false) := by
    intro p v _ hv
    obtain ⟨cmd, hcmd⟩ := hwaiting p
    simp [Store.cell, hcmd, Process.copy] at hv
  have hkept : s.Kept := by
    intro p entry hp
    obtain ⟨cmd, hcmd⟩ := hwaiting p
    rw [hcmd] at hp
    cases hp
  rw [map_append, exclusive_append] at hexclusive
  obtain ⟨hcurrent₁, hkept₁, -⟩ := Store.run_exclusive h₁ hexclusive.1 hcurrent hkept
  obtain ⟨-, -, hext⟩ := Store.run_exclusive h₂ hexclusive.2 hcurrent₁ hkept₁
  refine ⟨hext, fun p entry hp => ?_⟩
  obtain ⟨r, hr, hholds⟩ := hkept₁ p entry hp
  obtain ⟨r', hr', hrr'⟩ := hext r hr
  exact ⟨r', hr', hrr'.holds hholds⟩

end Run

/-! ## A run beside an acceptance -/

/-- A host that reads no URL. -/
def plainSite : Site :=
  { deliveryRoot := "/srv", library := ⟨fun _ => .error "no URLs", fun a b => a = b⟩, toLower := id,
    digest := Intent.projectID }

/-- A delivery with a criterion that a person accepts, just started. -/
def uatRecord : Record :=
  plainSite.freshRecord
    { projectID := "shop", lifecycle := ["build"], acceptance := [⟨"uat", "", acceptedByHuman, []⟩] } ⟨0⟩

/-- One process runs the delivery, another accepts the criterion. -/
def runAndAccept : Store := ⟨some uatRecord, fun p => .waiting (if p = 1 then .accept "uat" "Ada" "" else .run)⟩

/-- What is read besides the record, where nothing is. -/
def noCircumstances : Circumstances := { now := ⟨1⟩, plan := { projectID := "shop", packages := [] } }

/-- The steps of a process, one right after the other. -/
def atOnce (p : ℕ) : List Action := [.load p ⟨0⟩, .save p noCircumstances]

theorem entry_kept_accept_then_run : ∃ s₁ s₂, runAndAccept.run plainSite "shop" (atOnce 1) = some s₁ ∧
      s₁.run plainSite "shop" (atOnce 0) = some s₂ ∧
      StoredExtends s₁.stored s₂.stored ∧
      ∀ p entry, s₁.process p = .reported (some entry) → ∃ r, s₂.stored = some r ∧ r.Holds entry := by
  refine ⟨_, _, rfl, rfl, ?_⟩
  exact entry_kept (s := runAndAccept) (atOnce 1) (atOnce 0) (fun p => ⟨_, rfl⟩)
    (show runAndAccept.run plainSite "shop" (atOnce 1) = some _ from rfl)
    (show Store.run plainSite "shop" _ (atOnce 0) = some _ from rfl) (by decide)

/-- The run reads the record; while it plans, a person accepts the criterion and is told so; the run stores the
record it read with itself added, and the acceptance is gone. -/
theorem acceptance_lost : ∃ s₁ s₂ entry,
      runAndAccept.run plainSite "shop" [.load 0 ⟨0⟩, .load 1 ⟨0⟩, .save 1 noCircumstances] = some s₁ ∧
      s₁.process 1 = .reported (some entry) ∧
      s₁.run plainSite "shop" [.save 0 noCircumstances] = some s₂ ∧
      (∃ r, s₂.stored = some r ∧ ¬r.Holds entry) ∧ ¬StoredExtends s₁.stored s₂.stored := by
  refine ⟨_, _, _, rfl, rfl, rfl, ⟨_, rfl, by decide⟩, fun hext => ?_⟩
  obtain ⟨r, hr, hprefix⟩ := hext _ rfl
  cases hr
  exact absurd hprefix.acceptances (by decide)

end DeliveryEngine.Handoff
