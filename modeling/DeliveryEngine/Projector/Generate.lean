import DeliveryEngine.Go.Result
import DeliveryEngine.Projector.Fold
import DeliveryEngine.Projector.Render

/-!
# Producing the projection

`generate` builds the state afresh from the run's facts, folds the events after the durable cursor into it, writes the
document and advances the cursor.  A run that skips events because of its cursor writes a document without them;
`document_eq_cold` gives the runs for which the last document is still the one a single run over the whole log writes.
-/

namespace DeliveryEngine.Projector

open Go

/-! ## The facts of a run -/

/-- What the run's ledger and the forge say of one package. -/
structure FactsTask where
  taskID : String
  beadID : String := ""
  title : String := ""
  phase : String := ""
  taskType : String := ""
  status : String
  priority : String := ""
  ownerType : String := ""
  branch : String := ""
  pullRequest : ℤ := 0
  dependencies : List String := []
  parallelGroup : String := ""
  criticalPath : Bool := false
  implementationSha : String := ""
  agentSession : String := ""
  worktreePath : String := ""
  /-- Keys the task to its rows in the control ledger. -/
  gateLabel : String := ""
  /-- Which gate the task is held to. -/
  gateKind : String := ""

/-- The facts document.  A deliverable's verdict is not among them. -/
structure Facts where
  project : ProjectMeta
  runID : String := ""
  tasks : List FactsTask
  deliverables : List Deliverable := []

/-- The controls that together are the promoted route's completion gate. -/
def completionGateControls : List String :=
  ["required CI passed", "independent assurance passed", "merged through repository governance"]

/-- The controls that together are a verification's completion gate. -/
def verificationGateControls : List String :=
  ["verified commit is on the authoritative branch", "required evidence present at the verified commit",
    "declared verification gates passed at the verified commit"]

/-- Whether a line of the control ledger says that a control passed for a label. -/
def passes (label want ledgerLine : String) : Bool :=
  match splitOn ledgerLine '\t' with
  | name :: status :: _ => hasPrefix name (label ++ " ") && contains name want && status = "PASS"
  | _ => false

/-- The completion gate, from the control ledger and never from the status. -/
def deriveCompletionGate (ledger label kind : String) : String × CompletionGateStatus :=
  if trimSpace label = "" then ("", .known .notMet)
  else
    let controls :=
      if kind = "verification" then verificationGateControls else completionGateControls
    let passed := (controls.filter (fun want => (splitOn ledger '\n').any (passes label want))).length
    (joinWith controls " + ",
      if passed = controls.length then .known .met
      else if 0 < passed then .known .partiallyMet
      else .known .notMet)

/-! ## The state a run starts from -/

/-- The evidence a package's row carries. -/
def evidenceOf (runID : String) (ft : FactsTask) : List String :=
  (if ft.agentSession = "" then [] else ["session=" ++ ft.agentSession]) ++
    (if ft.worktreePath = "" then [] else ["worktree=" ++ ft.worktreePath]) ++
    (if runID = "" then [] else ["run=" ++ runID]) ++
    (if ft.beadID = "" then [] else ["bead=" ++ ft.beadID])

/-- A package's row, before any event. -/
def taskOf (runID ledger : String) (ft : FactsTask) : Task :=
  let gate := deriveCompletionGate ledger ft.gateLabel ft.gateKind
  { taskID := ft.taskID, title := ft.title, phase := ft.phase, taskType := ft.taskType,
    status := Named.ofText ft.status, priority := ft.priority, ownerType := ft.ownerType,
    branch := ft.branch, pullRequest := ft.pullRequest, dependencies := ft.dependencies,
    parallelGroup := ft.parallelGroup, criticalPath := ft.criticalPath,
    implementationSha := ft.implementationSha, completionGate := gate.1,
    completionGateStatus := gate.2, evidence := evidenceOf runID ft }

namespace Facts

variable (facts : Facts)

/-- Refuse facts with a status outside the canonical vocabulary. -/
def check : Except String Unit :=
  facts.tasks.forM (fun ft =>
    (validateTaskStatus (Named.ofText ft.status)).mapError (fun err => "task " ++ ft.taskID ++ ": " ++ err))

/-- The packages with a bead. -/
def dispatched : List FactsTask := facts.tasks.filter (·.beadID ≠ "")

def byBead : GoMap String := GoMap.indexBy FactsTask.beadID FactsTask.taskID facts.dispatched

/-- When each package's bead was closed, for those with a terminal record. -/
def terminal (closedAt : String → Option Time) : GoMap Time :=
  (facts.dispatched.filterMap (fun ft => (closedAt ft.beadID).map (fun at_ => (ft.taskID, at_)))).foldl
    (fun m entry => m.set entry.1 entry.2) ∅

/-- The events about the packages, under the packages' ids. -/
def mapped (events : List Event) : List Event :=
  events.filterMap (fun ev => (facts.byBead.get? ev.subject).map (fun id => { ev with subject := id }))

/-- The state a run starts from. -/
def state (ledger : String) (newest : Time) : State :=
  { project := { facts.project with lastUpdateTimestamp := newest }
    tasks := GoMap.indexBy Task.taskID (fun t => t) (facts.tasks.map (taskOf facts.runID ledger))
    deliverables := facts.deliverables.map (fun d => { d with met := false }) }

end Facts

def newestOf (events : List Event) : Time :=
  events.foldl (fun newest ev => if newest.ns < ev.ts.ns then ev.ts else newest) Time.zero

/-! ## Projecting -/

/-- The durable projection position.  A missing cursor is at zero. -/
structure Cursor where
  seq : ℕ := 0
  updatedAt : Time := Time.zero

/-- The orders in which a run ranges over its maps. -/
structure Ranges where
  blockers : List String
  listing : List String
  terminal : List String
  blockersAgain : List String
  listingAgain : List String

/-- What projecting comes to: the state, the document it wrote, and the cursor to save. -/
structure Projected where
  state : State
  document : String
  next : Cursor

/-- Fold every event after the cursor into the state and write the document. -/
def project (events : List Event) (s : State) (cur : Cursor) (blockers listing : List String) :
    Except String Projected := do
  let fresh := events.filter (fun ev => cur.seq < ev.seq)
  let s := (fresh.foldl State.apply s).recomputeBlockers blockers
  let document ← render listing s
  return ⟨s, document,
    { seq := fresh.foldl (fun applied ev => max applied ev.seq) cur.seq,
      updatedAt := s.project.lastUpdateTimestamp }⟩

variable (order : List String) (terminal : GoMap Time) (s : State)

/-- Join the terminal records, visiting them in an order. -/
def joinTerminal : State :=
  order.foldl (fun s id =>
    match terminal.get? id with
    | none => s
    | some closedAt => s.setTerminalFinish id closedAt) s

/-- What the generator reads besides its facts: the control ledger, the time each bead was closed, and
the event log. -/
structure Sources where
  ledger : String
  closedAt : String → Option Time
  log : List Event

/-- What a run leaves behind. -/
structure Output where
  document : String
  cursor : Cursor

/-- One run of the generator from a cursor.  A crash after the document is written leaves the cursor
where it was, and the terminal records are not joined. -/
def generate (facts : Facts) (src : Sources) (ranges : Ranges) (crash : Bool) (cur : Cursor) :
    Except String Output := do
  facts.check
  let events := facts.mapped src.log
  let projected ← project events (facts.state src.ledger (newestOf events)) cur ranges.blockers ranges.listing
  if crash then return ⟨projected.document, cur⟩
  let s := joinTerminal ranges.terminal (facts.terminal src.closedAt) projected.state
  let document ← render ranges.listingAgain (s.recomputeBlockers ranges.blockersAgain)
  return ⟨document, projected.next⟩

/-! ## The order of the ranges does not show -/

lemma State.isSome_get?_foldl_apply (s : State) (es : List Event) (id : String) :
    ((es.foldl State.apply s).tasks.get? id).isSome = (s.tasks.get? id).isSome := by
  rw [State.get?_foldl_apply, Option.isSome_map]

/-- A finish joined onto a task. -/
def Task.closeAt (closedAt : Time) (t : Task) : Task :=
  if closedAt.isZero then t else { t with actualFinish := closedAt }.markLastAttemptSucceeded

lemma State.setTerminalFinish_eq (s : State) (id : String) (closedAt : Time) : s.setTerminalFinish id closedAt =
      { s with tasks := (s.setTerminalFinish id closedAt).tasks } ∧
    ∀ k, (s.setTerminalFinish id closedAt).tasks.get? k =
      (s.tasks.get? k).map (fun t => if k = id then t.closeAt closedAt else t) := by
  unfold State.setTerminalFinish
  cases hget : s.tasks.get? id with
  | none =>
    refine ⟨rfl, fun k => ?_⟩
    by_cases hk : k = id
    · subst hk
      simp [hget]
    · simp [hk]
  | some t =>
    by_cases hzero : closedAt.isZero = true
    · refine ⟨by simp [hzero], fun k => ?_⟩
      by_cases hk : k = id <;> simp [hk, hzero, Task.closeAt]
    · refine ⟨by simp [hzero], fun k => ?_⟩
      by_cases hk : k = id
      · subst hk
        simp [hzero, hget, Task.closeAt]
      · simp [hzero, hk, GoMap.get?_set_of_ne _ _ hk]

lemma joinTerminal_eq : joinTerminal order terminal s =
      { s with tasks := (joinTerminal order terminal s).tasks } := by
  induction order generalizing s with
  | nil => rfl
  | cons k order ih =>
    rw [joinTerminal, List.foldl_cons, ← joinTerminal, ih]
    split
    · rfl
    · rw [(s.setTerminalFinish_eq k _).1]

variable {terminal : GoMap Time}

lemma get?_joinTerminal {order : List String} (horder : GoMap.Enumerates order terminal) (s : State) (id : String) :
    (joinTerminal order terminal s).tasks.get? id =
      (s.tasks.get? id).map (fun t => ((terminal.get? id).map fun c => t.closeAt c).getD t) := by
  have hvisits := GoMap.get?_foldl_visits (m := State.tasks) (P := fun _ => True)
    (f := fun k t => ((terminal.get? k).map fun c => t.closeAt c).getD t)
    (g := fun s k => match terminal.get? k with
      | none => s
      | some closedAt => s.setTerminalFinish k closedAt)
    (fun s k _ => by
      cases terminal.get? k with
      | none => exact ⟨trivial, fun id => by simp⟩
      | some c => exact ⟨trivial, fun id => by simp [(s.setTerminalFinish_eq k c).2]⟩) horder.1 (s := s) trivial id
  refine hvisits.trans ?_
  by_cases hid : id ∈ order
  · simp [hid]
  · have hnone : terminal.get? id = none := by simpa [horder.2 id] using hid
    simp [hnone]

lemma joinTerminal_congr {xs ys : List String}
    (hxs : GoMap.Enumerates xs terminal) (hys : GoMap.Enumerates ys terminal) (s : State) :
    joinTerminal xs terminal s = joinTerminal ys terminal s := by
  have htasks : (joinTerminal xs terminal s).tasks = (joinTerminal ys terminal s).tasks :=
    Finmap.ext_lookup fun id =>
      (get?_joinTerminal hxs s id).trans (get?_joinTerminal hys s id).symm
  rw [joinTerminal_eq xs, joinTerminal_eq ys, htasks]

/-- The orders are those of ranges over the maps of a run. -/
structure Ranges.Over (ranges : Ranges) (facts : Facts) (src : Sources) : Prop where
  blockers : GoMap.Enumerates ranges.blockers (facts.state src.ledger Time.zero).tasks
  listing : GoMap.Enumerates ranges.listing (facts.state src.ledger Time.zero).tasks
  terminal : GoMap.Enumerates ranges.terminal (facts.terminal src.closedAt)
  blockersAgain : GoMap.Enumerates ranges.blockersAgain (facts.state src.ledger Time.zero).tasks
  listingAgain : GoMap.Enumerates ranges.listingAgain (facts.state src.ledger Time.zero).tasks

variable {facts : Facts}

lemma generate_congr {src : Sources} {xs ys : Ranges} (hxs : xs.Over facts src)
    (hys : ys.Over facts src) (crash : Bool) (cur : Cursor) :
    generate facts src xs crash cur = generate facts src ys crash cur := by
  -- Every state of the run has the keys of the state it started from.
  have hfold : ∀ {order : List String} (newest : Time) (es : List Event),
      GoMap.Enumerates order (facts.state src.ledger Time.zero).tasks →
        GoMap.Enumerates order (es.foldl State.apply (facts.state src.ledger newest)).tasks :=
    fun newest es h => h.of_isSome (State.isSome_get?_foldl_apply (facts.state src.ledger newest) es)
  have hblock : ∀ {order xs : List String} {s : State}, GoMap.Enumerates order s.tasks →
      GoMap.Enumerates order (s.recomputeBlockers xs).tasks :=
    fun h => h.of_isSome (State.isSome_get?_forEach _ _ _)
  have hjoin : ∀ {order : List String} {s : State}, GoMap.Enumerates order s.tasks →
      GoMap.Enumerates order (joinTerminal ys.terminal (facts.terminal src.closedAt) s).tasks :=
    fun h => h.of_isSome fun id => by rw [get?_joinTerminal hys.terminal, Option.isSome_map]
  unfold generate project
  dsimp only
  rw [State.recomputeBlockers_congr (hfold _ _ hxs.blockers) (hfold _ _ hys.blockers),
    render_congr (hblock (hfold _ _ hxs.listing)) (hblock (hfold _ _ hys.listing))]
  simp only [bind_assoc, pure_bind]
  rw [joinTerminal_congr hxs.terminal hys.terminal,
    State.recomputeBlockers_congr (hjoin (hblock (hfold _ _ hxs.blockersAgain)))
      (hjoin (hblock (hfold _ _ hys.blockersAgain))),
    render_congr (hblock (hjoin (hblock (hfold _ _ hxs.listingAgain))))
      (hblock (hjoin (hblock (hfold _ _ hys.listingAgain))))]

/-- A run before the last: what it read, the orders of its ranges, and whether it crashed. -/
structure Invocation where
  src : Sources
  ranges : Ranges
  crash : Bool

/-- The cursor that runs leave behind.  A run that is refused leaves it alone. -/
def cursorAfter (facts : Facts) (runs : List Invocation) (cur : Cursor) : Cursor :=
  runs.foldl (fun cur run =>
    match generate facts run.src run.ranges run.crash cur with
    | .ok out => out.cursor
    | .error _ => cur) cur

lemma generate_eq_ok {src : Sources} {ranges : Ranges} {crash : Bool} {cur : Cursor}
    {out : Output} (h : generate facts src ranges crash cur = .ok out) :
    out.cursor = cur ∧ crash = true ∨ crash = false ∧ out.cursor.seq =
      ((facts.mapped src.log).filter fun ev => cur.seq < ev.seq).foldl
        (fun applied ev => max applied ev.seq) cur.seq := by
  unfold generate project at h
  simp only [bind_assoc, pure_bind] at h
  obtain ⟨_, -, h⟩ := bind_eq_ok.mp h
  obtain ⟨written, -, h⟩ := bind_eq_ok.mp h
  cases crash with
  | true =>
    cases h
    exact .inl ⟨rfl, rfl⟩
  | false =>
    obtain ⟨document, -, h⟩ := bind_eq_ok.mp h
    cases h
    exact .inr ⟨rfl, rfl⟩

lemma cursorAfter_seq_eq_zero {runs : List Invocation} {cur : Cursor} (hcur : cur.seq = 0)
    (hruns : ∀ run ∈ runs, run.crash = false → ∀ ev ∈ facts.mapped run.src.log, ev.seq = 0) :
    (cursorAfter facts runs cur).seq = 0 := by
  induction runs generalizing cur with
  | nil => exact hcur
  | cons run runs ih =>
    obtain ⟨hrun, hruns⟩ := List.forall_mem_cons.mp hruns
    refine ih ?_ hruns
    dsimp only
    split
    · next out hout =>
      rcases generate_eq_ok hout with ⟨hkept, -⟩ | ⟨hcrash, hseq⟩
      · rw [hkept, hcur]
      · have hnone : (facts.mapped run.src.log).filter (fun ev => cur.seq < ev.seq) = [] := by
          rw [List.filter_eq_nil_iff]
          intro ev hev
          simp [hrun hcrash ev hev]
        rw [hseq, hnone]
        exact hcur
    · exact hcur

/-- The document of the last run is the one a single run over the whole log writes with no cursor, when
every earlier run that saved its cursor had seen no event of a task. -/
theorem document_eq_cold (facts : Facts) (earlier : List Invocation) (src : Sources)
    (ranges cold : Ranges) (hranges : ranges.Over facts src) (hcold : cold.Over facts src)
    (hearlier : ∀ run ∈ earlier, run.crash = false → ∀ ev ∈ facts.mapped run.src.log, ev.seq = 0) :
    (generate facts src ranges false (cursorAfter facts earlier {})).map Output.document =
      (generate facts src cold false {}).map Output.document := by
  have hzero : (cursorAfter facts earlier {}).seq = 0 := cursorAfter_seq_eq_zero rfl hearlier
  rw [generate_congr hranges hcold]
  unfold generate project
  rw [hzero]
  rfl

def oneBead : Facts :=
  { project := { projectID := "demo" }
    tasks := [{ taskID := "wp-a", beadID := "gc-1", status := "planned", gateLabel := "wp-a" }] }

/-- Nothing is in the control ledger or the bead store yet. -/
def withLog (log : List Event) : Sources := ⟨"", fun _ => none, log⟩

/-- The ranges of a run with one package. -/
def oneByOne : Ranges := ⟨["wp-a"], ["wp-a"], [], ["wp-a"], ["wp-a"]⟩

/-- The package is started, and later finished. -/
def beadLog : List Event :=
  [{ seq := 1, type := .known .started, ts := ⟨10⟩, subject := "gc-1" },
    { seq := 2, type := .known .finished, ts := ⟨20⟩, subject := "gc-1" }]

lemma oneByOne_over (log : List Event) : oneByOne.Over oneBead (withLog log) := by
  have htasks : GoMap.Enumerates ["wp-a"] (oneBead.state "" Time.zero).tasks := by
    refine ⟨by decide, fun k => ?_⟩
    have hget : (oneBead.state "" Time.zero).tasks.get? k =
        if k = "wp-a" then some (taskOf "" "" (oneBead.tasks.head (by decide))) else none :=
      GoMap.get?_set ∅ "wp-a" k _
    rw [hget]
    by_cases hk : k = "wp-a" <;> simp [hk]
  have hterminal : GoMap.Enumerates [] (oneBead.terminal (withLog log).closedAt) :=
    ⟨List.nodup_nil, fun k => by simp [Facts.terminal, withLog]⟩
  exact ⟨htasks, htasks, hterminal, htasks, htasks⟩

/-- A run that saw no event, and one that crashed before it saved its cursor, do not show. -/
theorem document_eq_cold_crashed : (generate oneBead (withLog beadLog) oneByOne false
        (cursorAfter oneBead [⟨withLog [], oneByOne, false⟩, ⟨withLog beadLog, oneByOne, true⟩]
          {})).map Output.document =
      (generate oneBead (withLog beadLog) oneByOne false {}).map Output.document := by
  refine document_eq_cold oneBead _ (withLog beadLog) oneByOne oneByOne (oneByOne_over beadLog)
    (oneByOne_over beadLog) ?_
  simp [withLog, Facts.mapped]

/-- A second run leaves out the start that the first one projected. -/
theorem second_run_forgets_start : beadLog.Pairwise (fun a b => a.seq < b.seq) ∧
      (generate oneBead (withLog beadLog) oneByOne false
          (cursorAfter oneBead [⟨withLog (beadLog.take 1), oneByOne, false⟩] {})).map Output.document ≠
        (generate oneBead (withLog beadLog) oneByOne false {}).map Output.document := by
  refine ⟨by decide, ?_⟩
  decide +kernel

end DeliveryEngine.Projector
