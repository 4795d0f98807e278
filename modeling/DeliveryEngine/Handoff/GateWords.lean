import DeliveryEngine.Handoff.Validate

/-!
# The words of a granted gate

`validateGate` looks at the words of a gate as `strings.Fields` finds them, between Unicode spaces; the driver runs the
gate as an unquoted expansion of what a command substitution has read, which has lost its NULs and is split at space,
tab and newline.  The first shell word is a runner exactly when the first white space of the gate is the ordinary one.
A shell word is made of whole fields, so it leads out of the worktree only by a NUL that is dropped
(`validateGate_words_iff`).
-/

namespace DeliveryEngine.Handoff

open Go List

/-- The characters the shell splits an unquoted expansion at. -/
def isIFS (c : Char) : Bool := c = ' ' || c = '\t' || c = '\n'

/-- A text as a command substitution reads it: bash drops the NULs. -/
def dropNul (cs : List Char) : List Char := cs.filter (· ≠ '\x00')

/-- The words `run_project_gates` runs a gate as, which it gets from `$(pkg_gates "$id")`. -/
def shellWords (gate : String) : List String :=
  (((dropNul gate.toList).splitOnP isIFS).filter (· ≠ [])).map String.ofList

variable {c : Char}

lemma isSpace_of_isIFS (h : isIFS c = true) : isSpace c = true := by
  simp only [isIFS, Bool.or_eq_true, decide_eq_true_eq] at h
  rcases h with (rfl | rfl) | rfl <;> decide

lemma isIFS_of_solid {a : List Char} (ha : ∀ c ∈ a, isSpace c = false) : ∀ c ∈ a, isIFS c = false := by
  intro c hc
  by_contra hifs
  have hspace := isSpace_of_isIFS (eq_true_of_ne_false hifs)
  rw [ha c hc] at hspace
  cases hspace

lemma dropNul_eq_self {cs : List Char} (h : '\x00' ∉ cs) : dropNul cs = cs := by
  rw [dropNul, filter_eq_self]
  rintro c hc
  simpa using ne_of_mem_of_not_mem hc h

lemma splitOnP_dropNul (cs : List Char) : (dropNul cs).splitOnP isIFS = (cs.splitOnP isIFS).map dropNul := by
  induction cs with
  | nil => rfl
  | cons c cs ih =>
    rcases hwords : cs.splitOnP isIFS with _ | ⟨w, words⟩
    · exact absurd hwords (splitOnP_ne_nil _ _)
    rw [hwords] at ih
    by_cases hnul : c = '\x00'
    · have hdrop : dropNul (c :: cs) = dropNul cs := by simp [dropNul, hnul]
      have hifs : isIFS c = false := by
        rw [hnul]
        decide
      rw [hdrop, ih, splitOnP_cons_eq_if_modifyHead, hifs, hwords]
      simp [dropNul, hnul]
    · have hkeep : dropNul (c :: cs) = c :: dropNul cs := by simp [dropNul, hnul]
      rw [hkeep, splitOnP_cons_eq_if_modifyHead, splitOnP_cons_eq_if_modifyHead, ih, hwords]
      split <;> simp [dropNul, hnul]

lemma mem_shellWords {gate : String} {w : String} : w ∈ shellWords gate ↔
    ∃ l ∈ gate.toList.splitOnP isIFS, dropNul l ≠ [] ∧ String.ofList (dropNul l) = w := by
  simp [shellWords, splitOnP_dropNul, and_assoc]

lemma shellWords_cons {gate : String} {w : List Char} {words : List (List Char)}
    (hsplit : gate.toList.splitOnP isIFS = w :: words) (hw : dropNul w ≠ []) :
    shellWords gate = String.ofList (dropNul w) :: ((words.map dropNul).filter (· ≠ [])).map String.ofList := by
  rw [shellWords, splitOnP_dropNul, hsplit, map_cons, filter_cons_of_pos (by simpa using hw), map_cons]

/-! ## Fields -/

lemma fieldsList_nil (cur : List Char) : fieldsList [] cur = if cur = [] then [] else [cur.reverse] := by
  cases cur <;> rfl

lemma fieldsList_cons (c : Char) (cs cur : List Char) : fieldsList (c :: cs) cur =
      if isSpace c then (if cur = [] then [] else [cur.reverse]) ++ fieldsList cs []
      else fieldsList cs (c :: cur) := by
  cases cur <;> rfl

lemma fieldsList_append_space (a : List Char) (hc : isSpace c = true) (b cur : List Char) :
    fieldsList (a ++ c :: b) cur = fieldsList a cur ++ fieldsList b [] := by
  induction a generalizing cur with
  | nil => rw [nil_append, fieldsList_cons, if_pos hc, fieldsList_nil]
  | cons d a ih =>
    rw [cons_append, fieldsList_cons, fieldsList_cons, ih, ih]
    split
    · rw [append_assoc]
    · rfl

lemma fieldsList_of_forall {a : List Char} (ha : ∀ c ∈ a, isSpace c = false) {cur : List Char}
    (hne : cur.reverse ++ a ≠ []) : fieldsList a cur = [cur.reverse ++ a] := by
  induction a generalizing cur with
  | nil => simp_all [fieldsList_nil]
  | cons c a ih =>
    rw [forall_mem_cons] at ha
    rw [fieldsList_cons, ha.1, if_neg Bool.false_ne_true, ih ha.2 (by simp)]
    simp

lemma exists_first (p : Char → Bool) (l : List Char) :
    (∀ c ∈ l, p c = false) ∨ ∃ a c b, l = a ++ c :: b ∧ p c = true ∧ ∀ c ∈ a, p c = false := by
  cases hfind : l.find? p with
  | none => exact .inl (by simpa using hfind)
  | some c =>
    obtain ⟨hc, a, b, hl, ha⟩ := find?_eq_some_iff_append.mp hfind
    exact .inr ⟨a, c, b, hl, hc, by simpa using ha⟩

lemma mem_head_splitOnP {a b : List Char} (ha : ∀ d ∈ a, isIFS d = false) (hc : isIFS c = false) :
    ∃ w words, (a ++ c :: b).splitOnP isIFS = w :: words ∧ c ∈ w := by
  have hall : ∀ {b : List Char}, (∀ d ∈ b, isIFS d = false) → ∀ d ∈ a ++ c :: b, isIFS d = false :=
    fun hb => forall_mem_append.mpr ⟨ha, forall_mem_cons.mpr ⟨hc, hb⟩⟩
  rcases exists_first isIFS b with hb | ⟨b₁, d, b₂, rfl, hd, hb⟩
  · exact ⟨_, [], splitOnP_eq_singleton (hall hb), by simp⟩
  · rw [← cons_append, ← append_assoc]
    exact ⟨_, _, splitOnP_append_cons_of_forall_mem (hall hb) d hd b₂, by simp⟩

lemma fieldsList_eq_flatMap (cs : List Char) : fieldsList cs [] = (cs.splitOnP isIFS).flatMap (fieldsList · []) := by
  rcases exists_first isIFS cs with hnone | ⟨a, c, b, rfl, hc, ha⟩
  · rw [splitOnP_eq_singleton hnone]
    simp
  · rw [splitOnP_append_cons_of_forall_mem ha c hc, flatMap_cons,
      fieldsList_append_space a (isSpace_of_isIFS hc), fieldsList_eq_flatMap b]
termination_by cs.length
decreasing_by
  subst_vars
  rw [length_append, length_cons]
  omega

/-! ## Words that lead out of the worktree -/

lemma solid_of_all {x : List Char} (h : x.all (!isSpace ·) = true) : ∀ d ∈ x, isSpace d = false := by simpa using h

section Solid
variable {x a b : List Char} (hx : ∀ d ∈ x, isSpace d = false) (hc : isSpace c = true)
include hx hc

lemma prefix_of_solid (h : x <+: a ++ c :: b) : x <+: a := by
  rcases prefix_or_prefix_of_prefix h (prefix_append a _) with hpre | ⟨t, rfl⟩
  · exact hpre
  · cases t with
    | nil => simp
    | cons d t =>
      obtain ⟨rfl, -⟩ := cons_prefix_cons.mp ((prefix_append_right_inj a).mp h)
      rw [hx d (by simp)] at hc
      cases hc

lemma suffix_of_solid (h : x <:+ a ++ c :: b) : x <:+ b := by
  have hrev := reverse_prefix.mpr h
  rw [reverse_append, reverse_cons, append_assoc] at hrev
  exact reverse_prefix.mp (prefix_of_solid (by simpa using hx) hc hrev)

lemma infix_of_solid (h : x <:+: a ++ c :: b) : x <:+: a ∨ x <:+: b := by
  rcases infix_append_iff.mp h with h | h | ⟨l₁, l₂, rfl, h₁, h₂⟩
  · exact .inl h
  · rcases infix_cons_iff.mp h with h | h
    · rw [prefix_nil.mp (prefix_of_solid (a := []) hx hc h)]
      exact .inl nil_infix
    · exact .inr h
  · have hnil := prefix_nil.mp (prefix_of_solid (a := []) (fun d hd => hx d (by simp [hd])) hc h₂)
    rw [hnil, append_nil]
    exact .inl h₁.isInfix

end Solid

lemma traverses_iff {w : List Char} : traverses (String.ofList w) = true ↔
    w = ['.', '.'] ∨ ['.', '.', '/'] <+: w ∨ ['/', '.', '.', '/'] <:+: w ∨ ['/', '.', '.'] <:+ w := by
  simp only [traverses, hasPrefix, hasSuffix, Go.contains, Bool.or_eq_true, decide_eq_true_eq, or_assoc,
    any_eq_true, mem_tails, isPrefixOf_iff_prefix, isSuffixOf_iff_suffix,
    ← String.toList_inj, String.toList_ofList]
  rw [infix_iff_prefix_suffix]
  refine or_congr Iff.rfl (or_congr Iff.rfl (or_congr ?_ Iff.rfl))
  exact exists_congr fun t => and_comm

lemma traverses_field (w : List Char) (h : traverses (String.ofList w) = true) :
    ∃ f ∈ fieldsList w [], traverses (String.ofList f) = true := by
  rcases exists_first isSpace w with hnone | ⟨a, c, b, rfl, hc, ha⟩
  · have hne : w ≠ [] := by
      rintro rfl
      cases h
    exact ⟨w, by rw [fieldsList_of_forall hnone (by simpa using hne)]; simp, h⟩
  · rw [fieldsList_append_space a hc]
    have hfirst : traverses (String.ofList a) = true → a ∈ fieldsList a [] := by
      intro htrav
      rw [fieldsList_of_forall ha]
      · simp
      · rintro hnil
        simp at hnil
        rw [hnil] at htrav
        cases htrav
    have hrest := traverses_field b
    simp only [mem_append, traverses_iff] at h hfirst hrest ⊢
    rcases h with h | h | h | h
    · have hmem : c ∈ a ++ c :: b := by simp
      rw [h] at hmem
      rcases mem_cons.mp hmem with rfl | hmem <;> simp_all [isSpace]
    · have h := prefix_of_solid (solid_of_all (by decide)) hc h
      exact ⟨a, .inl (hfirst (.inr (.inl h))), .inr (.inl h)⟩
    · rcases infix_of_solid (solid_of_all (by decide)) hc h with h | h
      · exact ⟨a, .inl (hfirst (.inr (.inr (.inl h)))), .inr (.inr (.inl h))⟩
      · obtain ⟨f, hf, htrav⟩ := hrest (.inr (.inr (.inl h)))
        exact ⟨f, .inr hf, htrav⟩
    · obtain ⟨f, hf, htrav⟩ := hrest (.inr (.inr (.inr (suffix_of_solid (solid_of_all (by decide)) hc h))))
      exact ⟨f, .inr hf, htrav⟩
termination_by w.length
decreasing_by
  subst_vars
  rw [length_append, length_cons]
  omega

/-! ## The gate -/

variable {gate : String}

lemma head_of_trimmed (htrim : trimSpace gate = gate) {cs : List Char}
    (hcs : gate.toList = c :: cs) : isSpace c = false := by
  by_contra hspace
  have hlen := congrArg (·.toList.length) htrim
  simp only [trimSpace, trimSpaceList, String.toList_ofList, hcs, length_reverse,
    dropWhile_cons, eq_true_of_ne_false hspace, if_true, length_cons] at hlen
  have hle₁ := (dropWhile_suffix (l := (cs.dropWhile isSpace).reverse) isSpace).length_le
  have hle₂ := (dropWhile_suffix (l := cs) isSpace).length_le
  rw [length_reverse] at hle₁
  omega

lemma validateGate_ok (h : validateGate gate = .ok ()) :
    gate ≠ "" ∧ trimSpace gate = gate ∧ containsAny gate gateForbidden = false ∧
      (∀ f ∈ fields gate, traverses f = false) ∧ (fields gate).headD "" ∈ gateRunners := by
  unfold validateGate at h
  dsimp only at h
  split_ifs at h with hempty htrim hforbidden htraverses hslash hrunner
  exact ⟨ne_empty_of_trimSpace_ne hempty, not_not.mp htrim, by simpa using hforbidden,
    by simpa using htraverses, hrunner⟩

lemma traverses_part (h : validateGate gate = .ok ()) {l : List Char} (hl : l ∈ gate.toList.splitOnP isIFS) :
    traverses (String.ofList l) = false := by
  by_contra htrav
  obtain ⟨f, hf, hftrav⟩ := traverses_field l (eq_true_of_ne_false htrav)
  have hfield : String.ofList f ∈ fields gate := by
    refine mem_map_of_mem ?_
    rw [fieldsList_eq_flatMap]
    exact mem_flatMap.mpr ⟨l, hl, hf⟩
  rw [(validateGate_ok h).2.2.2.1 _ hfield] at hftrav
  cases hftrav

lemma traverses_shellWords_iff (h : validateGate gate = .ok ()) : (∀ w ∈ shellWords gate, traverses w = false) ↔
    ∀ l ∈ gate.toList.splitOnP isIFS, '\x00' ∈ l → traverses (String.ofList (dropNul l)) = false := by
  refine ⟨fun hall l hl _ => ?_, fun hnul w hw => ?_⟩
  · by_cases hempty : dropNul l = []
    · rw [hempty]
      rfl
    · exact hall _ (mem_shellWords.mpr ⟨l, hl, hempty, rfl⟩)
  · obtain ⟨l, hl, -, rfl⟩ := mem_shellWords.mp hw
    by_cases hmem : '\x00' ∈ l
    · exact hnul l hl hmem
    · rw [dropNul_eq_self hmem]
      exact traverses_part h hl

lemma plain_of_mem_gateRunners : ∀ r ∈ gateRunners,
    '/' ∉ r.toList ∧ '\x00' ∉ r.toList ∧ r.toList.all (!isSpace ·) = true := by decide

lemma runner_shellWords_of_first (h : validateGate gate = .ok ()) {a b : List Char} (hgate : gate.toList = a ++ c :: b)
    (hc : isSpace c = true) (ha : ∀ d ∈ a, isSpace d = false) :
    (∃ runner rest, shellWords gate = runner :: rest ∧ runner ∈ gateRunners ∧ '/' ∉ runner.toList) ↔ c = ' ' := by
  obtain ⟨-, htrim, hforbidden, -, hrunner⟩ := validateGate_ok h
  have hane : a ≠ [] := by
    rintro rfl
    rw [head_of_trimmed htrim hgate] at hc
    cases hc
  rw [fields, hgate, fieldsList_append_space a hc, fieldsList_of_forall ha (by simpa using hane)] at hrunner
  constructor
  · rintro ⟨runner, rest, hwords, hmem, -⟩
    by_contra hne
    have hcifs : isIFS c = false := by
      rw [containsAny, hgate, any_eq_false] at hforbidden
      have hallowed := hforbidden c (by simp)
      by_contra hifs
      simp only [isIFS, Bool.not_eq_false, Bool.or_eq_true, decide_eq_true_eq] at hifs
      rcases hifs with (rfl | rfl) | rfl
      · exact hne rfl
      · exact hallowed (by decide)
      · exact hallowed (by decide)
    -- The first shell word goes beyond the first white space.
    obtain ⟨w, words, hsplit, hcw⟩ := mem_head_splitOnP (b := b) (isIFS_of_solid ha) hcifs
    have hcw : c ∈ dropNul w := by
      refine mem_filter.mpr ⟨hcw, decide_eq_true ?_⟩
      rintro rfl
      cases hc
    rw [shellWords_cons (hgate ▸ hsplit) (ne_nil_of_mem hcw)] at hwords
    obtain ⟨rfl, -⟩ := List.cons.inj hwords
    rw [solid_of_all (plain_of_mem_gateRunners _ hmem).2.2 c (by simpa using hcw)] at hc
    cases hc
  · rintro rfl
    obtain ⟨hslash, hnul, -⟩ := plain_of_mem_gateRunners _ hrunner
    have hnul : dropNul a = a := dropNul_eq_self (by simpa using hnul)
    have hsplit := splitOnP_append_cons_of_forall_mem (isIFS_of_solid ha) ' ' rfl b
    have hwords := shellWords_cons (hgate ▸ hsplit) (hnul.symm ▸ hane)
    rw [hnul] at hwords
    exact ⟨_, _, hwords, hrunner, hslash⟩

lemma runner_shellWords_iff (h : validateGate gate = .ok ()) :
    (∃ runner rest, shellWords gate = runner :: rest ∧ runner ∈ gateRunners ∧ '/' ∉ runner.toList) ↔
      ∀ c, gate.toList.find? isSpace = some c → c = ' ' := by
  cases hfind : gate.toList.find? isSpace with
  | none =>
    obtain ⟨hne, -, -, -, hrunner⟩ := validateGate_ok h
    have hnone : ∀ d ∈ gate.toList, isSpace d = false := by simpa using hfind
    have hcs : gate.toList ≠ [] := fun hnil => hne (String.toList_inj.mp hnil)
    rw [fields, fieldsList_of_forall hnone (by simpa using hcs)] at hrunner
    have hrunner : gate ∈ gateRunners := by simpa using hrunner
    obtain ⟨hslash, hnul, -⟩ := plain_of_mem_gateRunners gate hrunner
    have hwords := shellWords_cons (splitOnP_eq_singleton (isIFS_of_solid hnone)) ((dropNul_eq_self hnul).symm ▸ hcs)
    rw [dropNul_eq_self hnul, String.ofList_toList] at hwords
    exact iff_of_true ⟨gate, _, hwords, hrunner, hslash⟩ (by simp)
  | some c =>
    obtain ⟨hc, a, b, hgate, ha⟩ := find?_eq_some_iff_append.mp hfind
    rw [runner_shellWords_of_first h hgate hc (by simpa using ha)]
    simp

/-- The words the driver runs a granted gate as start with a runner, which has no slash, and none leads out of the
worktree, exactly when the first white space of the gate, if any, is the ordinary one, and no part between white space
of the shell leads out of the worktree once its NULs are dropped.  Parts without a NUL never do. -/
theorem validateGate_words_iff (gate : String) (h : validateGate gate = .ok ()) :
    ((∃ runner rest, shellWords gate = runner :: rest ∧ runner ∈ gateRunners ∧ '/' ∉ runner.toList) ∧
        ∀ w ∈ shellWords gate, traverses w = false) ↔
      (∀ c, gate.toList.find? isSpace = some c → c = ' ') ∧
        ∀ l ∈ gate.toList.splitOnP isIFS, '\x00' ∈ l → traverses (String.ofList (dropNul l)) = false :=
  and_congr (runner_shellWords_iff h) (traverses_shellWords_iff h)

/-- A gate of two words with a non-breaking space between them is granted, and run as one word that is no runner; a NUL
between two dots is granted, and dropped. -/
theorem validateGate_words_nbsp_nul :
    (validateGate "go\u00a0test" = .ok () ∧ shellWords "go\u00a0test" = ["go\u00a0test"] ∧
        "go\u00a0test" ∉ gateRunners) ∧
      validateGate "go test .\x00./secret" = .ok () ∧
      shellWords "go test .\x00./secret" = ["go", "test", "../secret"] ∧ traverses "../secret" = true := by
  decide

/-- An ordinary gate with a NUL in its last word. -/
theorem validateGate_words_iff_test :
    (∃ runner rest, shellWords "go test ./...\x00" = runner :: rest ∧ runner ∈ gateRunners ∧ '/' ∉ runner.toList) ∧
      ∀ w ∈ shellWords "go test ./...\x00", traverses w = false :=
  (validateGate_words_iff "go test ./...\x00" (by decide)).mpr ⟨fun _ hc => (Option.some.inj hc).symm, by decide⟩

end DeliveryEngine.Handoff
