import DeliveryEngine.Go.Json.Scan
import DeliveryEngine.Go.Text

/-!
# JSON values and their texts

A `Json` keeps the spelling of its numbers and strings as they stand in the text.  `encode` is the compact text that
`json.Marshal` writes, `escape` how it spells a string, and `indent` the text that `json.MarshalIndent` writes.  `Runs`
says that the syntax check passes over a value's text and comes out where it was.
-/

namespace DeliveryEngine.Go

open List Option

/-- A JSON value, with numbers and strings as spelled. -/
inductive Json
  | null
  | bool (b : Bool)
  | num (literal : List Char)
  | str (raw : List Char)
  | arr (items : List Json)
  | obj (members : List (List Char × Json))

namespace Json

/-! ## The encoder -/

/-- How `json.Marshal` spells a character of a string.  Characters that are special in HTML are
escaped, and the two separators that JavaScript takes for line ends. -/
def escapeChar (c : Char) : List Char :=
  if c = '"' ∨ c = '\\' then ['\\', c]
  else if c = '\x08' then ['\\', 'b']
  else if c = '\x0c' then ['\\', 'f']
  else if c = '\n' then ['\\', 'n']
  else if c = '\r' then ['\\', 'r']
  else if c = '\t' then ['\\', 't']
  else if c.toNat < 0x20 ∨ c = '<' ∨ c = '>' ∨ c = '&' then
    ['\\', 'u', '0', '0', hexDigit (c.toNat / 16), hexDigit (c.toNat % 16)]
  else if c = '\u2028' ∨ c = '\u2029' then ['\\', 'u', '2', '0', '2', hexDigit (c.toNat % 16)]
  else [c]

/-- How `json.Marshal` spells a string, between its quotes. -/
def escape (s : String) : List Char := s.toList.flatMap escapeChar

def text (s : String) : Json := .str (escape s)

/-- How an integer is spelled. -/
def decimal (n : ℤ) : List Char :=
  if n < 0 then '-' :: Nat.toDigits 10 n.natAbs else Nat.toDigits 10 n.natAbs

/-- The number an integer is. -/
def int (n : ℤ) : Json := .num (decimal n)

mutual

/-- The compact text of a value. -/
def encode : Json → List Char
  | .null => ['n', 'u', 'l', 'l']
  | .bool true => ['t', 'r', 'u', 'e']
  | .bool false => ['f', 'a', 'l', 's', 'e']
  | .num literal => literal
  | .str raw => '"' :: (raw ++ ['"'])
  | .arr [] => ['[', ']']
  | .arr (v :: vs) => '[' :: (encode v ++ encodeItems vs)
  | .obj [] => ['{', '}']
  | .obj ((k, v) :: ms) => '{' :: '"' :: (k ++ '"' :: ':' :: (encode v ++ encodeMembers ms))

/-- The further items of an array, and its end. -/
def encodeItems : List Json → List Char
  | [] => [']']
  | v :: vs => ',' :: (encode v ++ encodeItems vs)

/-- The further members of an object, and its end. -/
def encodeMembers : List (List Char × Json) → List Char
  | [] => ['}']
  | (k, v) :: ms => ',' :: '"' :: (k ++ '"' :: ':' :: (encode v ++ encodeMembers ms))

end

example : encode (.obj [("a".toList, int (-3)), ("b".toList, .arr [text "x<\n", .null])]) =
    "\x7b\"a\":-3,\"b\":[\"x\\u003c\\n\",null]\x7d".toList := by
  decide

/-! ## Layouts -/

/-- The further items of an array, given their texts, and its end.  There is white space before each item and
before the end. -/
def itemsText (sep fin : List Char) : List (List Char) → List Char
  | [] => fin ++ [']']
  | cs :: css => ',' :: (sep ++ (cs ++ itemsText sep fin css))

def arrayText (sep fin : List Char) : List (List Char) → List Char
  | [] => ['[', ']']
  | cs :: css => '[' :: (sep ++ (cs ++ itemsText sep fin css))

/-- A member of an object, given its name and the text of its value, and what follows it. -/
def memberText (colon : List Char) (m : List Char × List Char) (rest : List Char) : List Char :=
  '"' :: (m.1 ++ '"' :: ':' :: (colon ++ (m.2 ++ rest)))

/-- The further members of an object, and its end. -/
def membersText (sep colon fin : List Char) : List (List Char × List Char) → List Char
  | [] => fin ++ ['\x7d']
  | m :: ms => ',' :: (sep ++ memberText colon m (membersText sep colon fin ms))

variable (sep colon fin : List Char)

/-- An object, given the names of its members and the texts of their values. -/
def objectText : List (List Char × List Char) → List Char
  | [] => ['\x7b', '\x7d']
  | m :: ms => '\x7b' :: (sep ++ memberText colon m (membersText sep colon fin ms))

variable (vs : List Json)

lemma encodeItems_eq : encodeItems vs = itemsText [] [] (vs.map encode) := by
  induction vs with
  | nil => rw [encodeItems]; rfl
  | cons v vs ih => rw [encodeItems, ih]; rfl

lemma encode_arr : encode (.arr vs) = arrayText [] [] (vs.map encode) := by
  cases vs with
  | nil => rw [encode]; rfl
  | cons v vs => rw [encode, encodeItems_eq]; rfl

variable (ms : List (List Char × Json))

lemma encodeMembers_eq : encodeMembers ms = membersText [] [] [] (ms.map (Prod.map id encode)) := by
  induction ms with
  | nil => rw [encodeMembers]; rfl
  | cons m ms ih => rw [encodeMembers, ih]; rfl

lemma encode_obj : encode (.obj ms) = objectText [] [] [] (ms.map (Prod.map id encode)) := by
  cases ms with
  | nil => rw [encode]; rfl
  | cons m ms => rw [encode, encodeMembers_eq]; rfl

/-- A new line at a level of indentation. -/
def lineBreak (level : ℕ) : List Char := '\n' :: List.replicate (2 * level) ' '

mutual

def indent (level : ℕ) : Json → List Char
  | .arr vs => arrayText (lineBreak (level + 1)) (lineBreak level) (indentItems (level + 1) vs)
  | .obj ms => objectText (lineBreak (level + 1)) [' '] (lineBreak level) (indentMembers (level + 1) ms)
  | v => encode v

/-- The indented texts of the items of an array. -/
def indentItems (level : ℕ) : List Json → List (List Char)
  | [] => []
  | v :: vs => indent level v :: indentItems level vs

/-- The indented texts of the members of an object. -/
def indentMembers (level : ℕ) : List (List Char × Json) → List (List Char × List Char)
  | [] => []
  | (k, v) :: ms => (k, indent level v) :: indentMembers level ms

end

variable (level : ℕ)

lemma indentItems_eq : indentItems level vs = vs.map (indent level) := by
  induction vs with
  | nil => rw [indentItems]; rfl
  | cons v vs ih => rw [indentItems, ih]; rfl

lemma indentMembers_eq (ms : List (List Char × Json)) :
    indentMembers level ms = ms.map (Prod.map id (indent level)) := by
  induction ms with
  | nil => rw [indentMembers]; rfl
  | cons m ms ih => rw [indentMembers, ih]; rfl

example : indent 0 (.obj [("a".toList, .arr [int 1, .arr []]), ("b".toList, .obj [])]) =
    "\x7b\n  \"a\": [\n    1,\n    []\n  ],\n  \"b\": \x7b\x7d\n\x7d".toList := by
  decide

/-! ## The syntax check over the encoder's texts -/

/-- The characters that can go on a number. -/
def numeric (c : Char) : Bool := c.isDigit || c ∈ ['+', '-', '.', 'e', 'E']

/-- In this mode a value has ended, unless a number goes on. -/
def Mode.Ends (m : Mode) : Prop := ∀ top c, numeric c = false → m.move top c = endMove top c

lemma ends_endValue : Mode.endValue.Ends := fun _ _ _ => rfl

open Scan (runText runText_cons runText_append feed)

variable {m : Mode}

lemma ends_number (hm : m = .one ∨ m = .zero) : m.Ends := by
  intro top c hc
  simp only [numeric, mem_cons, not_mem_nil, or_false, Bool.or_eq_false_iff, decide_eq_false_iff_not, not_or] at hc
  obtain ⟨hdigit, -, -, hdot, he, hE⟩ := hc
  rcases hm with rfl | rfl <;> simp [Mode.move, fractionMove, hdigit, hdot, he, hE]

/-- The machine passes over a value's text, which nests no deeper than given, and comes out in the
container it was in. -/
structure Runs (depth : ℕ) (cs : List Char) : Prop where
  head : ∃ c rest, cs = c :: rest ∧ blank c = false ∧ c ≠ ']'
  run : ∀ st : List Frame, st.length + depth ≤ maxNestingDepth →
    ∃ m, runText ⟨.beginValue, st⟩ cs = some ⟨m, st⟩ ∧ m.Ends

/-- The machine passes over the inside of a string. -/
def RunsRaw (raw : List Char) : Prop := ∀ st : List Frame, runText ⟨.inString, st⟩ raw = some ⟨.inString, st⟩

variable {depth : ℕ} {cs : List Char}

lemma Runs.run_orEmpty (h : Runs depth cs) (st : List Frame) :
    runText ⟨.beginValueOrEmpty, st⟩ cs = runText ⟨.beginValue, st⟩ cs := by
  obtain ⟨c, rest, rfl, hblank, hc⟩ := h.head
  have happly : Scan.apply ⟨.beginValueOrEmpty, st⟩ = Scan.apply ⟨.beginValue, st⟩ := by
    funext mv
    cases mv <;> rfl
  simp [feed, Mode.move, hblank, hc, happly]

variable {raw : List Char}

lemma RunsRaw.run_quoted (h : RunsRaw raw) (hm : ∀ top, m.move top '"' = some (.stay .inString)) (st : List Frame) :
    runText ⟨m, st⟩ ('"' :: (raw ++ ['"'])) = some ⟨.endValue, st⟩ := by
  rw [runText_cons, feed, hm, bind_some, Scan.apply, bind_some, runText_append, h st]
  rfl

lemma runs_str (h : RunsRaw raw) : Runs 0 (encode (.str raw)) where
  head := ⟨'"', raw ++ ['"'], by rw [encode], by decide, by decide⟩
  run st _ := ⟨.endValue, by rw [encode]; exact h.run_quoted (fun _ => rfl) st, ends_endValue⟩

lemma runsRaw_append {raw' : List Char} (h : RunsRaw raw) (h' : RunsRaw raw') :
    RunsRaw (raw ++ raw') := fun st => by rw [runText_append, h st, bind_some, h' st]

lemma isHex_hexDigit (n : ℕ) : isHex (hexDigit n) = true := by
  by_cases hn : n < 16
  · have hall : ∀ n < 16, isHex (hexDigit n) = true := by decide
    exact hall n hn
  · rw [hexDigit, getD_eq_getElem?_getD, getElem?_eq_none (by simpa using hn)]
    decide

lemma runsRaw_escapeChar (c : Char) : RunsRaw (escapeChar c) := by
  intro st
  unfold escapeChar
  split_ifs with h1 h2 h3 h4 h5 h6 h7 h8
  · rcases h1 with rfl | rfl <;> rfl
  · rfl
  · rfl
  · rfl
  · rfl
  · rfl
  · simp [feed, Mode.move, Scan.apply, isHex_hexDigit, show isHex '0' = true by decide]
  · simp [feed, Mode.move, Scan.apply, isHex_hexDigit, show isHex '0' = true by decide,
      show isHex '2' = true by decide]
  · simp only [not_or] at h1 h7
    simp [feed, Mode.move, Scan.apply, h1, h7]

/-! ### Numbers -/

lemma runText_digits {ds : List Char} (hds : ∀ d ∈ ds, d.isDigit = true) (st : List Frame) :
    runText ⟨.one, st⟩ ds = some ⟨.one, st⟩ := by
  induction ds with
  | nil => rfl
  | cons d ds ih =>
    obtain ⟨hd, hds⟩ := forall_mem_cons.mp hds
    simp [feed, Mode.move, hd, Scan.apply, ih hds]

lemma toDigits_head {n : ℕ} (hn : 0 < n) : ∃ d ds, Nat.toDigits 10 n = d :: ds ∧ d ≠ '0' := by
  induction n using Nat.strong_induction_on with
  | _ n ih =>
    rw [Nat.toDigits_eq_if (by decide)]
    split_ifs with h
    · have hall : ∀ m < 10, 0 < m → Nat.digitChar m ≠ '0' := by decide
      exact ⟨_, [], rfl, hall n h hn⟩
    · obtain ⟨d, ds, hds, hd⟩ := ih (n / 10) (by omega) (by omega)
      exact ⟨d, ds ++ [Nat.digitChar (n % 10)], by rw [hds]; rfl, hd⟩

lemma run_toDigits (n : ℕ) (hzero : ∀ top, m.move top '0' = some (.stay .zero))
    (hone : ∀ top c, c.isDigit = true → c ≠ '0' → m.move top c = some (.stay .one))
    (st : List Frame) :
    ∃ m', runText ⟨m, st⟩ (Nat.toDigits 10 n) = some ⟨m', st⟩ ∧ m'.Ends := by
  rcases Nat.eq_zero_or_pos n with rfl | hn
  · refine ⟨.zero, ?_, ends_number (.inr rfl)⟩
    rw [Nat.toDigits_zero, runText_cons, feed, hzero]
    rfl
  · obtain ⟨d, ds, hds, hd⟩ := toDigits_head hn
    have hdigits : ∀ c ∈ d :: ds, c.isDigit = true := by
      intro c hc
      rw [← hds] at hc
      exact Nat.isDigit_of_mem_toDigits (by decide) (by decide) hc
    obtain ⟨hdigit, hrest⟩ := forall_mem_cons.mp hdigits
    refine ⟨.one, ?_, ends_number (.inl rfl)⟩
    rw [hds, runText_cons, feed, hone _ d hdigit hd]
    exact runText_digits hrest st

variable {c : Char}

lemma ne_of_isDigit {d : Char} (hc : c.isDigit = true) (hd : d.isDigit = false) : c ≠ d := by
  rintro rfl
  rw [hc] at hd
  cases hd

lemma beginMove_digit (hc : c.isDigit = true) (h0 : c ≠ '0') : beginMove c = some (.stay .one) := by
  have hne : ∀ d : Char, d.isDigit = false → c ≠ d := fun _ => ne_of_isDigit hc
  simp [beginMove, blank, hne, hc, h0]

lemma runs_int (n : ℤ) : Runs 0 (encode (int n)) := by
  rw [int, decimal]
  split_ifs with hn
  · refine ⟨⟨'-', _, rfl, by decide, by decide⟩, fun st _ => ?_⟩
    exact run_toDigits n.natAbs (m := .neg) (fun _ => rfl) (fun _ c hc h0 => by simp [Mode.move, hc, h0]) st
  · refine ⟨?_, fun st _ => run_toDigits n.natAbs (fun _ => rfl) (fun _ c hc h0 => ?_) st⟩
    · obtain ⟨c, cs, hcs⟩ := exists_cons_of_ne_nil (Nat.toDigits_ne_nil (b := 10) (n := n.natAbs))
      have hdigit : c.isDigit = true := Nat.isDigit_of_mem_toDigits (by decide) (by decide) (hcs ▸ mem_cons_self)
      have hne : ∀ d : Char, d.isDigit = false → c ≠ d := fun _ => ne_of_isDigit hdigit
      exact ⟨c, cs, hcs, by simp [blank, hne], hne _ (by decide)⟩
    · exact beginMove_digit hc h0

/-! ### Arrays and objects -/

/-- White space. -/
def Blanks (ws : List Char) : Prop := ∀ c ∈ ws, blank c = true

lemma blanks_nil : Blanks [] := fun _ hc => nomatch hc

lemma blanks_lineBreak : Blanks (lineBreak level) := by
  refine forall_mem_cons.mpr ⟨by decide, fun c hc => ?_⟩
  rw [eq_of_mem_replicate hc]
  decide

lemma numeric_of_blank (h : blank c = true) : numeric c = false := by
  simp only [blank, Bool.or_eq_true, decide_eq_true_eq] at h
  rcases h with ((rfl | rfl) | rfl) | rfl <;> decide

lemma endMove_blank (top : Option Frame) (h : blank c = true) : endMove top c = some (.stay .endValue) := by
  cases top <;> simp [endMove, h]

/-- In this mode white space changes nothing. -/
def Mode.Waits (m : Mode) : Prop := ∀ top c, blank c = true → m.move top c = some (.stay m)

lemma waits_beginValue : Mode.beginValue.Waits := fun _ _ hc => if_pos hc

lemma waits_beginValueOrEmpty : Mode.beginValueOrEmpty.Waits := fun _ _ hc => if_pos hc

lemma waits_beginString : Mode.beginString.Waits := fun _ _ hc => if_pos hc

lemma waits_beginStringOrEmpty : Mode.beginStringOrEmpty.Waits := fun _ _ hc => if_pos hc

lemma waits_endValue : Mode.endValue.Waits := fun top _ hc => endMove_blank top hc

lemma Mode.Waits.runText_blanks (hm : m.Waits) {ws : List Char} (hws : Blanks ws)
    (st : List Frame) : runText ⟨m, st⟩ ws = some ⟨m, st⟩ := by
  induction ws with
  | nil => rfl
  | cons c ws ih =>
    obtain ⟨hc, hws⟩ := forall_mem_cons.mp hws
    rw [runText_cons, feed, hm _ c hc, bind_some, Scan.apply, bind_some, ih hws]

lemma Mode.Ends.runText_blanks (hm : m.Ends) {ws : List Char} (hws : Blanks ws) (st : List Frame) :
    ∃ m', runText ⟨m, st⟩ ws = some ⟨m', st⟩ ∧ m'.Ends := by
  cases ws with
  | nil => exact ⟨m, rfl, hm⟩
  | cons c ws =>
    obtain ⟨hc, hws⟩ := forall_mem_cons.mp hws
    refine ⟨.endValue, ?_, ends_endValue⟩
    rw [runText_cons, feed, hm _ c (numeric_of_blank hc), endMove_blank _ hc, bind_some,
      Scan.apply, bind_some, waits_endValue.runText_blanks hws]

section Layout
variable {sep colon fin : List Char} (hsep : Blanks sep) (hcolon : Blanks colon) (hfin : Blanks fin)
variable {st : List Frame}
include hsep hfin in
lemma runText_items {css : List (List Char)} (hcss : ∀ cs ∈ css, Runs depth cs)
    (hst : st.length + (depth + 1) ≤ maxNestingDepth) (hm : m.Ends) :
    runText ⟨m, .arrayValue :: st⟩ (itemsText sep fin css) = some ⟨.endValue, st⟩ := by
  induction css generalizing m with
  | nil =>
    obtain ⟨m', hrun, hm'⟩ := hm.runText_blanks hfin (.arrayValue :: st)
    rw [itemsText, runText_append, hrun, bind_some, runText_cons, feed, hm' _ _ (by decide)]
    rfl
  | cons cs css ih =>
    obtain ⟨hcs, hcss⟩ := forall_mem_cons.mp hcss
    obtain ⟨m', hrun, hm'⟩ := hcs.run (.arrayValue :: st) (by rw [length_cons]; omega)
    rw [itemsText, runText_cons, feed, hm _ _ (by decide)]
    show runText ⟨.beginValue, .arrayValue :: st⟩ (sep ++ (cs ++ itemsText sep fin css)) = _
    rw [runText_append, waits_beginValue.runText_blanks hsep, bind_some,
      runText_append, hrun, bind_some, ih hcss hm']

include hsep hfin in
lemma runs_arrayText {css : List (List Char)} (hcss : ∀ cs ∈ css, Runs depth cs) :
    Runs (depth + 1) (arrayText sep fin css) := by
  have hpush : ∀ st : List Frame, st.length + (depth + 1) ≤ maxNestingDepth →
      feed ⟨.beginValue, st⟩ '[' = some ⟨.beginValueOrEmpty, .arrayValue :: st⟩ := by
    intro st hst
    exact if_pos (show st.length < maxNestingDepth by omega)
  cases css with
  | nil =>
    refine ⟨⟨'[', [']'], rfl, by decide, by decide⟩, fun st hst => ⟨.endValue, ?_, ends_endValue⟩⟩
    rw [arrayText, runText_cons, hpush st hst]
    rfl
  | cons cs css =>
    obtain ⟨hcs, hcss⟩ := forall_mem_cons.mp hcss
    refine ⟨⟨'[', _, rfl, by decide, by decide⟩, fun st hst => ⟨.endValue, ?_, ends_endValue⟩⟩
    obtain ⟨m, hrun, hm⟩ := hcs.run (.arrayValue :: st) (by rw [length_cons]; omega)
    rw [arrayText, runText_cons, hpush st hst, bind_some, runText_append,
      waits_beginValueOrEmpty.runText_blanks hsep, bind_some, runText_append,
      hcs.run_orEmpty, hrun, bind_some, runText_items hsep hfin hcss hst hm]

include hcolon in
lemma runText_member {k : List Char} (hk : RunsRaw k) (hcs : Runs depth cs)
    (hst : st.length + (depth + 1) ≤ maxNestingDepth)
    (hm : ∀ top, m.move top '"' = some (.stay .inString)) (rest : List Char) :
    ∃ m', runText ⟨m, .objectKey :: st⟩ (memberText colon (k, cs) rest) =
      runText ⟨m', .objectValue :: st⟩ rest ∧ m'.Ends := by
  obtain ⟨m', hrun, hm'⟩ := hcs.run (.objectValue :: st) (by rw [length_cons]; omega)
  refine ⟨m', ?_, hm'⟩
  have hsplit : memberText colon (k, cs) rest =
      '"' :: (k ++ ['"']) ++ ':' :: (colon ++ (cs ++ rest)) := by simp [memberText]
  rw [hsplit, runText_append, hk.run_quoted hm, bind_some]
  show runText ⟨.beginValue, .objectValue :: st⟩ (colon ++ (cs ++ rest)) = _
  rw [runText_append, waits_beginValue.runText_blanks hcolon, bind_some, runText_append, hrun, bind_some]

include hsep hcolon hfin

variable {ms : List (List Char × List Char)}

section
variable (hms : ∀ m ∈ ms, RunsRaw m.1 ∧ Runs depth m.2)
include hms

lemma runText_members (hst : st.length + (depth + 1) ≤ maxNestingDepth) (hm : m.Ends) :
    runText ⟨m, .objectValue :: st⟩ (membersText sep colon fin ms) = some ⟨.endValue, st⟩ := by
  induction ms generalizing m with
  | nil =>
    obtain ⟨m', hrun, hm'⟩ := hm.runText_blanks hfin (.objectValue :: st)
    rw [membersText, runText_append, hrun, bind_some, runText_cons, feed, hm' _ _ (by decide)]
    rfl
  | cons kcs ms ih =>
    obtain ⟨⟨hk, hcs⟩, hms⟩ := forall_mem_cons.mp hms
    obtain ⟨m', hrun, hm'⟩ := runText_member hcolon hk hcs hst (m := .beginString) (fun _ => rfl)
      (membersText sep colon fin ms)
    rw [membersText, runText_cons, feed, hm _ _ (by decide)]
    show runText ⟨.beginString, .objectKey :: st⟩ (sep ++ memberText colon kcs _) = _
    rw [runText_append, waits_beginString.runText_blanks hsep]
    exact hrun.trans (ih hms hm')

lemma runText_objectText (hst : st.length + (depth + 1) ≤ maxNestingDepth) :
    runText ⟨.beginValue, st⟩ (objectText sep colon fin ms) = some ⟨.endValue, st⟩ := by
  have hpush : feed ⟨.beginValue, st⟩ '\x7b' = some ⟨.beginStringOrEmpty, .objectKey :: st⟩ :=
    if_pos (show st.length < maxNestingDepth by omega)
  cases ms with
  | nil =>
    rw [objectText, runText_cons, hpush]
    rfl
  | cons kcs ms =>
    obtain ⟨⟨hk, hcs⟩, hms⟩ := forall_mem_cons.mp hms
    obtain ⟨m, hrun, hm⟩ := runText_member hcolon hk hcs hst (m := .beginStringOrEmpty) (fun _ => rfl)
      (membersText sep colon fin ms)
    rw [objectText, runText_cons, hpush, bind_some, runText_append,
      waits_beginStringOrEmpty.runText_blanks hsep, bind_some, hrun,
      runText_members hsep hcolon hfin hms hst hm]

lemma runs_objectText : Runs (depth + 1) (objectText sep colon fin ms) where
  head := by cases ms <;> exact ⟨_, _, rfl, by decide, by decide⟩
  run _ hst := ⟨.endValue, runText_objectText hsep hcolon hfin hms hst, ends_endValue⟩

end

end Layout

lemma Runs.mono {depth' : ℕ} (hle : depth ≤ depth') (h : Runs depth cs) : Runs depth' cs where
  head := h.head
  run st hst := h.run st (by omega)

lemma objectText_eq (ms : List (List Char × List Char)) :
    ∃ cs, objectText sep colon fin ms = '\x7b' :: (cs ++ ['\x7d']) := by
  have hmembers : ∃ cs, membersText sep colon fin ms = cs ++ ['\x7d'] := by
    induction ms with
    | nil => exact ⟨fin, rfl⟩
    | cons m ms ih =>
      obtain ⟨cs, hcs⟩ := ih
      exact ⟨',' :: (sep ++ memberText colon m cs), by simp [membersText, memberText, hcs]⟩
  cases ms with
  | nil => exact ⟨[], rfl⟩
  | cons m ms =>
    obtain ⟨cs, hcs⟩ := hmembers
    cases cs with
    | nil => simp [membersText] at hcs
    | cons c cs => exact ⟨cs, congrArg _ (List.cons.inj hcs).2⟩

theorem isObjectText_objectText {sep colon fin : List Char} (hsep : Blanks sep)
    (hcolon : Blanks colon) (hfin : Blanks fin) (hdepth : depth < maxNestingDepth)
    {ms : List (List Char × List Char)} (hms : ∀ m ∈ ms, RunsRaw m.1 ∧ Runs depth m.2) :
    IsObjectText (utf8 (objectText sep colon fin ms)) := by
  have hroom : ([] : List Frame).length + (depth + 1) ≤ maxNestingDepth := by
    rw [length_nil]
    omega
  have hwhole := runText_objectText hsep hcolon hfin hms hroom
  obtain ⟨cs, hcs⟩ := objectText_eq sep colon fin ms
  refine ⟨?_, ?_, ?_⟩
  · rw [hcs]
    exact ⟨_, rfl⟩
  · rw [Scan.run_utf8]
    exact hwhole
  · rw [hcs, ← cons_append, utf8_append, getLast?_append_of_ne_nil _ (by decide)]
    rintro b ⟨⟩
    decide

end Json

end DeliveryEngine.Go
