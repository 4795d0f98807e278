import DeliveryEngine.Go.Bytes

/-!
# The JSON syntax check

`json.Unmarshal` first checks the syntax of its whole input, with a machine that is fed one byte at a time and keeps a
stack of the containers it is in.  What a byte does depends on the mode and on the innermost container only, so a byte
is a `Move` that is then applied to the stack.  A torn object followed by a whole one is never accepted
(`checkValid_torn`), wherever the first was torn.
-/

namespace DeliveryEngine.Go.Json

open List Option
open Char (ofUInt8)

/-! ## The machine -/

/-- What the innermost open container expects. -/
inductive Frame
  | objectKey
  | objectValue
  | arrayValue
  deriving DecidableEq

/-- What the machine expects next. -/
inductive Mode
  | beginValueOrEmpty
  | beginValue
  | beginStringOrEmpty
  | beginString
  /-- After a value.  Outside every container only white space may follow. -/
  | endValue
  | inString
  | inStringEsc
  /-- In a numeric escape, with this many hexadecimal digits to come after the next one. -/
  | inStringEscU (more : ℕ)
  | neg
  | one
  | zero
  | dot
  | dot0
  | exp
  | expSign
  | exp0
  | t
  | tr
  | tru
  | f
  | fa
  | fal
  | fals
  | n
  | nu
  | nul
  deriving DecidableEq

/-- What a byte does. -/
inductive Move
  | stay (m : Mode)
  | push (f : Frame) (m : Mode)
  | swap (f : Frame) (m : Mode)
  | pop
  deriving DecidableEq

/-- The white space of JSON. -/
def blank (c : Char) : Bool := c = ' ' || c = '\t' || c = '\r' || c = '\n'

def isHex (c : Char) : Bool := c.isDigit || ('a' ≤ c && c ≤ 'f') || ('A' ≤ c && c ≤ 'F')

variable (top : Option Frame) (c : Char)

/-- After a value, inside the given container. -/
def endMove : Option Move :=
  match top with
  | none => if blank c then some (.stay .endValue) else none
  | some f =>
    if blank c then some (.stay .endValue)
    else
      match f with
      | .objectKey => if c = ':' then some (.swap .objectValue .beginValue) else none
      | .objectValue =>
        if c = ',' then some (.swap .objectKey .beginString)
        else if c = '}' then some .pop else none
      | .arrayValue =>
        if c = ',' then some (.stay .beginValue) else if c = ']' then some .pop else none

/-- Before a value. -/
def beginMove (c : Char) : Option Move :=
  if blank c then some (.stay .beginValue)
  else if c = '{' then some (.push .objectKey .beginStringOrEmpty)
  else if c = '[' then some (.push .arrayValue .beginValueOrEmpty)
  else if c = '"' then some (.stay .inString)
  else if c = '-' then some (.stay .neg)
  else if c = '0' then some (.stay .zero)
  else if c = 't' then some (.stay .t)
  else if c = 'f' then some (.stay .f)
  else if c = 'n' then some (.stay .n)
  else if c.isDigit then some (.stay .one)
  else none

/-- Before a key. -/
def keyMove (c : Char) : Option Move :=
  if blank c then some (.stay .beginString)
  else if c = '"' then some (.stay .inString) else none

/-- After the integer part of a number. -/
def fractionMove : Option Move :=
  if c = '.' then some (.stay .dot)
  else if c = 'e' ∨ c = 'E' then some (.stay .exp)
  else endMove top c

def exponentMove (c : Char) : Option Move := if c.isDigit then some (.stay .exp0) else none

/-- Inside `true`, `false` or `null`, before the given letter. -/
def letterMove (letter : Char) (next : Mode) (c : Char) : Option Move :=
  if c = letter then some (.stay next) else none

/-- What a byte does in a mode, inside the given container. -/
def Mode.move (m : Mode) (top : Option Frame) (c : Char) : Option Move :=
  match m with
  | .beginValueOrEmpty =>
    if blank c then some (.stay .beginValueOrEmpty)
    else if c = ']' then endMove top c else beginMove c
  | .beginValue => beginMove c
  | .beginStringOrEmpty =>
    if blank c then some (.stay .beginStringOrEmpty)
    else if c = '}' then some .pop else keyMove c
  | .beginString => keyMove c
  | .endValue => endMove top c
  | .inString =>
    if c = '"' then some (.stay .endValue)
    else if c = '\\' then some (.stay .inStringEsc)
    else if c.toNat < 0x20 then none else some (.stay .inString)
  | .inStringEsc =>
    if c ∈ ['b', 'f', 'n', 'r', 't', '\\', '/', '"'] then some (.stay .inString)
    else if c = 'u' then some (.stay (.inStringEscU 3)) else none
  | .inStringEscU more =>
    if isHex c then
      some (.stay (match more with
        | 0 => .inString
        | more + 1 => .inStringEscU more))
    else none
  | .neg =>
    if c = '0' then some (.stay .zero) else if c.isDigit then some (.stay .one) else none
  | .one => if c.isDigit then some (.stay .one) else fractionMove top c
  | .zero => fractionMove top c
  | .dot => if c.isDigit then some (.stay .dot0) else none
  | .dot0 =>
    if c.isDigit then some (.stay .dot0)
    else if c = 'e' ∨ c = 'E' then some (.stay .exp)
    else endMove top c
  | .exp => if c = '+' ∨ c = '-' then some (.stay .expSign) else exponentMove c
  | .expSign => exponentMove c
  | .exp0 => if c.isDigit then some (.stay .exp0) else endMove top c
  | .t => letterMove 'r' .tr c
  | .tr => letterMove 'u' .tru c
  | .tru => letterMove 'e' .endValue c
  | .f => letterMove 'a' .fa c
  | .fa => letterMove 'l' .fal c
  | .fal => letterMove 's' .fals c
  | .fals => letterMove 'e' .endValue c
  | .n => letterMove 'u' .nu c
  | .nu => letterMove 'l' .nul c
  | .nul => letterMove 'l' .endValue c

/-- The machine: its mode and the containers it is in, the innermost first. -/
structure Scan where
  mode : Mode
  stack : List Frame
  deriving DecidableEq

/-- How deep containers may nest. -/
def maxNestingDepth : ℕ := 10000

variable (σ : Scan)

namespace Scan

/-- The machine before its first byte. -/
def start : Scan := ⟨.beginValue, []⟩

/-- The machine after a whole value. -/
def done : Scan := ⟨.endValue, []⟩

/-- Carry out a move. -/
def apply : Move → Option Scan
  | .stay m => some ⟨m, σ.stack⟩
  | .push f m => if σ.stack.length < maxNestingDepth then some ⟨m, f :: σ.stack⟩ else none
  | .swap f m => some ⟨m, f :: σ.stack.tail⟩
  | .pop => some ⟨.endValue, σ.stack.tail⟩

/-- Feed the machine a character. -/
def feed (c : Char) : Option Scan := (σ.mode.move σ.stack.head? c).bind σ.apply

/-- Feed the machine a byte. -/
def step (b : UInt8) : Option Scan := σ.feed (ofUInt8 b)

/-- Feed the machine bytes. -/
def run (bs : List UInt8) : Option Scan := bs.foldlM step σ

/-- Whether the input may end here: white space leaves the machine after a whole value.  A number outside
every container ends only with the white space. -/
def accepts : Bool := σ.feed ' ' = some done

end Scan

/-- The syntax check of `json.Unmarshal`. -/
def checkValid (bs : List UInt8) : Bool := (Scan.start.run bs).any Scan.accepts

example : [" \x7b\"a\": [1.5e3, true, \"x\\u00e9\"]\x7d ", "12", "\x7b\"a\":1\x7d\x7b", "\x7b\"a\"",
    "01"].map (fun s => checkValid (bytes s)) = [true, true, false, false, false] := by
  decide

/-! ## Open containers -/

variable (σ : Scan)

namespace Scan

@[simp] lemma run_nil : σ.run [] = some σ := rfl

lemma run_cons (b : UInt8) (bs : List UInt8) : σ.run (b :: bs) = (σ.step b).bind (fun σ' => σ'.run bs) := rfl

lemma run_append (bs cs : List UInt8) : σ.run (bs ++ cs) = (σ.run bs).bind (fun σ' => σ'.run cs) := foldlM_append

end Scan

variable (m : Mode) (top : Option Frame)

lemma move_space_ne_pop : m.move top ' ' ≠ some .pop := by
  have hend : endMove top ' ' ≠ some .pop := by
    cases top with
    | none => decide
    | some f => cases f <;> decide
  cases m with
  | endValue | one | zero | dot0 | exp0 => simpa [Mode.move, fractionMove] using hend
  | inStringEscU => simp [Mode.move, isHex]
  | _ => simp [Mode.move, beginMove, keyMove, exponentMove, letterMove, blank]

variable {p q bs : List UInt8} {c : Char}

namespace Scan

variable {σ}

lemma feed_open {σ' : Scan} (hopen : σ.stack ≠ []) (h : σ.feed c = some σ') : σ'.stack ≠ [] ∨ σ' = done := by
  obtain ⟨mv, -, happly⟩ := bind_eq_some_iff.mp h
  cases mv with
  | stay m =>
    cases happly
    exact .inl hopen
  | push f m =>
    simp only [apply] at happly
    split_ifs at happly
    cases happly
    exact .inl (cons_ne_nil _ _)
  | swap f m =>
    cases happly
    exact .inl (cons_ne_nil _ _)
  | pop =>
    cases happly
    by_cases htail : σ.stack.tail = []
    · exact .inr (by rw [htail]; rfl)
    · exact .inl htail

lemma accepts_of_open (hopen : σ.stack ≠ []) : σ.accepts = false := by
  rw [accepts, decide_eq_false_iff_not]
  intro h
  obtain ⟨mv, hmove, happly⟩ := bind_eq_some_iff.mp h
  cases mv with
  | stay m => exact hopen (congrArg Scan.stack (some.inj happly))
  | push f m =>
    simp only [apply] at happly
    split_ifs at happly
    cases happly
  | swap f m => cases happly
  | pop => exact move_space_ne_pop _ _ hmove

lemma blank_of_run_done (h : done.run bs = some σ) : ∀ b ∈ bs, blank (ofUInt8 b) = true := by
  induction bs with
  | nil => simp
  | cons b bs ih =>
    rw [run_cons] at h
    cases hb : blank (ofUInt8 b) with
    | false => simp [step, feed, done, Mode.move, endMove, hb] at h
    | true =>
      have hstep : done.step b = some done := by simp [step, feed, done, Mode.move, endMove, hb, apply]
      rw [hstep] at h
      exact forall_mem_cons.mpr ⟨hb, ih h⟩

lemma eq_nil_of_run_done {b : UInt8} (h : done.run bs = some σ)
    (hlast : ∀ c ∈ (b :: bs).getLast?, blank (ofUInt8 c) = false) : bs = [] := by
  cases bs with
  | nil => rfl
  | cons c bs =>
    have hin := getLast_mem (cons_ne_nil c bs)
    have hnot := hlast ((c :: bs).getLast (cons_ne_nil c bs)) (by
      rfl)
    rw [blank_of_run_done h _ hin] at hnot
    cases hnot

/-- Inside a container, bytes leave the machine inside one, or in a state that the rest of a text with a
character in it cannot start from. -/
lemma open_of_run_append (hopen : σ.stack ≠ [])
    (hq : ∃ b ∈ q, blank (ofUInt8 b) = false) {σ'' : Scan} (h : σ.run (p ++ q) = some σ'') :
    ∃ σ', σ.run p = some σ' ∧ σ'.stack ≠ [] := by
  induction p generalizing σ with
  | nil => exact ⟨σ, rfl, hopen⟩
  | cons b p ih =>
    obtain ⟨σ₁, hstep, hrun⟩ := bind_eq_some_iff.mp h
    rcases feed_open hopen hstep with hopen₁ | rfl
    · obtain ⟨σ', hp, hσ'⟩ := ih hopen₁ hrun
      exact ⟨σ', by rw [run_cons, hstep]; exact hp, hσ'⟩
    · obtain ⟨c, hc, hblank⟩ := hq
      have := blank_of_run_done hrun c (mem_append_right _ hc)
      rw [hblank] at this
      cases this

end Scan

/-! ## Object texts -/

/-- The bytes of a whole object: they start with an opening brace, and the machine ends after a whole
value. -/
structure IsObjectText (bs : List UInt8) : Prop where
  brace : ∃ rest, bs = 0x7b :: rest
  whole : Scan.start.run bs = some Scan.done
  /-- The last byte is not white space. -/
  last : ∀ b ∈ bs.getLast?, blank (ofUInt8 b) = false

namespace Scan

lemma start_step_brace : start.step 0x7b = some ⟨.beginStringOrEmpty, [.objectKey]⟩ := by decide

lemma open_of_prefix (h : IsObjectText (p ++ q)) (hp : p ≠ []) (hq : q ≠ []) :
    ∃ σ, start.run p = some σ ∧ σ.stack ≠ [] := by
  obtain ⟨rest, hrest⟩ := h.brace
  obtain ⟨p, rfl⟩ : ∃ p', p = 0x7b :: p' := by
    cases p with
    | nil => exact absurd rfl hp
    | cons b p => exact ⟨p, by rw [(List.cons.inj hrest).1]⟩
  have hlast : ∃ b ∈ q, blank (ofUInt8 b) = false := by
    refine ⟨q.getLast hq, getLast_mem hq, h.last _ ?_⟩
    rw [getLast?_append_of_ne_nil _ hq, getLast?_eq_some_getLast hq]
    rfl
  have hwhole := h.whole
  rw [cons_append, run_cons] at hwhole
  obtain ⟨σ, hrun, hopen⟩ := open_of_run_append (cons_ne_nil _ _) hlast hwhole
  exact ⟨σ, by rw [run_cons, start_step_brace]; exact hrun, hopen⟩

/-- The machine inside further containers. -/
def under (base : List Frame) (σ : Scan) : Scan := ⟨σ.mode, σ.stack ++ base⟩

variable (base : List Frame)

lemma feed_under {σ σ' : Scan} (hopen : σ.stack ≠ []) (h : σ.feed c = some σ') :
    (under base σ).feed c = none ∨ (under base σ).feed c = some (under base σ') := by
  obtain ⟨mv, hmove, happly⟩ := bind_eq_some_iff.mp h
  have hhead : (σ.stack ++ base).head? = σ.stack.head? := head?_append_of_ne_nil _ hopen
  rw [feed, under, hhead, hmove, bind_some]
  cases mv with
  | stay m =>
    cases happly
    exact .inr rfl
  | push f m =>
    simp only [apply] at happly ⊢
    split_ifs at happly
    cases happly
    split_ifs
    · exact .inr rfl
    · exact .inl rfl
  | swap f m =>
    cases happly
    simp [apply, under, tail_append_of_ne_nil hopen]
  | pop =>
    cases happly
    simp [apply, under, tail_append_of_ne_nil hopen]

lemma run_under {σ : Scan} (hopen : σ.stack ≠ []) (hlast : ∀ b ∈ bs.getLast?, blank (ofUInt8 b) = false)
    (h : σ.run bs = some done) :
    (under base σ).run bs = none ∨ (under base σ).run bs = some ⟨.endValue, base⟩ := by
  induction bs generalizing σ with
  | nil =>
    cases h
    exact absurd rfl hopen
  | cons b bs ih =>
    rw [run_cons] at h ⊢
    obtain ⟨σ₁, hstep, hrun⟩ := bind_eq_some_iff.mp h
    rcases feed_under base hopen hstep with hnone | hsome
    · exact .inl (by rw [step, hnone]; rfl)
    · rw [step, hsome]
      rcases feed_open hopen hstep with hopen₁ | rfl
      · refine ih hopen₁ (fun c hc => hlast c ?_) hrun
        cases bs with
        | nil => cases hc
        | cons c' bs => rwa [getLast?_cons_cons]
      · rw [eq_nil_of_run_done hrun hlast]
        exact .inr rfl

end Scan

/-! ## A torn object before a whole one -/

lemma move_brace (f : Frame) :
    m.move (some f) '{' = none ∨
      m.move (some f) '{' = some (.push .objectKey .beginStringOrEmpty) ∨
      m.move (some f) '{' = some (.stay .inString) := by
  have hend : endMove (some f) '{' = none := by cases f <;> decide
  cases m with
  | endValue | one | zero | dot0 | exp0 => exact .inl (by simpa [Mode.move, fractionMove] using hend)
  | inStringEscU => exact .inl (by simp [Mode.move, isHex])
  | beginValueOrEmpty | beginValue => exact .inr (.inl rfl)
  | inString => exact .inr (.inr rfl)
  | _ => exact .inl rfl

variable {rest : List UInt8}

/-- An object's text whose first key starts with a letter does not close a container that was open
before it. -/
lemma open_run_object {σ : Scan} (hopen : σ.stack ≠ []) {x : UInt8} (h : IsObjectText (0x7b :: 0x22 :: x :: rest))
    (hx : ∀ f, endMove (some f) (ofUInt8 x) = none) {σ' : Scan}
    (hrun : σ.run (0x7b :: 0x22 :: x :: rest) = some σ') : σ'.stack ≠ [] := by
  obtain ⟨f, base, hstack⟩ := exists_cons_of_ne_nil hopen
  rw [Scan.run_cons] at hrun
  obtain ⟨σ₁, hstep, hrest⟩ := bind_eq_some_iff.mp hrun
  obtain ⟨mv, hmove, happly⟩ := bind_eq_some_iff.mp hstep
  rw [hstack, head?_cons, show ofUInt8 0x7b = '{' from rfl] at hmove
  rcases move_brace σ.mode f with hnone | hpush | hstay
  · rw [hnone] at hmove
    cases hmove
  · -- The object is read inside the open containers, as it would be read alone.
    rw [hpush] at hmove
    cases hmove
    simp only [Scan.apply] at happly
    split_ifs at happly
    cases happly
    have hwhole := h.whole
    rw [Scan.run_cons, Scan.start_step_brace] at hwhole
    have hlast : ∀ b ∈ (0x22 :: x :: rest).getLast?, blank (ofUInt8 b) = false :=
      fun b hb => h.last b (by rwa [getLast?_cons_cons])
    rcases Scan.run_under σ.stack (cons_ne_nil _ _) hlast hwhole with hnone | hsome
    · rw [Scan.under, singleton_append] at hnone
      rw [hnone] at hrest
      cases hrest
    · rw [Scan.under, singleton_append] at hsome
      rw [hsome] at hrest
      cases hrest
      exact hopen
  · -- The quote ends the string the machine was in, and the letter after it is refused.
    rw [hstay] at hmove
    cases hmove
    cases happly
    rw [Scan.run_cons, Scan.step, show ofUInt8 0x22 = '"' from rfl, Scan.feed] at hrest
    simp only [Mode.move, if_true, bind_some, Scan.apply] at hrest
    rw [Scan.run_cons, Scan.step, Scan.feed, Mode.move, hstack, head?_cons, hx f] at hrest
    cases hrest

theorem checkValid_torn (hpq : IsObjectText (p ++ q)) (hp : p ≠ [])
    (hq : q ≠ []) {x : UInt8} (h : IsObjectText (0x7b :: 0x22 :: x :: rest))
    (hx : ∀ f, endMove (some f) (ofUInt8 x) = none) :
    checkValid (p ++ 0x7b :: 0x22 :: x :: rest) = false := by
  obtain ⟨σ, hrun, hopen⟩ := Scan.open_of_prefix hpq hp hq
  rw [checkValid, Scan.run_append, hrun, bind_some]
  cases hwhole : σ.run (0x7b :: 0x22 :: x :: rest) with
  | none => rfl
  | some σ' => exact Scan.accepts_of_open (open_run_object hopen h hx hwhole)

theorem checkValid_prefix (hpq : IsObjectText (p ++ q)) (hp : p ≠ []) (hq : q ≠ []) : checkValid p = false := by
  obtain ⟨σ, hrun, hopen⟩ := Scan.open_of_prefix hpq hp hq
  rw [checkValid, hrun]
  exact Scan.accepts_of_open hopen

theorem checkValid_two {p : List UInt8} (hp : IsObjectText p) (rest : List UInt8) :
    checkValid (p ++ 0x7b :: rest) = false := by
  rw [checkValid, Scan.run_append, hp.whole, bind_some]
  rfl

/-! ## The syntax check, character by character -/

lemma move_high (hc : 0x80 ≤ c.toNat) : m.move top c = if m = .inString then some (.stay .inString) else none := by
  have hne : ∀ d : Char, d.toNat < 0x80 → c ≠ d := by
    rintro d hd rfl
    omega
  have hgt : ∀ d : Char, d.toNat < 0x80 → ¬ c ≤ d := fun d hd hle => by
    have : c.toNat ≤ d.toNat := hle
    omega
  have hdigit : c.isDigit = false := by
    have h9 : ¬ c.val ≤ '9'.val := hgt '9' (by decide)
    rw [Char.isDigit, decide_eq_false h9, Bool.and_false]
  have hend : endMove top c = none := by
    cases top with
    | none => simp [endMove, blank, hne]
    | some f => cases f <;> simp [endMove, blank, hne]
  cases m with
  | inString => simp [Mode.move, hne, show ¬ c.toNat < 32 by omega]
  | _ =>
    simp [Mode.move, beginMove, keyMove, fractionMove, exponentMove, letterMove, blank, isHex, hdigit,
      hgt, hne, hend]

namespace Scan

variable (cs : List Char)

/-- Feed the machine characters. -/
def runText : Option Scan := cs.foldlM feed σ

@[simp] lemma runText_nil : σ.runText [] = some σ := rfl

@[simp] lemma runText_cons (c : Char) (cs : List Char) :
    σ.runText (c :: cs) = (σ.feed c).bind (fun σ' => σ'.runText cs) := rfl

lemma runText_append (ds : List Char) :
    σ.runText (cs ++ ds) = (σ.runText cs).bind (fun σ' => σ'.runText ds) := foldlM_append

lemma feed_high (hc : 0x80 ≤ c.toNat) : σ.feed c = if σ.mode = .inString then some σ else none := by
  obtain ⟨m, st⟩ := σ
  rw [feed, move_high m _ hc]
  by_cases hm : m = .inString
  · subst hm
    rfl
  · rw [if_neg hm, if_neg hm]
    rfl

lemma run_high (hne : bs ≠ [])
    (hbs : ∀ b ∈ bs, 0x80 ≤ b.toNat) : σ.run bs = if σ.mode = .inString then some σ else none := by
  induction bs with
  | nil => exact absurd rfl hne
  | cons b bs ih =>
    obtain ⟨hb, hrest⟩ := forall_mem_cons.mp hbs
    have hstep : σ.step b = if σ.mode = .inString then some σ else none := by
      rw [step, feed_high]
      rwa [toNat_ofUInt8]
    rw [run_cons, hstep]
    by_cases hm : σ.mode = .inString
    · rw [if_pos hm, bind_some]
      cases bs with
      | nil => rfl
      | cons b' bs => rw [ih (cons_ne_nil _ _) hrest, if_pos hm]
    · rw [if_neg hm]
      rfl

lemma run_utf8 : σ.run (utf8 cs) = σ.runText cs := by
  induction cs generalizing σ with
  | nil => rfl
  | cons c cs ih =>
    have hchar : σ.run (String.utf8EncodeChar c) = σ.feed c := by
      by_cases hc : c.toNat < 0x80
      · have hback : ofUInt8 (UInt8.ofNat c.toNat) = c := by
          rw [← Char.toNat_inj, toNat_ofUInt8, UInt8.toNat_ofNat', Nat.mod_eq_of_lt (by omega)]
        rw [utf8EncodeChar_of_lt hc, run_cons, step, hback]
        exact bind_fun_some _
      · rw [run_high σ String.utf8EncodeChar_ne_nil fun b hb => le_of_mem_utf8EncodeChar (by omega) hb,
          feed_high σ (by omega)]
    rw [utf8_cons, run_append, hchar]
    exact congrArg _ (funext ih)

end Scan

end DeliveryEngine.Go.Json
