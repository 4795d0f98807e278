import DeliveryEngine.Go.Json.Value
import DeliveryEngine.Go.Time

/-!
# Reading JSON

`parse` reads a text whose syntax has been checked, and `unquote` the escapes of a string.  A decoder
then looks at the value: `parseInt` is how it reads an integer.

`Written` says of a text that it passes the syntax check and is read as a value.  `Sound` gathers what a value
owes its readers: both its texts are such texts, and the compact one has no control character.  It is proved of
each kind of value from its parts.
-/

namespace DeliveryEngine.Go.Json

open List

/-! ## The reader -/

def skipBlank (cs : List Char) : List Char := cs.dropWhile blank

/-- The inside of a string, up to the quote that ends it, and what follows. -/
def readRaw : List Char → Option (List Char × List Char)
  | [] => none
  | [c] => if c = '"' then some ([], []) else none
  | c :: d :: cs =>
    if c = '"' then some ([], d :: cs)
    else if c = '\\' then (readRaw cs).map (fun (raw, rest) => (c :: d :: raw, rest))
    else (readRaw (d :: cs)).map (fun (raw, rest) => (c :: raw, rest))

/-- A word that stands for a value. -/
def readWord (word : List Char) (v : Json) (cs : List Char) : Option (Json × List Char) :=
  if word.isPrefixOf cs then some (v, cs.drop word.length) else none

mutual

/-- A value off the front of a text, and what follows. -/
def readValue : ℕ → List Char → Option (Json × List Char)
  | 0, _ => none
  | fuel + 1, cs =>
    match skipBlank cs with
    | [] => none
    | c :: rest =>
      if numeric c then
        some (.num ((c :: rest).takeWhile numeric), (c :: rest).dropWhile numeric)
      else if c = '"' then (readRaw rest).map (fun (raw, rest) => (.str raw, rest))
      else if c = '[' then
        match skipBlank rest with
        | ']' :: rest => some (.arr [], rest)
        | rest => (readItems fuel rest).map (fun (vs, rest) => (.arr vs, rest))
      else if c = '{' then
        match skipBlank rest with
        | '}' :: rest => some (.obj [], rest)
        | rest => (readMembers fuel rest).map (fun (ms, rest) => (.obj ms, rest))
      else if c = 't' then readWord ['t', 'r', 'u', 'e'] (.bool true) (c :: rest)
      else if c = 'f' then readWord ['f', 'a', 'l', 's', 'e'] (.bool false) (c :: rest)
      else readWord ['n', 'u', 'l', 'l'] .null (c :: rest)

/-- The items of an array, to its end. -/
def readItems : ℕ → List Char → Option (List Json × List Char)
  | 0, _ => none
  | fuel + 1, cs =>
    (readValue fuel cs).bind (fun (v, rest) =>
      match skipBlank rest with
      | ',' :: rest => (readItems fuel rest).map (fun (vs, rest) => (v :: vs, rest))
      | ']' :: rest => some ([v], rest)
      | _ => none)

/-- The members of an object, to its end. -/
def readMembers : ℕ → List Char → Option (List (List Char × Json) × List Char)
  | 0, _ => none
  | fuel + 1, cs =>
    match skipBlank cs with
    | '"' :: rest =>
      (readRaw rest).bind (fun (k, rest) =>
        match skipBlank rest with
        | ':' :: rest =>
          (readValue fuel rest).bind (fun (v, rest) =>
            match skipBlank rest with
            | ',' :: rest => (readMembers fuel rest).map (fun (ms, rest) => ((k, v) :: ms, rest))
            | '}' :: rest => some ([(k, v)], rest)
            | _ => none)
        | _ => none)
    | _ => none

end

/-- The value a text is. -/
def parse (cs : List Char) : Option Json :=
  (readValue (2 * cs.length) cs).bind (fun (v, rest) => if skipBlank rest = [] then some v else none)

/-! ## Strings and integers -/

/-- The value of a hexadecimal digit. -/
def hexValue (c : Char) : ℕ :=
  if c.isDigit then c.toNat - '0'.toNat
  else if 'a' ≤ c then c.toNat - 'a'.toNat + 10 else c.toNat - 'A'.toNat + 10

/-- The code unit four hexadecimal digits spell. -/
def codeUnit (a b c d : Char) : ℕ := 4096 * hexValue a + 256 * hexValue b + 16 * hexValue c + hexValue d

/-- The character a letter after a backslash stands for. -/
def unescapeLetter (c : Char) : Char :=
  match c with
  | 'b' => '\x08'
  | 'f' => '\x0c'
  | 'n' => '\n'
  | 'r' => '\r'
  | 't' => '\t'
  | c => c

/-- The character a surrogate and an escape after it spell together. -/
def surrogatePair (hi : ℕ) (cs : List Char) : Option Char :=
  match cs with
  | '\\' :: 'u' :: a :: b :: c :: d :: _ =>
    let lo := codeUnit a b c d
    if hi < 0xdc00 ∧ 0xdc00 ≤ lo ∧ lo < 0xe000 then
      some (Char.ofNat (0x10000 + 1024 * (hi - 0xd800) + (lo - 0xdc00)))
    else none
  | _ => none

/-- The characters the inside of a string spells, after some that are skipped.  A surrogate without its
other half becomes the replacement character. -/
def unquoteFrom : ℕ → List Char → List Char
  | _, [] => []
  | skip + 1, _ :: cs => unquoteFrom skip cs
  | 0, c :: cs =>
    if c = '\\' then
      match cs with
      | 'u' :: a :: b :: c :: d :: rest =>
        let unit := codeUnit a b c d
        if unit < 0xd800 ∨ 0xdfff < unit then Char.ofNat unit :: unquoteFrom 5 cs
        else
          match surrogatePair unit rest with
          | some c => c :: unquoteFrom 11 cs
          | none => '�' :: unquoteFrom 5 cs
      | e :: _ => unescapeLetter e :: unquoteFrom 1 cs
      | [] => []
    else c :: unquoteFrom 0 cs

/-- The characters the inside of a string spells. -/
def unquote (raw : List Char) : List Char := unquoteFrom 0 raw

example : unquote "a\\n\\u00e9\\ud83d\\ude00\\ud83dx".toList = ['a', '\n', 'é', '😀', '�', 'x'] := by
  decide

/-- A sign off the front of a numeral: whether it is a minus, and the digits. -/
def splitSign (cs : List Char) : Bool × List Char :=
  match cs with
  | '-' :: digits => (true, digits)
  | '+' :: digits => (false, digits)
  | digits => (false, digits)

/-- `strconv.ParseInt` in base ten, to 64 bits. -/
def parseInt (cs : List Char) : Option ℤ :=
  let (neg, digits) := splitSign cs
  let n := Duration.digitsValue digits
  if digits = [] ∨ digits.any (fun c => !c.isDigit) then none
  else if neg then if n ≤ 2 ^ 63 then some (-n) else none
  else if n < 2 ^ 63 then some (n : ℤ) else none

/-! ## What a written string and a written integer are read as -/

lemma codeUnit_hexDigit {n : ℕ} (hn : n < 256) : codeUnit '0' '0' (hexDigit (n / 16)) (hexDigit (n % 16)) = n := by
  have hall : ∀ n < 256, codeUnit '0' '0' (hexDigit (n / 16)) (hexDigit (n % 16)) = n := by decide +kernel
  exact hall n hn

lemma unquoteFrom_escapeChar (c : Char) (cs : List Char) :
    unquoteFrom 0 (escapeChar c ++ cs) = c :: unquoteFrom 0 cs := by
  have hback : Char.ofNat c.toNat = c := Char.ofNat_toNat c
  unfold escapeChar
  split_ifs with h1 h2 h3 h4 h5 h6 h7 h8
  · rcases h1 with rfl | rfl <;> rfl
  · subst h2; rfl
  · subst h3; rfl
  · subst h4; rfl
  · subst h5; rfl
  · subst h6; rfl
  · have hlow : c.toNat < 256 := by
      rcases h7 with h | rfl | rfl | rfl
      · omega
      all_goals decide
    simp only [cons_append, nil_append, unquoteFrom, if_true, codeUnit_hexDigit hlow]
    rw [if_pos (.inl (by omega)), hback]
  · rcases h8 with rfl | rfl <;> rfl
  · simp only [not_or] at h1
    simp [unquoteFrom, h1.2]

variable (s : String)

lemma unquote_escape : unquote (escape s) = s.toList := by
  rw [unquote, escape]
  induction s.toList with
  | nil => rfl
  | cons c cs ih => rw [flatMap_cons, unquoteFrom_escapeChar, ih]

/-- A 64-bit integer. -/
def IsInt64 (n : ℤ) : Prop := -2 ^ 63 ≤ n ∧ n < 2 ^ 63

instance (n : ℤ) : Decidable (IsInt64 n) := inferInstanceAs (Decidable (_ ∧ _))

lemma digitsValue_toDigits (n : ℕ) : Duration.digitsValue (Nat.toDigits 10 n) = n := Nat.ofDigitChars_ten_toDigits

variable {cs : List Char}

lemma splitSign_digits (hcs : ∀ c ∈ cs, c.isDigit = true) : splitSign cs = (false, cs) := by
  unfold splitSign
  split
  · exact absurd (hcs '-' mem_cons_self) (by decide)
  · exact absurd (hcs '+' mem_cons_self) (by decide)
  · rfl

lemma parseInt_decimal {n : ℤ} (hn : IsInt64 n) : parseInt (decimal n) = some n := by
  have hall : ∀ c ∈ Nat.toDigits 10 n.natAbs, c.isDigit = true := fun c hc =>
    Nat.isDigit_of_mem_toDigits (by decide) (by decide) hc
  have hdigits : ¬ (Nat.toDigits 10 n.natAbs = [] ∨
      (Nat.toDigits 10 n.natAbs).any (fun c => !c.isDigit) = true) := by
    rintro (hnil | hany)
    · exact Nat.toDigits_ne_nil hnil
    · obtain ⟨c, hc, hnot⟩ := any_eq_true.mp hany
      rw [hall c hc] at hnot
      cases hnot
  have hsign : splitSign (decimal n) = (decide (n < 0), Nat.toDigits 10 n.natAbs) := by
    rw [decimal]
    split_ifs with hneg
    · rw [decide_eq_true hneg]
      rfl
    · rw [decide_eq_false hneg, splitSign_digits hall]
  obtain ⟨hlo, hhi⟩ := hn
  simp only [parseInt, hsign, digitsValue_toDigits, if_neg hdigits, decide_eq_true_eq]
  split_ifs with hneg h h
  · exact congrArg some (by omega)
  · omega
  · exact congrArg some (by omega)
  · omega

/-! ## What a written value owes its readers -/

/-- The inside of a string: it has no control character, passes the syntax check, and is read as what it
is before the quote. -/
structure SoundRaw (raw : List Char) : Prop where
  plain : ∀ c ∈ raw, 0x20 ≤ c.toNat
  runs : RunsRaw raw
  reads : ∀ cs ≠ [], readRaw (raw ++ cs) = (readRaw cs).map (fun (raw', rest) => (raw ++ raw', rest))

lemma soundRaw_nil : SoundRaw [] where
  plain _ hc := absurd hc not_mem_nil
  runs _ := rfl
  reads _ _ := Option.map_id'.symm

variable {raw : List Char}

lemma SoundRaw.append {raw' : List Char} (h : SoundRaw raw) (h' : SoundRaw raw') : SoundRaw (raw ++ raw') where
  plain c hc := (mem_append.mp hc).elim (h.plain c) (h'.plain c)
  runs := runsRaw_append h.runs h'.runs
  reads cs hcs := by
    rw [append_assoc, h.reads _ (by simp [hcs]), h'.reads cs hcs, Option.map_map]
    congr 1
    funext p
    simp

lemma SoundRaw.read_quoted (h : SoundRaw raw) (rest : List Char) :
    readRaw (raw ++ '"' :: rest) = some (raw, rest) := by
  have hquote : readRaw ('"' :: rest) = some ([], rest) := by cases rest <;> rfl
  rw [h.reads _ (cons_ne_nil _ _), hquote]
  simp

variable {c : Char}

lemma soundRaw_singleton (hc : 0x20 ≤ c.toNat) (hquote : c ≠ '"') (hslash : c ≠ '\\') :
    SoundRaw [c] where
  plain d hd := by rwa [mem_singleton.mp hd]
  runs st := by simp [Scan.feed, Mode.move, hquote, hslash, show ¬ c.toNat < 32 by omega, Scan.apply]
  reads cs hcs := by
    obtain ⟨d, cs, rfl⟩ := exists_cons_of_ne_nil hcs
    simp [readRaw, hquote, hslash]

lemma toNat_hexDigit (n : ℕ) : 0x20 ≤ (hexDigit n).toNat ∧ hexDigit n ≠ '"' ∧ hexDigit n ≠ '\\' := by
  by_cases hn : n < 16
  · have hall : ∀ n < 16, 0x20 ≤ (hexDigit n).toNat ∧ hexDigit n ≠ '"' ∧ hexDigit n ≠ '\\' := by
      decide
    exact hall n hn
  · rw [hexDigit, getD_eq_getElem?_getD, getElem?_eq_none (by simpa using hn)]
    decide

lemma soundRaw_escapeChar (c : Char) : SoundRaw (escapeChar c) where
  plain := by
    have hhex := fun n => (toNat_hexDigit n).1
    unfold escapeChar
    split_ifs with h1 h2 h3 h4 h5 h6 h7 h8
    -- A control character fails the plain form; every other form is made of printable ones.
    all_goals try simp [hhex]
    · rcases h1 with rfl | rfl <;> decide
    · simp only [not_or] at h7
      simpa using h7.1
  runs := runsRaw_escapeChar c
  reads cs hcs := by
    have hhex := fun n => (toNat_hexDigit n).2
    obtain ⟨d, cs, rfl⟩ := exists_cons_of_ne_nil hcs
    unfold escapeChar
    split_ifs with h1 h2 h3 h4 h5 h6 h7 h8
    · rfl
    · rfl
    · rfl
    · rfl
    · rfl
    · rfl
    · simp [readRaw, hhex, Option.map_map, Function.comp_def]
    · simp [readRaw, hhex, Option.map_map, Function.comp_def]
    · simp only [not_or] at h1
      simp [readRaw, h1]

lemma soundRaw_escape : SoundRaw (escape s) := by
  rw [escape]
  induction s.toList with
  | nil => exact soundRaw_nil
  | cons c cs ih => exact (soundRaw_escapeChar c).append ih

/-- A text of ordinary characters, such as the name of a field, is spelled as it is. -/
def Ordinary (cs : List Char) : Prop := ∀ c ∈ cs, 0x20 ≤ c.toNat ∧ c ≠ '"' ∧ c ≠ '\\'

instance (cs : List Char) : Decidable (Ordinary cs) := List.decidableBAll _ cs

lemma Ordinary.soundRaw (h : Ordinary cs) : SoundRaw cs := by
  induction cs with
  | nil => exact soundRaw_nil
  | cons c cs ih =>
    obtain ⟨⟨hc, hquote, hslash⟩, hcs⟩ := forall_mem_cons.mp h
    exact (soundRaw_singleton hc hquote hslash).append (ih hcs)

lemma Ordinary.unquote (h : Ordinary cs) : unquote cs = cs := by
  rw [Json.unquote]
  induction cs with
  | nil => rfl
  | cons c cs ih =>
    obtain ⟨⟨-, -, hslash⟩, hcs⟩ := forall_mem_cons.mp h
    simp [unquoteFrom, hslash, ih hcs]

/-- The text is read as the value, whatever follows that does not go on a number. -/
def ReadsAs (cs : List Char) (v : Json) : Prop :=
  ∀ fuel rest, 2 * cs.length ≤ fuel → (∀ c ∈ rest.head?, numeric c = false) →
    readValue fuel (cs ++ rest) = some (v, rest)

/-- A text of a value: the syntax check passes over it, nesting no deeper than given, and it is read as the
value. -/
structure Written (depth : ℕ) (cs : List Char) (v : Json) : Prop where
  runs : Runs depth cs
  reads : ReadsAs cs v

variable {depth : ℕ} {v : Json}

lemma Written.mono {depth' : ℕ} (hle : depth ≤ depth') (h : Written depth cs v) : Written depth' cs v :=
  ⟨h.runs.mono hle, h.reads⟩

/-- A value that nests no deeper than given, whose compact text has no control character, and of which both
texts are texts. -/
structure Sound (depth : ℕ) (v : Json) : Prop where
  plain : ∀ c ∈ encode v, 0x20 ≤ c.toNat
  written : Written depth (encode v) v
  indented : ∀ level, Written depth (indent level v) v

lemma Sound.runs (h : Sound depth v) : Runs depth (encode v) := h.written.runs

lemma Sound.mono {depth' : ℕ} (hle : depth ≤ depth') (h : Sound depth v) : Sound depth' v where
  plain := h.plain
  written := h.written.mono hle
  indented level := (h.indented level).mono hle

lemma skipBlank_cons (hc : blank c = false) (cs : List Char) : skipBlank (c :: cs) = c :: cs := by
  rw [skipBlank, dropWhile_cons_of_neg (by simp [hc])]

variable {ws : List Char}

lemma skipBlank_append (hws : Blanks ws) (cs : List Char) :
    skipBlank (ws ++ cs) = skipBlank cs := dropWhile_append_of_pos hws

lemma written_str (h : SoundRaw raw) : Written 0 (encode (.str raw)) (.str raw) where
  runs := runs_str h.runs
  reads := by
    intro fuel rest hfuel _
    rw [encode] at hfuel ⊢
    obtain ⟨fuel, rfl⟩ : ∃ n, fuel = n + 1 := ⟨fuel - 1, by simp at hfuel; omega⟩
    rw [cons_append, readValue, skipBlank_cons (by decide)]
    simp [h.read_quoted, show numeric '"' = false by decide]

lemma sound_str (h : SoundRaw raw) : Sound 0 (.str raw) where
  plain := by
    intro c hc
    rw [encode, mem_cons, mem_append, mem_singleton] at hc
    rcases hc with rfl | hc | rfl
    · decide
    · exact h.plain c hc
    · decide
  written := written_str h
  indented level := by
    rw [indent]
    exact written_str h
    all_goals simp

lemma sound_text : Sound 0 (text s) := sound_str (soundRaw_escape s)

lemma mem_decimal {n : ℤ} (hc : c ∈ decimal n) : c.isDigit = true ∨ c = '-' := by
  have hdigit : c ∈ Nat.toDigits 10 n.natAbs → c.isDigit = true := fun h =>
    Nat.isDigit_of_mem_toDigits (by decide) (by decide) h
  rw [decimal] at hc
  split_ifs at hc
  · exact (mem_cons.mp hc).symm.imp hdigit id
  · exact .inl (hdigit hc)

lemma written_int (n : ℤ) : Written 0 (encode (int n)) (int n) where
  runs := runs_int n
  reads := by
    intro fuel rest hfuel hrest
    have hnumeric : ∀ c ∈ decimal n, numeric c = true := by
      intro c hc
      rcases mem_decimal hc with hdigit | rfl
      · rw [numeric, hdigit, Bool.true_or]
      · decide
    obtain ⟨c, cs, hcs, hblank, -⟩ := (runs_int n).head
    rw [int, encode] at hcs hfuel ⊢
    have hc : numeric c = true := hnumeric c (hcs ▸ mem_cons_self)
    obtain ⟨fuel, rfl⟩ : ∃ n, fuel = n + 1 := ⟨fuel - 1, by rw [hcs] at hfuel; simp at hfuel; omega⟩
    have hstop : rest.takeWhile numeric = [] ∧ rest.dropWhile numeric = rest := by
      cases rest with
      | nil => exact ⟨rfl, rfl⟩
      | cons d rest =>
        have hd := hrest d rfl
        simp [hd]
    have htake : (decimal n ++ rest).takeWhile numeric = decimal n := by
      rw [takeWhile_append_of_pos hnumeric, hstop.1, append_nil]
    have hdrop : (decimal n ++ rest).dropWhile numeric = rest := by rw [dropWhile_append_of_pos hnumeric, hstop.2]
    rw [hcs, cons_append] at htake hdrop
    rw [hcs, cons_append, readValue, skipBlank_cons hblank]
    simp only [hc, if_true, htake, hdrop]

lemma sound_int (n : ℤ) : Sound 0 (int n) where
  plain := by
    intro c hc
    rcases mem_decimal hc with hdigit | rfl
    · have : '0'.val ≤ c.val := by
        rw [Char.isDigit, Bool.and_eq_true, decide_eq_true_iff] at hdigit
        exact hdigit.1
      have : 48 ≤ c.toNat := this
      omega
    · decide
  written := written_int n
  indented level := by
    rw [int, indent]
    exact written_int n
    all_goals simp

/-! ### Containers -/

section
variable (hws : Blanks ws)
include hws

variable (fuel : ℕ)

lemma readValue_blanks (cs : List Char) : readValue fuel (ws ++ cs) = readValue fuel cs := by
  cases fuel with
  | zero => rw [readValue, readValue]
  | succ fuel => rw [readValue, readValue, skipBlank_append hws]

lemma readItems_blanks (cs : List Char) : readItems fuel (ws ++ cs) = readItems fuel cs := by
  cases fuel with
  | zero => rw [readItems, readItems]
  | succ fuel => rw [readItems, readItems, readValue_blanks hws]

lemma readMembers_blanks (cs : List Char) : readMembers fuel (ws ++ cs) = readMembers fuel cs := by
  cases fuel with
  | zero => rw [readMembers, readMembers]
  | succ fuel => rw [readMembers, readMembers, skipBlank_append hws]

lemma head_blanks_append (hcs : ∀ c ∈ cs.head?, numeric c = false) : ∀ c ∈ (ws ++ cs).head?, numeric c = false := by
  cases ws with
  | nil => exact hcs
  | cons w ws =>
    rintro _ ⟨⟩
    exact numeric_of_blank (hws w mem_cons_self)

end

lemma forall_mem_of_forall₂ {α β : Type} {R : α → β → Prop} {P : α → Prop} (hP : ∀ a b, R a b → P a)
    {as : List α} {bs : List β} (h : List.Forall₂ R as bs) : ∀ a ∈ as, P a := by
  induction h with
  | nil => simp
  | cons hab _ ih => exact forall_mem_cons.mpr ⟨hP _ _ hab, ih⟩

section Layout
variable {sep colon fin : List Char} (hsep : Blanks sep) (hcolon : Blanks colon) (hfin : Blanks fin)
include hfin in
lemma head_itemsText (css : List (List Char)) (rest : List Char) :
    ∀ c ∈ (itemsText sep fin css ++ rest).head?, numeric c = false := by
  cases css with
  | nil =>
    rw [itemsText, append_assoc]
    exact head_blanks_append hfin (by simp [show numeric ']' = false by decide])
  | cons cs css => simp [itemsText, show numeric ',' = false by decide]

include hsep hfin in
lemma readItems_text (hv : Written depth cs v) {css : List (List Char)} {vs : List Json}
    (hvs : List.Forall₂ (Written depth) css vs) {fuel : ℕ}
    (hfuel : 2 * (cs ++ itemsText sep fin css).length ≤ fuel) (rest : List Char) :
    readItems fuel (cs ++ (itemsText sep fin css ++ rest)) = some (v :: vs, rest) := by
  induction hvs generalizing cs v fuel with
  | nil =>
    rw [itemsText, length_append, length_append, length_singleton] at hfuel
    obtain ⟨fuel, rfl⟩ : ∃ n, fuel = n + 1 := ⟨fuel - 1, by omega⟩
    rw [readItems, hv.reads fuel _ (by omega) (head_itemsText hfin [] rest), Option.bind_some]
    simp only [itemsText, append_assoc, skipBlank_append hfin]
    rfl
  | @cons ds w css ws hw _ ih =>
    rw [itemsText, length_append, length_cons, length_append] at hfuel
    obtain ⟨fuel, rfl⟩ : ∃ n, fuel = n + 1 := ⟨fuel - 1, by omega⟩
    rw [readItems, hv.reads fuel _ (by omega) (head_itemsText hfin _ rest), Option.bind_some]
    simp only [itemsText, cons_append, append_assoc]
    show (readItems fuel (sep ++ (ds ++ (itemsText sep fin css ++ rest)))).map _ = _
    rw [readItems_blanks hsep, ih hw (by omega)]
    rfl

variable (fuel : ℕ) (cs : List Char)

lemma readValue_bracket : readValue (fuel + 1) ('[' :: cs) =
      match skipBlank cs with
      | ']' :: rest => some (.arr [], rest)
      | rest => (readItems fuel rest).map (fun (vs, rest) => (.arr vs, rest)) := by
  rfl

include hsep hfin in
lemma written_arrayText {css : List (List Char)} {vs : List Json} (hvs : List.Forall₂ (Written depth) css vs) :
    Written (depth + 1) (arrayText sep fin css) (.arr vs) where
  runs := runs_arrayText hsep hfin (forall_mem_of_forall₂ (fun _ _ hv => hv.runs) hvs)
  reads := by
    intro fuel rest hfuel _
    cases hvs with
    | nil =>
      rw [arrayText] at hfuel ⊢
      obtain ⟨fuel, rfl⟩ : ∃ n, fuel = n + 1 := ⟨fuel - 1, by simp at hfuel; omega⟩
      exact readValue_bracket fuel _
    | @cons cs v css vs hv hvs =>
      obtain ⟨c, cs', rfl, hblank, hclose⟩ := hv.runs.head
      rw [arrayText, length_cons, length_append] at hfuel
      obtain ⟨fuel, rfl⟩ : ∃ n, fuel = n + 1 := ⟨fuel - 1, by omega⟩
      have hread := readItems_text hsep hfin hv hvs (show _ ≤ fuel by omega) rest
      simp only [arrayText, cons_append, append_assoc] at hread ⊢
      rw [readValue_bracket, skipBlank_append hsep, skipBlank_cons hblank]
      split
      · exact absurd (by assumption) fun h => hclose (List.cons.inj h).1
      · rw [hread]
        rfl

include hfin in
lemma head_membersText (ms : List (List Char × List Char)) (rest : List Char) :
    ∀ c ∈ (membersText sep colon fin ms ++ rest).head?, numeric c = false := by
  cases ms with
  | nil =>
    rw [membersText, append_assoc]
    exact head_blanks_append hfin (by simp [show numeric '\x7d' = false by decide])
  | cons m ms => simp [membersText, show numeric ',' = false by decide]

/-- The member of an object and its text. -/
def WrittenMember (depth : ℕ) (m : List Char × List Char) (kv : List Char × Json) : Prop :=
  m.1 = kv.1 ∧ SoundRaw kv.1 ∧ Written depth m.2 kv.2

include hcolon in
lemma readMembers_member {m : List Char × List Char} {kv : List Char × Json} (hm : WrittenMember depth m kv) {fuel : ℕ}
    (hfuel : 2 * m.2.length ≤ fuel) {rest : List Char} (hrest : ∀ c ∈ rest.head?, numeric c = false) :
    readMembers (fuel + 1) (memberText colon m rest) =
      match skipBlank rest with
      | ',' :: rest => (readMembers fuel rest).map fun (ms, rest) => (kv :: ms, rest)
      | '\x7d' :: rest => some ([kv], rest)
      | _ => none := by
  obtain ⟨k, v⟩ := kv
  obtain ⟨rfl, hk, hv⟩ := hm
  rw [memberText, readMembers, skipBlank_cons (by decide)]
  simp only [hk.read_quoted, Option.bind_some, skipBlank_cons (show blank ':' = false by decide)]
  simp only [readValue_blanks hcolon, hv.reads fuel rest hfuel hrest, Option.bind_some]

lemma memberText_append (m : List Char × List Char) (cs rest : List Char) :
    memberText colon m cs ++ rest = memberText colon m (cs ++ rest) := by
  simp [memberText]

include hsep hcolon hfin

variable {ms : List (List Char × List Char)} {kvs : List (List Char × Json)}

lemma readMembers_text {m : List Char × List Char} {kv : List Char × Json} (hm : WrittenMember depth m kv)
    (hms : List.Forall₂ (WrittenMember depth) ms kvs) {fuel : ℕ}
    (hfuel : 2 * (memberText colon m (membersText sep colon fin ms)).length ≤ fuel)
    (rest : List Char) :
    readMembers fuel (memberText colon m (membersText sep colon fin ms ++ rest)) = some (kv :: kvs, rest) := by
  induction hms generalizing m kv fuel with
  | nil =>
    simp only [memberText, membersText, length_cons, length_append] at hfuel
    obtain ⟨fuel, rfl⟩ : ∃ n, fuel = n + 1 := ⟨fuel - 1, by omega⟩
    rw [readMembers_member hcolon hm (by omega) (head_membersText hfin [] rest), membersText, append_assoc,
      skipBlank_append hfin]
    rfl
  | @cons m' kv' ms kvs hm' _ ih =>
    rw [memberText, membersText] at hfuel
    simp only [length_cons, length_append] at hfuel
    obtain ⟨fuel, rfl⟩ : ∃ n, fuel = n + 1 := ⟨fuel - 1, by omega⟩
    rw [readMembers_member hcolon hm (by omega) (head_membersText hfin _ rest), membersText]
    simp only [cons_append, append_assoc, memberText_append]
    show (readMembers fuel (sep ++ memberText colon m' (membersText sep colon fin ms ++ rest))).map _ = _
    rw [readMembers_blanks hsep, ih hm' (by omega)]
    rfl

omit hsep hcolon hfin in
lemma readValue_brace : readValue (fuel + 1) ('\x7b' :: cs) =
      match skipBlank cs with
      | '\x7d' :: rest => some (.obj [], rest)
      | rest => (readMembers fuel rest).map (fun (ms, rest) => (.obj ms, rest)) := by
  rfl

lemma written_objectText (hms : List.Forall₂ (WrittenMember depth) ms kvs) :
    Written (depth + 1) (objectText sep colon fin ms) (.obj kvs) where
  runs := runs_objectText hsep hcolon hfin
    (forall_mem_of_forall₂ (fun _ _ hm => ⟨hm.1 ▸ hm.2.1.runs, hm.2.2.runs⟩) hms)
  reads := by
    intro fuel rest hfuel _
    cases hms with
    | nil =>
      rw [objectText] at hfuel ⊢
      obtain ⟨fuel, rfl⟩ : ∃ n, fuel = n + 1 := ⟨fuel - 1, by simp at hfuel; omega⟩
      exact readValue_brace fuel _
    | @cons m kv ms kvs hm hms =>
      rw [objectText, length_cons, length_append] at hfuel
      obtain ⟨fuel, rfl⟩ : ∃ n, fuel = n + 1 := ⟨fuel - 1, by omega⟩
      have hread := readMembers_text hsep hcolon hfin hm hms (show _ ≤ fuel by omega) rest
      rw [objectText, cons_append, append_assoc, memberText_append, readValue_brace, skipBlank_append hsep]
      show (readMembers fuel (memberText colon m _)).map _ = _
      rw [hread]
      rfl

end Layout

lemma sound_arr {vs : List Json} (hvs : ∀ v ∈ vs, Sound depth v) : Sound (depth + 1) (.arr vs) where
  plain := by
    have hitems : ∀ c ∈ encodeItems vs, 0x20 ≤ c.toNat := by
      induction vs with
      | nil =>
        rw [encodeItems]
        simp
      | cons v vs ih =>
        obtain ⟨hv, hvs⟩ := forall_mem_cons.mp hvs
        rw [encodeItems, forall_mem_cons, forall_mem_append]
        exact ⟨by decide, hv.plain, ih hvs⟩
    cases vs with
    | nil =>
      rw [encode]
      simp
    | cons v vs =>
      -- An array differs from its further items in the first character only.
      rw [encodeItems, forall_mem_cons] at hitems
      rw [encode, forall_mem_cons]
      exact ⟨by decide, hitems.2⟩
  written := by
    rw [encode_arr]
    refine written_arrayText blanks_nil blanks_nil (List.forall₂_map_left_iff.mpr ?_)
    exact List.forall₂_same.mpr fun v hv => (hvs v hv).written
  indented level := by
    rw [indent, indentItems_eq]
    refine written_arrayText (blanks_lineBreak _) (blanks_lineBreak _) (List.forall₂_map_left_iff.mpr ?_)
    exact List.forall₂_same.mpr fun v hv => (hvs v hv).indented _

lemma sound_obj {ms : List (List Char × Json)} (hms : ∀ kv ∈ ms, SoundRaw kv.1 ∧ Sound depth kv.2) :
    Sound (depth + 1) (.obj ms) where
  plain := by
    have hmembers : ∀ c ∈ encodeMembers ms, 0x20 ≤ c.toNat := by
      induction ms with
      | nil =>
        rw [encodeMembers]
        simp
      | cons kv ms ih =>
        obtain ⟨⟨hk, hv⟩, hms⟩ := forall_mem_cons.mp hms
        rw [encodeMembers]
        simp only [forall_mem_cons, forall_mem_append]
        exact ⟨by decide, by decide, hk.plain, by decide, by decide, hv.plain, ih hms⟩
    cases ms with
    | nil =>
      rw [encode]
      simp
    | cons kv ms =>
      -- An object differs from its further members in the first character only.
      rw [encodeMembers, forall_mem_cons] at hmembers
      rw [encode, forall_mem_cons]
      exact ⟨by decide, hmembers.2⟩
  written := by
    rw [encode_obj]
    refine written_objectText blanks_nil blanks_nil blanks_nil (List.forall₂_map_left_iff.mpr ?_)
    exact List.forall₂_same.mpr fun kv hkv => ⟨rfl, (hms kv hkv).1, (hms kv hkv).2.written⟩
  indented level := by
    rw [indent, indentMembers_eq]
    refine written_objectText (blanks_lineBreak _) (by simp [Blanks, blank]) (blanks_lineBreak _)
      (List.forall₂_map_left_iff.mpr ?_)
    exact List.forall₂_same.mpr fun kv hkv => ⟨rfl, (hms kv hkv).1, (hms kv hkv).2.indented _⟩

lemma Written.parse (h : Written depth cs v) : parse cs = some v := by
  have hread := h.reads (2 * cs.length) [] (Nat.le_refl _) (by simp)
  rw [append_nil] at hread
  rw [Json.parse, hread]
  rfl

end DeliveryEngine.Go.Json
