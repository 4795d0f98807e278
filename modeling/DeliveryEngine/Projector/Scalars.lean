import DeliveryEngine.Projector.Render

/-!
# The scalars of the document

`yamlScalar` writes a double-quoted scalar and escapes the quote and nothing else.  The document is read with
gopkg.in/yaml.v3, which is not part of the repository: `ScalarDecoder` says what is assumed of it.  Such a decoder
reads a value back exactly when the value has no backslash, no line break and nothing that YAML refuses
(`decode_yamlPieces_iff`; of three characters nothing is assumed); a value that ends in a backslash takes in the quote and what follows it.
-/

namespace DeliveryEngine.Projector

open List Option

/-! ## Strings of any bytes -/

/-- A part of a Go string: a character, or a byte that belongs to none. -/
inductive Piece
  | char (c : Char)
  | stray (b : UInt8)
  deriving DecidableEq

namespace Piece

abbrev quote : Piece := char '"'

abbrev backslash : Piece := char '\\'

variable (x : Piece)

/-- A YAML stream may hold it. -/
def Legible : Prop :=
  match x with
  | char c => c = '\t' ∨ c = '\n' ∨ c = '\r' ∨ (' ' ≤ c ∧ c ≤ '~') ∨ c = '\u0085' ∨
      ('\u00a0' ≤ c ∧ c ≤ '\ufffd' ∧ c ≠ '\ufeff') ∨ 0x10000 ≤ c.toNat
  | stray _ => False

instance : Decidable x.Legible := match x with
  | char c => inferInstanceAs (Decidable (c = _ ∨ _))
  | stray _ => instDecidableFalse

/-- White space within a line. -/
def Blank : Prop := x = char ' ' ∨ x = char '\t'

instance : DecidablePred Blank := fun _ => instDecidableOr

/-- A line break that is read as a line feed: line feed, carriage return, next line. -/
def Breaks : Prop := x = char '\n' ∨ x = char '\r' ∨ x = char '\u0085'

instance : DecidablePred Breaks := fun _ => instDecidableOr

/-- A line or paragraph separator or a byte order mark: what becomes of it depends on what stands around it, and
nothing is assumed here. -/
def Unsettled : Prop := x = char '\u2028' ∨ x = char '\u2029' ∨ x = char '\ufeff'

instance : DecidablePred Unsettled := fun _ => instDecidableOr

/-- Nothing but a quote has to be done to it in a double-quoted scalar. -/
def Verbatim : Prop := x.Legible ∧ ¬ x.Breaks ∧ x ≠ backslash

instance : DecidablePred Verbatim := fun _ => instDecidableAnd

end Piece

open Piece

/-- The characters of a string. -/
def pieces (s : String) : List Piece := s.toList.map char

/-- What `yamlScalar` puts between the quotes. -/
def escaped (v : List Piece) : List Piece := v.flatMap fun x => if x = quote then [backslash, quote] else [x]

/-- `yamlScalar` on a string of any bytes. -/
def yamlPieces (v : List Piece) : List Piece := if v = [] then [quote, quote] else quote :: (escaped v ++ [quote])

lemma pieces_yamlScalar (v : String) : pieces (yamlScalar v) = yamlPieces (pieces v) := by
  have hescaped : (v.toList.flatMap fun c => if c = '"' then ['\\', '"'] else [c]).map char = escaped (pieces v) := by
    rw [escaped, pieces, flatMap_map, map_flatMap]
    congr 1
    funext c
    by_cases hc : c = '"' <;> simp [hc, quote]
  by_cases hv : v = ""
  · simp [hv, yamlScalar, yamlPieces, pieces]
  · have hpieces : pieces v ≠ [] := by simpa [pieces] using hv
    rw [yamlScalar, if_neg hv, yamlPieces, if_neg hpieces, ← hescaped]
    simp [pieces]

/-! ## The decoder -/

/-- The text up to `rest` is longer than the value read from it, not counting its quotes: the closing quote stands for
nothing, and an escaped quote has a backslash. -/
def Shrinks (text value rest : List Piece) : Prop := ∃ p, text = p ++ rest ∧ value.length + p.count quote < p.length

/-- A value that begins with a piece. -/
def starting (x : Piece) : Option (List Piece × List Piece) → Option (List Piece × List Piece) :=
  Option.map (Prod.map (cons x) id)

/-- What is assumed of the library that reads the double-quoted scalars. -/
structure ScalarDecoder where
  /-- Read on from behind the opening quote: the value, and the text behind the closing quote. -/
  read : List Piece → Option (List Piece × List Piece)
  closes {rest : List Piece} : (∀ x ∈ rest, x.Legible) → read (quote :: rest) = some ([], rest)
  escapedQuote {t : List Piece} : (∀ x ∈ t, x.Legible) → read (backslash :: quote :: t) = starting quote (read t)
  plain {x : Piece} {t : List Piece} : (∀ x ∈ t, x.Legible) → x.Verbatim → ¬ x.Unsettled → ¬ x.Blank → x ≠ quote →
    read (x :: t) = starting x (read t)
  /-- White space stays unless the line ends with it. -/
  blank {x : Piece} {t : List Piece} : (∀ x ∈ t, x.Legible) → x.Blank →
    (∀ y ∈ (t.dropWhile (Blank ·)).head?, ¬ y.Breaks ∧ ¬ y.Unsettled) → read (x :: t) = starting x (read t)
  /-- What may not be in a stream is refused. -/
  refuses {t v rest : List Piece} : read t = some (v, rest) → ∃ p, t = p ++ rest ∧ ∀ x ∈ p, x.Legible ∨ x.Unsettled
  /-- An escape sequence stands for one character at most. -/
  escape {t v rest : List Piece} : t.head? ≠ some quote → read (backslash :: t) = some (v, rest) →
    Shrinks (backslash :: t) v rest
  /-- A line break is folded: a single one into a space, and of several the first is dropped.  White space before it
  is dropped. -/
  fold {blanks t v rest : List Piece} {x : Piece} : (∀ y ∈ blanks, y.Blank) → x.Breaks →
    read (blanks ++ x :: t) = some (v, rest) → ¬ blanks ++ [x] <+: v ∨ Shrinks (blanks ++ x :: t) v rest

namespace ScalarDecoder

variable (D : ScalarDecoder)

/-- Read a double-quoted scalar. -/
def decode : List Piece → Option (List Piece × List Piece)
  | [] => none
  | x :: t => if x = quote then D.read t else none

end ScalarDecoder

/-! ## Reading back -/

variable {v rest : List Piece} {x : Piece}

@[simp] lemma starting_eq_some {t : Option (List Piece × List Piece)} :
    starting x t = some (x :: v, rest) ↔ t = some (v, rest) := by
  simp [starting, map_eq_some_iff]

lemma escaped_cons : escaped (x :: v) = (if x = quote then [backslash, quote] else [x]) ++ escaped v := flatMap_cons

lemma escaped_cons_of_ne (hx : x ≠ quote) : escaped (x :: v) = x :: escaped v := by
  rw [escaped_cons, if_neg hx, singleton_append]

lemma blank_ne_quote (hx : x.Blank) : x ≠ quote := by
  rintro rfl
  exact absurd hx (by decide)

lemma mem_escaped {y : Piece} (hy : y ∈ escaped v) : y = backslash ∨ y ∈ v := by
  obtain ⟨x, hx, hyx⟩ := mem_flatMap.mp hy
  split_ifs at hyx with hquote
  · subst hquote
    rcases mem_pair.mp hyx with rfl | rfl
    · exact .inl rfl
    · exact .inr hx
  · rw [mem_singleton.mp hyx]
    exact .inr hx

lemma mem_escaped_of_mem (hx : x ∈ v) : x ∈ escaped v := by
  refine mem_flatMap.mpr ⟨x, hx, ?_⟩
  split_ifs with hquote <;> simp [hquote]

lemma escaped_measure : (escaped v).length = v.length + v.count quote ∧ (escaped v).count quote = v.count quote := by
  induction v with
  | nil => exact ⟨rfl, rfl⟩
  | cons x v ih =>
    rw [escaped_cons]
    by_cases hx : x = quote
    · subst hx
      simp [ih]
      omega
    · simp [hx, ih]
      omega

lemma not_shrinks : ¬ Shrinks (escaped v ++ quote :: rest) v rest := by
  rintro ⟨p, hp, hlt⟩
  have htext : escaped v ++ [quote] = p := by
    rw [append_cons] at hp
    exact append_cancel_right hp
  obtain ⟨hlength, hcount⟩ := escaped_measure (v := v)
  rw [← htext, length_append, count_append, length_singleton, count_singleton_self] at hlt
  omega

lemma dropWhile_escaped : (escaped v ++ quote :: rest).dropWhile (Blank ·) =
    escaped (v.dropWhile (Blank ·)) ++ quote :: rest := by
  induction v with
  | nil => rfl
  | cons x v ih =>
    by_cases hx : x.Blank
    · rw [escaped_cons_of_ne (blank_ne_quote hx)]
      simp [hx, ih]
    · rw [dropWhile_cons, if_neg (by simpa using hx), escaped_cons]
      split_ifs with hquote
      · rfl
      · rw [singleton_append, cons_append, dropWhile_cons, if_neg (by simpa using hx)]

lemma head_escaped {y : Piece} (hy : y ∈ (escaped v ++ quote :: rest).head?) :
    y = quote ∨ y = backslash ∨ y ∈ v.head? := by
  cases v with
  | nil => exact .inl (some.inj hy).symm
  | cons x v =>
    rw [escaped_cons] at hy
    split_ifs at hy
    · exact .inr (.inl (some.inj hy).symm)
    · exact .inr (.inr hy)

lemma escaped_of_blanks {blanks : List Piece} (h : ∀ y ∈ blanks, y.Blank) (v : List Piece) :
    escaped (blanks ++ v) = blanks ++ escaped v := by
  induction blanks with
  | nil => rfl
  | cons y blanks ih =>
    obtain ⟨hy, hblanks⟩ := forall_mem_cons.mp h
    rw [cons_append, escaped_cons_of_ne (blank_ne_quote hy), ih hblanks, cons_append]

lemma ScalarDecoder.read_break (D : ScalarDecoder) {blanks : List Piece} (hblanks : ∀ y ∈ blanks, y.Blank)
    (hx : x.Breaks) :
    D.read (escaped (blanks ++ x :: v) ++ quote :: rest) ≠ some (blanks ++ x :: v, rest) := by
  intro hread
  have hquote : x ≠ quote := by
    rintro rfl
    exact absurd hx (by decide)
  have htext : escaped (blanks ++ x :: v) ++ quote :: rest = blanks ++ x :: (escaped v ++ quote :: rest) := by
    rw [escaped_of_blanks hblanks, escaped_cons_of_ne hquote, append_assoc, cons_append]
  rcases D.fold hblanks hx (htext ▸ hread) with hprefix | hshrinks
  · exact hprefix ⟨v, by simp⟩
  · exact not_shrinks (htext ▸ hshrinks)

lemma ScalarDecoder.read_backslash (D : ScalarDecoder) (hrest : ∀ x ∈ rest, x.Legible) :
    D.read (escaped (backslash :: v) ++ quote :: rest) ≠ some (backslash :: v, rest) := by
  intro hread
  cases v with
  | nil =>
    -- The backslash escapes the closing quote.
    have hescaped : D.read (backslash :: quote :: rest) = some ([backslash], rest) := hread
    rw [D.escapedQuote hrest, starting, map_eq_some_iff] at hescaped
    obtain ⟨⟨w, r⟩, -, hvalue⟩ := hescaped
    exact absurd (cons.inj (Prod.mk.inj hvalue).1).1 (by decide)
  | cons x v =>
    have hhead : (escaped (x :: v) ++ quote :: rest).head? ≠ some quote := by
      rw [escaped_cons]
      split_ifs with hx <;> simp [hx]
    have hshrinks : Shrinks (escaped (backslash :: x :: v) ++ quote :: rest) (backslash :: x :: v) rest := by
      exact D.escape hhead hread
    exact not_shrinks hshrinks

lemma legible_escaped (hrest : ∀ x ∈ rest, x.Legible) (hv : ∀ x ∈ v, x.Legible) :
    ∀ x ∈ escaped v ++ quote :: rest, x.Legible := by
  refine forall_mem_append.mpr ⟨fun x hx => ?_, forall_mem_cons.mpr ⟨by decide, hrest⟩⟩
  rcases mem_escaped hx with rfl | hx
  · decide
  · exact hv x hx

/-- Of a legible and settled value exactly the verbatim pieces are read back. -/
lemma ScalarDecoder.read_escaped_iff (D : ScalarDecoder) (hrest : ∀ x ∈ rest, x.Legible)
    (hlegible : ∀ x ∈ v, x.Legible) (hsettled : ∀ x ∈ v, ¬ x.Unsettled) :
    D.read (escaped v ++ quote :: rest) = some (v, rest) ↔ ∀ x ∈ v, x.Verbatim := by
  induction v with
  | nil => simp [escaped, D.closes hrest]
  | cons x v ih =>
    obtain ⟨hx, hv⟩ := forall_mem_cons.mp hlegible
    obtain ⟨hxs, hvs⟩ := forall_mem_cons.mp hsettled
    have ih := ih hv hvs
    have htail := legible_escaped hrest hv
    rw [forall_mem_cons]
    by_cases hbackslash : x = backslash
    · subst hbackslash
      exact iff_of_false (D.read_backslash hrest) fun h => h.1.2.2 rfl
    by_cases hbreaks : x.Breaks
    · have hnone : ∀ y ∈ ([] : List Piece), y.Blank := by simp
      exact iff_of_false (D.read_break hnone hbreaks) fun h => h.1.2.1 hbreaks
    have hverbatim : x.Verbatim := ⟨hx, hbreaks, hbackslash⟩
    have hkept : D.read (escaped (x :: v) ++ quote :: rest) = starting x (D.read (escaped v ++ quote :: rest)) →
        (D.read (escaped (x :: v) ++ quote :: rest) = some (x :: v, rest) ↔ x.Verbatim ∧ ∀ x ∈ v, x.Verbatim) := by
      intro hread
      rw [hread, starting_eq_some, ih, and_iff_right hverbatim]
    by_cases hquote : x = quote
    · subst hquote
      exact hkept (D.escapedQuote htail)
    have htext : escaped (x :: v) ++ quote :: rest = x :: (escaped v ++ quote :: rest) := by
      rw [escaped_cons_of_ne hquote, cons_append]
    by_cases hblank : x.Blank
    · by_cases hfolds : ∃ y ∈ (v.dropWhile (Blank ·)).head?, y.Breaks
      · obtain ⟨y, hy, hbreaks⟩ := hfolds
        obtain ⟨w, hw⟩ := head?_eq_some_iff.mp hy
        have hrun : x :: v = x :: v.takeWhile (Blank ·) ++ y :: w := by
          rw [← hw, cons_append, takeWhile_append_dropWhile]
        refine iff_of_false ?_ fun h => (h.2 y ?_).2.1 hbreaks
        · rw [hrun]
          refine D.read_break (forall_mem_cons.mpr ⟨hblank, fun z hz => ?_⟩) hbreaks
          simpa using mem_takeWhile_imp hz
        · exact ( dropWhile_suffix _).subset (hw ▸ mem_cons_self)
      · refine hkept (htext ▸ D.blank htail hblank fun y hy => ?_)
        rw [dropWhile_escaped] at hy
        rcases head_escaped hy with rfl | rfl | hy
        · decide
        · decide
        · exact ⟨fun h => hfolds ⟨y, hy, h⟩, hvs y (( dropWhile_suffix _).subset (mem_of_mem_head? hy))⟩
    · exact hkept (htext ▸ D.plain htail hverbatim hxs hblank hquote)

/-- A rendered scalar reads back, whatever follows it, exactly when the value has no backslash, no line break and
nothing that a YAML stream may not hold. -/
theorem decode_yamlPieces_iff (D : ScalarDecoder) (v rest : List Piece) (hsettled : ∀ x ∈ v, ¬ x.Unsettled)
    (hrest : ∀ x ∈ rest, x.Legible) :
    D.decode (yamlPieces v ++ rest) = some (v, rest) ↔ ∀ x ∈ v, x.Legible ∧ ¬ x.Breaks ∧ x ≠ backslash := by
  have htext : D.decode (yamlPieces v ++ rest) = D.read (escaped v ++ quote :: rest) := by
    rw [yamlPieces]
    split_ifs with hv
    · rw [hv]
      rfl
    · rw [cons_append, append_assoc]
      rfl
  rw [htext]
  refine ⟨fun hread => ?_, fun h => ?_⟩
  · obtain ⟨p, hp, hlegible⟩ := D.refuses hread
    rw [append_cons] at hp
    obtain rfl := append_cancel_right hp
    have hlegible : ∀ x ∈ v, x.Legible := fun x hx =>
      (hlegible x (mem_append_left _ (mem_escaped_of_mem hx))).resolve_right (hsettled x hx)
    exact (D.read_escaped_iff hrest hlegible hsettled).mp hread
  · exact (D.read_escaped_iff hrest (fun x hx => (h x hx).1) hsettled).mpr h

/-! ## A decoder -/

/-- Read a scalar with no escape but that of the quote, from behind a backslash or not. -/
def readStrictly : Bool → List Piece → Option (List Piece × List Piece)
  | _, [] => none
  | true, x :: t => if x = quote then starting quote (readStrictly false t) else none
  | false, x :: t =>
    if x = quote then some ([], t)
    else if x = backslash then readStrictly true t
    else if x.Verbatim then starting x (readStrictly false t) else none

lemma readStrictly_legible {escape : Bool} {t : List Piece} (h : readStrictly escape t = some (v, rest)) :
    ∃ p, t = p ++ rest ∧ ∀ x ∈ p, x.Legible := by
  have hcons : ∀ {x : Piece} {t : List Piece}, x.Legible → (∃ p, t = p ++ rest ∧ ∀ x ∈ p, x.Legible) →
      ∃ p, x :: t = p ++ rest ∧ ∀ x ∈ p, x.Legible := by
    rintro x t hx ⟨p, rfl, hp⟩
    exact ⟨x :: p, rfl, forall_mem_cons.mpr ⟨hx, hp⟩⟩
  fun_induction readStrictly escape t generalizing v with
  | case1 | case3 | case7 => cases h
  | case2 t ih =>
    obtain ⟨⟨w, r⟩, hread, hvalue⟩ := map_eq_some_iff.mp h
    obtain ⟨rfl, rfl⟩ := Prod.mk.inj hvalue
    exact hcons (by decide) (ih hread)
  | case4 t => exact hcons (by decide) ⟨[], (Prod.mk.inj (some.inj h)).2, nofun⟩
  | case5 t _ ih => exact hcons (by decide) (ih h)
  | case6 x t _ _ hx ih =>
    obtain ⟨⟨w, r⟩, hread, hvalue⟩ := map_eq_some_iff.mp h
    obtain ⟨rfl, rfl⟩ := Prod.mk.inj hvalue
    exact hcons hx.1 (ih hread)

lemma readStrictly_verbatim {t : List Piece} (hx : x.Verbatim) (hquote : x ≠ quote) :
    readStrictly false (x :: t) = starting x (readStrictly false t) := by
  rw [readStrictly, if_neg hquote, if_neg hx.2.2, if_pos hx]

lemma blank_verbatim (hx : x.Blank) : x.Verbatim := by
  rcases hx with rfl | rfl <;> decide

lemma readStrictly_breaks {blanks t : List Piece} (hblanks : ∀ y ∈ blanks, y.Blank) (hx : x.Breaks) :
    readStrictly false (blanks ++ x :: t) = none := by
  induction blanks with
  | nil => rcases hx with rfl | rfl | rfl <;> rfl
  | cons y blanks ih =>
    obtain ⟨hy, hblanks⟩ := forall_mem_cons.mp hblanks
    rw [cons_append, readStrictly_verbatim (blank_verbatim hy) (blank_ne_quote hy), ih hblanks]
    rfl

/-- A decoder that refuses escape sequences and line breaks. -/
def strictDecoder : ScalarDecoder where
  read := readStrictly false
  closes _ := rfl
  escapedQuote _ := rfl
  plain _ hx _ _ hquote := readStrictly_verbatim hx hquote
  blank _ hx _ := readStrictly_verbatim (blank_verbatim hx) (blank_ne_quote hx)
  refuses hread := (readStrictly_legible hread).imp fun _ hp => ⟨hp.1, fun x hx => .inl (hp.2 x hx)⟩
  escape {t} _ _ hhead hread := by
    rw [readStrictly, if_neg (by decide), if_pos rfl] at hread
    cases t with
    | nil => cases hread
    | cons y t => rw [readStrictly, if_neg fun h => hhead (congrArg some h)] at hread; cases hread
  fold hblanks hx hread := by
    rw [readStrictly_breaks hblanks hx] at hread
    cases hread

theorem decode_yamlPieces_iff_quoted :
    strictDecoder.decode (yamlPieces (pieces "say \"hi\"") ++ pieces "\n") = some (pieces "say \"hi\"", pieces "\n") :=
  (decode_yamlPieces_iff strictDecoder (pieces "say \"hi\"") (pieces "\n") (by decide) (by decide)).mpr (by decide)

/-- A title that ends in a backslash takes in the closing quote and goes on in the next field. -/
lemma decode_backslash (D : ScalarDecoder) (hrest : ∀ x ∈ rest, x.Legible) :
    D.decode (pieces (yamlScalar "a\\") ++ rest) = starting (char 'a') (starting quote (D.read rest)) := by
  have htext : pieces (yamlScalar "a\\") = [quote, char 'a', backslash, quote] := by
    rw [pieces_yamlScalar]
    decide
  have hlegible : ∀ x ∈ backslash :: quote :: rest, x.Legible := by simpa using ⟨by decide, by decide, hrest⟩
  rw [htext, ← D.escapedQuote hrest]
  exact D.plain hlegible (by decide) (by decide) (by decide) (by decide)

/-- There are decoders, and none reads the title back. -/
theorem yamlScalar_injects : Nonempty ScalarDecoder ∧ ¬ ∃ D : ScalarDecoder,
    D.decode (pieces (yamlScalar "a\\") ++ pieces "\n    status: \"merged\"\n") =
      some (pieces "a\\", pieces "\n    status: \"merged\"\n") := by
  refine ⟨⟨strictDecoder⟩, ?_⟩
  rintro ⟨D, h⟩
  rw [decode_backslash D (by decide), show pieces "a\\" = [char 'a', backslash] from rfl, starting_eq_some, starting,
    map_eq_some_iff] at h
  obtain ⟨⟨value, after⟩, -, hvalue⟩ := h
  exact absurd (cons.inj (Prod.mk.inj hvalue).1).1 (by decide)

end DeliveryEngine.Projector
