import DeliveryEngine.Go.Json.Read
import DeliveryEngine.Go.Rfc3339
import DeliveryEngine.Go.Vocabulary

/-!
# How Go values are written and read as JSON

A `Codec` says how `json.Marshal` writes the values of a type, which may fail, and how `json.Unmarshal` reads one into
a variable that already holds a value.  A struct is read member by member: a member that names no field is ignored,
and names are compared without regard to case when none matches exactly.  `Faithful` says that a value is read back.
-/

namespace DeliveryEngine.Go.Json

open List Option

/-- How the values of a type are written, and read over a value. -/
structure Codec (α : Type) where
  /-- The zero value. -/
  zero : α
  encode : α → Option Json
  decode : α → Json → Option α

/-- The value is read back from what it is written as, over the zero value, and what it is written as
can be read. -/
def Codec.Faithful {α : Type} (c : Codec α) (depth : ℕ) (x : α) : Prop :=
  ∀ j, c.encode x = some j → Sound depth j ∧ c.decode c.zero j = some x

variable {α : Type} {depth : ℕ} {c : Codec α}

lemma Codec.Faithful.mono {depth' : ℕ} (hle : depth ≤ depth') {x : α} (h : c.Faithful depth x) :
    c.Faithful depth' x :=
  fun j hj => ⟨(h j hj).1.mono hle, (h j hj).2⟩

/-! ## Texts, numbers and instants -/

/-- A string type.  A null leaves the variable as it was, here and for numbers and instants. -/
def textCodec {α : Type} (toText : α → String) (ofText : String → α) : Codec α where
  zero := ofText ""
  encode x := some (text (toText x))
  decode cur
    | .null => some cur
    | .str raw => some (ofText (String.ofList (unquote raw)))
    | _ => none

lemma faithful_text {toText : α → String} {ofText : String → α} (h : ∀ x, ofText (toText x) = x)
    (x : α) : (textCodec toText ofText).Faithful 0 x := by
  rintro _ ⟨⟩
  refine ⟨sound_text _, ?_⟩
  show some (ofText (String.ofList (unquote (escape (toText x))))) = some x
  rw [unquote_escape, String.ofList_toList, h]

/-- `string`. -/
def stringCodec : Codec String := textCodec id id

lemma faithful_string (s : String) : stringCodec.Faithful 0 s := faithful_text (fun _ => rfl) s

/-- A string type with declared constants. -/
def namedCodec (V : Type) [Vocabulary V] : Codec (Named V) := textCodec Named.text Named.ofText

lemma faithful_named {V : Type} [Vocabulary V] (x : Named V) : (namedCodec V).Faithful 0 x :=
  faithful_text Named.ofText_text x

/-- `int` and `int64`. -/
def intCodec : Codec ℤ where
  zero := 0
  encode n := some (int n)
  decode cur
    | .null => some cur
    | .num literal => parseInt literal
    | _ => none

lemma faithful_int {n : ℤ} (hn : IsInt64 n) : intCodec.Faithful 0 n := by
  rintro _ ⟨⟩
  exact ⟨sound_int n, parseInt_decimal hn⟩

/-- `time.Time`.  An instant is read from the text as it is spelled, without regard to escapes. -/
def timeCodec : Codec Time where
  zero := Time.zero
  encode t := if t.hasFourDigitYear then some (.str t.rfc3339Nano.toList) else none
  decode cur
    | .null => some cur
    | .str raw => Time.parseRFC3339 raw
    | _ => none

variable (t : Time)

lemma ordinary_rfc3339Nano : Ordinary t.rfc3339Nano.toList := by
  intro c hc
  rcases t.mem_rfc3339Nano c hc with hdigit | hmem
  · have hge : 48 ≤ c.toNat := by
      rw [Char.isDigit, Bool.and_eq_true, decide_eq_true_iff] at hdigit
      exact hdigit.1
    exact ⟨by omega, ne_of_isDigit hdigit (by decide), ne_of_isDigit hdigit (by decide)⟩
  · have hall : ∀ c ∈ ['-', 'T', ':', '.', 'Z'], 0x20 ≤ c.toNat ∧ c ≠ '"' ∧ c ≠ '\\' := by simp
    exact hall c hmem

lemma faithful_time : timeCodec.Faithful 0 t := by
  intro j hj
  simp only [timeCodec] at hj
  split_ifs at hj with hyear
  cases hj
  exact ⟨sound_str (ordinary_rfc3339Nano t).soundRaw, Time.parse_rfc3339Nano hyear⟩

lemma isSome_encode_time : (timeCodec.encode t).isSome = t.hasFourDigitYear := by
  cases hyear : t.hasFourDigitYear <;> simp [timeCodec, hyear]

/-! ## Slices and pointers -/

section Containers
variable (c : Codec α)

/-- The items of an array, each read over the item that was there. -/
def decodeItems : List α → List Json → Option (List α)
  | _, [] => some []
  | cur, j :: js => (c.decode (cur.headD c.zero) j).bind (fun x => (decodeItems cur.tail js).map (x :: ·))

/-- A slice.  No slice and an empty one are not told apart. -/
def sliceCodec : Codec (List α) where
  zero := []
  encode xs := (xs.mapM c.encode).map .arr
  decode cur
    | .null => some []
    | .arr items => decodeItems c cur items
    | _ => none

/-- A pointer, to a new variable if there was none. -/
def pointerCodec : Codec (Option α) where
  zero := none
  encode
    | none => some .null
    | some x => c.encode x
  decode cur
    | .null => some none
    | j => (c.decode (cur.getD c.zero) j).map some

variable {c}

lemma faithful_slice {xs : List α} (hxs : ∀ x ∈ xs, c.Faithful depth x) :
    (sliceCodec c).Faithful (depth + 1) xs := by
  intro j hj
  obtain ⟨items, hitems, rfl⟩ := map_eq_some_iff.mp hj
  have hboth : (∀ v ∈ items, Sound depth v) ∧ decodeItems c [] items = some xs := by
    clear hj
    induction xs generalizing items with
    | nil =>
      cases hitems
      exact ⟨by simp, rfl⟩
    | cons x xs ih =>
      obtain ⟨hx, hxs⟩ := forall_mem_cons.mp hxs
      simp only [mapM_cons, Option.pure_def, bind_eq_bind, bind_eq_some_iff] at hitems
      obtain ⟨v, hv, vs, hvs, hcons⟩ := hitems
      cases hcons
      obtain ⟨hsound, hdecode⟩ := hx v hv
      obtain ⟨hall, hrest⟩ := ih hxs vs hvs
      refine ⟨forall_mem_cons.mpr ⟨hsound, hall⟩, ?_⟩
      rw [decodeItems, headD_nil, hdecode, tail_nil, hrest]
      rfl
  exact ⟨sound_arr hboth.1, hboth.2⟩

lemma faithful_pointer {x : α} (hnull : c.encode x ≠ some .null) (hx : c.Faithful depth x) :
    (pointerCodec c).Faithful depth (some x) := by
  intro j hj
  obtain ⟨hsound, hdecode⟩ := hx j hj
  refine ⟨hsound, ?_⟩
  cases j with
  | null => exact absurd hj hnull
  | _ =>
    show (c.decode c.zero _).map some = _
    rw [hdecode]
    rfl

lemma isSome_encode_slice (xs : List α) :
    ((sliceCodec c).encode xs).isSome = xs.all (fun x => (c.encode x).isSome) := by
  rw [sliceCodec]
  induction xs with
  | nil => rfl
  | cons x xs ih =>
    rw [all_cons, ← ih]
    cases hx : c.encode x <;> simp [hx, isSome_bind]

end Containers

/-! ## Structs -/

/-- A field of a struct: when it is left out, how it is written, and how a member is read into it.
`copy s t` is `t` with this field of `s`. -/
structure StructField (S : Type) where
  name : String
  omitted : S → Bool
  encode : S → Option Json
  decode : S → Json → Option S
  copy : S → S → S

section Struct
variable {S : Type}

def StructField.of {α : Type} (name : String) (c : Codec α) (omitted : α → Bool) (get : S → α)
    (set : S → α → S) : StructField S where
  name := name
  omitted s := omitted (get s)
  encode s := c.encode (get s)
  decode s j := (c.decode (get s) j).map (set s)
  copy s t := set t (get s)

/-- A name without regard to case. -/
def foldName (name : List Char) : List Char :=
  name.map (fun c => if c = '\u017f' then 'S' else if c = '\u212a' then 'K' else c.toUpper)

/-- The field a member is read into. -/
def findField (fields : List (StructField S)) (key : List Char) : Option (StructField S) :=
  (fields.find? (·.name.toList = key)).orElse
    (fun _ => fields.find? (fun f => foldName f.name.toList = foldName key))

variable {f : StructField S} {fields : List (StructField S)}

lemma mem_of_findField {key : List Char} (h : findField fields key = some f) : f ∈ fields := by
  unfold findField at h
  cases hexact : fields.find? (·.name.toList = key) with
  | some g =>
    rw [hexact] at h
    cases h
    exact mem_of_find?_eq_some hexact
  | none =>
    rw [hexact] at h
    exact mem_of_find?_eq_some h

/-- The members a struct is written as. -/
def encodeFields? (fields : List (StructField S)) (s : S) : Option (List (List Char × Json)) :=
  (fields.filter (fun f => !f.omitted s)).mapM (fun f => (f.encode s).map (fun v => (f.name.toList, v)))

def decodeMember (fields : List (StructField S)) (s : S) (m : List Char × Json) : Option S :=
  match findField fields (unquote m.1) with
  | none => some s
  | some f => f.decode s m.2

/-- Read a member into a struct, and refuse one that names no field. -/
def decodeKnown (fields : List (StructField S)) (s : S) (m : List Char × Json) : Option S :=
  (findField fields (unquote m.1)).bind (·.decode s m.2)

def structCodec (zero : S) (fields : List (StructField S)) : Codec S where
  zero := zero
  encode s := (encodeFields? fields s).map .obj
  decode s
    | .null => some s
    | .obj members => members.foldlM (decodeMember fields) s
    | _ => none

/-- A struct that is read from members that name its fields only. -/
def strictCodec (zero : S) (fields : List (StructField S)) : Codec S where
  zero := zero
  encode s := (encodeFields? fields s).map .obj
  decode s
    | .null => some s
    | .obj members => members.foldlM (decodeKnown fields) s
    | _ => none

/-- Writing a struct and reading it over `t` fills in its fields one after another. -/
def Fills (depth : ℕ) (s : S) : List (StructField S) → S → Prop
  | [], t => t = s
  | f :: fs, t =>
    (f.omitted s = true → f.copy s t = t) ∧ (f.omitted s = false →
        ∀ j, f.encode s = some j → Sound depth j ∧ f.decode t j = some (f.copy s t)) ∧
      Fills depth s fs (f.copy s t)

variable {fs : List (StructField S)} {set : S → α → S}

lemma fills_cons {name : String} {omitted : α → Bool} {get : S → α} {s t : S}
    (hget : get t = c.zero) (hself : set t c.zero = t)
    (homit : omitted (get s) = true → get s = c.zero)
    (hfaithful : omitted (get s) = false → c.Faithful depth (get s))
    (hrest : Fills depth s fs (set t (get s))) :
    Fills depth s (StructField.of name c omitted get set :: fs) t := by
  refine ⟨fun h => ?_, fun h j hj => ?_, hrest⟩
  · show set t (get s) = t
    rw [homit h, hself]
  · obtain ⟨hsound, hdecode⟩ := hfaithful h j hj
    refine ⟨hsound, ?_⟩
    show (c.decode (get t) j).map (set t) = _
    rw [hget, hdecode]
    rfl

lemma fills_required {name : String} {get : S → α} {s t : S} (hget : get t = c.zero)
    (hself : set t c.zero = t) (hfaithful : c.Faithful depth (get s))
    (hrest : Fills depth s fs (set t (get s))) :
    Fills depth s (StructField.of name c (fun _ => false) get set :: fs) t :=
  fills_cons hget hself (fun h => nomatch h) (fun _ => hfaithful) hrest

lemma findField_name (hnodup : (fields.map StructField.name).Nodup)
    (hf : f ∈ fields) : findField fields f.name.toList = some f := by
  have hfind : fields.find? (·.name.toList = f.name.toList) = some f := by
    induction fields with
    | nil => cases hf
    | cons g gs ih =>
      rw [map_cons, nodup_cons] at hnodup
      rcases mem_cons.mp hf with rfl | hmem
      · simp
      · have hne : g.name ≠ f.name := fun h => hnodup.1 (h ▸ mem_map_of_mem hmem)
        rw [find?_cons_of_neg (by simpa [String.toList_inj] using hne), ih hnodup.2 hmem]
  rw [findField, hfind]
  rfl

variable {zero : S} {fields : List (StructField S)} {s : S} {ms : List (List Char × Json)}

lemma encodeFields?_cons (homitted : f.omitted s = false) (hms : encodeFields? (f :: fs) s = some ms) :
    ∃ v rest, f.encode s = some v ∧ encodeFields? fs s = some rest ∧ ms = (f.name.toList, v) :: rest := by
  rw [encodeFields?, filter_cons_of_pos (by simp [homitted])] at hms
  simp only [mapM_cons, Option.pure_def, bind_eq_bind, bind_eq_some_iff, map_eq_some_iff] at hms
  obtain ⟨kv, ⟨v, hv, rfl⟩, rest, hencode, hcons⟩ := hms
  cases hcons
  exact ⟨v, rest, hv, hencode, rfl⟩

lemma isSome_encode_struct : ((structCodec zero fields).encode s).isSome =
      fields.all (fun f => f.omitted s || (f.encode s).isSome) := by
  rw [structCodec, isSome_map]
  induction fields with
  | nil => rfl
  | cons f fs ih =>
    rw [all_cons, ← ih]
    cases homitted : f.omitted s with
    | true =>
      rw [encodeFields?, filter_cons_of_neg (by simp [homitted])]
      rfl
    | false =>
      rw [encodeFields?, filter_cons_of_pos (by simp [homitted]), encodeFields?]
      cases hv : f.encode s <;> simp [hv, isSome_bind]

/-- The reader puts a member that is spelled like a field into that field. -/
def ReadsFields (fields : List (StructField S)) (read : S → List Char × Json → Option S) : Prop :=
  ∀ f ∈ fields, ∀ t v, read t (f.name.toList, v) = f.decode t v

variable {read : S → List Char × Json → Option S}

lemma fills_members (hread : ReadsFields fields read)
    (hnames : ∀ f ∈ fields, Ordinary f.name.toList) (hsub : fs ⊆ fields) {t : S}
    (hfills : Fills depth s fs t)
    (hms : encodeFields? fs s = some ms) :
    (∀ kv ∈ ms, SoundRaw kv.1 ∧ Sound depth kv.2) ∧ ms.foldlM read t = some s := by
  induction fs generalizing t ms with
  | nil =>
    cases hfills
    cases hms
    exact ⟨by simp, rfl⟩
  | cons f fs ih =>
    obtain ⟨homit, hwrite, hrest⟩ := hfills
    obtain ⟨hf, hfs⟩ := cons_subset.mp hsub
    cases homitted : f.omitted s with
    | true =>
      rw [encodeFields?, filter_cons_of_neg (by simp [homitted])] at hms
      rw [homit homitted] at hrest
      exact ih hfs hrest hms
    | false =>
      obtain ⟨v, rest, hv, hencode, rfl⟩ := encodeFields?_cons homitted hms
      obtain ⟨hsound, hdecode⟩ := hwrite homitted v hv
      obtain ⟨hall, hfold⟩ := ih hfs hrest hencode
      refine ⟨forall_mem_cons.mpr ⟨⟨(hnames f hf).soundRaw, hsound⟩, hall⟩, ?_⟩
      rw [foldlM_cons, hread f hf, hdecode]
      exact hfold

lemma exists_members (hread : ReadsFields fields read)
    (hnames : ∀ f ∈ fields, Ordinary f.name.toList) (hfills : Fills depth s fields zero) {j : Json}
    (hj : (encodeFields? fields s).map .obj = some j) :
    ∃ ms, j = .obj ms ∧ (∀ kv ∈ ms, SoundRaw kv.1 ∧ Sound depth kv.2) ∧ ms.foldlM read zero = some s := by
  obtain ⟨ms, hms, rfl⟩ := map_eq_some_iff.mp hj
  exact ⟨ms, rfl, fills_members hread hnames (List.Subset.refl _) hfills hms⟩

section
variable (hnodup : (fields.map StructField.name).Nodup) (hnames : ∀ f ∈ fields, Ordinary f.name.toList)
include hnodup hnames

lemma readsFields_decodeMember : ReadsFields fields (decodeMember fields) := by
  intro f hf t v
  rw [decodeMember, (hnames f hf).unquote, findField_name hnodup hf]

lemma readsFields_decodeKnown : ReadsFields fields (decodeKnown fields) := by
  intro f hf t v
  rw [decodeKnown, (hnames f hf).unquote, findField_name hnodup hf]
  rfl

variable (hfills : Fills depth s fields zero)
include hfills

/-- A struct whose fields are filled in is read back from what it is written as. -/
theorem faithful_struct : (structCodec zero fields).Faithful (depth + 1) s := by
  intro j hj
  obtain ⟨ms, rfl, hall, hfold⟩ := exists_members (readsFields_decodeMember hnodup hnames) hnames hfills hj
  exact ⟨sound_obj hall, hfold⟩

theorem faithful_strict : (strictCodec zero fields).Faithful (depth + 1) s := by
  intro j hj
  obtain ⟨ms, rfl, hall, hfold⟩ := exists_members (readsFields_decodeKnown hnodup hnames) hnames hfills hj
  exact ⟨sound_obj hall, hfold⟩

variable (hdepth : depth < maxNestingDepth) {j : Json} (hj : (structCodec zero fields).encode s = some j)
include hdepth hj

theorem isObjectText_struct : IsObjectText (utf8 (encode j)) := by
  obtain ⟨ms, rfl, hall, -⟩ := exists_members (readsFields_decodeMember hnodup hnames) hnames hfills hj
  rw [encode_obj]
  refine isObjectText_objectText blanks_nil blanks_nil blanks_nil hdepth fun m hm => ?_
  obtain ⟨kv, hkv, rfl⟩ := mem_map.mp hm
  exact ⟨(hall kv hkv).1.runs, (hall kv hkv).2.runs⟩

theorem isObjectText_indent : IsObjectText (utf8 (indent 0 j)) := by
  obtain ⟨ms, rfl, hall, -⟩ := exists_members (readsFields_decodeMember hnodup hnames) hnames hfills hj
  rw [indent, indentMembers_eq]
  refine isObjectText_objectText (blanks_lineBreak _) (by simp [Blanks, blank]) (blanks_lineBreak _) hdepth
    fun m hm => ?_
  obtain ⟨kv, hkv, rfl⟩ := mem_map.mp hm
  exact ⟨(hall kv hkv).1.runs, ((hall kv hkv).2.indented _).runs⟩

end

lemma strict_decode_keeps {zero : S} {P : S → Prop}
    (hfields : ∀ f ∈ fields, ∀ s j s', f.decode s j = some s' → P s → P s') {s : S} (hs : P s) {j : Json}
    {s' : S} (h : (strictCodec zero fields).decode s j = some s') : P s' := by
  have hmembers : ∀ (ms : List (List Char × Json)) (s : S), P s →
      ms.foldlM (decodeKnown fields) s = some s' → P s' := by
    intro ms
    induction ms with
    | nil =>
      rintro s hs ⟨⟩
      exact hs
    | cons m ms ih =>
      intro s hs h
      obtain ⟨s₁, hs₁, hrest⟩ := bind_eq_some_iff.mp h
      obtain ⟨f, hf, hdecode⟩ := bind_eq_some_iff.mp hs₁
      exact ih s₁ (hfields f (mem_of_findField hf) s m.2 s₁ hdecode hs) hrest
  cases j with
  | null =>
    cases h
    exact hs
  | obj members => exact hmembers members s hs h
  | _ => cases h

end Struct

/-! ## Marshal and Unmarshal -/

/-- `json.Marshal`. -/
def marshal {α : Type} (c : Codec α) (x : α) : Option (List UInt8) := (c.encode x).map (fun j => utf8 (encode j))

/-- `json.Unmarshal` into a new variable. -/
def unmarshal {α : Type} (c : Codec α) (bs : List UInt8) : Option α :=
  if checkValid bs then (parse (runes bs)).bind (c.decode c.zero) else none

lemma Sound.checkValid (hdepth : depth ≤ maxNestingDepth) {v : Json} (h : Sound depth v) :
    checkValid (utf8 (encode v)) = true := by
  obtain ⟨m, hrun, hm⟩ := h.runs.run [] (by rw [length_nil]; omega)
  have haccepts : Scan.accepts ⟨m, []⟩ = true := by
    rw [Scan.accepts, Scan.feed, hm _ _ (by decide)]
    rfl
  rw [Json.checkValid, Scan.run_utf8, Scan.start, hrun]
  exact haccepts

variable {bs : List UInt8}

theorem unmarshal_marshal (hdepth : depth ≤ maxNestingDepth) {x : α} (hx : c.Faithful depth x)
    (hbs : marshal c x = some bs) : unmarshal c bs = some x := by
  obtain ⟨j, hj, rfl⟩ := map_eq_some_iff.mp hbs
  obtain ⟨hsound, hdecode⟩ := hx j hj
  rw [unmarshal, if_pos (hsound.checkValid hdepth), runes_utf8, hsound.written.parse, bind_some, hdecode]

lemma le_of_mem_marshal {x : α} (hx : c.Faithful depth x)
    (hbs : marshal c x = some bs) : ∀ b ∈ bs, 0x20 ≤ b.toNat := by
  obtain ⟨j, hj, rfl⟩ := map_eq_some_iff.mp hbs
  exact fun b hb => le_of_mem_utf8 (by decide) (hx j hj).1.plain hb

end DeliveryEngine.Go.Json
