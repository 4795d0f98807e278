import DeliveryEngine.Go.Json.Codec

/-!
# JSON documents

A document is one value, written indented and with a line end after it.  It is read by a `json.Decoder`, which
takes the first value of a text and does not look at what follows.

* `Scan.firstValue` finds the value as the decoder does.
* `decode_marshalDocument` says that a document is read back.
-/

namespace DeliveryEngine.Go.Json

open List

variable {bs : List UInt8}

namespace Scan

/-- The bytes of the first value of a text, from a state of the machine on.  A number outside every container
ends with the byte that does not go on it. -/
def firstValue : Scan → List UInt8 → Option (List UInt8)
  | σ, [] => if σ.accepts then some [] else none
  | σ, b :: bs =>
    match σ.step b with
    | none => if σ.accepts then some [] else none
    | some σ' =>
      if σ' = done then some (if blank (Char.ofUInt8 b) then [] else [b])
      else (firstValue σ' bs).map (b :: ·)

lemma firstValue_of_open {σ : Scan} (hopen : σ.stack ≠ [])
    (hlast : ∀ b ∈ bs.getLast?, blank (Char.ofUInt8 b) = false) (h : σ.run bs = some done)
    (rest : List UInt8) : σ.firstValue (bs ++ rest) = some bs := by
  induction bs generalizing σ with
  | nil =>
    cases h
    exact absurd rfl hopen
  | cons b bs ih =>
    obtain ⟨σ₁, hstep, hrun⟩ := Option.bind_eq_some_iff.mp h
    rw [cons_append, firstValue, hstep]
    rcases feed_open hopen hstep with hopen₁ | rfl
    · have hnot : σ₁ ≠ done := fun heq => hopen₁ (heq ▸ rfl)
      have hrest := ih hopen₁ (fun c hc => hlast c ?_) hrun
      · simp only [if_neg hnot, hrest, Option.map_some]
      · cases bs with
        | nil => cases hc
        | cons c' bs => rwa [getLast?_cons_cons]
    · obtain rfl := eq_nil_of_run_done hrun hlast
      simp [hlast b rfl]

lemma firstValue_object (h : IsObjectText bs) (rest : List UInt8) : start.firstValue (bs ++ rest) = some bs := by
  obtain ⟨tail, rfl⟩ := h.brace
  have hwhole := h.whole
  rw [run_cons, start_step_brace] at hwhole
  have hne : tail ≠ [] := by
    rintro rfl
    cases hwhole
  have hlast : ∀ b ∈ tail.getLast?, blank (Char.ofUInt8 b) = false := by
    intro b hb
    refine h.last b ?_
    obtain ⟨c, tail, rfl⟩ := exists_cons_of_ne_nil hne
    rwa [getLast?_cons_cons]
  rw [cons_append, firstValue, start_step_brace]
  simp only [firstValue_of_open (cons_ne_nil _ _) hlast hwhole, Option.map_some]
  rfl

end Scan

variable {α : Type} (c : Codec α)

/-- A `json.Decoder` into a new variable. -/
def decodeDocument (bs : List UInt8) : Option α :=
  (Scan.start.firstValue bs).bind (fun value => (parse (runes value)).bind (c.decode c.zero))

/-- `json.MarshalIndent` with two blanks a level, and a line end. -/
def marshalDocument (x : α) : Option (List UInt8) := (c.encode x).map (fun j => utf8 (indent 0 j) ++ [0x0a])

/-- A value that is written as an object is read back from its document. -/
theorem decode_marshalDocument {α : Type} {c : Codec α} {depth : ℕ} {x : α} (hx : c.Faithful depth x)
    (hobject : ∀ j, c.encode x = some j → IsObjectText (utf8 (indent 0 j)))
    (hbs : marshalDocument c x = some bs) : decodeDocument c bs = some x := by
  obtain ⟨j, hj, rfl⟩ := Option.map_eq_some_iff.mp hbs
  obtain ⟨hsound, hdecode⟩ := hx j hj
  rw [decodeDocument, Scan.firstValue_object (hobject j hj), Option.bind_some, runes_utf8,
    (hsound.indented 0).parse, Option.bind_some, hdecode]

end DeliveryEngine.Go.Json
