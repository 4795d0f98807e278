import DeliveryEngine.Runs.Program

/-!
# Calls that fail and crash

One caller makes one call after another.  How an operation goes is decided by its fate: it may be served, refused,
or served without an answer.  A call whose fates end before it does has crashed there (`follow`), so a statement
about all lists of fates is a statement about all failures and all crashes.

`Upholds` is the invariant rule for such calls: an assertion that every operation keeps, whatever its fate, is
there wherever the call stops.
-/

namespace DeliveryEngine.Runs

namespace Program

variable {Q : Type} {A : Q → Type} {φ σ α β : Type} (serve : φ → (q : Q) → σ → A q × σ)

/-- What the call returned, if it did, and the store after it. -/
def follow : Program Q A α → List φ → σ → Option α × σ
  | done a, _, s => (some a, s)
  | ask _ _, [], s => (none, s)
  | ask q next, fate :: fates, s => (next (serve fate q s).1).follow fates (serve fate q s).2

/-- Every operation keeps the assertion, and the program ends with `post`. -/
def Upholds (inv : σ → Prop) : Program Q A α → (α → σ → Prop) → σ → Prop
  | done a, post, s => post a s
  | ask q next, post, s => ∀ fate, inv (serve fate q s).2 ∧
      (next (serve fate q s).1).Upholds inv post (serve fate q s).2

variable {serve} {inv : σ → Prop} {s : σ} {p : Program Q A α} {post : α → σ → Prop}

lemma Upholds.mono {post' : α → σ → Prop} (hp : p.Upholds serve inv post s)
    (h : ∀ a s, post a s → post' a s) : p.Upholds serve inv post' s := by
  induction p generalizing s with
  | done a => exact h a s hp
  | ask q next ih => exact fun fate => ⟨(hp fate).1, ih _ (hp fate).2⟩

lemma Upholds.weaken {inv' : σ → Prop} (hinv : ∀ s, inv' s → inv s)
    (hp : p.Upholds serve inv' post s) : p.Upholds serve inv post s := by
  induction p generalizing s with
  | done a => exact hp
  | ask q next ih => exact fun fate => ⟨hinv _ (hp fate).1, ih _ (hp fate).2⟩

lemma Upholds.bind {f : α → Program Q A β} {post : β → σ → Prop} {mid : α → σ → Prop}
    (hp : p.Upholds serve inv mid s) (hf : ∀ a s, mid a s → (f a).Upholds serve inv post s) :
    (p >>= f).Upholds serve inv post s := by
  induction p generalizing s with
  | done a => exact hf a s hp
  | ask q next ih => exact fun fate => ⟨(hp fate).1, ih _ (hp fate).2⟩

lemma Upholds.follow (hs : inv s) (hp : p.Upholds serve inv post s) (fates : List φ) :
    inv (p.follow serve fates s).2 := by
  induction p generalizing s fates with
  | done a => exact hs
  | ask q next ih =>
    cases fates with
    | nil => exact hs
    | cons fate fates => exact ih _ (hp fate).1 (hp fate).2 fates

end Program

namespace Fallible

variable {Q : Type} {A : Q → Type} {φ σ ε α β : Type} (serve : φ → (q : Q) → σ → A q × σ)

/-- A program that can fail upholds an assertion; where it fails, nothing else is known. -/
def Upholds (inv : σ → Prop) (p : Fallible Q A ε α) (post : α → σ → Prop) (s : σ) : Prop :=
  p.toProgram.Upholds serve inv (fun r s => inv s ∧ ∀ a, r = .ok a → post a s) s

variable {serve} {inv : σ → Prop} {s : σ} {post : α → σ → Prop}

lemma upholds_pure {a : α} (hs : inv s) (h : post a s) : Upholds serve inv (pure a : Fallible Q A ε α) post s := by
  refine ⟨hs, ?_⟩
  rintro a' ⟨⟩
  exact h

lemma upholds_throw (hs : inv s) (e : ε) : Upholds serve inv (throw e : Fallible Q A ε α) post s := ⟨hs, nofun⟩

variable {p : Fallible Q A ε α}

lemma Upholds.bind {f : α → Fallible Q A ε β} {post : β → σ → Prop} {mid : α → σ → Prop}
    (hp : p.Upholds serve inv mid s)
    (hf : ∀ a s, inv s → mid a s → (f a).Upholds serve inv post s) :
    (p >>= f).Upholds serve inv post s := by
  refine Program.Upholds.bind hp fun r s' h => ?_
  cases r with
  | ok a => exact hf a s' h.1 (h.2 a rfl)
  | error e => exact ⟨h.1, nofun⟩

lemma Upholds.mono {post' : α → σ → Prop} (hp : p.Upholds serve inv post s)
    (h : ∀ a s, inv s → post a s → post' a s) : p.Upholds serve inv post' s :=
  Program.Upholds.mono hp fun _ s hr => ⟨hr.1, fun a ha => h a s hr.1 (hr.2 a ha)⟩

lemma upholds_op {q : Q} {post : A q → σ → Prop}
    (h : ∀ fate, inv (serve fate q s).2 ∧ post (serve fate q s).1 (serve fate q s).2) :
    Upholds serve inv (op q : Fallible Q A ε (A q)) post s := by
  intro fate
  refine ⟨(h fate).1, (h fate).1, ?_⟩
  rintro a ⟨⟩
  exact (h fate).2

lemma upholds_mapError {ε' : Type} {f : ε → ε'} (hp : p.Upholds serve inv post s) :
    (mapError f p).Upholds serve inv post s := by
  refine Program.Upholds.bind hp fun r s' h => ⟨h.1, fun a ha => ?_⟩
  cases r with
  | ok b => exact h.2 a (by simpa [Except.mapError] using ha)
  | error e => cases ha

/-- A program whose error is looked at may be held to a stronger assertion, which is then there in any case. -/
lemma upholds_attempt {ε' : Type} {inv' : σ → Prop} (hinv : ∀ s, inv' s → inv s) (hp : p.Upholds serve inv' post s) :
    Upholds serve inv (attempt p : Fallible Q A ε' (Except ε α))
      (fun r s => inv' s ∧ ∀ a, r = .ok a → post a s) s := by
  refine Program.Upholds.bind (Program.Upholds.weaken hinv hp) fun r s' h => ⟨hinv s' h.1, ?_⟩
  rintro r' ⟨⟩
  exact h

lemma upholds_discard (hp : p.Upholds serve inv post s) : p.discard.Upholds serve inv (fun _ _ => True) s :=
  Program.Upholds.bind hp fun _ _ _ => trivial

end Fallible

end DeliveryEngine.Runs
