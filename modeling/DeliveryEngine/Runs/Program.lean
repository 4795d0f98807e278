import Mathlib.Data.List.Basic
import Mathlib.Tactic.Lemma

/-!
# Programs over a shared store

A program asks a store one operation at a time and continues with the answer, so what happens between two operations
happens between two nodes of its tree.  `Program.Safe` is the rely-guarantee reading of a program: wherever the others
may have moved the world, the program's next operation moves it as guaranteed, and so on to the end, where the
postcondition holds.  The world may carry more than the store (`Discipline.view`).
-/

namespace DeliveryEngine.Runs

open List

/-- A program that asks operations `q : Q`, answered in `A q`, and returns an `α`. -/
inductive Program (Q : Type) (A : Q → Type) (α : Type)
  | done (a : α)
  | ask (q : Q) (next : A q → Program Q A α)

namespace Program

variable {Q : Type} {A : Q → Type} {α β : Type}

/-- Run one program, then the one its result selects. -/
def bind : Program Q A α → (α → Program Q A β) → Program Q A β
  | done a, f => f a
  | ask q next, f => ask q fun r => (next r).bind f

instance : Monad (Program Q A) where
  pure := done
  bind := bind

def op (q : Q) : Program Q A (A q) := ask q done

/-- Run a program alone on a store. -/
def run {σ : Type} (serve : (q : Q) → σ → A q × σ) : Program Q A α → σ → α × σ
  | done a, s => (a, s)
  | ask q next, s => (next (serve q s).1).run serve (serve q s).2

section
variable {σ : Type} (serve : (q : Q) → σ → A q × σ)

@[simp] lemma run_bind (p : Program Q A α) (f : α → Program Q A β) (s : σ) :
    (p >>= f).run serve s = (f (p.run serve s).1).run serve (p.run serve s).2 := by
  induction p generalizing s with
  | done a => rfl
  | ask q next ih => exact ih _ _

end

/-! ## Which operations a program can ask -/

/-- Every operation the program can ask, whatever the answers, satisfies `P`. -/
def Asks (P : Q → Prop) : Program Q A α → Prop
  | done _ => True
  | ask q next => P q ∧ ∀ r, (next r).Asks P

lemma Asks.bind {P : Q → Prop} {p : Program Q A α} {f : α → Program Q A β} (hp : p.Asks P)
    (hf : ∀ a, (f a).Asks P) : (p >>= f).Asks P := by
  induction p with
  | done a => exact hf a
  | ask q next ih => exact ⟨hp.1, fun r => ih r (hp.2 r)⟩

end Program

/-! ## Programs that can fail -/

/-- A program that returns a value or an error. -/
abbrev Fallible (Q : Type) (A : Q → Type) (ε : Type) := ExceptT ε (Program Q A)

variable {c : Bool}

namespace Fallible

variable {Q : Type} {A : Q → Type} {ε ε' α β : Type}

/-- One operation, in a program that can fail. -/
def op (q : Q) : Fallible Q A ε (A q) := ExceptT.lift (Program.op q)

/-- Run a program if a condition holds. -/
def when (c : Bool) (p : Fallible Q A ε Unit) : Fallible Q A ε Unit := if c then p else pure ()

/-- Fail if there is something to fail with. -/
def refuse (e : Option ε) : Fallible Q A ε Unit :=
  match e with
  | none => pure ()
  | some e => throw e

/-- Fail unless a condition holds. -/
def orElse (c : Bool) (e : ε) : Fallible Q A ε Unit := refuse (if c then none else some e)

/-- Give the error of a program another form. -/
def mapError (f : ε → ε') (p : Fallible Q A ε α) : Fallible Q A ε' α :=
  ExceptT.mk (Program.bind p fun r => .done (r.mapError f))

variable (p : Fallible Q A ε α)

/-- Run a program that may fail, and go on with its error as a value. -/
def attempt : Fallible Q A ε' (Except ε α) := ExceptT.lift p

def toProgram : Program Q A (Except ε α) := p

/-- A fallible program whose result nobody looks at. -/
def discard : Program Q A Unit := p.toProgram >>= fun _ => .done ()

/-- Every operation the fallible program can ask satisfies `P`. -/
def Asks (P : Q → Prop) (p : Fallible Q A ε α) : Prop := p.toProgram.Asks P

variable {P : Q → Prop}

lemma asks_op {q : Q} (h : P q) : Asks P (op q : Fallible Q A ε (A q)) := ⟨h, fun _ => trivial⟩

lemma Asks.bind {p : Fallible Q A ε α} {f : α → Fallible Q A ε β} (hp : p.Asks P)
    (hf : ∀ a, (f a).Asks P) : (p >>= f).Asks P := by
  refine Program.Asks.bind hp fun r => ?_
  cases r with
  | ok a => exact hf a
  | error e => trivial

lemma asks_when {p : Fallible Q A ε Unit} (hp : c = true → p.Asks P) : (when c p).Asks P := by
  cases c with
  | false => trivial
  | true => exact hp rfl

lemma asks_refuse (e : Option ε) : (refuse e : Fallible Q A ε Unit).Asks P := by cases e <;> trivial

lemma asks_forM (xs : List α) {f : α → Fallible Q A ε PUnit} (hf : ∀ x ∈ xs, (f x).Asks P) : Asks P (forM xs f) := by
  induction xs with
  | nil => trivial
  | cons x xs ih =>
    exact (hf x mem_cons_self).bind fun _ => ih fun y hy => hf y (mem_cons_of_mem _ hy)

lemma asks_foldlM (xs : List α) {f : β → α → Fallible Q A ε β} (hf : ∀ b, ∀ x ∈ xs, (f b x).Asks P)
    (b : β) : Asks P (xs.foldlM f b) := by
  induction xs generalizing b with
  | nil => trivial
  | cons x xs ih =>
    exact (hf b x mem_cons_self).bind fun _ => ih (fun c y hy => hf c y (mem_cons_of_mem _ hy)) _

end Fallible

/-! ## Rely and guarantee -/

/-- How programs share a world: the store serves operations, the world shows the store and may carry
more, the others move the world as in `rely`, each operation is asked only where `guard` allows it, and
moves the world as in `guarantee`. -/
structure Discipline (Q : Type) (A : Q → Type) (σ W : Type) where
  serve : (q : Q) → σ → A q × σ
  view : W → σ
  guard : σ → Q → Prop
  rely : W → W → Prop
  guarantee : W → W → Prop
  rely_refl : ∀ w, rely w w
  rely_trans : ∀ {w₁ w₂ w₃}, rely w₁ w₂ → rely w₂ w₃ → rely w₁ w₃

namespace Program

variable {Q : Type} {A : Q → Type} {σ W α β ε : Type} (D : Discipline Q A σ W)

/-- From this world on, whatever the others do within `rely`, every operation of the program keeps
`guarantee`, and the program ends with `post`. -/
def Safe : Program Q A α → (α → W → Prop) → W → Prop
  | done a, post, w => post a w
  | ask q next, post, w => ∀ w', D.rely w w' → D.guard (D.view w') q →
      ∃ w'', D.view w'' = (D.serve q (D.view w')).2 ∧ D.guarantee w' w'' ∧
        (next (D.serve q (D.view w')).1).Safe post w''

variable {D} {p : Program Q A α} {w : W}

lemma safe_mono {post post' : α → W → Prop} (h : ∀ a w, post a w → post' a w)
    (hp : p.Safe D post w) : p.Safe D post' w := by
  induction p generalizing w with
  | done a => exact h a w hp
  | ask q next ih =>
    intro w' hr hg
    obtain ⟨w'', hview, hguarantee, hnext⟩ := hp w' hr hg
    exact ⟨w'', hview, hguarantee, ih _ hnext⟩

lemma safe_bind {f : α → Program Q A β} {post : β → W → Prop}
    (hp : p.Safe D (fun a => (f a).Safe D post) w) : (p >>= f).Safe D post w := by
  induction p generalizing w with
  | done a => exact hp
  | ask q next ih =>
    intro w' hr hg
    obtain ⟨w'', hview, hguarantee, hnext⟩ := hp w' hr hg
    exact ⟨w'', hview, hguarantee, ih _ hnext⟩

/-- What the others do does not endanger a program that is safe: with nothing left to do but the
postcondition `True`, or with an operation ahead of it. -/
lemma safe_of_rely {w' : W} (hr : D.rely w w') (hp : p.Safe D (fun _ _ => True) w) :
    p.Safe D (fun _ _ => True) w' := by
  cases p with
  | done a => trivial
  | ask q next => exact fun w'' hr' hg => hp w'' (D.rely_trans hr hr') hg

/-- A program whose operations all keep an assertion that the others respect keeps it to the end. -/
lemma safe_of_asks {P : Q → Prop} {T : W → Prop} (hT : ∀ {w w'}, D.rely w w' → T w → T w')
    (hP : ∀ q w, P q → T w → D.guard (D.view w) q →
      ∃ w', D.view w' = (D.serve q (D.view w)).2 ∧ D.guarantee w w' ∧ T w') (hp : p.Asks P)
    (hw : T w) : p.Safe D (fun _ => T) w := by
  induction p generalizing w with
  | done a => exact hw
  | ask q next ih =>
    intro w' hr hg
    obtain ⟨w'', hview, hguarantee, hT'⟩ := hP q w' hp.1 (hT hr hw) hg
    exact ⟨w'', hview, hguarantee, ih _ (hp.2 _) hT'⟩

end Program

namespace Fallible

variable {Q : Type} {A : Q → Type} {σ W α β ε ε' : Type} (D : Discipline Q A σ W)

/-- A fallible program is safe with one postcondition for its value and one for its error. -/
def Safe (p : Fallible Q A ε α) (post : α → W → Prop) (err : ε → W → Prop) (w : W) : Prop :=
  p.toProgram.Safe D (fun r w => match r with
    | .ok a => post a w
    | .error e => err e w) w

variable {D} {post : β → W → Prop} {err : ε → W → Prop} {w : W}

lemma safe_pure {post : α → W → Prop} {a : α} (h : post a w) : Safe D (pure a : Fallible Q A ε α) post err w := h

lemma safe_throw {post : α → W → Prop} {e : ε} (h : err e w) : Safe D (throw e : Fallible Q A ε α) post err w := h

variable {p : Fallible Q A ε α} {f : α → Fallible Q A ε β}

lemma safe_bind (hp : p.Safe D (fun a => (f a).Safe D post err) err w) : (p >>= f).Safe D post err w := by
  refine Program.safe_bind (Program.safe_mono (fun r w h => ?_) hp)
  cases r <;> exact h

lemma safe_mono {post post' : α → W → Prop} {err err' : ε → W → Prop}
    (h : ∀ a w, post a w → post' a w) (he : ∀ e w, err e w → err' e w) (hp : p.Safe D post err w) :
    p.Safe D post' err' w := by
  refine Program.safe_mono (fun r w hr => ?_) hp
  cases r with
  | ok a => exact h a w hr
  | error e => exact he e w hr

lemma safe_then {mid : α → W → Prop} (hp : p.Safe D mid err w)
    (hf : ∀ a w, mid a w → (f a).Safe D post err w) : (p >>= f).Safe D post err w :=
  safe_bind (safe_mono hf (fun _ _ h => h) hp)

lemma safe_when {p : Fallible Q A ε Unit} {post : Unit → W → Prop}
    (hp : c = true → p.Safe D post err w) (hskip : c = false → post () w) : (when c p).Safe D post err w := by
  cases c with
  | false => exact hskip rfl
  | true => exact hp rfl

lemma safe_ite {c : Prop} [Decidable c] {p q : Fallible Q A ε β} (hp : c → p.Safe D post err w)
    (hq : ¬c → q.Safe D post err w) : Safe D (if c then p else q) post err w := by
  split_ifs with h
  · exact hp h
  · exact hq h

lemma safe_refuse {e : Option ε} {post : Unit → W → Prop} (hpost : e = none → post () w)
    (herr : ∀ e' ∈ e, err e' w) : (refuse e : Fallible Q A ε Unit).Safe D post err w := by
  cases e with
  | none => exact hpost rfl
  | some e => exact herr e rfl

lemma safe_mapError {f : ε → ε'} {post : α → W → Prop} {err : ε' → W → Prop}
    (hp : p.Safe D post (fun e => err (f e)) w) : (mapError f p).Safe D post err w := by
  refine Program.safe_bind (Program.safe_mono (fun r w h => ?_) hp)
  cases r <;> exact h

lemma safe_op {q : Q} {post : A q → W → Prop} (h : ∀ w', D.rely w w' → D.guard (D.view w') q →
      ∃ w'', D.view w'' = (D.serve q (D.view w')).2 ∧ D.guarantee w' w'' ∧ post (D.serve q (D.view w')).1 w'') :
    Safe D (op q : Fallible Q A ε (A q)) post err w := h

lemma safe_of_asks {P : Q → Prop} {T : W → Prop} (hT : ∀ {w w'}, D.rely w w' → T w → T w')
    (hP : ∀ q w, P q → T w → D.guard (D.view w) q →
      ∃ w', D.view w' = (D.serve q (D.view w)).2 ∧ D.guarantee w w' ∧ T w') (hp : p.Asks P)
    (hw : T w) : p.Safe D (fun _ => T) (fun _ => T) w := by
  refine Program.safe_mono (fun r w h => ?_) (Program.safe_of_asks hT hP hp hw)
  cases r <;> exact h

lemma safe_forM (T : List α → W → Prop) {f : α → Fallible Q A ε PUnit} (xs : List α)
    (hf : ∀ x rest w, T (x :: rest) w → (f x).Safe D (fun _ => T rest) err w) (h : T xs w) :
    Safe D (forM xs f) (fun _ => T []) err w := by
  induction xs generalizing w with
  | nil => exact h
  | cons x xs ih =>
    exact safe_then (hf x xs w h) fun _ _ h => ih h

lemma safe_foldlM {T : W → Prop} {f : β → α → Fallible Q A ε β} (xs : List α)
    (hf : ∀ b, ∀ x ∈ xs, ∀ w, T w → (f b x).Safe D (fun _ => T) err w) (b : β) (h : T w) :
    Safe D (xs.foldlM f b) (fun _ => T) err w := by
  induction xs generalizing b w with
  | nil => exact h
  | cons x xs ih =>
    exact safe_then (hf b x mem_cons_self w h) fun _ _ h => ih (fun c y hy => hf c y (mem_cons_of_mem _ hy)) _ h

lemma safe_discard {post : α → W → Prop} (hp : p.Safe D post err w) : p.discard.Safe D (fun _ _ => True) w :=
  Program.safe_bind (Program.safe_mono (fun _ _ _ => trivial) hp)

end Fallible

/-! ## Programs that keep an assertion

Where all that the programs promise each other is one assertion about the store, what a program knows of the
store is the assertion and what the answers so far have told it. -/

/-- The discipline of an assertion: everybody keeps it. -/
def Discipline.keeping {Q : Type} {A : Q → Type} {σ : Type} (serve : (q : Q) → σ → A q × σ) (T : σ → Prop) :
    Discipline Q A σ σ where
  serve := serve
  view := id
  guard _ _ := True
  rely s s' := T s → T s'
  guarantee s s' := T s → T s'
  rely_refl _ := id
  rely_trans h h' := h' ∘ h

namespace Fallible

variable {Q : Type} {A : Q → Type} {σ α β ε ε' : Type} (serve : (q : Q) → σ → A q × σ) (T : σ → Prop)

/-- The program keeps the assertion, and a value that it returns satisfies `post`. -/
def Keeps (p : Fallible Q A ε α) (post : α → Prop) : Prop :=
  ∀ s, T s → p.Safe (.keeping serve T) (fun a s => T s ∧ post a) (fun _ => T) s

variable {serve T} {post : α → Prop}

lemma keeps_pure {a : α} (h : post a) : Keeps serve T (pure a : Fallible Q A ε α) post :=
  fun _ hs => safe_pure ⟨hs, h⟩

lemma keeps_throw (e : ε) : Keeps serve T (throw e : Fallible Q A ε α) post := fun _ hs => safe_throw hs

lemma keeps_op {q : Q} {P : A q → Prop} (h : ∀ s, T s → T (serve q s).2 ∧ P (serve q s).1) :
    Keeps serve T (op q : Fallible Q A ε (A q)) P :=
  fun _ hs => safe_op fun s hrely _ => ⟨_, rfl, fun _ => (h s (hrely hs)).1, h s (hrely hs)⟩

variable {p : Fallible Q A ε α}

lemma Keeps.bind {f : α → Fallible Q A ε β} {P : α → Prop} {post : β → Prop}
    (hp : Keeps serve T p P) (hf : ∀ a, P a → Keeps serve T (f a) post) :
    Keeps serve T (p >>= f) post :=
  fun s hs => safe_then (hp s hs) fun a s' h => hf a h.2 s' h.1

lemma Keeps.mono {post' : α → Prop} (h : ∀ a, post a → post' a) (hp : Keeps serve T p post) :
    Keeps serve T p post' :=
  fun s hs => safe_mono (fun a _ ha => ⟨ha.1, h a ha.2⟩) (fun _ _ he => he) (hp s hs)

lemma keeps_mapError {f : ε → ε'} (hp : Keeps serve T p post) : Keeps serve T (mapError f p) post :=
  fun s hs => safe_mapError (hp s hs)

lemma keeps_when {p : Fallible Q A ε Unit} (hp : c = true → Keeps serve T p fun _ => True) :
    Keeps serve T (when c p) fun _ => True :=
  fun s hs => safe_when (fun hc => hp hc s hs) fun _ => ⟨hs, trivial⟩

lemma keeps_orElse (e : ε) : Keeps serve T (orElse c e : Fallible Q A ε Unit) fun _ => c = true :=
  fun s hs => safe_refuse (fun h => ⟨hs, by simpa using h⟩) fun _ _ => hs

end Fallible

/-! ## Pools of programs -/

/-- A store and the programs that share it.  A program that takes no further step has crashed. -/
structure Pool (Q : Type) (A : Q → Type) (σ α : Type) where
  store : σ
  programs : List (Program Q A α)

namespace Pool

variable {Q : Type} {A : Q → Type} {σ W α : Type} (serve : (q : Q) → σ → A q × σ) (c : Pool Q A σ α)

/-- The pool after the program at `i` has asked its next operation; nothing changes when it is done. -/
def step (i : ℕ) : Pool Q A σ α :=
  match c.programs[i]? with
  | some (.ask q next) =>
    { store := (serve q c.store).2, programs := c.programs.set i (next (serve q c.store).1) }
  | _ => c

/-- The pool after a schedule: which program moves, move by move. -/
def exec (schedule : List ℕ) : Pool Q A σ α := schedule.foldl (step serve) c

/-- The operation that the program at `i` would ask next. -/
def next? (c : Pool Q A σ α) (i : ℕ) : Option Q :=
  match c.programs[i]? with
  | some (.ask q _) => some q
  | _ => none

/-- Every operation of the schedule is asked where the guard allows it. -/
def Guarded (serve : (q : Q) → σ → A q × σ) (guard : σ → Q → Prop) : Pool Q A σ α → List ℕ → Prop
  | _, [] => True
  | c, i :: schedule => (∀ q ∈ c.next? i, guard c.store q) ∧ (c.step serve i).Guarded serve guard schedule

instance decidableGuarded (serve : (q : Q) → σ → A q × σ) (guard : σ → Q → Prop)
    [∀ s q, Decidable (guard s q)] :
    ∀ (c : Pool Q A σ α) (schedule : List ℕ), Decidable (c.Guarded serve guard schedule)
  | _, [] => .isTrue trivial
  | c, i :: schedule =>
    have : Decidable ((c.step serve i).Guarded serve guard schedule) :=
      decidableGuarded serve guard (c.step serve i) schedule
    have : Decidable (∀ q ∈ c.next? i, guard c.store q) :=
      match h : c.next? i with
      | none => .isTrue fun q hq => by cases hq
      | some q => decidable_of_iff (guard c.store q) (by simp)
    inferInstanceAs (Decidable (_ ∧ _))

variable {D : Discipline Q A σ W}

/-- A world stands behind the pool: it shows the pool's store, and every program is safe in it. -/
def Behind (D : Discipline Q A σ W) (c : Pool Q A σ α) (w : W) : Prop :=
  D.view w = c.store ∧ ∀ p ∈ c.programs, p.Safe D (fun _ _ => True) w

variable {c : Pool Q A σ α}

/-- One move keeps a world behind the pool, when the others may rely on what a move guarantees. -/
lemma Behind.step (hGR : ∀ {w w'}, D.guarantee w w' → D.rely w w') {w : W}
    (h : c.Behind D w) {i : ℕ} (hguard : ∀ q ∈ c.next? i, D.guard c.store q) :
    ∃ w', (c.step D.serve i).Behind D w' ∧ D.rely w w' := by
  obtain ⟨hview, hsafe⟩ := h
  rw [Pool.step]
  split
  · next q next hi =>
    have hask : (Program.ask q next).Safe D (fun _ _ => True) w := hsafe _ (mem_of_getElem? hi)
    have hg : D.guard (D.view w) q := hview ▸ hguard q (by simp [next?, hi])
    obtain ⟨w', hview', hguarantee, hnext⟩ := hask w (D.rely_refl w) hg
    refine ⟨w', ⟨by rw [hview', hview], fun p hp => ?_⟩, hGR hguarantee⟩
    rcases mem_or_eq_of_mem_set hp with hp | rfl
    · exact Program.safe_of_rely (hGR hguarantee) (hsafe p hp)
    · exact hview ▸ hnext
  · exact ⟨w, ⟨hview, hsafe⟩, D.rely_refl w⟩

theorem Behind.exec (hGR : ∀ {w w'}, D.guarantee w w' → D.rely w w') {schedule : List ℕ}
    {w : W} (h : c.Behind D w) (hguard : c.Guarded D.serve D.guard schedule) :
    ∃ w', (c.exec D.serve schedule).Behind D w' ∧ D.rely w w' := by
  induction schedule generalizing c w with
  | nil => exact ⟨w, h, D.rely_refl w⟩
  | cons i schedule ih =>
    obtain ⟨w₁, h₁, hr₁⟩ := h.step hGR hguard.1
    obtain ⟨w₂, h₂, hr₂⟩ := ih h₁ hguard.2
    exact ⟨w₂, h₂, D.rely_trans hr₁ hr₂⟩

theorem exec_keeps {serve : (q : Q) → σ → A q × σ} {T : σ → Prop} (hc : T c.store)
    (hkeep : ∀ p ∈ c.programs, p.Safe (.keeping serve T) (fun _ _ => True) c.store) (schedule : List ℕ) :
    T (c.exec serve schedule).store := by
  have hguard : ∀ (schedule : List ℕ) (c : Pool Q A σ α), c.Guarded serve (fun _ _ => True) schedule := by
    intro schedule
    induction schedule with
    | nil => exact fun _ => trivial
    | cons i schedule ih => exact fun c => ⟨fun _ _ => trivial, ih _⟩
  have hbehind : c.Behind (.keeping serve T) c.store := ⟨rfl, hkeep⟩
  obtain ⟨s, ⟨hview, -⟩, hrely⟩ := hbehind.exec id (hguard schedule c)
  have hs : s = (c.exec serve schedule).store := hview
  exact hs ▸ hrely hc

end Pool

end DeliveryEngine.Runs
