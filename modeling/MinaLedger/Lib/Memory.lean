import Mathlib.Logic.Basic

/-!
# Programs over a memory

A program reads and writes a memory and returns or fails; a failure keeps the memory as
it was then, which is what a handler finds.

Results:
* `Keeps.bind` and its companions: which part of the memory a program leaves alone.
* `Simulates.bind` and its companions: a program returns what a pure computation does,
  with a relation between the value, the memory and the pure value.
-/
namespace Lib.Memory

variable {σ ε α β γ δ : Type}

/-- From a memory to an outcome and a memory. -/
def Prog (σ ε α : Type) : Type := σ → Except ε α × σ

instance : Monad (Prog σ ε) where
  pure a s := (.ok a, s)
  bind x f s :=
    match x s with
    | (.ok a, s) => f a s
    | (.error e, s) => (.error e, s)

/-- A computation that does not touch the memory. -/
def call (x : Except ε α) : Prog σ ε α := fun s => (x, s)

/-- The memory. -/
def readMem : Prog σ ε σ := fun s => (.ok s, s)

/-- Write the memory. -/
def writeMem (u : σ → σ) : Prog σ ε Unit := fun s => (.ok (), u s)

section Rules

variable {s s' : σ}

theorem bind_ok {x : Prog σ ε α} {f : α → Prog σ ε β} {a : α} (h : x s = (.ok a, s')) :
    (x >>= f) s = f a s' := by
  show (match x s with | (.ok a, s) => f a s | (.error e, s) => (.error e, s)) = f a s'
  rw [h]

theorem bind_error {x : Prog σ ε α} {f : α → Prog σ ε β} {e : ε} (h : x s = (.error e, s')) :
    (x >>= f) s = (.error e, s') := by
  show (match x s with | (.ok a, s) => f a s | (.error e, s) => (.error e, s)) = _
  rw [h]

end Rules

/-! ## What a program leaves alone -/

/-- Whatever the outcome, the part `p` of the memory is as before. -/
def Keeps (p : σ → γ) (x : Prog σ ε α) : Prop := ∀ s, p (x s).2 = p s

section Keeps

variable {p : σ → γ}

theorem Keeps.pure (a : α) : Keeps p (Pure.pure a : Prog σ ε α) := fun _ => rfl

theorem Keeps.call (x : Except ε α) : Keeps p (Memory.call x : Prog σ ε α) := fun _ => rfl

theorem Keeps.readMem : Keeps p (Memory.readMem : Prog σ ε σ) := fun _ => rfl

theorem Keeps.writeMem {u : σ → σ} (h : ∀ s, p (u s) = p s) :
    Keeps p (Memory.writeMem u : Prog σ ε Unit) := h

theorem Keeps.bind {x : Prog σ ε α} {f : α → Prog σ ε β} (hx : Keeps p x)
    (hf : ∀ a, Keeps p (f a)) : Keeps p (x >>= f) := by
  intro s
  rcases hr : x s with ⟨a | e, s'⟩
  · rw [bind_error hr, ← hx s, hr]
  · rw [bind_ok hr, hf, ← hx s, hr]

theorem Keeps.ite {c : Prop} [Decidable c] {x y : Prog σ ε α} (hx : Keeps p x) (hy : Keeps p y) :
    Keeps p (if c then x else y) := by
  split
  · exact hx
  · exact hy

end Keeps

/-! ## Simulation of a pure computation -/

/-- Both fail alike, or both return and their values and the memory are related. -/
def Simulates (x : Prog σ ε α) (s : σ) (y : Except ε β) (R : α → σ → β → Prop) : Prop :=
  (∃ e s', x s = (.error e, s') ∧ y = .error e) ∨
    ∃ a s' b, x s = (.ok a, s') ∧ y = .ok b ∧ R a s' b

section Simulates

variable {s : σ} {R : α → σ → β → Prop} {Q : γ → σ → δ → Prop}

theorem Simulates.pure {a : α} {b : β} (h : R a s b) :
    Simulates (Pure.pure a : Prog σ ε α) s (.ok b) R := .inr ⟨a, s, b, rfl, rfl, h⟩

theorem Simulates.bind {x : Prog σ ε α} {y : Except ε β} {f : α → Prog σ ε γ}
    {g : β → Except ε δ} (hx : Simulates x s y R)
    (hf : ∀ a s' b, y = .ok b → R a s' b → Simulates (f a) s' (g b) Q) :
    Simulates (x >>= f) s (y >>= g) Q := by
  rcases hx with ⟨e, s', hx, rfl⟩ | ⟨a, s', b, hx, rfl, hr⟩
  · exact .inl ⟨e, s', bind_error hx, rfl⟩
  · rcases hf a s' b rfl hr with ⟨e, s'', hf, hg⟩ | ⟨c, s'', d, hf, hg, hq⟩
    · exact .inl ⟨e, s'', (bind_ok hx).trans hf, hg⟩
    · exact .inr ⟨c, s'', d, (bind_ok hx).trans hf, hg, hq⟩

/-- A pure computation, and then the rest. -/
theorem Simulates.call_bind {y : Except ε α} {f : α → Prog σ ε γ} {g : α → Except ε δ}
    (h : ∀ a, y = .ok a → Simulates (f a) s (g a) Q) :
    Simulates (Memory.call y >>= f) s (y >>= g) Q := by
  cases y with
  | error e => exact .inl ⟨e, s, rfl, rfl⟩
  | ok a => exact h a rfl

/-- Steps that the pure computation does not see. -/
theorem Simulates.readMem_bind {f : σ → Prog σ ε γ} {y : Except ε δ} (h : Simulates (f s) s y Q) :
    Simulates (Memory.readMem >>= f) s y Q := h

theorem Simulates.writeMem_bind {u : σ → σ} {f : Unit → Prog σ ε γ} {y : Except ε δ}
    (h : Simulates (f ()) (u s) y Q) : Simulates (Memory.writeMem u >>= f) s y Q := h

/-- The outcomes are the same when the relation fixes the value. -/
theorem Simulates.fst_eq {x : Prog σ ε α} {y : Except ε α} {R : α → σ → α → Prop}
    (h : Simulates x s y R) (hr : ∀ a s' b, R a s' b → a = b) : (x s).1 = y := by
  rcases h with ⟨e, s', hx, rfl⟩ | ⟨a, s', b, hx, rfl, hab⟩
  · rw [hx]
  · rw [hx, hr a s' b hab]

end Simulates

end Lib.Memory
