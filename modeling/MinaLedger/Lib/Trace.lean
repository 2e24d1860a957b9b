import Mathlib.Data.List.Basic

/-!
# Runs and their histories

The finite runs of a labelled transition system, each with the list of its
labels, and the last label of a kind in such a list.

Results:
* `Run.invariant`: what holds at the start and is kept by every step, and may
  speak of the history, holds of every run.
* `Run.trans`, `Run.cons`: runs that start where another run or a step ends.
* `Last.snoc`, `Last.new`: how the last label of a kind changes with one more label.
-/
namespace Lib.Trace

variable {σ ε : Type}

/-- The labels of a run and the state it reaches. -/
inductive Run (start : σ → Prop) (step : σ → ε → σ → Prop) : List ε → σ → Prop
  | nil {s : σ} : start s → Run start step [] s
  | snoc {t : List ε} {s s' : σ} {e : ε} :
      Run start step t s → step s e s' → Run start step (t ++ [e]) s'

section Invariant

variable {start : σ → Prop} {step : σ → ε → σ → Prop}

/-- The invariant may mention the history. -/
theorem Run.invariant {I : List ε → σ → Prop} (h0 : ∀ s, start s → I [] s)
    (hstep : ∀ t s e s', I t s → step s e s' → I (t ++ [e]) s') {t : List ε} {s : σ}
    (h : Run start step t s) : I t s := by
  induction h with
  | nil hs => exact h0 _ hs
  | snoc _ hs ih => exact hstep _ _ _ _ ih hs

end Invariant

section Append

variable {start : σ → Prop} {step : σ → ε → σ → Prop} {t t' : List ε} {s s' s'' : σ} {e : ε}

/-- A run goes on from the state it reached. -/
theorem Run.trans (h : Run start step t s) (h' : Run (· = s) step t' s') :
    Run start step (t ++ t') s' := by
  induction h' with
  | nil hs =>
    subst hs
    rwa [List.append_nil]
  | snoc _ hs ih =>
    rw [← List.append_assoc]
    exact ih.snoc hs

theorem Run.cons (h : step s e s') (h' : Run (· = s') step t s'') : Run (· = s) step (e :: t) s'' := by
  have hnil : Run (· = s) step [] s := .nil rfl
  exact (hnil.snoc h).trans h'

end Append

/-! ## The last label of a kind -/

variable {p : ε → Prop} {t rest : List ε} {e x : ε}

/-- `e` is the last label of the kind `p` in `t`, and `rest` came after it. -/
structure Last (p : ε → Prop) (t : List ε) (e : ε) (rest : List ε) : Prop where
  split : ∃ before, t = before ++ e :: rest
  kind : p e
  rest : ∀ x ∈ rest, ¬p x

/-- A label of another kind does not change it. -/
theorem Last.snoc (h : Last p t e rest) (hx : ¬p x) : Last p (t ++ [x]) e (rest ++ [x]) := by
  obtain ⟨before, rfl⟩ := h.split
  refine ⟨⟨before, by rw [List.append_assoc, List.cons_append]⟩, h.kind, fun y hy => ?_⟩
  rcases List.mem_append.mp hy with hy | hy
  · exact h.rest y hy
  · rw [List.mem_singleton.mp hy]; exact hx

/-- A label of the kind is the last one. -/
theorem Last.new (t : List ε) (hx : p x) : Last p (t ++ [x]) x [] := ⟨⟨t, rfl⟩, hx, nofun⟩

end Lib.Trace
