import Mathlib.Logic.Basic

/-!
# Programs that ask

A program asks its environment, which may answer anything, and returns or fails. A
transcript is the list of its questions with the answers. What a program is held to
is said by two predicates on transcripts: `safe` for each question where it is asked,
`post` for the value it returns; a failure is always allowed.

Results:
* `asks_seq`, `asks_call`: the transcript of a composed program.
* `wp_bind`, `wp_mono`, `wp_grow`: the rules for composing programs.
* `safe_of_asks`, `post_of_asks`: what is proved by the rules holds of every transcript.
* `invariant_of_asks`: so does what no safe question breaks.
-/
namespace Lib.Dialogue

variable {Q : Type} {A : Q → Type} {ε α β : Type}

inductive Program (Q : Type) (A : Q → Type) (ε α : Type) where
  | done (r : Except ε α)
  | ask (q : Q) (k : A q → Program Q A ε α)

/-- A question and its answer. -/
abbrev Exchange (Q : Type) (A : Q → Type) := (q : Q) × A q

def Program.bind : Program Q A ε α → (α → Program Q A ε β) → Program Q A ε β
  | .done (.ok a), f => f a
  | .done (.error e), _ => .done (.error e)
  | .ask q k, f => .ask q fun a => (k a).bind f

instance : Monad (Program Q A ε) where
  pure a := .done (.ok a)
  bind := Program.bind

/-- A computation that asks nothing. -/
def call (x : Except ε α) : Program Q A ε α := .done x

def raise (e : ε) : Program Q A ε α := .done (.error e)

/-- One question. -/
def ask (q : Q) : Program Q A ε (A q) := .ask q fun a => .done (.ok a)

/-! ## Transcripts -/

/-- The program asked the questions of the transcript, got its answers, and goes on as the
second program. -/
inductive Asks : Program Q A ε α → List (Exchange Q A) → Program Q A ε α → Prop
  | nil (p : Program Q A ε α) : Asks p [] p
  | cons {q : Q} {k : A q → Program Q A ε α} {a : A q} {t : List (Exchange Q A)}
      {p : Program Q A ε α} : Asks (k a) t p → Asks (.ask q k) (⟨q, a⟩ :: t) p

section Asks

theorem asks_bind {p p' : Program Q A ε α} {f : α → Program Q A ε β} {t : List (Exchange Q A)}
    (h : Asks p t p') : Asks (p >>= f) t (p' >>= f) := by
  induction h with
  | nil p => exact .nil _
  | cons _ ih => exact .cons ih

theorem asks_append {p p' p'' : Program Q A ε α} {t t' : List (Exchange Q A)} (h : Asks p t p')
    (h' : Asks p' t' p'') : Asks p (t ++ t') p'' := by
  induction h with
  | nil p => exact h'
  | cons _ ih => exact .cons (ih h')

/-- A part of a program that returns, and then the rest. -/
theorem asks_seq {p : Program Q A ε α} {f : α → Program Q A ε β} {r : Program Q A ε β} {a : α}
    {t t' : List (Exchange Q A)} (hp : Asks p t (.done (.ok a))) (hf : Asks (f a) t' r) :
    Asks (p >>= f) (t ++ t') r := asks_append (asks_bind hp) hf

theorem asks_call {x : Except ε α} {f : α → Program Q A ε β} {r : Program Q A ε β} {a : α}
    {t : List (Exchange Q A)} (hx : x = .ok a) (hf : Asks (f a) t r) :
    Asks (call x >>= f) t r := by
  subst hx
  exact hf

/-- What was asked was asked after the part before it. -/
theorem asks_split {p r : Program Q A ε α} {t₁ t₂ : List (Exchange Q A)} {q : Q} {a : A q}
    (h : Asks p (t₁ ++ ⟨q, a⟩ :: t₂) r) : ∃ k, Asks p t₁ (.ask q k) := by
  induction t₁ generalizing p with
  | nil =>
    cases h with
    | cons h => exact ⟨_, .nil _⟩
  | cons x t₁ ih =>
    cases h with
    | cons h =>
      obtain ⟨k, hk⟩ := ih h
      exact ⟨k, .cons hk⟩

theorem asks_ask (q : Q) (a : A q) : Asks (ask q : Program Q A ε (A q)) [⟨q, a⟩] (.done (.ok a)) :=
  .cons (.nil _)

end Asks

section Wp

variable (safe : List (Exchange Q A) → Q → Prop)

/-- Whatever is answered, questions are safe and the value is as `post` says. -/
def wp (post : List (Exchange Q A) → α → Prop) : Program Q A ε α → List (Exchange Q A) → Prop
  | .done (.ok a), t => post t a
  | .done (.error _), _ => True
  | .ask q k, t => safe t q ∧ ∀ a, wp post (k a) (t ++ [⟨q, a⟩])

variable {safe} {post post' : List (Exchange Q A) → α → Prop} {t : List (Exchange Q A)}

theorem wp_mono {p : Program Q A ε α} (hpost : ∀ t a, post t a → post' t a)
    (h : wp safe post p t) : wp safe post' p t := by
  induction p generalizing t with
  | done r =>
    cases r with
    | error e => trivial
    | ok a => exact hpost t a h
  | ask q k ih => exact ⟨h.1, fun a => ih a (h.2 a)⟩

/-- A safe question is safe in a wider sense. -/
theorem wp_safe_mono {safe' : List (Exchange Q A) → Q → Prop} {p : Program Q A ε α}
    (hsafe : ∀ t q, safe t q → safe' t q) (h : wp safe post p t) : wp safe' post p t := by
  induction p generalizing t with
  | done r =>
    cases r with
    | error e => trivial
    | ok a => exact h
  | ask q k ih => exact ⟨hsafe t q h.1, fun a => ih a (h.2 a)⟩

theorem wp_bind {p : Program Q A ε α} {f : α → Program Q A ε β}
    {post : List (Exchange Q A) → β → Prop} :
    wp safe post (p >>= f) t ↔ wp safe (fun t a => wp safe post (f a) t) p t := by
  induction p generalizing t with
  | done r => cases r <;> exact Iff.rfl
  | ask q k ih => exact and_congr_right fun _ => forall_congr' fun a => ih a

/-- A part of a program by its own specification, and then the rest. -/
theorem wp_seq {p : Program Q A ε α} {f : α → Program Q A ε β}
    {post' : List (Exchange Q A) → β → Prop} (hp : wp safe post p t)
    (hf : ∀ t a, post t a → wp safe post' (f a) t) : wp safe post' (p >>= f) t :=
  wp_bind.mpr (wp_mono hf hp)

theorem wp_call {x : Except ε α} : wp safe post (call x) t ↔ ∀ a, x = .ok a → post t a := by
  cases x with
  | error e => exact ⟨fun _ _ h => (by cases h), fun _ => trivial⟩
  | ok a => exact ⟨fun h b hb => Except.ok.inj hb ▸ h, fun h => h a rfl⟩

theorem wp_raise {e : ε} : wp safe post (raise e : Program Q A ε α) t := trivial

theorem wp_pure {a : α} (h : post t a) : wp safe post (pure a : Program Q A ε α) t := h

theorem wp_ask {q : Q} {post : List (Exchange Q A) → A q → Prop} (hq : safe t q)
    (h : ∀ a, post (t ++ [⟨q, a⟩]) a) : wp safe post (ask q : Program Q A ε (A q)) t := ⟨hq, h⟩

theorem wp_ite {c : Prop} [Decidable c] {p p' : Program Q A ε α} (hp : c → wp safe post p t)
    (hp' : ¬c → wp safe post p' t) : wp safe post (if c then p else p') t := by
  split
  · exact hp ‹_›
  · exact hp' ‹_›

/-- A transcript only grows. -/
theorem wp_grow {p : Program Q A ε α} (h : wp safe post p t) :
    wp safe (fun t' a => post t' a ∧ t <+: t') p t := by
  induction p generalizing t with
  | done r =>
    cases r with
    | error e => trivial
    | ok a => exact ⟨h, List.prefix_refl t⟩
  | ask q k ih =>
    exact ⟨h.1, fun a => wp_mono (fun t' b hb => ⟨hb.1, (List.prefix_append t _).trans hb.2⟩)
      (ih a (h.2 a))⟩

/-! ## Soundness -/

theorem wp_asks {p p' : Program Q A ε α} {t₀ : List (Exchange Q A)} (h : wp safe post p t₀)
    (ha : Asks p t p') : wp safe post p' (t₀ ++ t) := by
  induction ha generalizing t₀ with
  | nil p => rwa [List.append_nil]
  | cons ha ih =>
    have hnext := ih (h.2 _)
    rwa [List.append_assoc] at hnext

theorem safe_of_asks {p : Program Q A ε α} {q : Q} {k : A q → Program Q A ε α}
    (h : wp safe post p []) (ha : Asks p t (.ask q k)) : safe t q := (wp_asks h ha).1

theorem post_of_asks {p : Program Q A ε α} {a : α} (h : wp safe post p [])
    (ha : Asks p t (.done (.ok a))) : post t a := wp_asks h ha

theorem invariant_of_asks {I : List (Exchange Q A) → Prop} {p r : Program Q A ε α}
    (h : wp safe post p []) (h0 : I []) (hstep : ∀ t q a, I t → safe t q → I (t ++ [⟨q, a⟩]))
    (ha : Asks p t r) : I t := by
  have hgo : ∀ {p r : Program Q A ε α} {t t₀ : List (Exchange Q A)}, Asks p t r →
      wp safe post p t₀ → I t₀ → I (t₀ ++ t) := by
    intro p r t t₀ ha
    induction ha generalizing t₀ with
    | nil p => intro _ hi; rwa [List.append_nil]
    | cons ha ih =>
      intro h hi
      have hnext := ih (h.2 _) (hstep _ _ _ hi h.1)
      rwa [List.append_assoc] at hnext
  exact hgo ha h h0

end Wp

end Lib.Dialogue
