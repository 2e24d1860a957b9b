import MinaLedger.Lib.Trace
import Mathlib.Data.List.Induction
import Mathlib.Data.Option.Basic

/-!
# Services that answer one request at a time

What passes the boundary of a service is a list of labels: a request, the consent
of a user to the request that waits, a reply, and a reset, which drops the request.
The request that waits is a function of the labels so far (`pending`).

A service converses (`Conversation`) when each of its replies answers the request
that waits then, with the consent given since. `stray` says what it may send while
no request waits.

Results:
* `Conversation.reply`: a reply answers the request right before it, or is stray.
* `Conversation.answered`: a reply that follows a request answers it.
* `Conversation.count_le`: replies that need consent are no more than the consents.
* `Conversation.request`: what follows a request is its reply, a reset, or nothing yet.
* `run_conversation`: a system converses if its states simulate the request that waits.
-/
namespace Lib.Service
open Lib.Trace

variable {Q R : Type}

inductive Label (Q R : Type) where
  | request (q : Q)
  | consent
  | reply (r : R)
  | reset

/-- A request, and whether it has consent. -/
abbrev Waiting (Q : Type) := Option (Q × Bool)

/-- The request that waits after one more label. -/
def after : Waiting Q → Label Q R → Waiting Q
  | _, .request q => some (q, false)
  | w, .consent => w.map fun x => (x.1, true)
  | _, .reply _ => none
  | _, .reset => none

/-- The request that waits after the labels. -/
def pending (l : List (Label Q R)) : Waiting Q := l.foldl after none

/-- Every label is allowed where it stands. -/
def Guarded (allowed : Waiting Q → Label Q R → Prop) : Waiting Q → List (Label Q R) → Prop
  | _, [] => True
  | w, x :: l => allowed w x ∧ Guarded allowed (after w x) l

/-- The host asks only when no request waits. -/
def InTurn : Waiting Q → Label Q R → Prop
  | w, .request _ => w = none
  | _, _ => True

/-- Consent is to the request that waits, and a reply answers it. -/
def Proper (answers : Q → Bool → R → Prop) (stray : R → Prop) : Waiting Q → Label Q R → Prop
  | w, .request _ => w = none
  | w, .consent => w ≠ none
  | some (q, consent), .reply r => answers q consent r
  | none, .reply r => stray r
  | _, .reset => True

def Conversation (answers : Q → Bool → R → Prop) (stray : R → Prop) (l : List (Label Q R)) : Prop :=
  Guarded (Proper answers stray) none l

section Guarded

variable {allowed : Waiting Q → Label Q R → Prop} {w : Waiting Q} {l m : List (Label Q R)}

theorem guarded_append :
    Guarded allowed w (l ++ m) ↔ Guarded allowed w l ∧ Guarded allowed (l.foldl after w) m := by
  induction l generalizing w with
  | nil => exact ⟨fun h => ⟨trivial, h⟩, fun h => h.2⟩
  | cons x l ih => simp only [List.cons_append, Guarded, List.foldl_cons, ih, and_assoc]

end Guarded

/-! ## What a request that waits looks like -/

/-- Only consents came after it. -/
theorem pending_some {l : List (Label Q R)} {q : Q} {consent : Bool}
    (h : pending l = some (q, consent)) :
    ∃ l₀ mid, l = l₀ ++ .request q :: mid ∧ (∀ x ∈ mid, x = .consent) ∧ consent = !mid.isEmpty := by
  induction l using List.reverseRecOn generalizing consent with
  | nil => cases h
  | append_singleton l x ih =>
    rw [pending, List.foldl_append] at h
    cases x with
    | request q' =>
      obtain ⟨rfl, rfl⟩ := Prod.mk.inj (Option.some.inj h)
      exact ⟨l, [], rfl, List.forall_mem_nil _, rfl⟩
    | consent =>
      obtain ⟨⟨q', c⟩, hw, heq⟩ := Option.map_eq_some_iff.mp h
      obtain ⟨rfl, rfl⟩ := Prod.mk.inj heq
      obtain ⟨l₀, mid, rfl, hmid, -⟩ := ih hw
      refine ⟨l₀, mid ++ [.consent], by rw [List.append_assoc]; rfl, fun x hx => ?_, by simp⟩
      rcases List.mem_append.mp hx with hx | hx
      · exact hmid x hx
      · exact List.mem_singleton.mp hx
    | reply r => cases h
    | reset => cases h

/-- Consents leave it waiting. -/
theorem foldl_consents {q : Q} {consent : Bool} {mid : List (Label Q R)}
    (hmid : ∀ x ∈ mid, x = .consent) :
    mid.foldl after (some (q, consent)) = some (q, consent || !mid.isEmpty) := by
  induction mid generalizing consent with
  | nil => simp
  | cons x mid ih =>
    obtain rfl := hmid x List.mem_cons_self
    rw [List.foldl_cons]
    refine (ih fun y hy => hmid y (List.mem_cons_of_mem _ hy)).trans ?_
    simp

section Conversation

variable {answers : Q → Bool → R → Prop} {stray : R → Prop} {l₁ l₂ : List (Label Q R)}

/-- No reply is sent twice, or to another request: before it stands the request it answers. -/
theorem Conversation.reply {r : R} (h : Conversation answers stray (l₁ ++ .reply r :: l₂)) :
    (pending l₁ = none ∧ stray r) ∨
    ∃ l₀ q mid, l₁ = l₀ ++ .request q :: mid ∧ (∀ x ∈ mid, x = .consent) ∧
      answers q (!mid.isEmpty) r := by
  obtain ⟨-, hr, -⟩ := guarded_append.mp h
  change Proper answers stray (pending l₁) (.reply r) at hr
  cases hw : pending l₁ with
  | none => rw [hw] at hr; exact .inl ⟨rfl, hr⟩
  | some w =>
    obtain ⟨q, consent⟩ := w
    obtain ⟨l₀, mid, hl, hmid, hc⟩ := pending_some hw
    rw [hw] at hr
    exact .inr ⟨l₀, q, mid, hl, hmid, hc ▸ hr⟩

/-- A reply with only consents between it and a request answers that request. -/
theorem Conversation.answered {q : Q} {mid : List (Label Q R)} {r : R}
    (h : Conversation answers stray (l₁ ++ .request q :: (mid ++ .reply r :: l₂)))
    (hmid : ∀ x ∈ mid, x = .consent) : answers q (!mid.isEmpty) r := by
  obtain ⟨-, -, h⟩ := guarded_append.mp h
  obtain ⟨-, hr, -⟩ := guarded_append.mp h
  rw [after, foldl_consents hmid] at hr
  exact hr

/-- A reply of a kind, and a consent. -/
def Label.isReply (kind : R → Bool) : Label Q R → Bool
  | .reply r => kind r
  | _ => false

def Label.isConsent : Label Q R → Bool
  | .consent => true
  | _ => false

/-- A consent that was not used yet allows one more. -/
def unused : Waiting Q → Nat
  | some (_, true) => 1
  | _ => 0

theorem guarded_count_le {kind : R → Bool} (hplain : ∀ q r, answers q false r → kind r = false)
    (hstray : ∀ r, stray r → kind r = false) {w : Waiting Q} {l : List (Label Q R)}
    (h : Guarded (Proper answers stray) w l) :
    l.countP (Label.isReply kind) ≤ l.countP Label.isConsent + unused w := by
  induction l generalizing w with
  | nil => exact Nat.zero_le _
  | cons x l ih =>
    obtain ⟨hx, hl⟩ := h
    have hrest := ih hl
    rw [List.countP_cons, List.countP_cons]
    cases x with
    | request q =>
      change _ ≤ _ + 0 at hrest
      simp only [Label.isReply, Label.isConsent, Bool.false_eq_true, if_false]
      omega
    | consent =>
      have hone : unused (after w (.consent : Label Q R)) ≤ 1 := by
        cases w with
        | none => exact Nat.zero_le _
        | some w => exact Nat.le_refl 1
      simp only [Label.isReply, Label.isConsent, Bool.false_eq_true, if_false, if_true]
      omega
    | reset =>
      change _ ≤ _ + 0 at hrest
      simp only [Label.isReply, Label.isConsent, Bool.false_eq_true, if_false]
      omega
    | reply r =>
      change _ ≤ _ + 0 at hrest
      have hkind : (if kind r = true then 1 else 0) ≤ unused w := by
        cases w with
        | none => simp [hstray r hx]
        | some w =>
          obtain ⟨q, consent⟩ := w
          cases consent with
          | false => simp [hplain q r hx]
          | true =>
            -- the consent is used up
            change _ ≤ 1
            split <;> simp
      change _ + (if kind r = true then 1 else 0) ≤ l.countP Label.isConsent + 0 + unused w
      omega

/-- Replies that need consent are no more than the consents. -/
theorem Conversation.count_le {kind : R → Bool}
    (hplain : ∀ q r, answers q false r → kind r = false) (hstray : ∀ r, stray r → kind r = false)
    {l : List (Label Q R)} (h : Conversation answers stray l) :
    l.countP (Label.isReply kind) ≤ l.countP Label.isConsent :=
  guarded_count_le hplain hstray h

/-- From a request that waits on. -/
theorem guarded_waiting {q : Q} {consent : Bool}
    (h : Guarded (Proper answers stray) (some (q, consent)) l₂) :
    ∃ mid rest, l₂ = mid ++ rest ∧ (∀ x ∈ mid, x = .consent) ∧
      (rest = [] ∨ (∃ r rest', rest = .reply r :: rest' ∧ answers q (consent || !mid.isEmpty) r) ∨
        ∃ rest', rest = .reset :: rest') := by
  induction l₂ generalizing consent with
  | nil => exact ⟨[], [], rfl, List.forall_mem_nil _, .inl rfl⟩
  | cons x l ih =>
    obtain ⟨hx, h⟩ := h
    cases x with
    | request q' => cases hx
    | consent =>
      obtain ⟨mid, rest, rfl, hmid, hrest⟩ := ih h
      refine ⟨.consent :: mid, rest, rfl, fun y hy => ?_, by simpa using hrest⟩
      rcases List.mem_cons.mp hy with hy | hy
      · exact hy
      · exact hmid y hy
    | reply r =>
      refine ⟨[], _, rfl, List.forall_mem_nil _, .inr (.inl ⟨r, l, rfl, ?_⟩)⟩
      rw [List.isEmpty_nil, Bool.not_true, Bool.or_false]
      exact hx
    | reset => exact ⟨[], _, rfl, List.forall_mem_nil _, .inr (.inr ⟨l, rfl⟩)⟩

/-- No request is lost: its reply follows, unless it still waits or was dropped. -/
theorem Conversation.request {q : Q} (h : Conversation answers stray (l₁ ++ .request q :: l₂)) :
    ∃ mid rest, l₂ = mid ++ rest ∧ (∀ x ∈ mid, x = .consent) ∧
      (rest = [] ∨ (∃ r rest', rest = .reply r :: rest' ∧ answers q (!mid.isEmpty) r) ∨
        ∃ rest', rest = .reset :: rest') := by
  obtain ⟨-, -, h⟩ := guarded_append.mp h
  obtain ⟨mid, rest, hl, hmid, hrest⟩ := guarded_waiting h
  exact ⟨mid, rest, hl, hmid, by simpa using hrest⟩

end Conversation

/-! ## Systems that converse -/

section Simulation

variable {σ ε : Type} {start : σ → Prop} {step : σ → ε → σ → Prop} {labels : ε → List (Label Q R)}
  {answers : Q → Bool → R → Prop} {stray : R → Prop} {Sim : σ → Waiting Q → Prop}

/-- If every step does what is proper for the request its state stands for, so does
every run whose requests come in turn. -/
theorem run_conversation (h0 : ∀ s, start s → Sim s none)
    (hstep : ∀ s e s' w, Sim s w → step s e s' → Guarded InTurn w (labels e) →
      Guarded (Proper answers stray) w (labels e) ∧ Sim s' ((labels e).foldl after w))
    {t : List ε} {s : σ} (h : Run start step t s) (hturn : Guarded InTurn none (t.flatMap labels)) :
    Conversation answers stray (t.flatMap labels) ∧ Sim s (pending (t.flatMap labels)) := by
  induction h with
  | nil hs => exact ⟨trivial, h0 _ hs⟩
  | @snoc t s s' e _ hs ih =>
    have hlabels : (t ++ [e]).flatMap labels = t.flatMap labels ++ labels e := by simp
    rw [hlabels] at hturn ⊢
    obtain ⟨hbefore, hnow⟩ := guarded_append.mp hturn
    obtain ⟨hconv, hsim⟩ := ih hbefore
    obtain ⟨hproper, hsim'⟩ := hstep _ _ _ _ hsim hs hnow
    exact ⟨guarded_append.mpr ⟨hconv, hproper⟩, by rw [pending, List.foldl_append]; exact hsim'⟩

end Simulation

end Lib.Service
