import Mathlib.Data.List.Basic
import Mathlib.Tactic.Ring

/-!
# C arrays, C integers and exceptions

What every module shares. A C array of known size is a `Vector`, memory
behind a `const` pointer is a `List`; an access goes through `load` / `store`,
which fault outside the array instead of reading a default. A computation
returns a value, or stops with a `Fault`:

* `undefined`: the C program has no meaning (an access outside an array);
* `thrown e`: `THROW(e)` of the BOLOS SDK, the only fault `CATCH_OTHER` sees;
* `outOfFuel`: a `while` loop of the model used up its bound. Every loop is
  shown to end before that.

An uninitialised local array starts with the content of a `Stale`, which no
theorem fixes.
-/
namespace MinaLedger

/-- Why a call did not return. -/
inductive Fault where
  | undefined
  | outOfFuel
  | thrown (e : Nat)
  deriving DecidableEq, Repr

abbrev Exec (α : Type) := Except Fault α

/-- `INVALID_PARAMETER` of the SDK's exception numbers. -/
def INVALID_PARAMETER : Nat := 2

/-- `THROW(e)`. -/
def throwSdk {α : Type} (e : Nat) : Exec α := .error (.thrown e)

/-- What uninitialised locals happen to hold. -/
structure Stale where
  bytes : Nat → UInt8

/-- An uninitialised `uint8_t[n]`. -/
def Stale.array (s : Stale) (n : Nat) : Vector UInt8 n := Vector.ofFn fun i => s.bytes i

/-! ## Checked memory -/

variable {α β : Type} {n : Nat}

/-- `a[i]` as a value. -/
def load (a : List α) (i : Nat) : Exec α :=
  match a[i]? with
  | some v => .ok v
  | none => .error .undefined

/-- `a[i] = v`. -/
def store (a : Vector α n) (i : Nat) (v : α) : Exec (Vector α n) :=
  if h : i < n then .ok (a.set i v) else .error .undefined

/-- `memcpy` out of `src + off`: the `k` bytes it reads. -/
def readBytes (src : List α) (off k : Nat) : Exec (List α) :=
  if off + k ≤ src.length then .ok ((src.drop off).take k) else .error .undefined

/-- `memcpy(dst + off, src, src.length)`. -/
def writeBytes (dst : Vector α n) (off : Nat) (src : List α) : Exec (Vector α n) :=
  if h : off + src.length ≤ n then
    .ok ⟨(dst.toList.take off ++ src ++ dst.toList.drop (off + src.length)).toArray, by
      simp only [List.size_toArray, List.length_append, List.length_take, List.length_drop,
        Vector.length_toList]; omega⟩
  else .error .undefined

@[simp] theorem load_eq (a : List α) (i : Nat) (h : i < a.length) : load a i = .ok a[i] := by
  simp [load, List.getElem?_eq_getElem h]

theorem store_eq (a : Vector α n) (i : Nat) (v : α) (h : i < n) : store a i v = .ok (a.set i v) := by
  simp [store, h]

theorem store_toList (a : Vector α n) (i : Nat) (v : α) (h : i < n) :
    ∃ b, store a i v = .ok b ∧ b.toList = a.toList.set i v :=
  ⟨_, store_eq a i v h, Vector.toList_set h⟩

theorem readBytes_eq (src : List α) (off k : Nat) (h : off + k ≤ src.length) :
    readBytes src off k = .ok ((src.drop off).take k) := by
  simp [readBytes, h]

theorem writeBytes_toList (dst : Vector α n) (off : Nat) (src : List α) (h : off + src.length ≤ n) :
    ∃ b, writeBytes dst off src = .ok b ∧
      b.toList = dst.toList.take off ++ src ++ dst.toList.drop (off + src.length) :=
  ⟨_, by rw [writeBytes, dif_pos h], rfl⟩

/-! ## Composing faulting computations -/

/-- A bind that returned: its first part returned, and then its second. -/
theorem bind_ok {x : Exec α} {f : α → Exec β} {r : β} (h : (x >>= f) = .ok r) :
    ∃ a, x = .ok a ∧ f a = .ok r := by
  cases x with
  | error e => cases h
  | ok a => exact ⟨a, rfl, h⟩

@[simp] theorem ok_bind (a : α) (f : α → Exec β) : ((Except.ok a : Exec α) >>= f) = f a := rfl

@[simp] theorem error_bind (e : Fault) (f : α → Exec β) :
    ((Except.error e : Exec α) >>= f) = .error e := rfl

@[simp] theorem pure_eq_ok (a : α) : (pure a : Exec α) = .ok a := rfl

/-- A `for` loop stops at the first round that fails. -/
theorem foldlM_range_error {body : β → Nat → Exec β} {s t : β} {e : Fault} {k len : Nat}
    (hk : k < len) (hrun : (List.range k).foldlM body s = .ok t) (hstop : body t k = .error e) :
    (List.range len).foldlM body s = .error e := by
  obtain ⟨m, rfl⟩ : ∃ m, len = k + (m + 1) := ⟨len - k - 1, by omega⟩
  rw [List.range_add, List.foldlM_append, hrun, ok_bind, List.range_succ_eq_map, List.map_cons,
    List.foldlM_cons, Nat.add_zero, hstop, error_bind]

theorem store_outside (a : Vector α n) {i : Nat} (v : α) (h : n ≤ i) :
    store a i v = .error .undefined := by
  rw [store, dif_neg (by omega)]

/-- A `for` loop that stores `f 0`, `f 1`, … from `off` on writes what `memcpy` would. -/
theorem foldlM_store (dst : Vector α n) (off : Nat) (f : Nat → Exec α) (src : List α)
    (hf : ∀ i (h : i < src.length), f i = .ok src[i]) (hn : off + src.length ≤ n) :
    ∃ r, (List.range src.length).foldlM (fun d i => f i >>= fun c => store d (off + i) c) dst =
        .ok r ∧ r.toList = dst.toList.take off ++ src ++ dst.toList.drop (off + src.length) := by
  have hrun : ∀ k ≤ src.length, ∃ r,
      (List.range k).foldlM (fun d i => f i >>= fun c => store d (off + i) c) dst = .ok r ∧
      r.toList = dst.toList.take off ++ src.take k ++ dst.toList.drop (off + k) := by
    intro k
    induction k with
    | zero => intro _; exact ⟨dst, rfl, by simp⟩
    | succ k ih =>
      intro hk
      obtain ⟨r, hr, hlist⟩ := ih (by omega)
      obtain ⟨r', hr', hlist'⟩ := store_toList r (off + k) src[k] (by omega)
      refine ⟨r', ?_, ?_⟩
      · rw [List.range_succ, List.foldlM_append, hr, ok_bind]
        simp only [List.foldlM_cons, List.foldlM_nil, hf k hk, ok_bind, hr', pure_eq_ok]
      · have hlen : (dst.toList.take off ++ src.take k).length = off + k := by
          simp only [List.length_append, List.length_take, Vector.length_toList]; omega
        have hdrop : off + k < dst.toList.length := by rw [Vector.length_toList]; omega
        rw [hlist', hlist, List.set_append_right _ _ (by omega), hlen, Nat.sub_self,
          List.drop_eq_getElem_cons hdrop, List.set_cons_zero, List.take_succ_eq_append_getElem hk,
          ← List.append_assoc, List.append_assoc _ [src[k]], Nat.add_assoc]
        rfl
  simpa using hrun src.length le_rfl

/-! ## C integers -/

/-- Conversion to `int` (32 bits, two's complement). -/
def cint (z : Int) : Int := z.bmod (2 ^ 32)

/-- Conversion to `size_t` (32 bits on the device). -/
def csize (z : Int) : Nat := (z % 2 ^ 32).toNat

theorem cint_eq (z : Int) (h1 : -2 ^ 31 ≤ z) (h2 : z < 2 ^ 31) : cint z = z := by
  unfold cint
  rw [Int.bmod_eq_of_le] <;> omega

theorem csize_eq (k : Nat) (h : k < 2 ^ 32) : csize (k : Int) = k := by
  unfold csize; omega

/-! ## C strings -/

/-- `strnlen(s, n)`. -/
def strnlen (s : List UInt8) (n : Nat) : Nat := ((s.take n).takeWhile (· ≠ 0)).length

/-- The text a NUL-terminated buffer shows. -/
def cstr (s : List UInt8) : List UInt8 := s.takeWhile (· ≠ 0)

/-- The text ends at its NUL. -/
theorem cstr_append_zero {s rest : List UInt8} (h : (0 : UInt8) ∉ s) :
    cstr (s ++ [0] ++ rest) = s := by
  rw [cstr, List.append_assoc, List.takeWhile_append_of_pos (fun c hc => by
    simpa using fun h0 : c = 0 => h (h0 ▸ hc))]
  simp

/-- A text shorter than its buffer ends at a NUL inside it. -/
theorem exists_nul : ∀ {s : List UInt8}, (cstr s).length < s.length →
    ∃ rest, s = cstr s ++ [0] ++ rest
  | [], h => absurd h (Nat.lt_irrefl 0)
  | c :: s, h => by
    by_cases hc : c = 0
    · exact ⟨s, by simp [cstr, hc]⟩
    · have hcons : cstr (c :: s) = c :: cstr s := by simp [cstr, hc]
      rw [hcons, List.length_cons, List.length_cons] at h
      obtain ⟨rest, hrest⟩ := exists_nul (Nat.lt_of_succ_lt_succ h)
      exact ⟨rest, by rw [hcons, List.cons_append, List.cons_append, ← hrest]⟩

/-- The characters of a string literal. -/
def chars (s : String) : List UInt8 := s.toList.map fun c => c.val.toUInt8

/-- The characters of a literal, then zeros up to `k`. -/
def padded (src : String) (k : Nat) : List UInt8 := (chars src ++ List.replicate k 0).take k

/-- `strncpy(dst, src, k)` for a literal. -/
def strncpy (dst : Vector UInt8 n) (src : String) (k : Nat) : Exec (Vector UInt8 n) :=
  writeBytes dst 0 (padded src k)

theorem length_padded (src : String) (k : Nat) : (padded src k).length = k := by
  rw [padded, List.length_take, List.length_append, List.length_replicate]; omega

theorem strncpy_eq (dst : Vector UInt8 n) (src : String) :
    ∃ r, strncpy dst src n = .ok r ∧ r.toList = padded src n := by
  have hlen := length_padded src n
  obtain ⟨r, hr, hlist⟩ := writeBytes_toList dst 0 (padded src n) (by omega)
  have hdrop : dst.toList.drop n = [] := List.drop_eq_nil_of_le (by simp)
  rw [hlen, List.take_zero, List.nil_append, Nat.zero_add, hdrop, List.append_nil] at hlist
  exact ⟨r, hr, hlist⟩

theorem strnlen_le (s : List UInt8) (n : Nat) : strnlen s n ≤ n := by
  unfold strnlen
  have h1 := (List.takeWhile_prefix (p := (· ≠ (0 : UInt8))) (l := s.take n)).length_le
  have h2 := List.length_take_le n s
  omega

end MinaLedger
