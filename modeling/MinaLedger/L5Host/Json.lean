import MinaLedger.L5Host.CommandLine

/-!
# JSON values as the wallet sees them

What `json.loads` returns and what Python's operators do with it. A server may send
any value where the wallet expects an object, so every operation has an outcome for
every value. The library functions on texts and floating-point numbers are
parameters.

Results:
* `item_setItem`, `item_setItem_ne`: a member that is assigned is read back, and the
  others stay.
-/
namespace MinaLedger
open Lib.Text

/-- What `json.loads` returns: a float is its 64 bits, an object its members. -/
inductive Json where
  | null
  | bool (b : Bool)
  | int (n : Int)
  | float (bits : UInt64)
  | str (s : Str)
  | arr (l : List Json)
  | obj (l : List (Str × Json))

/-- What ends the wallet. -/
inductive Stop where
  /-- `sys.exit(code)` -/
  | exit (code : Nat)
  | Exception (msg : Str)
  /-- by a function of the command line, or by Python itself -/
  | raised (e : Raised)
  /-- by `requests`, `json.loads` or `ledgerblue` -/
  | library

/-- `TypeError`, `KeyError`, `NameError` and the like. -/
def Stop.builtin : Stop := .raised .builtin

/-- Python and the library functions the wallet calls. -/
structure Runtime extends Python where
  VERBOSE : Bool
  /-- `json.loads(s)` -/
  loads : Str → Option Json
  /-- `json.dumps(v)` -/
  dumps : Json → Str
  /-- `str(v)` of a value that is neither a text nor an integer -/
  repr : Json → Str
  /-- `int(x)` of a float -/
  int_of_float : UInt64 → Option Int
  /-- `x == n` for a float -/
  float_eq : UInt64 → Int → Bool
  /-- `float(amount)/COIN`; `none` is an `OverflowError` -/
  to_currency : Int → Option UInt64
  /-- `"{}".format(x)` and `"{:.9f}".format(x)` of a float -/
  format : UInt64 → Str
  format_9f : UInt64 → Str
  /-- `answer.lower().strip()` -/
  lower_strip : Str → Str

/-- A text of the source. -/
def text (s : String) : Json := .str (ofString s)

/-- An object with keys of the source. -/
def object (l : List (String × Json)) : Json := .obj (l.map fun p => (ofString p.1, p.2))

/-- `str(n)` -/
def intText (n : Int) : Str := ofString (toString n)

namespace Json

/-! ## Python's operators -/

/-- `v == s` -/
def isStr (s : Str) : Json → Bool
  | .str t => t = s
  | _ => false

/-- `v == s` for a text of the source. -/
def is (s : String) : Json → Bool := isStr (ofString s)

/-- `v is None` -/
def isNone : Json → Bool
  | .null => true
  | _ => false

/-- `v == n` -/
def isInt (py : Runtime) (n : Int) : Json → Bool
  | .int m => m = n
  | .bool b => b.toInt = n
  | .float x => py.float_eq x n
  | _ => false

/-- `key in v` -/
def contains (key : String) : Json → Except Stop Bool
  | .obj l => .ok (l.any fun p => p.1 = ofString key)
  | .arr l => .ok (l.any fun v => v.is key)
  | .str s => .ok (decide (ofString key <:+: s))
  | _ => .error .builtin

/-- `v[key]` -/
def item (key : String) : Json → Except Stop Json
  | .obj l =>
    match l.find? fun p => p.1 = ofString key with
    | some p => .ok p.2
    | none => .error .builtin
  | _ => .error .builtin

/-- `v[i]` -/
def index (i : Nat) : Json → Except Stop Json
  | .arr l =>
    match l[i]? with
    | some v => .ok v
    | none => .error .builtin
  | .str s =>
    match s[i]? with
    | some c => .ok (.str [c])
    | none => .error .builtin
  | _ => .error .builtin

/-- `len(v)` -/
def len : Json → Except Stop Nat
  | .arr l => .ok l.length
  | .obj l => .ok l.length
  | .str s => .ok s.length
  | _ => .error .builtin

/-- The values of `for x in v`. -/
def elements : Json → Except Stop (List Json)
  | .arr l => .ok l
  | .obj l => .ok (l.map fun p => .str p.1)
  | .str s => .ok (s.map fun c => .str [c])
  | _ => .error .builtin

/-- The members after `v[key] = x`. -/
def assign (key : Str) (x : Json) : List (Str × Json) → List (Str × Json)
  | [] => [(key, x)]
  | p :: l => if p.1 = key then (key, x) :: l else p :: assign key x l

/-- `v[key] = x` -/
def setItem (v : Json) (key : String) (x : Json) : Except Stop Json :=
  match v with
  | .obj l => .ok (.obj (assign (ofString key) x l))
  | _ => .error .builtin

/-- `int(v)` -/
def toInt (py : Runtime) : Json → Except Stop Int
  | .int n => .ok n
  | .bool b => .ok b.toInt
  | .str s =>
    match py.int s with
    | some n => .ok n
    | none => .error .builtin
  | .float x =>
    match py.int_of_float x with
    | some n => .ok n
    | none => .error .builtin
  | _ => .error .builtin

/-- `str(v)` -/
def toStr (py : Runtime) : Json → Str
  | .str s => s
  | .int n => intText n
  | v => py.repr v

/-- The integer that `'{:08x}'.format(v)` writes; a text or a float has no such format. -/
def hexArg : Json → Except Stop Int
  | .int n => .ok n
  | .bool b => .ok b.toInt
  | _ => .error .builtin

theorem isStr_iff {s : Str} {v : Json} : v.isStr s = true ↔ v = .str s := by
  cases v <;> simp [isStr]

theorem isNone_iff {v : Json} : v.isNone = true ↔ v = .null := by
  cases v <;> simp [isNone]

/-- A member that can be read is there. -/
theorem contains_of_item {key : String} {v x : Json} (h : v.item key = .ok x) :
    v.contains key = .ok true := by
  cases v with
  | obj l =>
    rw [item] at h
    split at h
    · rename_i p hp
      exact congrArg _ (List.any_eq_true.mpr ⟨p, List.mem_of_find?_eq_some hp, by
        simpa using List.find?_some hp⟩)
    · cases h
  | _ => cases h

/-! ## Objects of the source -/

theorem item_object (key : String) (l : List (String × Json)) :
    (object l).item key = match l.find? fun p => p.1 = key with
      | some p => .ok p.2
      | none => .error .builtin := by
  have hkey : ((fun p => decide (p.1 = ofString key)) ∘ fun p : String × Json => (ofString p.1, p.2)) =
      fun p => decide (p.1 = key) := funext fun p => by simp [ofString_inj]
  rw [object, item, List.find?_map, hkey]
  cases l.find? fun p => decide (p.1 = key) <;> rfl

/-! ## Assignment -/

/-- Only an object has members to assign. -/
theorem setItem_ok {key : String} {x v w : Json} (h : v.setItem key x = .ok w) :
    ∃ l, v = .obj l ∧ w = .obj (assign (ofString key) x l) := by
  cases v with
  | obj l => exact ⟨l, rfl, (Except.ok.inj h).symm⟩
  | _ => cases h

theorem find_assign (key : Str) (x : Json) (l : List (Str × Json)) :
    (assign key x l).find? (fun p => p.1 = key) = some (key, x) := by
  induction l with
  | nil => simp [assign]
  | cons p l ih =>
    rw [assign]
    split
    · simp
    · rename_i hne
      rw [List.find?_cons_of_neg (by simpa using hne), ih]

theorem find_assign_ne {key key' : Str} (h : key' ≠ key) (x : Json) (l : List (Str × Json)) :
    (assign key x l).find? (fun p => p.1 = key') = l.find? fun p => p.1 = key' := by
  induction l with
  | nil => simp [assign, h.symm]
  | cons p l ih =>
    rw [assign]
    split
    · rename_i heq
      rw [List.find?_cons_of_neg (by simpa using h.symm),
        List.find?_cons_of_neg (by simpa [heq] using h.symm)]
    · rw [List.find?_cons, List.find?_cons, ih]

/-- Where a member is read, any can be assigned. -/
theorem setItem_of_item {key : String} {u v : Json} (h : v.item key = .ok u) (key' : String)
    (x : Json) : ∃ w, v.setItem key' x = .ok w := by
  cases v with
  | obj l => exact ⟨_, rfl⟩
  | _ => cases h

/-- A member that is assigned is read back. -/
theorem item_setItem {key : String} {x v w : Json} (h : v.setItem key x = .ok w) :
    w.item key = .ok x := by
  obtain ⟨l, rfl, rfl⟩ := setItem_ok h
  rw [item, find_assign]

/-- The other members stay. -/
theorem item_setItem_ne {key key' : String} (hne : ofString key' ≠ ofString key) {x v w : Json}
    (h : v.setItem key x = .ok w) : w.item key' = v.item key' := by
  obtain ⟨l, rfl, rfl⟩ := setItem_ok h
  rw [item, item, find_assign_ne hne]

end Json

end MinaLedger
