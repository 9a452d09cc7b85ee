/-
  DocSchema/Json/Value.lean
  =========================
  **JSON values with ordered members.**

  Objects keep their members in the order in which the keys first appeared; writing a key again
  changes its value and not its place (`Object.insert`).  Numbers are whole numbers, kept
  exactly, or finite binary floating-point numbers, kept by their bit pattern, so that equality
  of values is decidable (`Value.beq_iff_eq`).
-/
import DocSchema.Json.Binary64

namespace DocSchema.Json

/-- A JSON number: a whole number written as one, or a floating-point number. -/
inductive Number where
  | int (value : Int)
  | float (bits : UInt64)
  deriving DecidableEq, Repr, Inhabited

/-- A JSON value. -/
inductive Value where
  | null
  | bool (value : Bool)
  | number (value : Number)
  | string (value : String)
  | array (items : List Value)
  | object (members : List (String × Value))
  deriving Repr, Inhabited

/-- The members of an object, each key once, in order of first appearance. -/
abbrev Object := List (String × Value)

/-! ### Objects -/

namespace Object

def get? : Object → String → Option Value
  | [], _ => none
  | (k, v) :: rest, key => if k = key then some v else get? rest key

/-- Sets a key: a new key goes to the end, a known one keeps its place. -/
def insert : Object → String → Value → Object
  | [], key, value => [(key, value)]
  | (k, v) :: rest, key, value =>
    if k = key then (k, value) :: rest else (k, v) :: insert rest key value

def contains (o : Object) (key : String) : Bool :=
  (o.get? key).isSome

/-- Sets the keys of a list of pairs, one after the other. -/
def insertAll (o : Object) (pairs : List (String × Value)) : Object :=
  pairs.foldl (fun acc p => Object.insert acc p.1 p.2) o

theorem get?_insert_self (o : Object) (key : String) (value : Value) :
    (o.insert key value).get? key = some value := by
  induction o with
  | nil => simp [insert, get?]
  | cons m rest ih =>
    obtain ⟨k, v⟩ := m
    by_cases h : k = key <;> simp [insert, get?, h, ih]

theorem get?_insert_of_ne (o : Object) {key other : String} (value : Value) (h : other ≠ key) :
    (o.insert key value).get? other = o.get? other := by
  induction o with
  | nil => simp [insert, get?, Ne.symm h]
  | cons m rest ih =>
    obtain ⟨k, v⟩ := m
    by_cases hk : k = key
    · subst hk; simp [insert, get?, Ne.symm h]
    · by_cases ho : k = other
      · subst ho; simp [insert, get?, hk]
      · simp [insert, get?, hk, ho, ih]

end Object

/-! ### Equality -/

namespace Value

mutual

/-- Equality of values, with the order of members. -/
def beq : Value → Value → Bool
  | .null, .null => true
  | .bool a, .bool b => a == b
  | .number a, .number b => a == b
  | .string a, .string b => a == b
  | .array xs, .array ys => beqItems xs ys
  | .object ms, .object ns => beqMembers ms ns
  | _, _ => false

def beqItems : List Value → List Value → Bool
  | [], [] => true
  | x :: xs, y :: ys => beq x y && beqItems xs ys
  | _, _ => false

def beqMembers : List (String × Value) → List (String × Value) → Bool
  | [], [] => true
  | (k, x) :: ms, (l, y) :: ns => k == l && (beq x y && beqMembers ms ns)
  | _, _ => false

end

mutual

theorem eq_of_beq : ∀ {a b : Value}, beq a b = true → a = b
  | .null, b, h => by cases b <;> simp_all [beq]
  | .bool _, b, h => by cases b <;> simp_all [beq]
  | .number _, b, h => by cases b <;> simp_all [beq]
  | .string _, b, h => by cases b <;> simp_all [beq]
  | .array xs, b, h => by
    cases b with
    | array ys => rw [show xs = ys from eq_of_beqItems (by simpa [beq] using h)]
    | _ => simp [beq] at h
  | .object ms, b, h => by
    cases b with
    | object ns => rw [show ms = ns from eq_of_beqMembers (by simpa [beq] using h)]
    | _ => simp [beq] at h

theorem eq_of_beqItems : ∀ {xs ys : List Value}, beqItems xs ys = true → xs = ys
  | [], ys, h => by cases ys <;> simp_all [beqItems]
  | x :: xs, ys, h => by
    cases ys with
    | nil => simp [beqItems] at h
    | cons y ys =>
      simp only [beqItems, Bool.and_eq_true] at h
      rw [eq_of_beq h.1, eq_of_beqItems h.2]

theorem eq_of_beqMembers :
    ∀ {ms ns : List (String × Value)}, beqMembers ms ns = true → ms = ns
  | [], ns, h => by cases ns <;> simp_all [beqMembers]
  | (k, x) :: ms, ns, h => by
    cases ns with
    | nil => simp [beqMembers] at h
    | cons n ns =>
      obtain ⟨l, y⟩ := n
      simp only [beqMembers, Bool.and_eq_true, beq_iff_eq] at h
      rw [h.1, eq_of_beq h.2.1, eq_of_beqMembers h.2.2]

end

mutual

theorem beq_refl : ∀ a : Value, beq a a = true
  | .null => rfl
  | .bool _ => by simp [beq]
  | .number _ => by simp [beq]
  | .string _ => by simp [beq]
  | .array xs => by simpa [beq] using beqItems_refl xs
  | .object ms => by simpa [beq] using beqMembers_refl ms

theorem beqItems_refl : ∀ xs : List Value, beqItems xs xs = true
  | [] => rfl
  | x :: xs => by simp [beqItems, beq_refl x, beqItems_refl xs]

theorem beqMembers_refl : ∀ ms : List (String × Value), beqMembers ms ms = true
  | [] => rfl
  | (k, x) :: ms => by simp [beqMembers, beq_refl x, beqMembers_refl ms]

end

theorem beq_iff_eq {a b : Value} : beq a b = true ↔ a = b :=
  ⟨eq_of_beq, fun h => h ▸ beq_refl a⟩

instance : DecidableEq Value := fun _ _ => decidable_of_iff _ beq_iff_eq

/-! ### Views -/

def typeName : Value → String
  | .null => "null"
  | .bool _ => "boolean"
  | .number _ => "number"
  | .string _ => "string"
  | .array _ => "array"
  | .object _ => "object"

def asString? : Value → Option String
  | .string s => some s
  | _ => none

def asObject? : Value → Option Object
  | .object ms => some ms
  | _ => none

def asArray? : Value → Option (List Value)
  | .array xs => some xs
  | _ => none

/-- A member of an object by its key. -/
def get? (v : Value) (key : String) : Option Value :=
  v.asObject?.bind (Object.get? · key)

/-- A whole number as a value. -/
def ofNat (n : Nat) : Value :=
  .number (.int n)

end Value

end DocSchema.Json
