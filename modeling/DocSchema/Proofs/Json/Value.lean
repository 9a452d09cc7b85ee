/-
  DocSchema/Proofs/Json/Value.lean
  ================================
  **Paths through values.**

  `Value.At v path x` says that a path leads from `v` to `x`.  In a proper value each key of an
  object has one member (`Value.Proper`), so that every member lies at the path of its key.
-/
import DocSchema.Json.Value

namespace DocSchema.Json

/-! ### Keys -/

namespace Object

def keys (o : Object) : List String :=
  o.map (·.1)

variable {o : Object} {key k : String} {value x : Value}

theorem mem_of_get? (h : o.get? key = some value) : (key, value) ∈ o := by
  induction o with
  | nil => cases h
  | cons m rest ih =>
    obtain ⟨k, v⟩ := m
    simp only [get?] at h
    split at h
    · rename_i hk
      cases h
      rw [hk]
      exact List.mem_cons_self
    · exact List.mem_cons_of_mem _ (ih h)

theorem get?_of_mem (hkeys : o.keys.Nodup) (h : (key, value) ∈ o) : o.get? key = some value := by
  induction o with
  | nil => cases h
  | cons m rest ih =>
    obtain ⟨k, v⟩ := m
    obtain ⟨hfirst, hrest⟩ := List.nodup_cons.1 hkeys
    rcases List.mem_cons.1 h with heq | hmem
    · cases heq
      simp [get?]
    · have hne : k ≠ key := by
        rintro rfl
        exact hfirst (List.mem_map_of_mem (f := (·.1)) hmem)
      simp only [get?, if_neg hne]
      exact ih hrest hmem

theorem get?_append (o p : Object) (key : String) :
    get? (o ++ p) key = (o.get? key).or (p.get? key) := by
  induction o with
  | nil => rfl
  | cons m rest ih =>
    obtain ⟨k, v⟩ := m
    by_cases hk : k = key
    · simp [get?, hk]
    · simp [get?, hk, ih]

theorem get?_eq_none_of_not_mem (h : key ∉ o.keys) : o.get? key = none := by
  cases hget : o.get? key with
  | none => rfl
  | some v => exact absurd (List.mem_map_of_mem (f := (·.1)) (mem_of_get? hget)) h

theorem eq_of_get?_singleton (h : get? [(k, x)] key = some value) : key = k ∧ value = x := by
  obtain heq | hmem := List.mem_cons.1 (mem_of_get? h)
  · cases heq
    exact ⟨rfl, rfl⟩
  · cases hmem

theorem contains_of_mem (h : (key, value) ∈ o) : o.contains key = true := by
  induction o with
  | nil => exact absurd h List.not_mem_nil
  | cons m rest ih =>
    obtain ⟨k, v⟩ := m
    by_cases hk : k = key
    · simp [contains, get?, hk]
    · have hrest : (key, value) ∈ rest := by
        rcases List.mem_cons.1 h with heq | hrest
        · cases heq
          exact absurd rfl hk
        · exact hrest
      simpa [contains, get?, hk] using ih hrest

/-- A new key goes to the end. -/
theorem insert_of_not_mem (h : key ∉ o.keys) : o.insert key value = o ++ [(key, value)] := by
  induction o with
  | nil => rfl
  | cons m rest ih =>
    obtain ⟨k, v⟩ := m
    have hk : k ≠ key := fun hk => h (by simp [keys, hk])
    have hrest : key ∉ keys rest := fun hmem => h (List.mem_cons_of_mem _ hmem)
    simp [insert, hk, ih hrest]

/-- A known key keeps its place. -/
theorem keys_insert_of_mem (h : key ∈ o.keys) : (o.insert key value).keys = o.keys := by
  induction o with
  | nil => cases h
  | cons m rest ih =>
    obtain ⟨k, v⟩ := m
    by_cases hk : k = key
    · simp [insert, hk, keys]
    · have hrest : key ∈ keys rest := (List.mem_cons.1 h).resolve_left (Ne.symm hk)
      have hkeys := ih hrest
      simp only [insert, if_neg hk]
      exact congrArg (k :: ·) hkeys

theorem nodup_insert (h : o.keys.Nodup) (key : String) (value : Value) :
    (o.insert key value).keys.Nodup := by
  by_cases hkey : key ∈ o.keys
  · rw [keys_insert_of_mem hkey]
    exact h
  · rw [insert_of_not_mem hkey]
    simp only [keys, List.map_append, List.map_cons, List.map_nil]
    refine List.nodup_append.2 ⟨h, by simp, fun a ha b hb => ?_⟩
    rcases List.mem_singleton.1 hb with rfl
    rintro rfl
    exact hkey ha

theorem mem_insert (h : (k, x) ∈ o.insert key value) : (k, x) ∈ o ∨ k = key ∧ x = value := by
  induction o with
  | nil =>
    rcases List.mem_singleton.1 h with heq
    cases heq
    exact .inr ⟨rfl, rfl⟩
  | cons m rest ih =>
    obtain ⟨k', v⟩ := m
    by_cases hk : k' = key
    · rw [insert, if_pos hk] at h
      rcases List.mem_cons.1 h with heq | hmem
      · cases heq
        exact .inr ⟨hk, rfl⟩
      · exact .inl (List.mem_cons_of_mem _ hmem)
    · rw [insert, if_neg hk] at h
      rcases List.mem_cons.1 h with heq | hmem
      · exact .inl (heq ▸ List.mem_cons_self)
      · rcases ih hmem with hold | hnew
        · exact .inl (List.mem_cons_of_mem _ hold)
        · exact .inr hnew

/-- Keys that are all new go to the end in their order. -/
theorem insertAll_of_nodup {pairs : Object} (h : (o.keys ++ pairs.keys).Nodup) :
    o.insertAll pairs = o ++ pairs := by
  induction pairs generalizing o with
  | nil => simp [insertAll]
  | cons m pairs ih =>
    obtain ⟨k, v⟩ := m
    have hnew : k ∉ o.keys := fun hk =>
      (List.nodup_append.1 h).2.2 k hk k List.mem_cons_self rfl
    have hrest : ((o ++ [(k, v)] : Object).keys ++ Object.keys pairs).Nodup := by
      simpa [keys] using h
    have hstep : o.insertAll ((k, v) :: pairs) = (o.insert k v).insertAll pairs := rfl
    rw [hstep, insert_of_not_mem hnew, ih hrest]
    simp

end Object

/-! ### Proper values -/

namespace Value

/-- A value whose objects have each key once, at every depth. -/
inductive Proper : Value → Prop
  | null : Proper .null
  | bool (b : Bool) : Proper (.bool b)
  | number (n : Number) : Proper (.number n)
  | string (s : String) : Proper (.string s)
  | array {xs : List Value} (h : ∀ x ∈ xs, Proper x) : Proper (.array xs)
  | object {o : Object} (hkeys : o.keys.Nodup) (h : ∀ k x, (k, x) ∈ o → Proper x) :
      Proper (.object o)

theorem Proper.insert {o : Object} {key : String} {value : Value} (ho : Proper (.object o))
    (hv : value.Proper) : Proper (.object (o.insert key value)) := by
  cases ho with
  | object hkeys h =>
    refine .object (Object.nodup_insert hkeys key value) fun k x hx => ?_
    rcases Object.mem_insert hx with hold | ⟨-, rfl⟩
    · exact h k x hold
    · exact hv

/-! ### Paths -/

/-- `At v path x`: the path leads from `v` to `x`, by keys and by indexes. -/
inductive At : Value → List String → Value → Prop
  | here (v : Value) : At v [] v
  | member {o : Object} {key : String} {x y : Value} {path : List String}
      (h : o.get? key = some x) (hx : At x path y) : At (.object o) (key :: path) y
  | item {xs : List Value} {i : Nat} {x y : Value} {path : List String}
      (h : xs[i]? = some x) (hx : At x path y) : At (.array xs) (toString i :: path) y

end Value

/-! ### Numbers in values -/

namespace Number

/-- A number that is kept exactly has 64 bits, with a sign or without. -/
def InRange : Number → Prop
  | .int i => -(twoTo 63 : Int) ≤ i ∧ i < twoTo 64
  | .float _ => True

/-- A whole number that was written as one. -/
def Integral (n : Number) : Prop :=
  ∃ i, n = .int i

end Number

namespace Value

/-- A value whose numbers all have a property, at every depth. -/
inductive Numbers (P : Number → Prop) : Value → Prop
  | null : Numbers P .null
  | bool (b : Bool) : Numbers P (.bool b)
  | number {n : Number} (h : P n) : Numbers P (.number n)
  | string (s : String) : Numbers P (.string s)
  | array {xs : List Value} (h : ∀ x ∈ xs, Numbers P x) : Numbers P (.array xs)
  | object {o : Object} (h : ∀ k x, (k, x) ∈ o → Numbers P x) : Numbers P (.object o)

theorem Numbers.insert {P : Number → Prop} {o : Object} {key : String} {value : Value}
    (ho : Numbers P (.object o)) (hv : Numbers P value) :
    Numbers P (.object (o.insert key value)) := by
  cases ho with
  | object h =>
    refine .object fun k x hx => ?_
    rcases Object.mem_insert hx with hold | ⟨-, rfl⟩
    · exact h k x hold
    · exact hv

theorem Numbers.and {P Q : Number → Prop} {v : Value} (h : v.Numbers P) (h' : v.Numbers Q) :
    v.Numbers fun n => P n ∧ Q n := by
  induction h with
  | null => exact .null
  | bool b => exact .bool b
  | number hn =>
    cases h' with
    | number hn' => exact .number ⟨hn, hn'⟩
  | string s => exact .string s
  | array hxs ih =>
    cases h' with
    | array hxs' => exact .array fun x hx => ih x hx (hxs' x hx)
  | object hms ih =>
    cases h' with
    | object hms' => exact .object fun k x hx => ih k x hx (hms' k x hx)

/-- A value without floating-point numbers, each of its numbers in range. -/
def Exact : Value → Prop :=
  Numbers fun n => n.InRange ∧ n.Integral

end Value

end DocSchema.Json
