/-
  DocSchema/Proofs/Yaml/Data.lean
  ===============================
  **What holds of the data of a header.**

  The data are built from scalars, sequences and mappings, whatever aliases are followed on the
  way; what holds of the scalars and goes over from parts to collections holds of them
  (`Builds.of_data?`).  So a key that is given twice has one member, in every mapping and at every
  depth (`proper_of_parseMetadata`), and whole numbers are in range (`inRange_of_parseMetadata`).
-/
import DocSchema.Metadata
import DocSchema.Proofs.Json.Value

namespace DocSchema.Yaml

open DocSchema.Json

/-- What holds of the scalars, and of a collection if it does of what is in it. -/
structure Builds (P : Value → Prop) : Prop where
  null : P .null
  bool (b : Bool) : P (.bool b)
  string (s : String) : P (.string s)
  whole {n : Int} : rangeOf n = .word → P (.number (.int n))
  decimal (bits : UInt64) : P (.number (.float bits))
  array {xs : List Value} : (∀ x ∈ xs, P x) → P (.array xs)
  empty : P (.object [])
  insert {o : Object} {key : String} {v : Value} :
    P (.object o) → P v → P (.object (o.insert key v))

variable {P : Value → Prop}

/-! ### Scalars -/

theorem Builds.of_decimalValue? {text : String} {v : Value} (hP : Builds P)
    (h : decimalValue? text = some v) : P v := by
  unfold decimalValue? at h
  split at h
  · cases h
    exact hP.null
  · obtain ⟨bits, -, rfl⟩ := Option.map_eq_some_iff.1 h
    exact hP.decimal bits

/-- A whole number that fits one word. -/
theorem Builds.of_word {n? : Option Int} {n : Int} (hP : Builds P)
    (h : (n?.map fun n => (n, rangeOf n)) = some (n, .word)) : P (.number (.int n)) := by
  obtain ⟨m, -, heq⟩ := Option.map_eq_some_iff.1 h
  obtain ⟨rfl, hrange⟩ := Prod.mk.inj heq
  exact hP.whole hrange

theorem Builds.of_plainValue? {text : String} {v : Value} (hP : Builds P)
    (h : plainValue? text = some v) : P v := by
  unfold plainValue? at h
  split at h
  · cases h
    exact hP.null
  · split at h
    · cases h
      exact hP.bool _
    · dsimp only at h
      split at h
      · rename_i hword
        cases h
        exact hP.of_word hword
      · cases h
      · -- a text that is no whole number may be a decimal one
        cases h
        cases hdecimal : (if isZeroPadded text then none else decimalValue? text) with
        | none => exact hP.string _
        | some v =>
          split at hdecimal
          · cases hdecimal
          · exact hP.of_decimalValue? hdecimal

theorem Builds.of_scalarValue? {tag : Option Tag} {text : String} {plain : Bool} {v : Value}
    (hP : Builds P) (h : scalarValue? tag text plain = some v) : P v := by
  unfold scalarValue? at h
  cases tag with
  | none =>
    dsimp only at h
    split at h
    · exact hP.of_plainValue? h
    · cases h
      exact hP.string _
  | some tag =>
    dsimp only at h
    split at h
    · cases h
    · split at h
      · obtain ⟨b, -, rfl⟩ := Option.map_eq_some_iff.1 h
        exact hP.bool b
      · split at h
        · split at h
          · rename_i hword
            cases h
            exact hP.of_word hword
          · cases h
        · split at h
          · exact hP.of_decimalValue? h
          · split at h
            · split at h
              · cases h
                exact hP.null
              · cases h
            · split at h
              · exact hP.of_plainValue? h
              · cases h
                exact hP.string _

/-! ### Collections -/

/-- What every step keeps, a fold keeps. -/
theorem foldlM_keeps {α β : Type} {P : β → Prop} {f : β → α → Option β}
    (hf : ∀ b a b', P b → f b a = some b' → P b') {as : List α} {b b' : β} (hb : P b)
    (h : as.foldlM f b = some b') : P b' := by
  induction as generalizing b with
  | nil =>
    cases h
    exact hb
  | cons a as ih =>
    rw [List.foldlM_cons] at h
    obtain ⟨c, hc, hrest⟩ := Option.bind_eq_some_iff.1 h
    exact ih (hf b a c hb hc) hrest

theorem Builds.of_value? {a : Anchors} {depth : Nat} {n : Node} {jumps : Nat} {v : Value}
    {jumps' : Nat} (hP : Builds P) (h : a.value? depth n jumps = some (v, jumps')) : P v := by
  induction depth generalizing n jumps v jumps' with
  | zero =>
    unfold Anchors.value? at h
    split at h
    · obtain ⟨x, hx, heq⟩ := Option.map_eq_some_iff.1 h
      cases heq
      exact hP.of_scalarValue? hx
    · cases h
    · cases h
    · cases h
  | succ depth ih =>
    unfold Anchors.value? at h
    split at h
    · obtain ⟨x, hx, heq⟩ := Option.map_eq_some_iff.1 h
      cases heq
      exact hP.of_scalarValue? hx
    · dsimp only at h
      split at h
      · obtain ⟨⟨items, end_⟩, hfold, heq⟩ := Option.map_eq_some_iff.1 h
        cases heq
        have hitems : ∀ x ∈ items, P x := by
          refine foldlM_keeps (P := fun acc => ∀ x ∈ acc.1, P x) ?_ ?_ hfold
          · intro acc n acc' hacc hstep
            obtain ⟨⟨x, next⟩, hx, heq⟩ := Option.map_eq_some_iff.1 hstep
            cases heq
            intro y hy
            rcases List.mem_cons.1 hy with rfl | hy
            · exact ih hx
            · exact hacc y hy
          · exact fun x hx => absurd hx List.not_mem_nil
        exact hP.array fun x hx => hitems x (List.mem_reverse.1 hx)
      · cases h
    · dsimp only at h
      split at h
      · obtain ⟨⟨members, end_⟩, hfold, heq⟩ := Option.map_eq_some_iff.1 h
        cases heq
        refine foldlM_keeps (P := fun acc => P (.object acc.1)) ?_ ?_ hfold
        · intro acc entry acc' hacc hstep
          obtain ⟨⟨key, next⟩, -, hvalue⟩ := Option.bind_eq_some_iff.1 hstep
          obtain ⟨⟨x, next'⟩, hx, heq⟩ := Option.map_eq_some_iff.1 hvalue
          cases heq
          exact hP.insert hacc (ih hx)
        · exact hP.empty
      · cases h
    · cases h

theorem Builds.of_data? {text : List Char} {v : Value} (hP : Builds P)
    (h : data? text = some v) : P v := by
  unfold data? at h
  split at h
  · obtain ⟨⟨x, jumps⟩, hx, heq⟩ := Option.map_eq_some_iff.1 h
    cases heq
    exact hP.of_value? hx
  · cases h
    exact hP.null
  · cases h

/-! ### Keys and numbers -/

theorem builds_proper : Builds Value.Proper where
  null := .null
  bool := .bool
  string := .string
  whole _ := .number _
  decimal _ := .number _
  array := .array
  empty := .object List.nodup_nil fun _ _ h => absurd h List.not_mem_nil
  insert := .insert

theorem builds_inRange : Builds (Value.Numbers Number.InRange) where
  null := .null
  bool := .bool
  string := .string
  whole {n} h := by
    unfold rangeOf at h
    split at h
    · rename_i hword
      obtain ⟨hlow, hhigh⟩ := Bool.and_eq_true_iff.1 hword
      exact .number ⟨of_decide_eq_true hlow, of_decide_eq_true hhigh⟩
    · split at h <;> cases h
  decimal _ := .number trivial
  array := .array
  empty := .object fun _ _ h => absurd h List.not_mem_nil
  insert := .insert

end DocSchema.Yaml

namespace DocSchema

open DocSchema.Json

variable {raw : String} {data : Object}

theorem Yaml.Builds.of_parseMetadata {P : Value → Prop} (hP : Yaml.Builds P)
    (h : parseMetadata raw = .ok data) : P (.object data) := by
  unfold parseMetadata at h
  split at h
  · rename_i hdata
    cases h
    exact hP.of_data? hdata
  · cases h
  · cases h

theorem proper_of_parseMetadata (h : parseMetadata raw = .ok data) :
    Value.Proper (.object data) :=
  Yaml.builds_proper.of_parseMetadata h

theorem inRange_of_parseMetadata (h : parseMetadata raw = .ok data) :
    Value.Numbers Number.InRange (.object data) :=
  Yaml.builds_inRange.of_parseMetadata h

end DocSchema
