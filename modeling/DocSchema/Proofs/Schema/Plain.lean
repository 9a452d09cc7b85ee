/-
  DocSchema/Proofs/Schema/Plain.lean
  ==================================
  **Plain schemas.**

  A plain schema uses a few keywords of draft 7 only, leads nowhere but by references that are
  known, and has neither a URI nor a draft of its own.  Whether a schema is plain can be decided
  (`isPlain`); what a proof needs of it is told keyword by keyword (`PlainObject`).
-/
import DocSchema.Json.Value

namespace DocSchema.Schema

open DocSchema.Json

/-! ### Keywords -/

/-- What is looked at in a plain schema. -/
inductive Keyword where
  /-- A keyword that asks for nothing. -/
  | idle
  | type
  | enum
  | format
  | minimum
  | exclusiveMinimum
  | minItems
  | uniqueItems
  | items
  | additionalProperties
  | propertyNames
  | allOf
  | anyOf
  | properties
  | dependencies
  | ref
  deriving DecidableEq

/-- What the value of a keyword is. -/
inductive Role where
  /-- Something without schemas in it. -/
  | data
  /-- A schema, or a list of schemas. -/
  | schema
  | map
  | reference
  deriving DecidableEq

namespace Keyword

def ofKey? (key : String) : Option Keyword :=
  match key with
  | "$id" | "$schema" | "title" | "default" | "definitions" => some .idle
  | "type" => some .type
  | "enum" => some .enum
  | "format" => some .format
  | "minimum" => some .minimum
  | "exclusiveMinimum" => some .exclusiveMinimum
  | "minItems" => some .minItems
  | "uniqueItems" => some .uniqueItems
  | "items" => some .items
  | "additionalProperties" => some .additionalProperties
  | "propertyNames" => some .propertyNames
  | "allOf" => some .allOf
  | "anyOf" => some .anyOf
  | "properties" => some .properties
  | "dependencies" => some .dependencies
  | "$ref" => some .ref
  | _ => none

def role : Keyword → Role
  | .items | .additionalProperties | .propertyNames | .allOf | .anyOf => .schema
  | .properties | .dependencies => .map
  | .ref => .reference
  | _ => .data

end Keyword

/-! ### Plain schemas -/

/-- Whether no two keywords of a schema are about the same members. -/
def areApart (members : Object) : Bool :=
  !(Object.contains members "additionalProperties" && Object.contains members "properties")

mutual

/-- Whether a schema has no URI and no draft of its own and leads nowhere but by `references`. -/
def isPlain (references : List String) : Value → Bool
  | .array xs => arePlain references xs
  | .object members =>
    !Object.contains members "$id" && !Object.contains members "$schema" &&
      (areApart members && arePlainKeywords references members)
  | _ => true

def arePlain (references : List String) : List Value → Bool
  | [] => true
  | x :: xs => isPlain references x && arePlain references xs

/-- Whether what stands under keywords is plain. -/
def arePlainKeywords (references : List String) : List (String × Value) → Bool
  | [] => true
  | (key, x) :: rest =>
    (match (Keyword.ofKey? key).map Keyword.role, x with
      | some .data, _ => true
      | some .schema, x => isPlain references x
      | some .map, .object ms => arePlainMembers references ms
      | some .map, _ => true
      | some .reference, .string s => references.contains s
      | some .reference, _ => true
      | none, _ => false) && arePlainKeywords references rest

def arePlainMembers (references : List String) : List (String × Value) → Bool
  | [] => true
  | (_, x) :: ms => isPlain references x && arePlainMembers references ms

end

theorem isPlain_of_arePlain {references : List String} {xs : List Value}
    (h : arePlain references xs = true) : ∀ x ∈ xs, isPlain references x = true := by
  induction xs with
  | nil => exact fun x hx => absurd hx List.not_mem_nil
  | cons x xs ih =>
    rw [arePlain, Bool.and_eq_true] at h
    exact List.forall_mem_cons.2 ⟨h.1, ih h.2⟩

theorem isPlain_of_arePlainMembers {references : List String} {ms : Object}
    (h : arePlainMembers references ms = true) : ∀ m ∈ ms, isPlain references m.2 = true := by
  induction ms with
  | nil => exact fun m hm => absurd hm List.not_mem_nil
  | cons m ms ih =>
    rw [arePlainMembers, Bool.and_eq_true] at h
    exact List.forall_mem_cons.2 ⟨h.1, ih h.2⟩

/-- A keyword of a plain schema, with its value. -/
structure PlainAt (references : List String) (k : Keyword) (x : Value) : Prop where
  schema : k.role = .schema → isPlain references x = true
  map : k.role = .map → ∀ ms, x = .object ms → ∀ m ∈ ms, isPlain references m.2 = true
  reference : k.role = .reference → ∀ s, x = .string s → s ∈ references

theorem plainAt_of_arePlainKeywords {references : List String} {members : Object}
    (h : arePlainKeywords references members = true) :
    ∀ m ∈ members, ∃ k, Keyword.ofKey? m.1 = some k ∧ PlainAt references k m.2 := by
  induction members with
  | nil => exact fun m hm => absurd hm List.not_mem_nil
  | cons m rest ih =>
    obtain ⟨key, x⟩ := m
    unfold arePlainKeywords at h
    obtain ⟨hx, hrest⟩ := Bool.and_eq_true_iff.1 h
    refine List.forall_mem_cons.2 ⟨?_, ih hrest⟩
    cases hk : Keyword.ofKey? key with
    | none =>
      rw [hk] at hx
      exact absurd hx Bool.false_ne_true
    | some k =>
      rw [hk, Option.map_some] at hx
      refine ⟨k, rfl, fun hrole => ?_, fun hrole ms (heq : x = _) => ?_,
        fun hrole s (heq : x = _) => ?_⟩
      · rw [hrole] at hx
        exact hx
      · rw [hrole, heq] at hx
        exact isPlain_of_arePlainMembers hx
      · rw [hrole, heq] at hx
        exact List.contains_iff_mem.1 hx

/-- Whether what stands in an object would be plain without a URI and a draft. -/
def isPlainObject (references : List String) (members : Object) : Bool :=
  areApart members && arePlainKeywords references members

/-- The keywords of a plain schema. -/
structure PlainObject (references : List String) (members : Object) : Prop where
  apart : areApart members = true
  keywords : ∀ m ∈ members, ∃ k, Keyword.ofKey? m.1 = some k ∧ PlainAt references k m.2

theorem plainObject_of_isPlainObject {references : List String} {members : Object}
    (h : isPlainObject references members = true) : PlainObject references members := by
  obtain ⟨hapart, hkeywords⟩ := Bool.and_eq_true_iff.1 h
  exact ⟨hapart, plainAt_of_arePlainKeywords hkeywords⟩

theorem plainObject_of_isPlain {references : List String} {members : Object}
    (h : isPlain references (.object members) = true) :
    PlainObject references members ∧ Object.contains members "$id" = false ∧
      Object.contains members "$schema" = false := by
  rw [isPlain] at h
  simp only [Bool.and_eq_true, Bool.not_eq_true'] at h
  obtain ⟨⟨hid, hschema⟩, hapart, hkeywords⟩ := h
  exact ⟨⟨hapart, plainAt_of_arePlainKeywords hkeywords⟩, hid, hschema⟩

end DocSchema.Schema
