/-
  DocSchema/Proofs/Schema/ViolationPath.lean
  ==========================================
  **Every violation is found at a place of the instance, and tells of the value there.**

  A check is sound when the paths of its violations lead somewhere in the value that it was given,
  and the violations are about the values there (`Check.Sound`).  There is a lemma for each way of
  making outcomes out of outcomes; the checks of single keywords, which complain of the value
  itself, and those that contain schemas follow from these, and `sound_check` puts them together by
  recursion on the schema.  One keyword complains of another value: an object that may have no
  members is told of by its first one.

  Some checks go through all members of an object.  That each of them lies at the path of its
  key is what proper values are needed for.
-/
import DocSchema.Proofs.Json.Value
import DocSchema.Schema.Evaluate

namespace DocSchema.Schema

open DocSchema.Json

/-! ### Violations -/

namespace Violation

/-- The violation is about the value, or about the first member of an object that may have none. -/
def Tells (w : Violation) (x : Value) : Prop :=
  w.value = x ∨ w.fault = .refused ∧ w.schemaPath.getLast? = some "additionalProperties" ∧
    ∃ key others, x = .object ((key, w.value) :: others)

theorem Tells.within {w : Violation} {x : Value} (h : w.Tells x)
    (instancePath schemaPath : List String) : (w.within instancePath schemaPath).Tells x := by
  obtain rfl | ⟨hfault, hkeyword, hfirst⟩ := h
  · exact .inl rfl
  · refine .inr ⟨hfault, ?_, hfirst⟩
    rw [Violation.within, List.getLast?_append, hkeyword]
    rfl

end Violation

/-! ### Outcomes -/

namespace Outcome

/-- The violations of an outcome lead to places in a value and tell of the values there. -/
def Within (v : Value) (o : Outcome) : Prop :=
  ∀ w ∈ o.violations, ∃ x, v.At w.instancePath x ∧ w.Tells x

variable {v x : Value} {o : Outcome} {os : List Outcome}

theorem within_of_violations_eq_nil (h : o.violations = []) : Within v o := by
  intro w hw
  rw [h] at hw
  cases hw

theorem within_ok : Within v ok :=
  within_of_violations_eq_nil rfl

theorem within_fail (schemaPath : List String) (v : Value) (fault : Fault) :
    Within v (fail schemaPath v fault) := by
  intro w hw
  rcases List.mem_singleton.1 hw with rfl
  exact ⟨v, .here v, .inl rfl⟩

theorem within_require (condition : Bool) (schemaPath : List String) (v : Value) (fault : Fault) :
    Within v (require condition schemaPath v fault) := by
  cases condition with
  | true => exact within_ok
  | false => exact within_fail _ _ _

/-- What holds of violations further in holds of them seen from further out. -/
theorem within_map {prefixPath schemaPath : List String} {ws : List Violation}
    (hstep : ∀ path y, x.At path y → v.At (prefixPath ++ path) y)
    (h : ∀ w ∈ ws, ∃ y, x.At w.instancePath y ∧ w.Tells y) :
    ∀ w ∈ ws.map (·.within prefixPath schemaPath), ∃ y, v.At w.instancePath y ∧ w.Tells y := by
  intro w hw
  obtain ⟨w', hw', rfl⟩ := List.mem_map.1 hw
  obtain ⟨y, hy, htells⟩ := h w' hw'
  exact ⟨y, hstep _ _ hy, htells.within _ _⟩

theorem Within.under (h : Within v o) (schemaPath : List String) :
    Within v (o.under schemaPath) :=
  within_map (fun _ _ hy => hy) h

theorem Within.ofMember {members : Object} {name : String} (hx : members.get? name = some x)
    (h : Within x o) (schemaPath : List String) :
    Within (.object members) (o.ofMember name schemaPath) :=
  within_map (fun _ _ hy => .member hx hy) h

theorem Within.ofMatched {members : Object} {name : String} (hx : members.get? name = some x)
    (h : Within x o) (schemaPath : List String) :
    Within (.object members) (o.ofMatched name schemaPath) :=
  within_map (fun _ _ hy => .member hx hy) h

theorem Within.ofItem {xs : List Value} {i : Nat} (hx : xs[i]? = some x) (h : Within x o)
    (schemaPath : List String) : Within (.array xs) (o.ofItem i schemaPath) :=
  within_map (fun _ _ hy => .item hx hy) h

theorem within_join (h : ∀ o ∈ os, Within v o) : Within v (join os) := by
  intro w hw
  obtain ⟨o, ho, hwo⟩ := List.mem_flatMap.1 hw
  exact h o ho w hwo

theorem eq_of_remainder {r : Remainder} {names : List String} {indexes : List Nat}
    {w : Violation} (h : w ∈ r.violations names indexes v) : w.instancePath = [] ∧ w.value = v := by
  unfold Remainder.violations at h
  split at h
  · dsimp only at h
    split at h
    · cases h
    · rcases List.mem_singleton.1 h with rfl
      exact ⟨rfl, rfl⟩
  · dsimp only at h
    split at h
    · cases h
    · rcases List.mem_singleton.1 h with rfl
      exact ⟨rfl, rfl⟩
  · cases h

theorem within_conjunction (h : ∀ o ∈ os, Within v o) : Within v (conjunction v os) := by
  intro w hw
  obtain ⟨o, ho, hwo⟩ := List.mem_flatMap.1 hw
  rcases List.mem_append.1 hwo with hown | hleft
  · exact h o ho w hown
  · -- leftovers are complained of at the value itself
    cases hr : o.remainder with
    | none => simp [hr] at hleft
    | some r =>
      rw [hr] at hleft
      obtain ⟨hpath, hvalue⟩ := eq_of_remainder hleft
      exact ⟨v, hpath ▸ .here v, .inl hvalue⟩

end Outcome

/-! ### Checks -/

namespace Check

open Outcome

/-- The violations that a check finds lead to places in the value. -/
def Sound (c : Check) : Prop :=
  ∀ v, v.Proper → Within v (c v)

variable {c : Check} {named : Named} {matched : Matched} {bs : List Branch} {v : Value}

theorem mem_indexed {i j : Nat} {x : Value} {xs : List Value} (h : (j, x) ∈ indexed i xs) :
    i ≤ j ∧ xs[j - i]? = some x := by
  induction xs generalizing i with
  | nil => cases h
  | cons y ys ih =>
    rcases List.mem_cons.1 h with heq | hmem
    · cases heq
      simp
    · obtain ⟨hle, hx⟩ := ih hmem
      have hsucc : j - i = j - (i + 1) + 1 := by omega
      exact ⟨by omega, by rw [hsucc]; exact hx⟩

theorem Proper.of_getElem? {xs : List Value} {i : Nat} {x : Value}
    (h : (Value.array xs).Proper) (hx : xs[i]? = some x) : x.Proper := by
  cases h with
  | array h => exact h x (List.mem_of_getElem? hx)

/-! #### Keywords without schemas -/

theorem sound_bound (b : Bound) (limit : Number) : Sound (bound b limit) := by
  intro v _
  cases v with
  | number n => exact within_require _ _ _ _
  | null | bool _ | string _ | array _ | object _ => exact within_ok

theorem sound_multipleOf (divisor : Number) : Sound (multipleOf divisor) := by
  intro v _
  cases v with
  | number n => exact within_require _ _ _ _
  | null | bool _ | string _ | array _ | object _ => exact within_ok

theorem sound_uniqueItems : Sound uniqueItems := by
  intro v _
  cases v with
  | array xs => exact within_require _ _ _ _
  | null | bool _ | string _ | number _ | object _ => exact within_ok

theorem sound_pattern (text : String) (p : Pattern) : Sound (pattern text p) := by
  intro v _
  cases v with
  | string s =>
    simp only [pattern]
    cases p.find s with
    | found => exact within_ok
    | absent => exact within_fail _ _ _
    | givenUp => exact within_fail _ _ _
  | null | bool _ | number _ | array _ | object _ => exact within_ok

theorem sound_format (f : Format) : Sound (format f) := by
  intro v _
  cases v with
  | string s => exact within_require _ _ _ _
  | null | bool _ | number _ | array _ | object _ => exact within_ok

theorem sound_contentEncoding (name : String) : Sound (contentEncoding name) := by
  intro v _
  cases v with
  | string s => exact within_require _ _ _ _
  | null | bool _ | number _ | array _ | object _ => exact within_ok

theorem sound_contentMediaType (name : String) (encoding : Option String) :
    Sound (contentMediaType name encoding) := by
  intro v _
  cases v with
  | string s =>
    cases encoding with
    | none => exact within_require _ _ _ _
    | some e =>
      simp only [contentMediaType]
      cases Text.base64Bytes? s.toList with
      | none => exact within_fail _ _ _
      | some bytes => exact within_require _ _ _ _
  | null | bool _ | number _ | array _ | object _ => exact within_ok

theorem within_missing (keyword : String) (names : List String) (members : Object) :
    Within (.object members) (missing keyword names members) := by
  refine within_join fun o ho => ?_
  obtain ⟨k, -, rfl⟩ := List.mem_map.1 ho
  exact within_fail _ _ _

theorem sound_required (names : List String) : Sound (required names) := by
  intro v _
  cases v with
  | object members => exact within_missing _ _ _
  | null | bool _ | number _ | string _ | array _ => exact within_ok

theorem sound_dependentRequired (keyword name : String) (names : List String) :
    Sound (dependentRequired keyword name names) := by
  intro v _
  cases v with
  | object members =>
    simp only [dependentRequired]
    split
    · exact within_missing _ _ _
    · exact within_ok
  | null | bool _ | number _ | string _ | array _ => exact within_ok

theorem sound_noProperties : Sound noProperties := by
  intro v _
  rcases v with - | - | - | - | - | (- | ⟨⟨key, x⟩, others⟩)
  case object.cons =>
    -- the violation is about the first member
    intro w hw
    rcases List.mem_singleton.1 hw with rfl
    exact ⟨_, .here _, .inr ⟨rfl, rfl, key, others, rfl⟩⟩
  all_goals exact within_ok

theorem sound_noPropertyNames : Sound noPropertyNames := by
  intro v _
  unfold noPropertyNames
  split
  · exact within_fail _ _ _
  · exact within_ok

theorem sound_noItemsFrom (limit : Nat) : Sound (noItemsFrom limit) := by
  intro v _
  cases v with
  | array xs => exact within_require _ _ (.array xs) _
  | null | bool _ | number _ | string _ | object _ => exact within_ok

/-! #### Members -/

theorem sound_properties (h : ∀ e ∈ named, Sound e.2) : Sound (properties named) := by
  intro v hv
  cases hv with
  | object hkeys hmembers =>
    refine within_join fun o ho => ?_
    obtain ⟨⟨k, c⟩, he, rfl⟩ := List.mem_map.1 ho
    dsimp only
    cases hx : Object.get? _ k with
    | none => exact within_ok
    | some x =>
      have hin := h _ he x (hmembers k x (Object.mem_of_get? hx))
      exact hin.ofMember hx _
  | null | bool _ | number _ | string _ | array _ => exact within_ok

theorem within_byPattern {members : Object} {name : String} {x : Value} {o : Outcome}
    (h : ∀ e ∈ matched, Sound e.2.2) (hx : members.get? name = some x) (hproper : x.Proper)
    (ho : byPattern matched name x = some o) : Within (.object members) o := by
  unfold byPattern at ho
  dsimp only at ho
  split at ho
  · cases ho
  · cases ho
    refine within_join fun o ho => ?_
    obtain ⟨⟨text, p, c⟩, he, rfl⟩ := List.mem_map.1 ho
    exact (h _ (List.mem_filter.1 he).1 x hproper).ofMatched hx _

theorem sound_patternProperties (h : ∀ e ∈ matched, Sound e.2.2) :
    Sound (patternProperties matched) := by
  intro v hv
  cases hv with
  | object hkeys hmembers =>
    refine within_join fun o ho => ?_
    obtain ⟨⟨text, p, c⟩, he, rfl⟩ := List.mem_map.1 ho
    refine within_join fun o ho => ?_
    obtain ⟨⟨k, x⟩, hx, rfl⟩ := List.mem_map.1 ho
    have hmem := (List.mem_filter.1 hx).1
    exact (h _ he x (hmembers k x hmem)).ofMatched (Object.get?_of_mem hkeys hmem) _
  | null | bool _ | number _ | string _ | array _ => exact within_ok

theorem sound_named? {name : String} (h : ∀ e ∈ named, Sound e.2)
    (hc : named? named name = some c) : Sound c := by
  induction named with
  | nil => cases hc
  | cons e rest ih =>
    obtain ⟨k, c'⟩ := e
    simp only [named?] at hc
    split at hc
    · cases hc
      exact h _ List.mem_cons_self
    · exact ih (fun e he => h e (List.mem_cons_of_mem _ he)) hc

theorem within_member? {members : Object} {name : String} {x : Value} {o : Outcome}
    (hnamed : ∀ e ∈ named, Sound e.2) (hmatched : ∀ e ∈ matched, Sound e.2.2)
    (hx : members.get? name = some x) (hproper : x.Proper)
    (ho : member? named matched name x = some o) : Within (.object members) o := by
  unfold member? at ho
  cases hc : named? named name with
  | none =>
    simp only [hc] at ho
    exact within_byPattern hmatched hx hproper ho
  | some c =>
    have hown : Within (.object members) ((c x).ofMember name ["properties", name]) :=
      (sound_named? hnamed hc x hproper).ofMember hx _
    cases hp : byPattern matched name x with
    | none =>
      simp only [hc, hp, Option.some.injEq] at ho
      exact ho ▸ hown
    | some o' =>
      simp only [hc, hp, Option.some.injEq] at ho
      rw [← ho]
      refine within_join fun o ho => ?_
      rcases List.mem_cons.1 ho with rfl | ho
      · exact hown
      · rcases List.mem_singleton.1 ho with rfl
        exact within_byPattern hmatched hx hproper hp

theorem sound_additionalProperties {rest : Check} (hnamed : ∀ e ∈ named, Sound e.2)
    (hmatched : ∀ e ∈ matched, Sound e.2.2) (hrest : Sound rest) :
    Sound (additionalProperties named matched rest) := by
  intro v hv
  cases hv with
  | object hkeys hmembers =>
    refine within_join fun o ho => ?_
    obtain ⟨⟨k, x⟩, hmem, rfl⟩ := List.mem_map.1 ho
    have hx := Object.get?_of_mem hkeys hmem
    have hproper := hmembers k x hmem
    dsimp only [memberOrOther]
    cases hm : member? named matched k x with
    | none => exact (hrest x hproper).ofMember hx _
    | some o =>
      have hin := within_member? hnamed hmatched hx hproper hm
      dsimp only
      split
      · exact hin
      · exact hin
  | null | bool _ | number _ | string _ | array _ => exact within_ok

theorem sound_closedProperties (hnamed : ∀ e ∈ named, Sound e.2)
    (hmatched : ∀ e ∈ matched, Sound e.2.2) : Sound (closedProperties named matched) := by
  intro v hv
  cases hv with
  | object hkeys hmembers =>
    refine within_join fun o ho => ?_
    rcases List.mem_append.1 ho with ho | ho
    · obtain ⟨e, he, hsome⟩ := List.mem_filterMap.1 ho
      obtain ⟨⟨k, x⟩, hmem, rfl⟩ := List.mem_map.1 he
      have hx := Object.get?_of_mem hkeys hmem
      exact within_member? hnamed hmatched hx (hmembers k x hmem) hsome
    · rcases List.mem_singleton.1 ho with rfl
      split
      · exact within_ok
      · exact within_fail _ _ _
  | null | bool _ | number _ | string _ | array _ => exact within_ok

theorem sound_propertyNames (c : Check) : Sound (propertyNames c) := by
  intro v _
  cases v with
  | object members =>
    intro w hw
    obtain ⟨m, -, hw⟩ := List.mem_flatMap.1 hw
    obtain ⟨w', -, rfl⟩ := List.mem_map.1 hw
    exact ⟨_, .here _, .inl rfl⟩
  | null | bool _ | number _ | string _ | array _ => exact within_ok

theorem sound_dependentSchema {keyword name : String} (h : Sound c) :
    Sound (dependentSchema keyword name c) := by
  intro v hv
  cases v with
  | object members =>
    have hin := (h _ hv).under [keyword, name]
    simp only [dependentSchema]
    split
    · exact within_ok
    · split
      · exact hin
      · exact hin
  | null | bool _ | number _ | string _ | array _ => exact within_ok

theorem sound_unevaluatedProperties (c : Check) : Sound (unevaluatedProperties c) := by
  intro v _
  cases v with
  | object members => exact within_of_violations_eq_nil rfl
  | null | bool _ | number _ | string _ | array _ => exact within_ok

/-! #### Items -/

theorem within_itemOutcomes {keyword : String} {cs : List Check} {xs all : List Value} {i : Nat}
    (h : ∀ c ∈ cs, Sound c) (hall : (Value.array all).Proper)
    (hxs : ∀ j, xs[j]? = all[i + j]?) :
    ∀ o ∈ itemOutcomes keyword i cs xs, Within (.array all) o := by
  induction cs generalizing i xs with
  | nil =>
    intro o ho
    cases ho
  | cons c cs ih =>
    cases xs with
    | nil =>
      intro o ho
      cases ho
    | cons x xs =>
      intro o ho
      have hx : all[i]? = some x := (hxs 0).symm
      rcases List.mem_cons.1 ho with rfl | ho
      · exact (h c List.mem_cons_self x (Proper.of_getElem? hall hx)).ofItem hx _
      · refine ih (fun c hc => h c (List.mem_cons_of_mem _ hc)) (fun j => ?_) o ho
        have hnext := hxs (j + 1)
        rw [List.getElem?_cons_succ] at hnext
        rw [hnext]
        congr 1
        omega

theorem sound_itemList {keyword : String} {checks : List Check} (h : ∀ c ∈ checks, Sound c) :
    Sound (itemList keyword checks) := by
  intro v hv
  cases v with
  | array xs =>
    exact within_join (within_itemOutcomes h hv fun j => by rw [Nat.zero_add])
  | null | bool _ | number _ | string _ | object _ => exact within_ok

theorem sound_items {keyword : String} {skipped : Nat} (h : Sound c) :
    Sound (items keyword skipped c) := by
  intro v hv
  cases v with
  | array xs =>
    refine within_join fun o ho => ?_
    obtain ⟨⟨i, x⟩, hmem, rfl⟩ := List.mem_map.1 ho
    obtain ⟨hle, hx⟩ := mem_indexed hmem
    rw [List.getElem?_drop, Nat.add_sub_cancel' hle] at hx
    exact (h x (Proper.of_getElem? hv hx)).ofItem hx _
  | null | bool _ | number _ | string _ | object _ => exact within_ok

theorem sound_contains (c : Check) (least most : Option Nat) : Sound (contains c least most) := by
  intro v _
  cases v with
  | array xs =>
    simp only [contains]
    cases containsFault? least most _ with
    | none => exact within_of_violations_eq_nil rfl
    | some keyword => exact within_fail _ (.array xs) _
  | null | bool _ | number _ | string _ | object _ => exact within_ok

theorem sound_unevaluatedItems (c : Check) : Sound (unevaluatedItems c) := by
  intro v _
  cases v with
  | array xs => exact within_of_violations_eq_nil rfl
  | null | bool _ | number _ | string _ | object _ => exact within_ok

/-! #### Several schemas of one value -/

theorem within_branches {keyword : String} {i : Nat} (h : ∀ b ∈ bs, Sound b.check)
    (hv : v.Proper) : ∀ e ∈ branches keyword v i bs, Within v e.2 := by
  induction bs generalizing i with
  | nil =>
    intro e he
    cases he
  | cons b bs ih =>
    intro e he
    rcases List.mem_cons.1 he with rfl | he
    · exact (h b List.mem_cons_self v hv).under _
    · exact ih (fun b hb => h b (List.mem_cons_of_mem _ hb)) e he

theorem sound_allOf (h : ∀ b ∈ bs, Sound b.check) : Sound (allOf bs) := by
  intro v hv
  have hin : Within v (join ((branches "allOf" v 0 bs).map (·.2))) := by
    refine within_join fun o ho => ?_
    obtain ⟨e, he, rfl⟩ := List.mem_map.1 ho
    exact within_branches h hv e he
  simp only [allOf]
  split
  · exact hin
  · exact hin

theorem sound_anyOf (bs : List Branch) : Sound (anyOf bs) := by
  intro v _
  simp only [anyOf]
  split
  · exact within_of_violations_eq_nil rfl
  · exact within_fail _ v _

theorem sound_oneOf (bs : List Branch) : Sound (oneOf bs) := by
  intro v _
  simp only [oneOf]
  generalize (branches "oneOf" v 0 bs).filter (·.2.isValid) = valid
  rcases valid with - | ⟨o, - | ⟨o', rest⟩⟩
  · split <;> exact within_fail _ v _
  · split <;> exact within_ok
  · split <;> exact within_fail _ v _

theorem sound_conditional {condition : Branch} {consequence alternative : Check}
    (hthen : Sound consequence) (helse : Sound alternative) :
    Sound (conditional condition consequence alternative) := by
  intro v hv
  have hfound : Within v (if (condition.check v).isValid then
      join [(condition.check v).marks, (consequence v).under ["then"]]
      else (alternative v).under ["else"]) := by
    split
    · refine within_join fun o ho => ?_
      rcases List.mem_cons.1 ho with rfl | ho
      · exact within_of_violations_eq_nil rfl
      · rcases List.mem_singleton.1 ho with rfl
        exact (hthen v hv).under _
    · exact (helse v hv).under _
  simp only [conditional]
  split
  · exact hfound
  · exact hfound

theorem sound_ref {keyword : String} (h : Sound c) : Sound (ref keyword c) := by
  intro v hv
  exact (h v hv).under _

end Check

/-! ### Schemas -/

section Schemas

open Check Outcome

variable {definition : Nat → Check}

mutual

/-- Checking against a schema is sound when following its links is. -/
theorem sound_check (h : ∀ place, Sound (definition place)) :
    ∀ s : Schema, Sound (check definition s)
  | .always => fun _ _ => within_ok
  | .never => fun _ _ => within_fail _ _ _
  | .all parts => fun v hv => by
    refine within_conjunction fun o ho => ?_
    obtain ⟨c, hc, rfl⟩ := List.mem_map.1 ho
    exact sound_checkAll h parts c hc v hv
  | .type _ _ => fun _ _ => within_require _ _ _ _
  | .const _ => fun _ _ => within_require _ _ _ _
  | .enum _ => fun _ _ => within_require _ _ _ _
  | .bound b limit => sound_bound b limit
  | .multipleOf divisor => sound_multipleOf divisor
  | .size _ _ => fun _ _ => within_require _ _ _ _
  | .uniqueItems => sound_uniqueItems
  | .pattern text p => sound_pattern text p
  | .format f => sound_format f
  | .contentEncoding name => sound_contentEncoding name
  | .contentMediaType name encoding => sound_contentMediaType name encoding
  | .required names => sound_required names
  | .properties named => sound_properties (sound_checkNamed h named)
  | .patternProperties matched => sound_patternProperties (sound_checkMatched h matched)
  | .additionalProperties named matched rest =>
    sound_additionalProperties (sound_checkNamed h named) (sound_checkMatched h matched)
      (sound_check h rest)
  | .closedProperties named matched =>
    sound_closedProperties (sound_checkNamed h named) (sound_checkMatched h matched)
  | .noProperties => sound_noProperties
  | .propertyNames s => sound_propertyNames (check definition s)
  | .noPropertyNames => sound_noPropertyNames
  | .dependentRequired keyword name names => sound_dependentRequired keyword name names
  | .dependentSchema _ _ s => sound_dependentSchema (sound_check h s)
  | .itemList _ schemas => sound_itemList (sound_checkAll h schemas)
  | .items _ _ s => sound_items (sound_check h s)
  | .noItemsFrom limit => sound_noItemsFrom limit
  | .refusal _ => fun _ _ => within_fail _ _ _
  | .contains s least most => sound_contains (check definition s) least most
  | .allOf schemas => sound_allOf (sound_checkBranches h schemas)
  | .anyOf schemas => sound_anyOf (checkBranches definition schemas)
  | .oneOf schemas => sound_oneOf (checkBranches definition schemas)
  | .not _ _ => fun _ _ => within_require _ _ _ _
  | .conditional _ consequence alternative =>
    sound_conditional (sound_check h consequence) (sound_check h alternative)
  | .ref _ target => sound_ref (sound_check h target)
  | .link _ place => sound_ref (h place)
  | .unevaluatedProperties s => sound_unevaluatedProperties (check definition s)
  | .unevaluatedItems s => sound_unevaluatedItems (check definition s)

theorem sound_checkAll (h : ∀ place, Sound (definition place)) :
    ∀ ss : List Schema, ∀ c ∈ checkAll definition ss, Sound c
  | [] => fun c hc => by cases hc
  | s :: rest => fun c hc => by
    rcases List.mem_cons.1 hc with rfl | hc
    · exact sound_check h s
    · exact sound_checkAll h rest c hc

theorem sound_checkBranches (h : ∀ place, Sound (definition place)) :
    ∀ ss : List Schema, ∀ b ∈ checkBranches definition ss, Sound b.check
  | [] => fun b hb => by cases hb
  | s :: rest => fun b hb => by
    rcases List.mem_cons.1 hb with rfl | hb
    · exact sound_check h s
    · exact sound_checkBranches h rest b hb

theorem sound_checkNamed (h : ∀ place, Sound (definition place)) :
    ∀ named : List (String × Schema), ∀ e ∈ checkNamed definition named, Sound e.2
  | [] => fun e he => by cases he
  | (k, s) :: rest => fun e he => by
    rcases List.mem_cons.1 he with rfl | he
    · exact sound_check h s
    · exact sound_checkNamed h rest e he

theorem sound_checkMatched (h : ∀ place, Sound (definition place)) :
    ∀ matched : List (String × Pattern × Schema), ∀ e ∈ checkMatched definition matched,
      Sound e.2.2
  | [] => fun e he => by cases he
  | (text, p, s) :: rest => fun e he => by
    rcases List.mem_cons.1 he with rfl | he
    · exact sound_check h s
    · exact sound_checkMatched h rest e he

end

end Schemas

end DocSchema.Schema

namespace DocSchema.Validator

open DocSchema.Json DocSchema.Schema

/-- Following links is sound, however many may be followed. -/
theorem sound_definition (table : Array Schema) (n place : Nat) :
    Check.Sound (definition table n place) := by
  induction n generalizing place with
  | zero => exact fun _ _ => Outcome.within_ok
  | succ n ih =>
    intro v hv
    simp only [definition]
    cases table[place]? with
    | none => exact Outcome.within_ok
    | some s => exact sound_check ih s v hv

/-- Every violation that a validator finds is at a place of the value, and tells of what is there. -/
theorem exists_at_of_violation {va : Validator} {v : Value} (hv : v.Proper) {w : Violation}
    (hw : w ∈ va.violations v) : ∃ x, v.At w.instancePath x ∧ w.Tells x :=
  sound_check (sound_definition va.definitions (va.limit v)) va.root v hv w hw

end DocSchema.Validator
