/-
  DocSchema/Proofs/Schema/Clean.lean
  ==================================
  **Checks that find nothing.**

  The outcome of a check is clean when it has no violations and leaves no complaint for the
  conjunction of keywords to make (`Outcome.Clean`).  Each keyword has a lemma that tells when its
  outcome is clean, given that those of the schemas in it are.  Of the keywords that skeletons
  use the lemmas go both ways.
-/
import DocSchema.Proofs.Schema.ViolationPath

namespace DocSchema.Schema

open DocSchema.Json

/-! ### Outcomes -/

namespace Outcome

/-- Nothing is found, and nothing is left to be found. -/
structure Clean (o : Outcome) : Prop where
  violations : o.violations = []
  remainder : o.remainder = none

variable {o : Outcome} {os : List Outcome} {v : Value}

theorem clean_ok : Outcome.ok.Clean :=
  ⟨rfl, rfl⟩

theorem clean_require {condition : Bool} (h : condition = true) (schemaPath : List String)
    (fault : Fault) : (Outcome.require condition schemaPath v fault).Clean := by
  rw [h]
  exact clean_ok

theorem clean_under (schemaPath : List String) (h : o.violations = []) :
    (o.under schemaPath).Clean := by
  refine ⟨?_, rfl⟩
  change o.violations.map _ = []
  rw [h]
  rfl

theorem violations_require_eq_nil {condition : Bool} {schemaPath : List String} {fault : Fault} :
    (Outcome.require condition schemaPath v fault).violations = [] ↔ condition = true := by
  cases condition with
  | true => exact iff_of_true rfl rfl
  | false => exact iff_of_false (List.cons_ne_nil _ _) Bool.false_ne_true

theorem violations_ofMember_eq_nil {name : String} {schemaPath : List String} :
    (o.ofMember name schemaPath).violations = [] ↔ o.violations = [] :=
  List.map_eq_nil_iff

theorem violations_ofItem_eq_nil {index : Nat} {schemaPath : List String} :
    (o.ofItem index schemaPath).violations = [] ↔ o.violations = [] :=
  List.map_eq_nil_iff

theorem violations_join_eq_nil :
    (Outcome.join os).violations = [] ↔ ∀ o ∈ os, o.violations = [] :=
  List.flatMap_eq_nil_iff

theorem clean_join (h : ∀ o ∈ os, o.violations = []) : (Outcome.join os).Clean :=
  ⟨violations_join_eq_nil.2 h, rfl⟩

theorem clean_conjunction (h : ∀ o ∈ os, o.Clean) : (Outcome.conjunction v os).Clean := by
  refine ⟨List.flatMap_eq_nil_iff.2 fun o ho => ?_, rfl⟩
  rw [(h o ho).violations, (h o ho).remainder]
  rfl

theorem violations_of_conjunction (h : (Outcome.conjunction v os).violations = []) :
    ∀ o ∈ os, o.violations = [] :=
  fun o ho => (List.append_eq_nil_iff.1 (List.flatMap_eq_nil_iff.1 h o ho)).1

end Outcome

/-! ### Keywords -/

namespace Check

variable {v : Value} {c : Check} {named : Named} {cs : List Check} {bs : List Branch}

theorem clean_type {t : TypeName} {ts : List TypeName} {wholeFloats : Bool} (ht : t ∈ ts)
    (h : t.accepts wholeFloats v = true) : (type ts wholeFloats v).Clean :=
  Outcome.clean_require (List.any_eq_true.2 ⟨t, ht, h⟩) _ _

theorem violations_properties_eq_nil {members : Object} :
    (properties named (.object members)).violations = [] ↔
      ∀ e ∈ named, ∀ x, members.get? e.1 = some x → (e.2 x).violations = [] := by
  refine Outcome.violations_join_eq_nil.trans (List.forall_mem_map.trans ?_)
  refine forall_congr' fun ⟨k, c⟩ => imp_congr_right fun _ => ?_
  dsimp only
  cases hget : members.get? k with
  | none => exact iff_of_true rfl fun x hx => nomatch hx
  | some x =>
    refine Outcome.violations_ofMember_eq_nil.trans ⟨fun h y hy => ?_, fun h => h x rfl⟩
    cases hy
    exact h

theorem clean_properties
    (h : ∀ e ∈ named, ∀ x, v.get? e.1 = some x → (e.2 x).violations = []) :
    (properties named v).Clean := by
  cases v with
  | object members => exact ⟨violations_properties_eq_nil.2 h, rfl⟩
  | _ => exact Outcome.clean_ok

theorem clean_additionalProperties
    (h : ∀ members, v = .object members → ∀ m ∈ members, (c m.2).violations = []) :
    (additionalProperties [] [] c v).Clean := by
  cases v with
  | object members =>
    refine Outcome.clean_join fun o ho => ?_
    obtain ⟨m, hm, rfl⟩ := List.mem_map.1 ho
    exact Outcome.violations_ofMember_eq_nil.2 (h members rfl m hm)
  | _ => exact Outcome.clean_ok

theorem clean_items (keyword : String)
    (h : ∀ xs, v = .array xs → ∀ x ∈ xs, (c x).violations = []) :
    (items keyword 0 c v).Clean := by
  cases v with
  | array xs =>
    refine Outcome.clean_join fun o ho => ?_
    obtain ⟨⟨i, x⟩, hx, rfl⟩ := List.mem_map.1 ho
    obtain ⟨-, hget⟩ := mem_indexed hx
    exact Outcome.violations_ofItem_eq_nil.2 (h xs rfl x (List.mem_of_getElem? hget))
  | _ => exact Outcome.clean_ok

theorem violations_itemOutcomes_eq_nil {keyword : String} {xs : List Value} (i : Nat) :
    (∀ o ∈ itemOutcomes keyword i cs xs, o.violations = []) ↔
      ∀ e ∈ List.zip cs xs, (e.1 e.2).violations = [] := by
  induction cs generalizing xs i with
  | nil => simp [itemOutcomes]
  | cons c cs ih =>
    cases xs with
    | nil => simp [itemOutcomes]
    | cons x xs =>
      rw [itemOutcomes, List.zip_cons_cons, List.forall_mem_cons, List.forall_mem_cons,
        Outcome.violations_ofItem_eq_nil, ih (i + 1)]

theorem violations_itemList_eq_nil {keyword : String} {xs : List Value} :
    (itemList keyword cs (.array xs)).violations = [] ↔
      ∀ e ∈ List.zip cs xs, (e.1 e.2).violations = [] :=
  Outcome.violations_join_eq_nil.trans (violations_itemOutcomes_eq_nil 0)

theorem exists_branch {keyword : String} {b : Branch} (hb : b ∈ bs)
    (h : (b.check v).violations = []) (i : Nat) :
    ∃ o ∈ branches keyword v i bs, o.2.violations = [] := by
  induction bs generalizing i with
  | nil => exact absurd hb List.not_mem_nil
  | cons b' bs ih =>
    rw [branches]
    rcases List.mem_cons.1 hb with rfl | hb
    · exact ⟨_, List.mem_cons_self, (Outcome.clean_under _ h).violations⟩
    · obtain ⟨o, ho, hviolations⟩ := ih hb (i + 1)
      exact ⟨o, List.mem_cons_of_mem _ ho, hviolations⟩

theorem clean_anyOf {b : Branch} (hb : b ∈ bs) (h : (b.check v).violations = []) :
    (anyOf bs v).Clean := by
  obtain ⟨o, ho, hviolations⟩ := @exists_branch v bs "anyOf" b hb h 0
  have hvalid : (branches "anyOf" v 0 bs).any (·.2.isValid) = true :=
    List.any_eq_true.2 ⟨o, ho, List.isEmpty_iff.2 hviolations⟩
  unfold anyOf
  dsimp only
  rw [if_pos hvalid]
  exact ⟨rfl, rfl⟩

end Check

/-! ### Schemas -/

section Lists

variable (definition : Nat → Check)

theorem checkAll_eq_map (ss : List Schema) :
    Schema.checkAll definition ss = ss.map (Schema.check definition) := by
  induction ss with
  | nil => rfl
  | cons s ss ih => rw [Schema.checkAll, ih, List.map_cons]

theorem checkNamed_eq_map (named : List (String × Schema)) :
    Schema.checkNamed definition named = named.map fun e => (e.1, e.2.check definition) := by
  induction named with
  | nil => rfl
  | cons e named ih =>
    obtain ⟨k, s⟩ := e
    rw [Schema.checkNamed, ih, List.map_cons]

theorem checkBranches_eq_map (ss : List Schema) :
    Schema.checkBranches definition ss =
      ss.map fun s => ⟨s.isBoolean, s.check definition⟩ := by
  induction ss with
  | nil => rfl
  | cons s ss ih => rw [Schema.checkBranches, ih, List.map_cons]

theorem clean_all {parts : List Schema} {v : Value}
    (h : ∀ s ∈ parts, (s.check definition v).Clean) :
    ((Schema.all parts).check definition v).Clean := by
  rw [Schema.check]
  refine Outcome.clean_conjunction fun o ho => ?_
  rw [checkAll_eq_map, List.map_map] at ho
  obtain ⟨s, hs, rfl⟩ := List.mem_map.1 ho
  exact h s hs

theorem violations_of_all {parts : List Schema} {v : Value}
    (h : ((Schema.all parts).check definition v).violations = []) :
    ∀ s ∈ parts, (s.check definition v).violations = [] := by
  rw [Schema.check] at h
  intro s hs
  refine Outcome.violations_of_conjunction h _ ?_
  rw [checkAll_eq_map, List.map_map]
  exact List.mem_map_of_mem hs

end Lists

end DocSchema.Schema
