/-
  DocSchema/Proofs/Schema/Links.lean
  ==================================
  **The limit on links is never met by a check that comes to an end.**

  A check of a value asks links about the value itself and about values inside it (`Asks`), and its
  outcome depends on their answers alone (`check_congr`).  What a link means asks further links
  (`Validator.Follows`).  A check comes to an end when no links are followed for ever.  Then no link
  is asked about one value inside itself; as there are only so many links, and a value goes only so
  deep, `Validator.limit` is enough: with more links allowed nothing else is found
  (`Validator.outcome_eq_of_limit_le`).

  Where links go round at one value the limit does cut in.  There is no answer to compare with then:
  an evaluator that follows links as they come does not return.
-/
import DocSchema.Proofs.Schema.ViolationPath
import Mathlib.Data.List.Forall2
import Mathlib.Data.List.Perm.Subperm
import Mathlib.Logic.Relation

namespace DocSchema.Schema

open DocSchema.Json

/-! ### Questions -/

/-- A link, by the place of what it means, and a value that it is asked about. -/
abbrev Question := Nat × Value

def objectMembers : Value → Object
  | .object ms => ms
  | _ => []

def arrayItems : Value → List Value
  | .array xs => xs
  | _ => []

mutual

/-- A check of the value against the schema asks the question.  (Both outcomes of a condition are
taken into account.) -/
def Asks (q : Question) : Schema → Value → Prop
  | .all parts, v => AsksAny q parts v
  | .properties named, v => AsksNamed q named v
  | .patternProperties matched, v => AsksMatched q matched v
  | .additionalProperties named matched rest, v =>
    AsksNamed q named v ∨ AsksMatched q matched v ∨ ∃ m ∈ objectMembers v, Asks q rest m.2
  | .closedProperties named matched, v => AsksNamed q named v ∨ AsksMatched q matched v
  | .propertyNames s, v => ∃ m ∈ objectMembers v, Asks q s (.string m.1)
  | .dependentSchema _ name s, v => (objectMembers v).contains name = true ∧ Asks q s v
  | .itemList _ schemas, v => AsksItems q schemas (arrayItems v)
  | .items _ skipped s, v => ∃ x ∈ (arrayItems v).drop skipped, Asks q s x
  | .contains s _ _, v => ∃ x ∈ arrayItems v, Asks q s x
  | .allOf schemas, v => AsksAny q schemas v
  | .anyOf schemas, v => AsksAny q schemas v
  | .oneOf schemas, v => AsksAny q schemas v
  | .not _ s, v => Asks q s v
  | .conditional condition consequence alternative, v =>
    Asks q condition v ∨ Asks q consequence v ∨ Asks q alternative v
  | .ref _ target, v => Asks q target v
  | .link _ place, v => q = (place, v)
  | .unevaluatedProperties s, v => ∃ m ∈ objectMembers v, Asks q s m.2
  | .unevaluatedItems s, v => ∃ x ∈ arrayItems v, Asks q s x
  | _, _ => False

/-- One of the schemas asks about the value. -/
def AsksAny (q : Question) : List Schema → Value → Prop
  | [], _ => False
  | s :: rest, v => Asks q s v ∨ AsksAny q rest v

/-- One of the schemas asks about the item at its place. -/
def AsksItems (q : Question) : List Schema → List Value → Prop
  | s :: rest, x :: xs => Asks q s x ∨ AsksItems q rest xs
  | _, _ => False

/-- One of the schemas asks about a member of its name. -/
def AsksNamed (q : Question) : List (String × Schema) → Value → Prop
  | [], _ => False
  | (k, s) :: rest, v => (∃ m ∈ objectMembers v, m.1 = k ∧ Asks q s m.2) ∨ AsksNamed q rest v

/-- One of the schemas asks about a member whose name matches its pattern. -/
def AsksMatched (q : Question) : List (String × Pattern × Schema) → Value → Prop
  | [], _ => False
  | (_, p, s) :: rest, v =>
    (∃ m ∈ objectMembers v, p.isMatch m.1 = true ∧ Asks q s m.2) ∨ AsksMatched q rest v

end

/-! ### Checks that agree -/

namespace Check

variable {named named' : Named} {matched matched' : Matched} {c c' : Check} {ms : Object}
  {m : String × Value}

/-- Checks of the same names that agree on the members of their names. -/
def Named.Agree (ms : Object) : Named → Named → Prop :=
  List.Forall₂ fun e e' => e.1 = e'.1 ∧ ∀ m ∈ ms, m.1 = e.1 → e.2 m.2 = e'.2 m.2

/-- Checks for the same patterns that agree on the members that match. -/
def Matched.Agree (ms : Object) : Matched → Matched → Prop :=
  List.Forall₂ fun e e' => e.1 = e'.1 ∧ e.2.1 = e'.2.1 ∧
    ∀ m ∈ ms, e.2.1.isMatch m.1 = true → e.2.2 m.2 = e'.2.2 m.2

theorem Named.Agree.properties_eq (h : named.Agree ms named') :
    properties named (.object ms) = properties named' (.object ms) := by
  unfold properties
  dsimp only
  refine congrArg Outcome.join ?_
  induction h with
  | nil => rfl
  | @cons e e' named named' he _ ih =>
    obtain ⟨k, c⟩ := e
    obtain ⟨k', c'⟩ := e'
    obtain ⟨hk, hc⟩ := he
    cases hk
    rw [List.map_cons, List.map_cons, ih]
    refine congrArg (· :: _) ?_
    dsimp only
    cases hx : Object.get? ms k with
    | none => rfl
    | some x =>
      rw [Option.map_some, Option.map_some]
      exact congrArg (Outcome.ofMember k _) (hc (k, x) (Object.mem_of_get? hx) rfl)

theorem Named.Agree.named?_eq (h : named.Agree ms named') (hm : m ∈ ms) :
    (named? named m.1).map (· m.2) = (named? named' m.1).map (· m.2) := by
  induction h with
  | nil => rfl
  | @cons e e' named named' he _ ih =>
    obtain ⟨k, c⟩ := e
    obtain ⟨k', c'⟩ := e'
    obtain ⟨hk, hc⟩ := he
    cases hk
    rw [named?, named?]
    by_cases hname : k = m.1
    · rw [if_pos (by simpa using hname), if_pos (by simpa using hname)]
      exact congrArg some (hc m hm hname.symm)
    · rw [if_neg (by simpa using hname), if_neg (by simpa using hname), ih]

theorem Matched.Agree.byPattern_eq (h : matched.Agree ms matched') (hm : m ∈ ms) :
    byPattern matched m.1 m.2 = byPattern matched' m.1 m.2 := by
  have hfitting : (matched.filter fun e => e.2.1.isMatch m.1).map
        (fun e => (e.2.2 m.2).ofMatched m.1 ["patternProperties", e.1]) =
      (matched'.filter fun e => e.2.1.isMatch m.1).map
        (fun e => (e.2.2 m.2).ofMatched m.1 ["patternProperties", e.1]) := by
    induction h with
    | nil => rfl
    | @cons e e' matched matched' he _ ih =>
      obtain ⟨text, p, c⟩ := e
      obtain ⟨text', p', c'⟩ := e'
      obtain ⟨htext, hp, hc⟩ := he
      cases htext
      cases hp
      by_cases hmatch : p.isMatch m.1 = true
      · rw [List.filter_cons_of_pos (by exact hmatch), List.filter_cons_of_pos (by exact hmatch),
          List.map_cons, List.map_cons, ih]
        exact congrArg (fun o : Outcome => o.ofMatched m.1 ["patternProperties", text] :: _)
          (hc m hm hmatch)
      · rw [List.filter_cons_of_neg (by exact hmatch), List.filter_cons_of_neg (by exact hmatch), ih]
  have hempty := congrArg List.isEmpty hfitting
  rw [List.isEmpty_map, List.isEmpty_map] at hempty
  unfold byPattern
  dsimp only
  rw [hempty, hfitting]

theorem Matched.Agree.patternProperties_eq (h : matched.Agree ms matched') :
    patternProperties matched (.object ms) = patternProperties matched' (.object ms) := by
  unfold patternProperties
  dsimp only
  refine congrArg Outcome.join ?_
  induction h with
  | nil => rfl
  | @cons e e' matched matched' he _ ih =>
    obtain ⟨text, p, c⟩ := e
    obtain ⟨text', p', c'⟩ := e'
    obtain ⟨htext, hp, hc⟩ := he
    cases htext
    cases hp
    rw [List.map_cons, List.map_cons, ih]
    refine congrArg (fun os => Outcome.join os :: _) (List.map_congr_left fun m hm => ?_)
    obtain ⟨hmem, hmatch⟩ := List.mem_filter.1 hm
    exact congrArg (Outcome.ofMatched m.1 _) (hc m hmem hmatch)

theorem member?_eq (hnamed : named.Agree ms named') (hmatched : matched.Agree ms matched')
    (hm : m ∈ ms) : member? named matched m.1 m.2 = member? named' matched' m.1 m.2 := by
  have hname := hnamed.named?_eq hm
  unfold member?
  rw [hmatched.byPattern_eq hm]
  cases hc : named? named m.1 with
  | none =>
    rw [hc] at hname
    rw [Option.map_eq_none_iff.1 hname.symm]
  | some c =>
    rw [hc] at hname
    obtain ⟨c', hc', hsame⟩ := Option.map_eq_some_iff.1 hname.symm
    rw [hc']
    cases byPattern matched' m.1 m.2 with
    | none => exact congrArg (fun o : Outcome => some (o.ofMember m.1 _)) hsame.symm
    | some o =>
      exact congrArg (fun o' : Outcome => some (Outcome.join [o'.ofMember m.1 _, o])) hsame.symm

theorem additionalProperties_eq (hnamed : named.Agree ms named')
    (hmatched : matched.Agree ms matched') (hrest : ∀ m ∈ ms, c m.2 = c' m.2) :
    additionalProperties named matched c (.object ms) =
      additionalProperties named' matched' c' (.object ms) := by
  refine congrArg Outcome.join (List.map_congr_left fun m hm => ?_)
  dsimp only [memberOrOther]
  rw [member?_eq hnamed hmatched hm, hrest m hm]

theorem closedProperties_eq (hnamed : named.Agree ms named')
    (hmatched : matched.Agree ms matched') :
    closedProperties named matched (.object ms) = closedProperties named' matched' (.object ms) := by
  have hknown : (ms.map fun m => (m.1, member? named matched m.1 m.2)) =
      ms.map fun m => (m.1, member? named' matched' m.1 m.2) :=
    List.map_congr_left fun m hm => by rw [member?_eq hnamed hmatched hm]
  unfold closedProperties
  dsimp only
  rw [hknown]

theorem propertyNames_eq (h : ∀ m ∈ ms, c (.string m.1) = c' (.string m.1)) :
    propertyNames c (.object ms) = propertyNames c' (.object ms) := by
  have hnames : (ms.flatMap fun m => (c (.string m.1)).violations.map fun w =>
        (⟨[], "propertyNames" :: w.schemaPath, .object ms, .badName w.value w.fault⟩ : Violation)) =
      ms.flatMap fun m => (c' (.string m.1)).violations.map fun w =>
        ⟨[], "propertyNames" :: w.schemaPath, .object ms, .badName w.value w.fault⟩ :=
    List.flatMap_congr fun m hm => by rw [h m hm]
  exact congrArg (fun ws => ({ violations := ws } : Outcome)) hnames

theorem dependentSchema_eq {keyword name : String}
    (h : ms.contains name = true → c (.object ms) = c' (.object ms)) :
    dependentSchema keyword name c (.object ms) = dependentSchema keyword name c' (.object ms) := by
  unfold dependentSchema
  dsimp only
  cases hname : ms.contains name with
  | false => rfl
  | true => rw [h hname]

theorem filter_valid_eq {α : Type} {f : α → Value} {xs : List α}
    (h : ∀ x ∈ xs, c (f x) = c' (f x)) :
    (xs.filter fun x => (c (f x)).isValid) = xs.filter fun x => (c' (f x)).isValid :=
  List.filter_congr fun x hx => by rw [h x hx]

theorem unevaluatedProperties_eq (h : ∀ m ∈ ms, c m.2 = c' m.2) :
    unevaluatedProperties c (.object ms) = unevaluatedProperties c' (.object ms) := by
  unfold unevaluatedProperties
  dsimp only
  rw [filter_valid_eq h]

theorem snd_mem_of_mem_indexed {i : Nat} {xs : List Value} {e : Nat × Value}
    (h : e ∈ indexed i xs) : e.2 ∈ xs :=
  List.mem_of_getElem? (mem_indexed h).2

theorem items_eq {keyword : String} {skipped : Nat} {xs : List Value}
    (h : ∀ x ∈ xs.drop skipped, c x = c' x) :
    items keyword skipped c (.array xs) = items keyword skipped c' (.array xs) := by
  refine congrArg Outcome.join (List.map_congr_left fun e he => ?_)
  exact congrArg (Outcome.ofItem e.1 _) (h e.2 (snd_mem_of_mem_indexed he))

theorem contains_eq {least most : Option Nat} {xs : List Value} (h : ∀ x ∈ xs, c x = c' x) :
    contains c least most (.array xs) = contains c' least most (.array xs) := by
  unfold contains
  dsimp only
  rw [filter_valid_eq fun e he => h e.2 (snd_mem_of_mem_indexed he)]

theorem unevaluatedItems_eq {xs : List Value} (h : ∀ x ∈ xs, c x = c' x) :
    unevaluatedItems c (.array xs) = unevaluatedItems c' (.array xs) := by
  unfold unevaluatedItems
  dsimp only
  rw [filter_valid_eq fun e he => h e.2 (snd_mem_of_mem_indexed he)]

end Check

/-! ### Answers that a check depends on -/

section Congruence

open Check

variable {definition definition' : Nat → Check}

mutual

/-- A check depends on the answers to what it asks. -/
theorem check_congr : ∀ (s : Schema) (v : Value),
    (∀ q, Asks q s v → definition q.1 q.2 = definition' q.1 q.2) →
      check definition s v = check definition' s v
  | .always, _, _ => rfl
  | .never, _, _ => rfl
  | .all parts, v, h => congrArg (Outcome.conjunction v) (checkAll_congr parts v h)
  | .type _ _, _, _ => rfl
  | .const _, _, _ => rfl
  | .enum _, _, _ => rfl
  | .bound _ _, _, _ => rfl
  | .multipleOf _, _, _ => rfl
  | .size _ _, _, _ => rfl
  | .uniqueItems, _, _ => rfl
  | .pattern _ _, _, _ => rfl
  | .format _, _, _ => rfl
  | .contentEncoding _, _, _ => rfl
  | .contentMediaType _ _, _, _ => rfl
  | .required _, _, _ => rfl
  | .properties named, v, h => by
    cases v with
    | object ms => exact (checkNamed_congr named (.object ms) h).properties_eq
    | _ => rfl
  | .patternProperties matched, v, h => by
    cases v with
    | object ms => exact (checkMatched_congr matched (.object ms) h).patternProperties_eq
    | _ => rfl
  | .additionalProperties named matched rest, v, h => by
    cases v with
    | object ms =>
      refine additionalProperties_eq (checkNamed_congr named (.object ms) fun q hq => h q (.inl hq))
        (checkMatched_congr matched (.object ms) fun q hq => h q (.inr (.inl hq))) fun m hm => ?_
      exact check_congr rest m.2 fun q hq => h q (.inr (.inr ⟨m, hm, hq⟩))
    | _ => rfl
  | .closedProperties named matched, v, h => by
    cases v with
    | object ms =>
      exact closedProperties_eq (checkNamed_congr named (.object ms) fun q hq => h q (.inl hq))
        (checkMatched_congr matched (.object ms) fun q hq => h q (.inr hq))
    | _ => rfl
  | .noProperties, _, _ => rfl
  | .propertyNames s, v, h => by
    cases v with
    | object ms =>
      exact propertyNames_eq fun m hm => check_congr s (.string m.1) fun q hq => h q ⟨m, hm, hq⟩
    | _ => rfl
  | .noPropertyNames, _, _ => rfl
  | .dependentRequired _ _ _, _, _ => rfl
  | .dependentSchema _ _ s, v, h => by
    cases v with
    | object ms =>
      exact dependentSchema_eq fun hname =>
        check_congr s (.object ms) fun q hq => h q ⟨hname, hq⟩
    | _ => rfl
  | .itemList keyword schemas, v, h => by
    cases v with
    | array xs => exact congrArg Outcome.join (checkItems_congr keyword 0 schemas xs h)
    | _ => rfl
  | .items _ _ s, v, h => by
    cases v with
    | array xs => exact items_eq fun x hx => check_congr s x fun q hq => h q ⟨x, hx, hq⟩
    | _ => rfl
  | .noItemsFrom _, _, _ => rfl
  | .refusal _, _, _ => rfl
  | .contains s _ _, v, h => by
    cases v with
    | array xs => exact contains_eq fun x hx => check_congr s x fun q hq => h q ⟨x, hx, hq⟩
    | _ => rfl
  | .allOf schemas, v, h => by
    unfold check Check.allOf
    rw [checkBranches_congr "allOf" 0 schemas v h]
  | .anyOf schemas, v, h => by
    unfold check Check.anyOf
    rw [checkBranches_congr "anyOf" 0 schemas v h]
  | .oneOf schemas, v, h => by
    unfold check Check.oneOf
    rw [checkBranches_congr "oneOf" 0 schemas v h]
  | .not text s, v, h => by
    unfold check Check.not
    rw [check_congr s v h]
  | .conditional condition consequence alternative, v, h => by
    unfold check Check.conditional
    dsimp only
    rw [check_congr condition v fun q hq => h q (.inl hq),
      check_congr consequence v fun q hq => h q (.inr (.inl hq)),
      check_congr alternative v fun q hq => h q (.inr (.inr hq))]
  | .ref keyword target, v, h => congrArg (Outcome.under [keyword]) (check_congr target v h)
  | .link keyword place, v, h => congrArg (Outcome.under [keyword]) (h (place, v) rfl)
  | .unevaluatedProperties s, v, h => by
    cases v with
    | object ms =>
      exact unevaluatedProperties_eq fun m hm => check_congr s m.2 fun q hq => h q ⟨m, hm, hq⟩
    | _ => rfl
  | .unevaluatedItems s, v, h => by
    cases v with
    | array xs => exact unevaluatedItems_eq fun x hx => check_congr s x fun q hq => h q ⟨x, hx, hq⟩
    | _ => rfl

theorem checkAll_congr : ∀ (ss : List Schema) (v : Value),
    (∀ q, AsksAny q ss v → definition q.1 q.2 = definition' q.1 q.2) →
      (checkAll definition ss).map (· v) = (checkAll definition' ss).map (· v)
  | [], _, _ => rfl
  | s :: rest, v, h => by
    rw [checkAll, checkAll, List.map_cons, List.map_cons,
      check_congr s v fun q hq => h q (.inl hq), checkAll_congr rest v fun q hq => h q (.inr hq)]

theorem checkBranches_congr (keyword : String) : ∀ (i : Nat) (ss : List Schema) (v : Value),
    (∀ q, AsksAny q ss v → definition q.1 q.2 = definition' q.1 q.2) →
      branches keyword v i (checkBranches definition ss) =
        branches keyword v i (checkBranches definition' ss)
  | _, [], _, _ => rfl
  | i, s :: rest, v, h => by
    rw [checkBranches, checkBranches, branches, branches,
      checkBranches_congr keyword (i + 1) rest v fun q hq => h q (.inr hq)]
    dsimp only
    rw [check_congr s v fun q hq => h q (.inl hq)]

theorem checkItems_congr (keyword : String) : ∀ (i : Nat) (ss : List Schema) (xs : List Value),
    (∀ q, AsksItems q ss xs → definition q.1 q.2 = definition' q.1 q.2) →
      itemOutcomes keyword i (checkAll definition ss) xs =
        itemOutcomes keyword i (checkAll definition' ss) xs
  | _, [], _, _ => rfl
  | _, _ :: _, [], _ => rfl
  | i, s :: rest, x :: xs, h => by
    rw [checkAll, checkAll, itemOutcomes, itemOutcomes,
      check_congr s x fun q hq => h q (.inl hq),
      checkItems_congr keyword (i + 1) rest xs fun q hq => h q (.inr hq)]

theorem checkNamed_congr : ∀ (named : List (String × Schema)) (v : Value),
    (∀ q, AsksNamed q named v → definition q.1 q.2 = definition' q.1 q.2) →
      (checkNamed definition named).Agree (objectMembers v) (checkNamed definition' named)
  | [], _, _ => .nil
  | (_, s) :: rest, v, h =>
    .cons ⟨rfl, fun m hm hname => check_congr s m.2 fun q hq => h q (.inl ⟨m, hm, hname, hq⟩)⟩
      (checkNamed_congr rest v fun q hq => h q (.inr hq))

theorem checkMatched_congr : ∀ (matched : List (String × Pattern × Schema)) (v : Value),
    (∀ q, AsksMatched q matched v → definition q.1 q.2 = definition' q.1 q.2) →
      (checkMatched definition matched).Agree (objectMembers v) (checkMatched definition' matched)
  | [], _, _ => .nil
  | (_, _, s) :: rest, v, h =>
    .cons ⟨rfl, rfl, fun m hm hmatch =>
        check_congr s m.2 fun q hq => h q (.inl ⟨m, hm, hmatch, hq⟩)⟩
      (checkMatched_congr rest v fun q hq => h q (.inr hq))

end

end Congruence

/-! ### Values that questions are about -/

section Depth

open Validator (depth depthOfItems depthOfMembers)

variable {q : Question} {v x : Value}

theorem depth_lt_of_mem_items (h : x ∈ arrayItems v) : depth x < depth v := by
  have hle : ∀ xs : List Value, x ∈ xs → depth x ≤ depthOfItems xs := by
    intro xs hx
    induction xs with
    | nil => cases hx
    | cons y xs ih =>
      rw [depthOfItems]
      rcases List.mem_cons.1 hx with rfl | hx
      · exact Nat.le_max_left _ _
      · exact Nat.le_trans (ih hx) (Nat.le_max_right _ _)
  cases v with
  | array xs => exact Nat.lt_succ_of_le (hle xs h)
  | _ => cases h

theorem depth_lt_of_mem_members {m : String × Value} (h : m ∈ objectMembers v) :
    depth m.2 < depth v := by
  have hle : ∀ ms : List (String × Value), m ∈ ms → depth m.2 ≤ depthOfMembers ms := by
    intro ms hm
    induction ms with
    | nil => cases hm
    | cons e ms ih =>
      obtain ⟨k, y⟩ := e
      rw [depthOfMembers]
      rcases List.mem_cons.1 hm with rfl | hm
      · exact Nat.le_max_left _ _
      · exact Nat.le_trans (ih hm) (Nat.le_max_right _ _)
  cases v with
  | object ms => exact Nat.lt_succ_of_le (hle ms h)
  | _ => cases h

theorem depth_pos_of_mem_members {m : String × Value} (h : m ∈ objectMembers v) : 0 < depth v :=
  Nat.zero_lt_of_lt (depth_lt_of_mem_members h)

/-- The question is about the value, or about one that does not go as deep. -/
def Question.Near (q : Question) (v : Value) : Prop :=
  q.2 = v ∨ depth q.2 < depth v

theorem Question.Near.depth_le (h : q.Near v) : depth q.2 ≤ depth v := by
  rcases h with heq | hlt
  · exact Nat.le_of_eq (congrArg depth heq)
  · exact Nat.le_of_lt hlt

/-- What is asked about a value that does not go as deep is about one that does not either. -/
theorem Question.Near.deeper (h : q.Near x) (hx : depth x < depth v) : q.Near v :=
  .inr (Nat.lt_of_le_of_lt h.depth_le hx)

mutual

theorem near_of_asks : ∀ (s : Schema) (v : Value), Asks q s v → q.Near v
  | .all parts, v, h => near_of_asksAny parts v h
  | .properties named, v, h => near_of_asksNamed named v h
  | .patternProperties matched, v, h => near_of_asksMatched matched v h
  | .additionalProperties named matched rest, v, h => by
    obtain h | h | ⟨m, hm, h⟩ := h
    · exact near_of_asksNamed named v h
    · exact near_of_asksMatched matched v h
    · exact (near_of_asks rest m.2 h).deeper (depth_lt_of_mem_members hm)
  | .closedProperties named matched, v, h => by
    obtain h | h := h
    · exact near_of_asksNamed named v h
    · exact near_of_asksMatched matched v h
  | .propertyNames s, v, h => by
    obtain ⟨m, hm, h⟩ := h
    exact (near_of_asks s (.string m.1) h).deeper (depth_pos_of_mem_members hm)
  | .dependentSchema _ _ s, v, h => near_of_asks s v h.2
  | .itemList _ schemas, v, h => by
    obtain ⟨x, hx, h⟩ := near_of_asksItems schemas (arrayItems v) h
    exact h.deeper (depth_lt_of_mem_items hx)
  | .items _ _ s, v, h => by
    obtain ⟨x, hx, h⟩ := h
    exact (near_of_asks s x h).deeper (depth_lt_of_mem_items (List.mem_of_mem_drop hx))
  | .contains s _ _, v, h => by
    obtain ⟨x, hx, h⟩ := h
    exact (near_of_asks s x h).deeper (depth_lt_of_mem_items hx)
  | .allOf schemas, v, h => near_of_asksAny schemas v h
  | .anyOf schemas, v, h => near_of_asksAny schemas v h
  | .oneOf schemas, v, h => near_of_asksAny schemas v h
  | .not _ s, v, h => near_of_asks s v h
  | .conditional condition consequence alternative, v, h => by
    obtain h | h | h := h
    · exact near_of_asks condition v h
    · exact near_of_asks consequence v h
    · exact near_of_asks alternative v h
  | .ref _ target, v, h => near_of_asks target v h
  | .link _ _, v, h => by
    cases h
    exact .inl rfl
  | .unevaluatedProperties s, v, h => by
    obtain ⟨m, hm, h⟩ := h
    exact (near_of_asks s m.2 h).deeper (depth_lt_of_mem_members hm)
  | .unevaluatedItems s, v, h => by
    obtain ⟨x, hx, h⟩ := h
    exact (near_of_asks s x h).deeper (depth_lt_of_mem_items hx)

theorem near_of_asksAny : ∀ (ss : List Schema) (v : Value), AsksAny q ss v → q.Near v
  | s :: rest, v, h => by
    obtain h | h := h
    · exact near_of_asks s v h
    · exact near_of_asksAny rest v h

theorem near_of_asksItems : ∀ (ss : List Schema) (xs : List Value), AsksItems q ss xs →
    ∃ x ∈ xs, q.Near x
  | s :: rest, x :: xs, h => by
    obtain h | h := h
    · exact ⟨x, List.mem_cons_self, near_of_asks s x h⟩
    · obtain ⟨y, hy, h⟩ := near_of_asksItems rest xs h
      exact ⟨y, List.mem_cons_of_mem _ hy, h⟩

theorem near_of_asksNamed : ∀ (named : List (String × Schema)) (v : Value),
    AsksNamed q named v → q.Near v
  | (_, s) :: rest, v, h => by
    obtain ⟨m, hm, -, h⟩ | h := h
    · exact (near_of_asks s m.2 h).deeper (depth_lt_of_mem_members hm)
    · exact near_of_asksNamed rest v h

theorem near_of_asksMatched : ∀ (matched : List (String × Pattern × Schema)) (v : Value),
    AsksMatched q matched v → q.Near v
  | (_, _, s) :: rest, v, h => by
    obtain ⟨m, hm, -, h⟩ | h := h
    · exact (near_of_asks s m.2 h).deeper (depth_lt_of_mem_members hm)
    · exact near_of_asksMatched rest v h

end

end Depth

end DocSchema.Schema

/-! ### Links that are followed -/

namespace DocSchema.Validator

open DocSchema.Json DocSchema.Schema

variable {table : Array Schema} {q : Question} {va : Validator} {v : Value}

/-- To answer the second question the first one is asked. -/
def Follows (table : Array Schema) (inner q : Question) : Prop :=
  ∃ s, table[q.1]? = some s ∧ Asks inner s q.2

/-- No link that the check of the value asks is followed for ever. -/
def Ends (va : Validator) (v : Value) : Prop :=
  ∀ q, Asks q va.root v → Acc (Follows va.definitions) q

theorem not_self_of_acc {α : Type} {r : α → α → Prop} {a : α} (h : Acc r a) : ¬ r a a := by
  induction h with
  | intro a _ ih => exact fun hself => ih a hself hself

theorem length_le_of_nodup {places : List Nat} {n : Nat} (hplaces : places.Nodup)
    (h : ∀ place ∈ places, place < n) : places.length ≤ n := by
  have hsub : places ⊆ List.range n := fun place hplace => List.mem_range.2 (h place hplace)
  have hle := (hplaces.subperm hsub).length_le
  rwa [List.length_range] at hle

/-- A question that is not asked for ever has one answer as soon as enough links may be followed.
`seen` are the links that were asked about the same value on the way to it. -/
theorem definition_eq_of_acc (hq : Acc (Follows table) q) {seen : List Nat} (hnodup : seen.Nodup)
    (hseen : ∀ place ∈ seen,
      place < table.size ∧ Relation.TransGen (Follows table) q (place, q.2))
    {n m : Nat} (hn : table.size - seen.length + table.size * depth q.2 < n)
    (hm : table.size - seen.length + table.size * depth q.2 < m) :
    definition table n q.1 q.2 = definition table m q.1 q.2 := by
  induction hq generalizing seen n m with
  | intro q hacc ih =>
    obtain ⟨n, rfl⟩ := Nat.exists_eq_add_one_of_ne_zero (Nat.ne_zero_of_lt hn)
    obtain ⟨m, rfl⟩ := Nat.exists_eq_add_one_of_ne_zero (Nat.ne_zero_of_lt hm)
    rw [definition, definition]
    cases hs : table[q.1]? with
    | none => rfl
    | some s =>
      refine check_congr s q.2 fun inner hasks => ?_
      have hfollows : Follows table inner q := ⟨s, hs, hasks⟩
      -- the link is a new one, or the question would be asked for itself
      have hnew : q.1 ∉ seen := fun hmem =>
        not_self_of_acc (Acc.intro q hacc).transGen (hseen q.1 hmem).2
      have hplace : q.1 < table.size := (Array.getElem?_eq_some_iff.1 hs).1
      have hnodup' : (q.1 :: seen).Nodup := List.nodup_cons.2 ⟨hnew, hnodup⟩
      have hlength := length_le_of_nodup hnodup'
        (List.forall_mem_cons.2 ⟨hplace, fun place hmem => (hseen place hmem).1⟩)
      rw [List.length_cons] at hlength
      rcases near_of_asks s q.2 hasks with hsame | hless
      · refine ih inner hfollows hnodup' (List.forall_mem_cons.2 ⟨⟨hplace, ?_⟩, ?_⟩) ?_ ?_
        · rw [hsame]
          exact .single hfollows
        · intro place hmem
          obtain ⟨hlt, hbefore⟩ := hseen place hmem
          rw [hsame]
          exact ⟨hlt, .head hfollows hbefore⟩
        · rw [hsame, List.length_cons]
          omega
        · rw [hsame, List.length_cons]
          omega
      · have hroom : table.size * depth inner.2 + table.size ≤ table.size * depth q.2 := by
          rw [← Nat.mul_succ]
          exact Nat.mul_le_mul_left _ hless
        refine ih inner hfollows List.nodup_nil (List.forall_mem_nil _) ?_ ?_
        · rw [List.length_nil]
          omega
        · rw [List.length_nil]
          omega

/-- **The limit is never met by a check that comes to an end.**  With more links allowed, the check
finds the same. -/
theorem outcome_eq_of_limit_le (h : va.Ends v) {n : Nat} (hn : va.limit v ≤ n) :
    va.root.check (definition va.definitions n) v = va.outcome v := by
  refine check_congr va.root v fun q hq => ?_
  have hbound : va.definitions.size + va.definitions.size * depth q.2 < va.limit v := by
    have hdepth := (near_of_asks va.root v hq).depth_le
    have hproduct := Nat.mul_le_mul_left va.definitions.size hdepth
    have hlimit : va.limit v =
        va.definitions.size * depth v + 2 * va.definitions.size + depth v + 2 := by
      rw [limit, Nat.add_mul, Nat.mul_add]
      omega
    omega
  exact definition_eq_of_acc (h q hq) List.nodup_nil (List.forall_mem_nil _)
    (Nat.lt_of_lt_of_le hbound hn) hbound

/-- Where links lead down in some order as long as they are asked about one value, every check comes
to an end. -/
theorem ends_of_ranked {rank : Nat → Nat}
    (h : ∀ place s, va.definitions[place]? = some s → ∀ inner v, Asks (inner, v) s v →
      rank inner < rank place) (v : Value) : va.Ends v := by
  let measure : Question → Nat × Nat := fun q => (depth q.2, rank q.1)
  have hwf := InvImage.wf measure (Prod.lex Nat.lt_wfRel Nat.lt_wfRel).wf
  have hfollows : Subrelation (Follows va.definitions)
      (InvImage (Prod.Lex Nat.lt Nat.lt) measure) := by
    rintro ⟨inner, x⟩ ⟨place, v⟩ ⟨s, hs, hasks⟩
    rcases near_of_asks s v hasks with hsame | hless
    · cases hsame
      exact .right _ (h place s hs inner _ hasks)
    · exact .left _ _ hless
  exact fun q _ => (hfollows.wf hwf).apply q

end DocSchema.Validator
