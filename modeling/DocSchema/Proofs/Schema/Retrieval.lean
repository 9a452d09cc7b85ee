/-
  DocSchema/Proofs/Schema/Retrieval.lean
  ======================================
  **The documents that a schema needs.**

  Documents are retrieved until none is missing (`missing?_of_complete`), and those that were needed
  before are needed after that (`mem_needed_of_complete`).  So whatever a schema document refers to
  is in its registry (`find?_of_ofDocument`).  Where everything is known from the start nothing is
  retrieved, and what is to be had from elsewhere does not matter (`ofDocument_of_known`).

  Gathering has a limit, the number of values in the document.  The schemas right inside a schema
  have fewer values in them than it has (`valueCountOfItems_subschemas_lt`), so that the queue is at
  its end by then (`gather_eq_of_weight_le`) and a higher limit changes nothing
  (`gather_of_valueCount_le`).
-/
import DocSchema.Proofs.Schema.Reading
import DocSchema.Schema.Registry

namespace DocSchema.Schema

open DocSchema.Json

variable {g g' : Gathered} {known r : Registry} {uri : Uri} {s : Resource}

/-! ### Gathering -/

theorem mem_needed_of_gather {n : Nat} {queue : List (Uri × Resource)}
    (h : gather n queue g = .ok g') : ∀ u ∈ g.needed, u ∈ g'.needed := by
  induction n generalizing queue g with
  | zero =>
    cases h
    exact fun u hu => hu
  | succ n ih =>
    cases queue with
    | nil =>
      cases h
      exact fun u hu => hu
    | cons e queue =>
      obtain ⟨base, s⟩ := e
      rw [gather] at h
      obtain ⟨inner, -, h⟩ := except_bind_eq_ok h
      obtain ⟨own, -, h⟩ := except_bind_eq_ok h
      obtain ⟨parts, -, h⟩ := except_bind_eq_ok h
      obtain ⟨needed, -, h⟩ := except_bind_eq_ok h
      intro u hu
      exact ih h u (List.mem_append_left _ (List.mem_append_left _ hu))

/-! ### The number of schemas -/

theorem valueCount_pos (v : Value) : 0 < valueCount v := by
  cases v with
  | array | object => exact Nat.succ_pos _
  | _ => exact Nat.one_pos

theorem valueCountOfItems_append (xs ys : List Value) :
    valueCountOfItems (xs ++ ys) = valueCountOfItems xs + valueCountOfItems ys := by
  induction xs with
  | nil => simp [valueCountOfItems]
  | cons x xs ih => rw [List.cons_append, valueCountOfItems, valueCountOfItems, ih, Nat.add_assoc]

theorem valueCountOfItems_filter_le (p : Value → Bool) (xs : List Value) :
    valueCountOfItems (xs.filter p) ≤ valueCountOfItems xs := by
  induction xs with
  | nil => exact Nat.le_refl _
  | cons x xs ih =>
    rw [List.filter_cons]
    split
    · exact Nat.add_le_add_left ih _
    · exact Nat.le_trans ih (Nat.le_add_left _ _)

theorem valueCountOfItems_values (ms : Object) :
    valueCountOfItems (ms.map (·.2)) = valueCountOfMembers ms := by
  induction ms with
  | nil => rfl
  | cons m ms ih => rw [List.map_cons, valueCountOfItems, valueCountOfMembers, ih]

theorem valueCountOfItems_memberValues_le (v : Value) :
    valueCountOfItems (Draft.memberValues v) ≤ valueCount v := by
  cases v with
  | object ms =>
    rw [valueCount, ← valueCountOfItems_values]
    exact Nat.le_succ _
  | _ => exact Nat.zero_le _

/-- However a keyword holds schemas, there are no more values in them than in its own. -/
theorem valueCountOfItems_schemas_le (h : Draft.Holding) (v : Value) :
    valueCountOfItems (h.schemas v) ≤ valueCount v := by
  have hitems : valueCountOfItems (v.asArray?.getD []) ≤ valueCount v := by
    cases v with
    | array xs => exact Nat.le_succ _
    | _ => exact Nat.zero_le _
  have hone : valueCountOfItems [v] ≤ valueCount v := Nat.le_refl _
  cases h with
  | one => exact hone
  | list => exact hitems
  | map => exact valueCountOfItems_memberValues_le v
  | oneOrList =>
    cases v with
    | array => exact hitems
    | _ => exact hone
  | mixedMap =>
    exact Nat.le_trans (valueCountOfItems_filter_le _ _) (valueCountOfItems_memberValues_le v)
  | oneObject =>
    rw [Draft.Holding.schemas]
    split
    · exact hone
    · exact Nat.zero_le _

/-- The schemas right inside a schema have fewer values in them than it has. -/
theorem valueCountOfItems_subschemas_lt (d : Draft) (v : Value) :
    valueCountOfItems (d.subschemas v) < valueCount v := by
  cases v with
  | object ms =>
    refine Nat.lt_succ_of_le ?_
    change valueCountOfItems (ms.flatMap fun m =>
      ((d.holding? m.1).map (·.schemas m.2)).getD []) ≤ valueCountOfMembers ms
    induction ms with
    | nil => exact Nat.le_refl _
    | cons m ms ih =>
      have hmember : valueCountOfItems (((d.holding? m.1).map (·.schemas m.2)).getD []) ≤
          valueCount m.2 := by
        cases d.holding? m.1 with
        | none => exact Nat.zero_le _
        | some h => exact valueCountOfItems_schemas_le h m.2
      rw [List.flatMap_cons, valueCountOfItems_append, valueCountOfMembers]
      exact Nat.add_le_add hmember ih
  | _ => exact valueCount_pos _

/-- The number of values in the schemas of a queue. -/
def weight (queue : List (Uri × Resource)) : Nat :=
  valueCountOfItems (queue.map (·.2.value))

theorem values_of_inside {s : Resource} {parts : List Resource} (h : s.inside = .ok parts) :
    parts.map (·.value) = s.draft.subschemas s.value := by
  unfold Resource.inside at h
  generalize s.draft.subschemas s.value = vs at h
  induction vs generalizing parts with
  | nil =>
    cases h
    rfl
  | cons v vs ih =>
    rw [List.mapM_cons] at h
    obtain ⟨part, hpart, h⟩ := except_bind_eq_ok h
    obtain ⟨rest, hrest, h⟩ := except_bind_eq_ok h
    cases h
    rw [List.map_cons, ih hrest]
    split at hpart
    all_goals cases hpart
    rfl

/-- Where a schema of the queue makes place for those inside it, there are fewer values left. -/
theorem weight_step_lt {base inner : Uri} {s : Resource} {queue : List (Uri × Resource)}
    {parts : List Resource} (h : s.inside = .ok parts) :
    weight (queue ++ parts.map fun part => (inner, part)) < weight ((base, s) :: queue) := by
  have hlt := valueCountOfItems_subschemas_lt s.draft s.value
  rw [← values_of_inside h] at hlt
  unfold weight
  rw [List.map_append, valueCountOfItems_append, List.map_map, List.map_cons, valueCountOfItems]
  change _ + valueCountOfItems (parts.map (·.value)) < valueCount s.value + _
  omega

/-- Gathering is at its end when as many schemas have been gathered as there are values: any two
limits beyond that agree. -/
theorem gather_eq_of_weight_le {n m : Nat} {queue : List (Uri × Resource)} {g : Gathered}
    (hn : weight queue ≤ n) (hm : weight queue ≤ m) : gather n queue g = gather m queue g := by
  induction n generalizing m queue g with
  | zero =>
    cases queue with
    | nil => cases m <;> rfl
    | cons e queue =>
      have hpos := valueCount_pos e.2.value
      rw [weight, List.map_cons, valueCountOfItems] at hn
      omega
  | succ n ih =>
    cases queue with
    | nil => cases m <;> rfl
    | cons e queue =>
      obtain ⟨base, s⟩ := e
      have hpos : 0 < weight ((base, s) :: queue) :=
        Nat.lt_of_lt_of_le (valueCount_pos s.value) (Nat.le_add_right _ _)
      obtain ⟨m, rfl⟩ := Nat.exists_eq_add_one.2 (Nat.lt_of_lt_of_le hpos hm)
      rw [gather, gather]
      refine except_bind_congr fun inner _ => except_bind_congr fun own _ =>
        except_bind_congr fun parts hparts => except_bind_congr fun needed _ => ?_
      have hlt : weight (queue ++ parts.map fun part => (inner, part)) <
          weight ((base, s) :: queue) := weight_step_lt hparts
      refine ih ?_ ?_
      · omega
      · omega

/-- The limit of gathering is never met in a document. -/
theorem gather_of_valueCount_le {n : Nat} (h : valueCount s.value ≤ n) :
    gather n [(uri, s)] g = gather (valueCount s.value) [(uri, s)] g :=
  gather_eq_of_weight_le h (Nat.le_refl _)

/-! ### Retrieval -/

section Retrieval

variable [Retrieval] {draft : Draft} {documents : List (Uri × Value)}

/-- Where nothing is missing, nothing is retrieved. -/
theorem complete_of_missing?_eq_none (draft : Draft) (documents : List (Uri × Value))
    (h : g.missing? known = none) : g.complete known draft documents = .ok g := by
  rw [Gathered.complete, h]

/-- Nothing is missing when all has been retrieved. -/
theorem missing?_of_complete (h : g.complete known draft documents = .ok g') :
    g'.missing? known = none := by
  fun_induction Gathered.complete g known draft documents with
  | case1 g documents hnone =>
    cases h
    exact hnone
  | case2 g documents uri hmissing hfind => cases h
  | case3 g documents uri hmissing found v hfind ih =>
    obtain ⟨draft', -, h⟩ := except_bind_eq_ok h
    obtain ⟨g₁, -, h⟩ := except_bind_eq_ok h
    exact ih g₁ h

theorem mem_needed_of_complete (h : g.complete known draft documents = .ok g') :
    ∀ u ∈ g.needed, u ∈ g'.needed := by
  fun_induction Gathered.complete g known draft documents with
  | case1 g documents hnone =>
    cases h
    exact fun u hu => hu
  | case2 g documents uri hmissing hfind => cases h
  | case3 g documents uri hmissing found v hfind ih =>
    obtain ⟨draft', -, h⟩ := except_bind_eq_ok h
    obtain ⟨g₁, hadd, h⟩ := except_bind_eq_ok h
    exact fun u hu => ih g₁ h u (mem_needed_of_gather hadd u hu)

/-- The documents that a schema document refers to are in its registry. -/
theorem find?_of_ofDocument (h : Registry.ofDocument known uri s = .ok r) :
    ∃ g, Gathered.add {} uri s = .ok g ∧ ∀ u ∈ g.needed, (r.find? u).isSome = true := by
  obtain ⟨g, hadd, h⟩ := except_bind_eq_ok h
  obtain ⟨g', hcomplete, h⟩ := except_bind_eq_ok h
  cases h
  refine ⟨g, hadd, fun u hu => ?_⟩
  have hnone := List.find?_eq_none.1 (missing?_of_complete hcomplete) u
    (mem_needed_of_complete hcomplete u hu)
  simpa [Option.isSome_iff_ne_none] using hnone

/-- A schema document that refers to known documents only is gathered without any retrieval. -/
theorem ofDocument_of_known (hadd : Gathered.add {} uri s = .ok g)
    (hknown : g.missing? known = none) :
    Registry.ofDocument known uri s = .ok (g.registry.append known) := by
  unfold Registry.ofDocument
  rw [hadd]
  change (g.complete known s.draft Retrieval.documents >>= _) = _
  rw [complete_of_missing?_eq_none _ _ hknown]
  rfl

end Retrieval

end DocSchema.Schema
