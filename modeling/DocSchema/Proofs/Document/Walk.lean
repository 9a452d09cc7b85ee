/-
  DocSchema/Proofs/Document/Walk.lean
  ===================================
  **A walk visits every node of a tree once, and each before what is below it.**

  What a walk has still to visit are the trees on its stack, from the top down, each in preorder
  (`Walk.pending`).  A visit takes the first node of these and leaves the others as they are
  (`Walk.pending_of_next?`), for the children of the node come to lie where the node was.  So a walk
  ends, and it visits what was pending at its start (`Walk.visits_iff`).

  Two nodes of a tree may be equal.  What tells them apart is the way that leads down to each
  (`Node.ways`).  No way comes twice, and the ways are in lexicographic order
  (`Node.pairwise_ways`), where a way comes after all its beginnings.
-/
import DocSchema.Proofs.Document.Node
import Mathlib.Data.List.Basic

namespace DocSchema

theorem Node.preorderAll_append (ms ns : List Node) :
    preorderAll (ms ++ ns) = preorderAll ms ++ preorderAll ns := by
  induction ms with
  | nil => rfl
  | cons m ms ih => simp [preorderAll, ih]

/-! ### Walks -/

namespace Walk

variable {w w' : Walk} {n : Node} {ns : List Node}

/-- The walk ends, and these are the nodes that it visits before. -/
inductive Visits : Walk → List Node → Prop
  | done {w : Walk} (h : w.next? = none) : Visits w []
  | next {w w' : Walk} {n : Node} {ns : List Node} (h : w.next? = some (n, w'))
      (hrest : Visits w' ns) : Visits w (n :: ns)

/-- The nodes of the trees on the stack, from its top down. -/
def pending (w : Walk) : List Node :=
  Node.preorderAll w.stack.toList.reverse

/-- A visit takes the first of the pending nodes. -/
theorem pending_of_next? (h : w.next? = some (n, w')) : w.pending = n :: w'.pending := by
  obtain ⟨stack⟩ := w
  obtain ⟨_, hback, heq⟩ := Option.map_eq_some_iff.1 h
  obtain ⟨below, rfl⟩ := Array.back?_eq_some_iff.1 hback
  cases heq
  obtain ⟨kind, fields, children, span⟩ := n
  -- the children lie reversed on the stack, so that from its top down they are in order
  simp [pending, Node.preorderAll, Node.preorder, Node.preorderAll_append]

theorem pending_of_end (h : w.next? = none) : w.pending = [] := by
  obtain ⟨stack⟩ := w
  have hempty : stack = #[] := by simpa [next?] using h
  subst hempty
  rfl

theorem eq_pending_of_visits (h : w.Visits ns) : ns = w.pending := by
  induction h with
  | done hnext => rw [pending_of_end hnext]
  | next hnext _ ih => rw [pending_of_next? hnext, ih]

theorem visits_toList (w : Walk) : w.Visits w.toList := by
  induction w using toList.induct with
  | case1 w hnext =>
    rw [toList]
    split
    · exact .done hnext
    · rename_i hsome
      cases hnext.symm.trans hsome
  | case2 w n rest hnext _ ih =>
    rw [toList]
    split
    · rename_i hnone
      cases hnext.symm.trans hnone
    · rename_i hsome
      cases hnext.symm.trans hsome
      exact .next hnext ih

theorem toList_eq_pending (w : Walk) : w.toList = w.pending :=
  eq_pending_of_visits w.visits_toList

/-- A walk ends, and it visits what is pending and nothing else. -/
theorem visits_iff : w.Visits ns ↔ ns = w.pending := by
  constructor
  · exact eq_pending_of_visits
  · rintro rfl
    rw [← toList_eq_pending]
    exact w.visits_toList

end Walk

/-! ### Ways down -/

namespace Node

mutual

/-- The ways to the nodes of a tree, in preorder. -/
def ways : Node → List (List Nat)
  | ⟨_, _, children, _⟩ => [] :: waysFrom 0 children

/-- The ways to the nodes of trees that are numbered from `i` on. -/
def waysFrom (i : Nat) : List Node → List (List Nat)
  | [] => []
  | n :: ns => (ways n).map (i :: ·) ++ waysFrom (i + 1) ns

end

variable {n : Node} {ns before : List Node} {i : Nat} {way up : List Nat}

mutual

/-- The ways lead to the nodes. -/
theorem map_at?_ways : ∀ n : Node, n.ways.map n.at? = n.preorder.map some
  | ⟨kind, fields, children, span⟩ => by
    have hchildren := map_at?_waysFrom children ⟨kind, fields, children, span⟩ [] rfl
    simp only [ways, preorder, List.map_cons, at?]
    rw [← hchildren]
    rfl

theorem map_at?_waysFrom : ∀ (ns : List Node) (n : Node) (before : List Node),
    n.children = before ++ ns → (waysFrom before.length ns).map n.at? = (preorderAll ns).map some
  | [], _, _, _ => rfl
  | m :: ns, n, before, h => by
    have hfirst : (fun way => n.at? (before.length :: way)) = m.at? := by
      funext way
      simp [at?, h]
    have hm := map_at?_ways m
    have hns := map_at?_waysFrom ns n (before ++ [m]) (by simpa using h)
    rw [List.length_append, List.length_singleton] at hns
    simp only [waysFrom, preorderAll, List.map_append, List.map_map, hns, ← hm]
    rw [← hfirst]
    rfl

end

mutual

theorem mem_ways : ∀ (n : Node) (way : List Nat), way ∈ n.ways ↔ (n.at? way).isSome
  | ⟨_, _, children, _⟩, [] => by simp [ways, at?]
  | ⟨_, _, children, _⟩, i :: way => by
    have hchildren := mem_waysFrom children 0 i way
    simpa [ways, at?] using hchildren

theorem mem_waysFrom : ∀ (ns : List Node) (first i : Nat) (way : List Nat),
    i :: way ∈ waysFrom first ns ↔
      first ≤ i ∧ (ns[i - first]?.bind (·.at? way)).isSome
  | [], first, i, way => by simp [waysFrom]
  | n :: ns, first, i, way => by
    have hn := mem_ways n way
    have hns := mem_waysFrom ns (first + 1) i way
    have hfirst : i :: way ∈ n.ways.map (first :: ·) ↔ first = i ∧ way ∈ n.ways := by
      simp [and_comm]
    rw [waysFrom, List.mem_append, hns, hfirst, hn]
    rcases Nat.lt_trichotomy i first with hlt | rfl | hlt
    · constructor
      · omega
      · omega
    · have hpast : ¬ i + 1 ≤ i := by omega
      simp [hpast]
    · obtain ⟨k, rfl⟩ := Nat.exists_eq_add_of_lt hlt
      have hsub : first + k + 1 - first = k + 1 := by omega
      have hsub' : first + k + 1 - (first + 1) = k := by omega
      rw [hsub, hsub', List.getElem?_cons_succ]
      constructor
      · rintro (⟨heq, -⟩ | ⟨-, hsome⟩)
        · omega
        · exact ⟨by omega, hsome⟩
      · rintro ⟨-, hsome⟩
        exact .inr ⟨by omega, hsome⟩

end

theorem exists_of_mem_waysFrom (h : way ∈ waysFrom i ns) :
    ∃ k rest, way = k :: rest ∧ i ≤ k := by
  induction ns generalizing i with
  | nil => exact absurd h List.not_mem_nil
  | cons n ns ih =>
    rcases List.mem_append.1 h with h | h
    · obtain ⟨rest, -, rfl⟩ := List.mem_map.1 h
      exact ⟨i, rest, rfl, Nat.le_refl i⟩
    · obtain ⟨k, rest, rfl, hk⟩ := ih h
      exact ⟨k, rest, rfl, Nat.le_of_succ_le hk⟩

mutual

/-- The ways are in lexicographic order. -/
theorem pairwise_ways : ∀ n : Node, n.ways.Pairwise (· < ·)
  | ⟨_, _, children, _⟩ => by
    refine List.pairwise_cons.2 ⟨fun way hway => ?_, pairwise_waysFrom 0 children⟩
    obtain ⟨k, rest, rfl, -⟩ := exists_of_mem_waysFrom hway
    exact List.nil_lt_cons k rest

theorem pairwise_waysFrom : ∀ (i : Nat) (ns : List Node), (waysFrom i ns).Pairwise (· < ·)
  | _, [] => .nil
  | i, n :: ns => by
    refine List.pairwise_append.2 ⟨?_, pairwise_waysFrom (i + 1) ns, ?_⟩
    · refine List.pairwise_map.2 ((pairwise_ways n).imp fun hlt => ?_)
      exact List.cons_lt_cons_iff.2 (.inr ⟨rfl, hlt⟩)
    · -- the two ways part at the first step already
      intro way hway way' hway'
      obtain ⟨rest, -, rfl⟩ := List.mem_map.1 hway
      obtain ⟨k, rest', rfl, hk⟩ := exists_of_mem_waysFrom hway'
      exact List.cons_lt_cons_iff.2 (.inl hk)

end

theorem lt_of_above (h : up <+: way) (hne : up ≠ way) : up < way := by
  obtain ⟨rest, rfl⟩ := h
  induction up with
  | nil =>
    rcases rest with _ | ⟨k, rest⟩
    · exact absurd rfl hne
    · exact List.nil_lt_cons k rest
  | cons i up ih =>
    refine List.cons_lt_cons_iff.2 (.inr ⟨rfl, ih fun heq => hne ?_⟩)
    exact congrArg (i :: ·) heq

theorem isSome_at?_of_above (h : up <+: way) (hway : (n.at? way).isSome) :
    (n.at? up).isSome := by
  obtain ⟨rest, rfl⟩ := h
  induction up generalizing n with
  | nil => rfl
  | cons i up ih =>
    rw [List.cons_append, at?] at hway
    rw [at?]
    rcases hchild : n.children[i]? with _ | c
    · rw [hchild] at hway
      exact hway
    · rw [hchild] at hway
      exact ih hway

/-- A node comes after those above it. -/
theorem mem_of_above {front back : List (List Nat)} (h : n.ways = front ++ way :: back)
    (hup : up <+: way) (hne : up ≠ way) : up ∈ front := by
  have hway : way ∈ n.ways := by simp [h]
  have hmem : up ∈ front ++ way :: back := by
    rw [← h, mem_ways]
    exact isSome_at?_of_above hup ((mem_ways n way).1 hway)
  have hlt : up < way := lt_of_above hup hne
  have hordered := pairwise_ways n
  rw [h] at hordered
  rcases List.mem_append.1 hmem with hfront | hback
  · exact hfront
  · rcases List.mem_cons.1 hback with heq | hback
    · exact absurd heq hne
    · -- what comes behind the node is greater than it
      have hgt : way < up := (List.pairwise_cons.1 (List.pairwise_append.1 hordered).2.1).1 up hback
      exact absurd (List.lt_trans hlt hgt) (List.lt_irrefl up)

/-- A walk ends, and visits the nodes in preorder and nothing else.  These are the nodes that ways
lead to, each visited once, and after all nodes above it. -/
theorem walk_is_preorder (n : Node) :
    (∀ visited, Walk.Visits ⟨#[n]⟩ visited ↔ visited = n.preorder) ∧
      n.walk = n.preorder ∧
      n.preorder.map some = n.ways.map n.at? ∧
      (∀ way, way ∈ n.ways ↔ (n.at? way).isSome) ∧
      n.ways.Nodup ∧
      ∀ front way back, n.ways = front ++ way :: back →
        ∀ up, up <+: way → up ≠ way → up ∈ front := by
  have hpending : Walk.pending ⟨#[n]⟩ = n.preorder := by
    simp [Walk.pending, preorderAll]
  refine ⟨fun visited => ?_, ?_, (map_at?_ways n).symm, mem_ways n, ?_, ?_⟩
  · rw [Walk.visits_iff, hpending]
  · rw [walk, Walk.toList_eq_pending, hpending]
  · apply (pairwise_ways n).imp
    rintro way _ hlt rfl
    exact List.lt_irrefl way hlt
  · intro front way back h up hup hne
    exact mem_of_above h hup hne

/-- Two equal nodes are visited one after the other, the node above them before. -/
theorem walk_over_equal_leaves :
    let leaf : Node := leaf "thematicBreak" .zero
    let tree : Node := ⟨"root", [], [leaf, leaf], .zero⟩
    tree.walk = [tree, leaf, leaf] ∧ tree.ways = [[], [0], [1]] ∧
      ∀ up, up <+: [1] → up ≠ [1] → up ∈ [[], [0]] := by
  intro leaf tree
  obtain ⟨-, hwalk, -, -, -, habove⟩ := walk_is_preorder tree
  exact ⟨hwalk, rfl, habove [[], [0]] [1] [] rfl⟩

end Node

end DocSchema
