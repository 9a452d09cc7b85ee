/-
  DocSchema/Proofs/Schema/Reading.lean
  ====================================
  **What the reading of a schema yields.**

  A reader meets references in an order of its own; what it has met before it only links, and the
  links are read later.  So a reading only adds links, and what is said of its answer is said for
  every list of links that may come of it in the end (`Reading.Yields`).
-/
import DocSchema.Schema.Compile
import Mathlib.Data.List.Forall2

namespace DocSchema.Schema

open DocSchema.Json

/-! ### Answers -/

section Answers

variable {ε α β : Type}

theorem except_bind_eq_ok {x : Except ε α} {f : α → Except ε β} {b : β}
    (h : (x >>= f) = .ok b) : ∃ a, x = .ok a ∧ f a = .ok b := by
  cases x with
  | error e => cases h
  | ok a => exact ⟨a, rfl, h⟩

/-- What is made of an answer matters only for the answer that there is. -/
theorem except_bind_congr {x : Except ε α} {f g : α → Except ε β}
    (h : ∀ a, x = .ok a → f a = g a) : x >>= f = x >>= g := by
  cases x with
  | error e => rfl
  | ok a => exact h a rfl

theorem mapM_eq_ok_map {f : α → Except ε β} {g : α → β} {xs : List α}
    (h : ∀ x ∈ xs, f x = .ok (g x)) : xs.mapM f = .ok (xs.map g) := by
  induction xs with
  | nil => rfl
  | cons x xs ih =>
    obtain ⟨hx, hxs⟩ := List.forall_mem_cons.1 h
    rw [List.mapM_cons, hx, ih hxs]
    rfl

end Answers

/-! ### Readings -/

namespace Reading

variable {α β γ : Type} {G : Link → Prop} {Q : List Link → α → Prop}
  {Q' : List Link → β → Prop} {m : Reading α}

/-- The links met so far. -/
def met (p : Progress) : List Link :=
  p.links.toList

/-- Where the reading `m` comes to an end, it has only added links, all of them as `G` says, and `Q`
holds of its answer for whatever list of links comes of them. -/
def Yields (G : Link → Prop) (Q : List Link → α → Prop) (m : Reading α) : Prop :=
  ∀ p a p', (∀ l ∈ met p, G l) → m p = .ok (a, p') →
    (∀ l ∈ met p', G l) ∧ met p <+: met p' ∧ ∀ L, met p' <+: L → Q L a

theorem yields_pure {a : α} (h : ∀ L, Q L a) : Yields G Q (pure a) := by
  intro p b p' hp hm
  cases hm
  exact ⟨hp, List.prefix_refl _, fun L _ => h L⟩

theorem yields_throw (e : SchemaError) : Yields G Q (throw e : Reading α) := by
  intro p a p' _ hm
  cases hm

theorem bind_eq_ok {f : α → Reading β} {p p'' : Progress} {b : β}
    (h : (m >>= f) p = .ok (b, p'')) :
    ∃ a p', m p = .ok (a, p') ∧ f a p' = .ok (b, p'') := by
  change (m p).bind (fun r => f r.1 r.2) = .ok (b, p'') at h
  cases hm : m p with
  | error e =>
    rw [hm] at h
    cases h
  | ok r =>
    rw [hm] at h
    exact ⟨r.1, r.2, rfl, h⟩

/-- What holds of the first answer still holds when all has been read. -/
theorem yields_bind {f : α → Reading β} (h : Yields G Q m)
    (hf : ∀ a, Yields G (fun L b => Q L a → Q' L b) (f a)) : Yields G Q' (m >>= f) := by
  intro p b p'' hp hbind
  obtain ⟨a, p', hm, hfa⟩ := bind_eq_ok hbind
  obtain ⟨hp', hmore, hQ⟩ := h p a p' hp hm
  obtain ⟨hp'', hmore', hQ'⟩ := hf a p' b p'' hp' hfa
  exact ⟨hp'', hmore.trans hmore', fun L hL => hQ' L hL (hQ L (hmore'.trans hL))⟩

theorem yields_map {f : α → β} (h : Yields G Q m) (hf : ∀ L a, Q L a → Q' L (f a)) :
    Yields G Q' (f <$> m) := by
  rw [map_eq_pure_bind]
  exact yields_bind h fun a => yields_pure fun L ha => hf L a ha

theorem Yields.mono {P : List Link → α → Prop} (h : Yields G Q m) (hP : ∀ L a, Q L a → P L a) :
    Yields G P m := by
  intro p a p' hp hm
  obtain ⟨hp', hmore, hL⟩ := h p a p' hp hm
  exact ⟨hp', hmore, fun L hmore' => hP L a (hL L hmore')⟩

theorem yields_mapM {f : γ → Reading α} {Q : γ → List Link → α → Prop} {xs : List γ}
    (h : ∀ x ∈ xs, Yields G (Q x) (f x)) :
    Yields G (fun L ys => List.Forall₂ (fun x y => Q x L y) xs ys) (xs.mapM f) := by
  induction xs with
  | nil => exact yields_pure fun _ => .nil
  | cons x xs ih =>
    obtain ⟨hx, hxs⟩ := List.forall_mem_cons.1 h
    rw [List.mapM_cons]
    exact yields_bind hx fun y => yields_bind (ih hxs) fun ys => yields_pure fun L hys hy =>
      .cons hy hys

/-- What `m` answers is `R`, and it leaves the progress as it is. -/
def Tells (R : α → Prop) (m : Reading α) : Prop :=
  ∀ p a p', m p = .ok (a, p') → R a ∧ p' = p

theorem Tells.yields {R : α → Prop} (h : Tells R m) : Yields G (fun _ a => R a) m := by
  intro p a p' hp hm
  obtain ⟨ha, rfl⟩ := h p a p' hm
  exact ⟨hp, List.prefix_refl _, fun _ _ => ha⟩

/-- What is told is there for the rest of the reading. -/
theorem yields_bind_of_tells {R : α → Prop} {f : α → Reading β} (h : Tells R m)
    (hf : ∀ a, R a → Yields G Q' (f a)) : Yields G Q' (m >>= f) := by
  intro p b p'' hp hbind
  obtain ⟨a, p', hm, hfa⟩ := bind_eq_ok hbind
  obtain ⟨ha, rfl⟩ := h p a p' hm
  exact hf a ha p' b p'' hp hfa

theorem tells_pure {R : α → Prop} {a : α} (h : R a) : Tells R (pure a : Reading α) := by
  intro p b p' hm
  cases hm
  exact ⟨h, rfl⟩

theorem tells_throw (R : α → Prop) (e : SchemaError) : Tells R (throw e : Reading α) := by
  intro p a p' hm
  cases hm

theorem tells_get : Tells (fun _ => True) (get : Reading Progress) := by
  intro p a p' hm
  cases hm
  exact ⟨trivial, rfl⟩

theorem tells_ofLookup (x : Except LookupError α) : Tells (fun a => x = .ok a) (ofLookup x) := by
  cases x with
  | error e => exact tells_throw _ _
  | ok a => exact tells_pure rfl

theorem tells_textOf (v : Value) : Tells (fun s => v = .string s) (textOf v) := by
  cases v with
  | string s => exact tells_pure rfl
  | _ => exact tells_throw _ _

theorem tells_itemsOf (v : Value) : Tells (fun xs => v = .array xs) (itemsOf v) := by
  cases v with
  | array xs => exact tells_pure rfl
  | _ => exact tells_throw _ _

theorem tells_membersOf (v : Value) : Tells (fun ms => v = .object ms) (membersOf v) := by
  cases v with
  | object ms => exact tells_pure rfl
  | _ => exact tells_throw _ _

theorem tells_numberOf (v : Value) : Tells (fun n => v = .number n) (numberOf v) := by
  cases v with
  | number n => exact tells_pure rfl
  | _ => exact tells_throw _ _

theorem yields_follow (uri : Uri) :
    Yields G (fun _ _ => True) (modify fun s => { s with followed := uri :: s.followed }) := by
  intro p a p' hp hm
  cases hm
  exact ⟨hp, List.prefix_refl _, fun _ _ => trivial⟩

theorem getElem?_extended {xs ys : List γ} {i : Nat} {x : γ} (h : xs <+: ys)
    (hx : xs[i]? = some x) : ys[i]? = some x := by
  obtain ⟨zs, rfl⟩ := h
  rw [List.getElem?_append_left (List.getElem?_eq_some_iff.1 hx).1]
  exact hx

/-- A link is to something that has been met with the same reference in the same scope. -/
theorem yields_link (keyword : String) {l : Link} (h : G l) :
    Yields G (fun L s => ∃ i l', s = .link keyword i ∧ L[i]? = some l' ∧
      l'.reference = l.reference ∧ l'.scope = l.scope ∧ G l') (Reading.link keyword l) := by
  intro p s p' hp hm
  unfold Reading.link at hm
  split at hm
  · rename_i i hfind
    cases hm
    obtain ⟨hi, hsame, -⟩ := Array.findIdx?_eq_some_iff_getElem.1 hfind
    rw [Bool.and_eq_true, beq_iff_eq, beq_iff_eq] at hsame
    refine ⟨hp, List.prefix_refl _, fun L hL => ⟨i, p.links[i], rfl, ?_, hsame.1, hsame.2, ?_⟩⟩
    · have hget : (met p)[i]? = some p.links[i] := by simp [met, hi]
      exact getElem?_extended hL hget
    · exact hp _ (by simp [met])
  · cases hm
    have hmet : met { p with links := p.links.push l } = met p ++ [l] := by simp [met]
    rw [hmet]
    refine ⟨fun x hx => ?_, List.prefix_append _ _, fun L hL =>
      ⟨p.links.size, l, rfl, ?_, rfl, rfl, h⟩⟩
    · rcases List.mem_append.1 hx with hx | hx
      · exact hp x hx
      · rw [List.mem_singleton.1 hx]
        exact h
    · have hget : (met p ++ [l])[p.links.size]? = some l := by
        rw [List.getElem?_append_right (by simp [met])]
        simp [met]
      exact getElem?_extended hL hget

end Reading

end DocSchema.Schema
