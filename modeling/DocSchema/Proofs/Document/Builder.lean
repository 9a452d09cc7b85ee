/-
  DocSchema/Proofs/Document/Builder.lean
  ======================================
  **What the builder of a tree keeps from event to event.**

  A frame of the builder belongs to the construct that was opened for it, or, where constructs
  are too deep, to the innermost one that is not.  So what is said of a frame, of the event that
  opened it and of the nodes in it has to be checked for each way in which a frame grows
  (`TreeBuilder.Carries`), and then it holds of the tree in the end (`Carries.build`).
-/
import DocSchema.Document
import Mathlib.Data.List.Forall2

namespace DocSchema

open DocSchema.Json DocSchema.Markdown

/-! ### What events make -/

/-- The kind and the fields of the node that an event makes by itself. -/
def Markdown.Event.leaf? : Event → Option (String × Object)
  | .text x => some ("text", [("value", .string x)])
  | .softBreak => some ("text", [("value", .string "\n")])
  | .code x => some ("inlineCode", [("value", .string x)])
  | .html x | .inlineHtml x => some ("html", [("value", .string x)])
  | .footnoteReference label => some ("footnoteReference", [("label", .string label)])
  | .hardBreak => some ("break", [])
  | .rule => some ("thematicBreak", [])
  | .start _ | .end_ _ | .taskListMarker _ | .foreign => none

/-- The frame of a construct that has just been opened. -/
def OpenNode.ofTag (tag : Tag) (span : Span) : OpenNode :=
  ⟨(tagNode tag).1, (tagNode tag).2.1, [], span, (tagNode tag).2.2.map (·, "")⟩

/-- A text that goes on ends where its further text does, if that is later. -/
theorem OpenNode.span_extendText (n : Node) (text : String) (s : Span) :
    (extendText n text s).span = n.span ∨ n.span.stopOffset < s.stopOffset ∧
      (extendText n text s).span = { n.span with stop := s.stop, stopOffset := s.stopOffset } := by
  by_cases h : n.span.stopOffset < s.stopOffset
  · exact .inr ⟨h, if_pos h⟩
  · exact .inl (if_neg h)

/-- The constructs that are open after an event, innermost first, by the events that opened them. -/
def Markdown.Located.enter (e : Located) (outer : List Located) : List Located :=
  match e.event with
  | .start _ => e :: outer
  | .end_ _ => outer.tail
  | _ => outer

def Markdown.Located.isEnd (e : Located) : Bool :=
  match e.event with
  | .end_ _ => true
  | _ => false

namespace TreeBuilder

/-- `E` holds of every event but the ends, and of the event that opened the innermost construct that
it is in; there is none in the root. -/
def Admits (E : Option Located → Located → Prop) : List Located → List Located → Prop
  | _, [] => True
  | outer, e :: es => (e.isEnd = false → E outer.head? e) ∧ Admits E (e.enter outer) es

/-- `E` holds of every construct and the one around it. -/
def Nests (E : Option Located → Located → Prop) : List Located → Prop
  | [] => True
  | e :: outer => E outer.head? e ∧ Nests E outer

/-- What the builder carries from event to event: `F s f` holds of the frame `f` that `s` opened, and
`N s n` of the nodes `n` in it, as long as `E s e` holds of the events `e` in it. -/
structure Carries (ix : LineIndex) (E : Option Located → Located → Prop)
    (F : Option Located → OpenNode → Prop) (N : Option Located → Node → Prop) : Prop where
  inside : ∀ {s e e'}, E s e → E (some e) e' → E s e'
  opened : ∀ {s e tag}, E s e → e.event = .start tag →
    F (some e) (.ofTag tag (ix.span e.first e.last))
  leaf : ∀ {s e kind fields}, E s e → e.event.leaf? = some (kind, fields) →
    N s ⟨kind, fields, [], ix.span e.first e.last⟩
  finish : ∀ {s e f}, E s e → F (some e) f → N s f.finish
  attach : ∀ {s f n}, F s f → N s n → F s (f.attach n)
  collect : ∀ {s f g text}, F s f → f.collect? text = some g → F s g
  extend : ∀ {s e f last before text}, E s e → F s f → f.children = last :: before →
    last.kind = "text" →
    F s { f with children := OpenNode.extendText last text (ix.span e.first e.last) :: before }
  check : ∀ {s f checked}, F s f →
    F s { f with fields := f.fields.insert "checked" (.bool checked) }

/-- The frames of a builder are those of the constructs that are open, but for the innermost ones if
they are too deep. -/
structure Holds (ix : LineIndex) (E : Option Located → Located → Prop)
    (F : Option Located → OpenNode → Prop) (b : TreeBuilder) (outer : List Located) : Prop where
  index : b.index = ix
  root : F none b.root
  nests : Nests E outer
  frames : ∃ flat framed, outer = flat ++ framed ∧ flat.length = b.flattened ∧
    List.Forall₂ (fun e f => F (some e) f) framed b.stack

variable {ix : LineIndex} {E : Option Located → Located → Prop}
  {F : Option Located → OpenNode → Prop} {N : Option Located → Node → Prop}
  {b : TreeBuilder} {outer flat framed : List Located} {e : Located} {s : Option Located}

theorem Nests.of_append (h : Nests E (flat ++ framed)) : Nests E framed := by
  induction flat with
  | nil => exact h
  | cons x flat ih => exact ih h.2

/-- What is in a construct that is too deep is also in the construct that has a frame. -/
theorem Carries.of_head (hC : Carries ix E F N) (h : Nests E (flat ++ framed))
    (he : E (flat ++ framed).head? e) : E framed.head? e := by
  induction flat with
  | nil => exact he
  | cons x flat ih => exact ih h.2 (hC.inside h.1 he)

/-- A change of the innermost frame. -/
theorem forall₂_modify {g : OpenNode → OpenNode} (hroot : F none b.root)
    (hframes : List.Forall₂ (fun e f => F (some e) f) framed b.stack)
    (hg : ∀ f, F framed.head? f → F framed.head? (g f)) :
    F none (b.modify g).root ∧
      List.Forall₂ (fun e f => F (some e) f) framed (b.modify g).stack := by
  unfold TreeBuilder.modify
  split
  · rename_i top rest hstack
    rw [hstack] at hframes
    cases hframes with
    | cons htop hrest => exact ⟨hroot, .cons (hg _ htop) hrest⟩
  · rename_i hstack
    rw [hstack] at hframes
    cases hframes
    refine ⟨hg _ hroot, ?_⟩
    rw [hstack]
    exact .nil

@[simp] theorem index_modify (b : TreeBuilder) (g : OpenNode → OpenNode) :
    (b.modify g).index = b.index := by
  unfold TreeBuilder.modify
  split <;> rfl

@[simp] theorem flattened_modify (b : TreeBuilder) (g : OpenNode → OpenNode) :
    (b.modify g).flattened = b.flattened := by
  unfold TreeBuilder.modify
  split <;> rfl

theorem Holds.modify (hC : Carries ix E F N) (h : Holds ix E F b outer)
    {g : OpenNode → OpenNode} (he : E outer.head? e)
    (hg : ∀ s f, E s e → F s f → F s (g f)) : Holds ix E F (b.modify g) outer := by
  obtain ⟨hindex, hroot, hnests, flat, framed, rfl, hflat, hframes⟩ := h
  obtain ⟨hroot, hframes⟩ := forall₂_modify hroot hframes fun f hf => hg _ f (hC.of_head hnests he) hf
  refine ⟨?_, hroot, hnests, flat, framed, rfl, ?_, hframes⟩
  · rw [index_modify, hindex]
  · rw [flattened_modify, hflat]

theorem Carries.addText {f : OpenNode} {text : String} (hC : Carries ix E F N) (he : E s e)
    (hleaf : e.event.leaf? = some ("text", [("value", .string text)])) (hf : F s f) :
    F s (f.addText text (ix.span e.first e.last)) := by
  have hnew : F s (f.attach ⟨"text", [("value", .string text)], [], ix.span e.first e.last⟩) :=
    hC.attach hf (hC.leaf he hleaf)
  unfold OpenNode.addText
  split
  · rename_i hcollect
    exact hC.collect hf hcollect
  · split
    · rename_i last before hchildren
      split
      · rename_i hkind
        exact hC.extend he hf hchildren hkind
      · exact hnew
    · exact hnew

theorem Carries.collectOr {f : OpenNode} {text kind : String} {fields : Object}
    (hC : Carries ix E F N) (he : E s e) (hleaf : e.event.leaf? = some (kind, fields)) (hf : F s f) :
    F s ((f.collect? text).getD (f.attach ⟨kind, fields, [], ix.span e.first e.last⟩)) := by
  cases hcollect : f.collect? text with
  | none => exact hC.attach hf (hC.leaf he hleaf)
  | some g => exact hC.collect hf hcollect

theorem Holds.openTag (hC : Carries ix E F N) (h : Holds ix E F b outer) {tag : Tag}
    (htag : e.event = .start tag) (he : E outer.head? e) :
    Holds ix E F (b.openTag tag (ix.span e.first e.last)) (e :: outer) := by
  obtain ⟨hindex, hroot, hnests, flat, framed, rfl, hflat, hframes⟩ := h
  unfold TreeBuilder.openTag
  split
  · exact ⟨hindex, hroot, ⟨he, hnests⟩, e :: flat, framed, rfl, by simp [hflat], hframes⟩
  · rename_i hdeep
    have hnil : flat = [] := List.eq_nil_of_length_eq_zero (by omega)
    subst hnil
    exact ⟨hindex, hroot, ⟨he, hnests⟩, [], e :: framed, rfl, hflat,
      .cons (hC.opened he htag) hframes⟩

theorem Holds.close (hC : Carries ix E F N) (h : Holds ix E F b outer) :
    Holds ix E F b.close outer.tail := by
  obtain ⟨hindex, hroot, hnests, flat, framed, rfl, hflat, hframes⟩ := h
  unfold TreeBuilder.close
  cases flat with
  | cons x flat =>
    rw [if_pos (by simp [← hflat])]
    exact ⟨hindex, hroot, hnests.2, flat, framed, rfl, by simp [← hflat], hframes⟩
  | nil =>
    rw [if_neg (by simp [← hflat])]
    split
    · rename_i hstack
      rw [hstack] at hframes
      cases hframes
      refine ⟨hindex, hroot, trivial, [], [], rfl, hflat, ?_⟩
      rw [hstack]
      exact .nil
    · rename_i top rest hstack
      rw [hstack] at hframes
      cases hframes with
      | @cons e _ framed _ htop hrest =>
        have hnode : N framed.head? top.finish := hC.finish hnests.1 htop
        let b' : TreeBuilder := { b with stack := rest }
        obtain ⟨hroot, hframes⟩ := forall₂_modify (b := b') hroot hrest fun f hf =>
          hC.attach hf hnode
        refine ⟨?_, hroot, hnests.2, [], framed, rfl, ?_, hframes⟩
        · exact (index_modify b' _).trans hindex
        · exact hflat.trans (flattened_modify b' _).symm

theorem Carries.checkItem (hC : Carries ix E F N) {checked : Bool} {stack : List OpenNode}
    (h : List.Forall₂ (fun e f => F (some e) f) framed stack) :
    List.Forall₂ (fun e f => F (some e) f) framed (checkItem checked stack) := by
  induction h with
  | nil => exact .nil
  | cons htop hrest ih =>
    unfold TreeBuilder.checkItem
    split
    · exact .cons (hC.check htop) hrest
    · exact .cons htop ih

theorem Holds.step (hC : Carries ix E F N) (h : Holds ix E F b outer)
    (he : e.isEnd = false → E outer.head? e) : Holds ix E F (b.step e) (e.enter outer) := by
  unfold TreeBuilder.step Located.enter
  unfold Located.isEnd at he
  have hindex := h.index
  cases hevent : e.event with
  | start tag =>
    rw [hevent] at he
    rw [hindex]
    exact h.openTag hC hevent (he rfl)
  | end_ tag => exact h.close hC
  | text text | softBreak =>
    rw [hevent] at he
    rw [hindex]
    exact h.modify hC (he rfl) fun s f hs hf => hC.addText hs (by rw [hevent]; rfl) hf
  | code text | html text | inlineHtml text =>
    rw [hevent] at he
    rw [hindex]
    exact h.modify hC (he rfl) fun s f hs hf => hC.collectOr hs (by rw [hevent]; rfl) hf
  | footnoteReference label | hardBreak | rule =>
    rw [hevent] at he
    rw [hindex]
    exact h.modify hC (he rfl) fun s f hs hf => hC.attach hf (hC.leaf hs (by rw [hevent]; rfl))
  | taskListMarker checked =>
    obtain ⟨hindex, hroot, hnests, flat, framed, rfl, hflat, hframes⟩ := h
    exact ⟨hindex, hroot, hnests, flat, framed, rfl, hflat, hC.checkItem hframes⟩
  | foreign => exact h

theorem Carries.closeAll (hC : Carries ix E F N) {root : OpenNode} {stack : List OpenNode}
    (hroot : F none root) (hnests : Nests E framed)
    (h : List.Forall₂ (fun e f => F (some e) f) framed stack) : F none (closeAll root stack) := by
  induction stack using closeAll.induct generalizing framed with
  | case1 => simpa [TreeBuilder.closeAll] using hroot
  | case2 f =>
    cases h with
    | cons hf hrest =>
      cases hrest
      simpa [TreeBuilder.closeAll] using hC.attach hroot (hC.finish hnests.1 hf)
  | case3 f g rest ih =>
    cases h with
    | cons hf hrest =>
      cases hrest with
      | cons hg hrest =>
        rw [TreeBuilder.closeAll]
        exact ih hnests.2 (.cons (hC.attach hg (hC.finish hnests.1 hf)) hrest)

/-- What the root has at the start and every event keeps, the root has in the end. -/
theorem Carries.foldl (hC : Carries ix E F N) {events : List Located}
    (h : Holds ix E F b outer) (hadmits : Admits E outer events) :
    F none (TreeBuilder.closeAll (events.foldl TreeBuilder.step b).root
      (events.foldl TreeBuilder.step b).stack) := by
  induction events generalizing b outer with
  | nil =>
    obtain ⟨-, hroot, hnests, flat, framed, rfl, -, hframes⟩ := h
    exact hC.closeAll hroot hnests.of_append hframes
  | cons e events ih => exact ih (h.step hC hadmits.1) hadmits.2

/-- The tree is that of a root which has what it had at the start. -/
theorem Carries.build {text : List Char} {events : List Located}
    (hC : Carries (LineIndex.ofChars text) E F N) (hroot : F none (TreeBuilder.start text).root)
    (h : Admits E [] events) : ∃ f, F none f ∧ TreeBuilder.build text events = f.finish := by
  have hstart : Holds (LineIndex.ofChars text) E F (TreeBuilder.start text) [] :=
    ⟨rfl, hroot, trivial, [], [], rfl, rfl, .nil⟩
  exact ⟨_, hC.foldl hstart h, rfl⟩

theorem admits_of_forall {events : List Located} (h : ∀ e ∈ events, ∀ s, E s e) :
    Admits E outer events := by
  induction events generalizing outer with
  | nil => trivial
  | cons e events ih =>
    obtain ⟨he, hevents⟩ := List.forall_mem_cons.1 h
    exact ⟨fun _ => he _, ih hevents⟩

end TreeBuilder

end DocSchema
