/-
  DocSchema/Proofs/Document/Shape.lean
  ====================================
  **The shape of every tree that is built.**

  Events need not be well-nested.  An end that no start goes with is passed over, or it closes
  another construct; what is open in the end is closed.  Whatever the events are, the builder has
  frames for at most `maxDepth` constructs, and a frame takes nodes with as many levels as there is
  room for below it (`OpenNode.Shaped`).  This is what one event keeps (`TreeBuilder.Shaped.step`),
  and it bounds the tree in the end, whose texts are never side by side either
  (`shape_of_build`).

  The builder asks for the span of each event and does nothing else that could fail.  So it never
  fails as long as the ranges of the events end on boundaries of characters (`build?_eq`).
-/
import DocSchema.Proofs.Document.Forest
import DocSchema.Proofs.Document.Line
import DocSchema.Proofs.Document.Proper
import Mathlib.Data.List.Chain

namespace DocSchema

open DocSchema.Json DocSchema.Markdown

/-! ### Nodes -/

namespace Node

/-- No two texts are side by side. -/
def Apart (ns : List Node) : Prop :=
  ns.IsChain fun m n => ¬(m.kind = "text" ∧ n.kind = "text")

/-- A node without texts side by side in it; a text has nothing in it. -/
structure Shaped (n : Node) : Prop where
  apart : Apart n.children
  text : n.kind = "text" → n.children = []

variable {n last : Node} {ns : List Node}

theorem Apart.cons (h : Apart ns) (hn : n.kind ≠ "text") : Apart (n :: ns) :=
  List.isChain_cons.2 ⟨fun _ _ htext => hn htext.1, h⟩

theorem Apart.cons_text (h : Apart ns) (hhead : ∀ m ∈ ns.head?, m.kind ≠ "text") :
    Apart (n :: ns) :=
  List.isChain_cons.2 ⟨fun m hm htext => hhead m hm htext.2, h⟩

/-- Whether nodes are apart is a matter of their kinds. -/
theorem Apart.of_kind (h : Apart (last :: ns)) (hkind : n.kind = last.kind) : Apart (n :: ns) := by
  obtain ⟨hhead, hns⟩ := List.isChain_cons.1 h
  refine List.isChain_cons.2 ⟨fun m hm => ?_, hns⟩
  rw [hkind]
  exact hhead m hm

theorem Apart.reverse (h : Apart ns) : Apart ns.reverse := by
  refine List.isChain_reverse.2 (h.imp fun m n hmn htext => ?_)
  exact hmn ⟨htext.2, htext.1⟩

theorem levels_of_nil (h : n.children = []) : n.levels = 1 := by
  obtain ⟨kind, fields, children, span⟩ := n
  subst h
  rfl

theorem everywhere_shaped_of_nil (h : n.children = []) : n.Everywhere Shaped := by
  refine .mk ⟨?_, fun _ => h⟩ fun c hc => ?_
  · rw [h]
    exact .nil
  · rw [h] at hc
    exact absurd hc List.not_mem_nil

end Node

/-! ### Frames -/

/-- A frame that has room for some levels of nodes. -/
structure OpenNode.Shaped (room : Nat) (f : OpenNode) : Prop where
  kind : f.kind ≠ "text"
  apart : Node.Apart f.children
  children : ∀ n ∈ f.children, n.levels ≤ room ∧ n.Everywhere Node.Shaped

/-- No item but a text is a text, and there is nothing in it. -/
def Item.Shaped : Item → Prop
  | .node n => n.kind ≠ "text" ∧ n.children = []
  | .run _ _ => True
  | .payload _ n => n.kind ≠ "text" ∧ n.children = []

theorem shaped_itemOf? {ix : LineIndex} {e : Located} {item : Item}
    (h : itemOf? ix e = some item) : item.Shaped := by
  obtain ⟨event, first, last⟩ := e
  cases event with
  | start _ | end_ _ | taskListMarker _ | foreign => cases h
  | _ =>
    cases h
    simp [Item.Shaped]

namespace OpenNode

variable {f g : OpenNode} {n : Node} {room : Nat} {text : String} {span : Span}

theorem Shaped.attach (h : f.Shaped room) (hkind : n.kind ≠ "text") (hlevels : n.levels ≤ room)
    (hn : n.Everywhere Node.Shaped) : (f.attach n).Shaped room where
  kind := h.kind
  apart := h.apart.cons hkind
  children := List.forall_mem_cons.2 ⟨⟨hlevels, hn⟩, h.children⟩

theorem Shaped.collect? (h : f.Shaped room) (hg : f.collect? text = some g) : g.Shaped room := by
  obtain ⟨_, -, rfl⟩ := Option.map_eq_some_iff.1 hg
  exact ⟨h.kind, h.apart, h.children⟩

theorem Shaped.addText (h : f.Shaped room) (hroom : 0 < room) :
    (f.addText text span).Shaped room := by
  have hnew : (∀ m ∈ f.children.head?, m.kind ≠ "text") →
      (f.attach ((Node.leaf "text" span).withField "value" (.string text))).Shaped room := by
    intro hhead
    refine ⟨h.kind, h.apart.cons_text hhead, List.forall_mem_cons.2
      ⟨⟨?_, Node.everywhere_shaped_of_nil rfl⟩, h.children⟩⟩
    rw [Node.levels_of_nil rfl]
    exact hroom
  unfold OpenNode.addText
  split
  · rename_i hcollect
    exact h.collect? hcollect
  · split
    · rename_i last before hchildren
      obtain ⟨⟨hlevels, hlast⟩, hbefore⟩ := List.forall_mem_cons.1 (hchildren ▸ h.children)
      split
      · rename_i htext
        -- a text that goes on is still one text with nothing in it
        have hnone : (extendText last text span).children = [] := hlast.self.text htext
        have hapart := h.apart
        rw [hchildren] at hapart
        refine ⟨h.kind, hapart.of_kind rfl,
          List.forall_mem_cons.2 ⟨⟨?_, Node.everywhere_shaped_of_nil hnone⟩, hbefore⟩⟩
        rw [Node.levels_of_nil hnone]
        exact hroom
      · rename_i hkind
        refine hnew fun m hm => ?_
        rw [hchildren] at hm
        cases hm
        exact hkind
    · rename_i hchildren
      refine hnew fun m hm => ?_
      rw [hchildren] at hm
      cases hm

theorem Shaped.receive {item : Item} (h : f.Shaped room) (hroom : 0 < room) (hitem : item.Shaped) :
    (f.receive item).Shaped room := by
  have hattach : ∀ n : Node, n.kind ≠ "text" ∧ n.children = [] → (f.attach n).Shaped room := by
    intro n hn
    refine h.attach hn.1 ?_ (Node.everywhere_shaped_of_nil hn.2)
    rw [Node.levels_of_nil hn.2]
    exact hroom
  cases item with
  | node n => exact hattach n hitem
  | run text span => exact h.addText hroom
  | payload text n =>
    change ((f.collect? text).getD (f.attach n)).Shaped room
    cases hcollect : f.collect? text with
    | none => exact hattach n hitem
    | some g => exact h.collect? hcollect

theorem Shaped.mark (h : f.Shaped room) (checked : Bool) : (f.mark checked).Shaped room := by
  unfold OpenNode.mark
  split <;> exact ⟨h.kind, h.apart, h.children⟩

theorem shaped_ofTag (tag : Tag) (span : Span) (room : Nat) : (ofTag tag span).Shaped room :=
  ⟨kind_tagNode tag, .nil, fun _ hn => absurd hn List.not_mem_nil⟩

theorem Shaped.levels_finish (h : f.Shaped room) : f.finish.levels ≤ room + 1 := by
  have hchildren : Node.levelsAll f.children.reverse ≤ room :=
    Node.levelsAll_le_iff.2 fun n hn => (h.children n (List.mem_reverse.1 hn)).1
  exact Nat.succ_le_succ hchildren

theorem Shaped.finish (h : f.Shaped room) : f.finish.Everywhere Node.Shaped := by
  refine .mk ⟨h.apart.reverse, fun htext => absurd htext h.kind⟩ fun c hc => ?_
  exact (h.children c (List.mem_reverse.1 hc)).2

/-- The node of a construct has one more level than its frame has room for. -/
theorem Shaped.attach_finish (h : g.Shaped (room + 1)) (hf : f.Shaped room) :
    (g.attach f.finish).Shaped (room + 1) :=
  h.attach hf.kind hf.levels_finish hf.finish

end OpenNode

/-! ### The builder -/

namespace TreeBuilder

/-- Every frame has room for the levels that are left below it. -/
def Fits : List OpenNode → Prop
  | [] => True
  | f :: below => f.Shaped (maxDepth - below.length) ∧ Fits below

structure Shaped (b : TreeBuilder) : Prop where
  root : b.root.Shaped (maxDepth + 1)
  length : b.stack.length ≤ maxDepth
  fits : Fits b.stack

variable {b : TreeBuilder} {f : OpenNode} {stack : List OpenNode}

theorem shaped_start (text : List Char) : (start text).Shaped where
  root := ⟨by simp [start], .nil, fun _ hn => absurd hn List.not_mem_nil⟩
  length := Nat.zero_le _
  fits := trivial

theorem Fits.checkAll (h : Fits stack) (marks : List Bool) : Fits (checkAll marks stack) := by
  induction stack with
  | nil =>
    rw [checkAll_nil]
    exact h
  | cons f stack ih =>
    have hmark : ∀ (marks : List Bool) (f : OpenNode), f.Shaped (maxDepth - stack.length) →
        (marks.foldl OpenNode.mark f).Shaped (maxDepth - stack.length) := by
      intro marks
      induction marks with
      | nil => exact fun f hf => hf
      | cons checked marks ih => exact fun f hf => ih _ (hf.mark checked)
    rw [checkAll_cons]
    split
    · exact ⟨hmark marks f h.1, h.2⟩
    · refine ⟨?_, ih h.2⟩
      rw [length_checkAll]
      exact hmark marks f h.1

theorem Shaped.receive {items : List Item} (h : b.Shaped) (marks : List Bool)
    (hitems : ∀ item ∈ items, item.Shaped) : (b.receive marks items).Shaped := by
  have hframe : ∀ (room : Nat), 0 < room → ∀ (f : OpenNode), f.Shaped room →
      (items.foldl OpenNode.receive f).Shaped room := by
    intro room hroom
    clear h
    induction items with
    | nil => exact fun f hf => hf
    | cons item items ih =>
      obtain ⟨hitem, hitems⟩ := List.forall_mem_cons.1 hitems
      exact fun f hf => ih hitems _ (hf.receive hroom hitem)
  have hfits := h.fits.checkAll marks
  have hlength : (checkAll marks b.stack).length ≤ maxDepth := by
    rw [length_checkAll]
    exact h.length
  unfold TreeBuilder.receive modify
  dsimp only
  cases hstack : checkAll marks b.stack with
  | nil => exact ⟨hframe _ (Nat.succ_pos _) _ h.root, Nat.zero_le _, trivial⟩
  | cons f below =>
    rw [hstack] at hfits hlength
    have hroom : 0 < maxDepth - below.length := Nat.sub_pos_of_lt hlength
    exact ⟨h.root, hlength, hframe _ hroom f hfits.1, hfits.2⟩

theorem Shaped.openTag (h : b.Shaped) (tag : Tag) (span : Span) : (b.openTag tag span).Shaped := by
  unfold TreeBuilder.openTag
  split
  · exact ⟨h.root, h.length, h.fits⟩
  · rename_i hroom
    have hlength : b.stack.length + 1 ≤ maxDepth := by omega
    exact ⟨h.root, hlength, OpenNode.shaped_ofTag tag span _, h.fits⟩

theorem Shaped.close (h : b.Shaped) : b.close.Shaped := by
  unfold TreeBuilder.close
  split
  · exact ⟨h.root, h.length, h.fits⟩
  · split
    · exact h
    · rename_i f below hstack
      obtain ⟨hroot, hlength, hfits⟩ := h
      rw [hstack] at hlength hfits
      cases below with
      | nil => exact ⟨hroot.attach_finish hfits.1, Nat.zero_le _, trivial⟩
      | cons g below =>
        -- the frame below has room for one level more than the one that is closed
        have hroom : maxDepth - below.length = maxDepth - (g :: below).length + 1 := by
          simp only [List.length_cons] at hlength ⊢
          omega
        have hg := hfits.2.1
        rw [hroom] at hg
        refine ⟨hroot, Nat.le_of_succ_le hlength, ?_, hfits.2.2⟩
        rw [hroom]
        exact hg.attach_finish hfits.1

/-- What one event keeps. -/
theorem Shaped.step (h : b.Shaped) (e : Located) : (b.step e).Shaped := by
  by_cases hsingle : e.event.isSingle = true
  · rw [step_single hsingle 0]
    refine h.receive _ fun item hitem => ?_
    have hitem : itemOf? b.index e = some item := Option.mem_toList.1 hitem
    exact shaped_itemOf? hitem
  · obtain ⟨event, first, last⟩ := e
    cases event with
    | start tag => exact h.openTag tag _
    | end_ tag => exact h.close
    | _ => exact absurd rfl hsingle

theorem Shaped.foldl (h : b.Shaped) (es : List Located) : (es.foldl TreeBuilder.step b).Shaped := by
  induction es generalizing b with
  | nil => exact h
  | cons e es ih => exact ih (h.step e)

theorem shaped_closeAll {root : OpenNode} (hroot : root.Shaped (maxDepth + 1))
    (hlength : stack.length ≤ maxDepth) (h : Fits stack) :
    (closeAll root stack).Shaped (maxDepth + 1) := by
  induction stack using closeAll.induct with
  | case1 => simpa [closeAll] using hroot
  | case2 f =>
    rw [closeAll]
    exact hroot.attach_finish h.1
  | case3 f g below ih =>
    have hroom : maxDepth - below.length = maxDepth - (g :: below).length + 1 := by
      simp only [List.length_cons] at hlength ⊢
      omega
    have hg := h.2.1
    rw [hroom] at hg
    rw [closeAll]
    refine ih (Nat.le_of_succ_le hlength) ⟨?_, h.2.2⟩
    rw [hroom]
    exact hg.attach_finish h.1

theorem Shaped.exists_finish (h : b.Shaped) :
    ∃ root : OpenNode, root.Shaped (maxDepth + 1) ∧ b.finish = root.finish :=
  ⟨_, shaped_closeAll h.root h.length h.fits, rfl⟩

/-! ### Reading spans from the text -/

/-- Takes an event whose span is known. -/
def place (b : TreeBuilder) (event : Event) (span : Span) : TreeBuilder :=
  match event with
  | .start tag => b.openTag tag span
  | .end_ _ => b.close
  | .text text => b.modify (·.addText text span)
  | .softBreak => b.modify (·.addText "\n" span)
  | .code text => b.collectOr text ((Node.leaf "inlineCode" span).withField "value" (.string text))
  | .html text | .inlineHtml text =>
    b.collectOr text ((Node.leaf "html" span).withField "value" (.string text))
  | .footnoteReference label =>
    b.attach ((Node.leaf "footnoteReference" span).withField "label" (.string label))
  | .hardBreak => b.attach (Node.leaf "break" span)
  | .rule => b.attach (Node.leaf "thematicBreak" span)
  | .taskListMarker checked => { b with stack := checkItem checked b.stack }
  | .foreign => b

/-- A builder for a text, if the end of the text can be found. -/
def start? (text : List Char) : Option TreeBuilder := do
  let stop ← readPosition? text (byteCount text)
  let span : Span := ⟨.start, stop, 0, byteCount text⟩
  return ⟨LineIndex.ofChars text, ⟨"root", [], [], span, none⟩, [], 0⟩

/-- Takes one event, if its span can be read from the text. -/
def step? (text : List Char) (b : TreeBuilder) (e : Located) : Option TreeBuilder := do
  let span ← readSpan? text e.first e.last
  return b.place e.event span

/-- The tree of a text by a sequence of events, if all spans can be read from the text. -/
def build? (text : List Char) (events : List Located) : Option Node := do
  let b ← events.foldlM (step? text) (← start? text)
  return b.finish

theorem step_eq_place (b : TreeBuilder) (e : Located) :
    b.step e = b.place e.event (b.index.span e.first e.last) := by
  unfold step place
  cases e.event <;> rfl

theorem start?_eq (text : List Char) : start? text = some (start text) := by
  have hend : OnBoundary text (byteCount text) := ⟨text, [], (List.append_nil text).symm, rfl⟩
  unfold start? start LineIndex.whole
  dsimp only
  rw [readPosition?_eq hend, LineIndex.size_ofChars]
  rfl

variable {text : List Char} {es : List Located}

theorem foldlM_step?_eq (hindex : b.index = LineIndex.ofChars text)
    (h : ∀ e ∈ es, InReach text e.first ∧ InReach text e.last) :
    es.foldlM (step? text) b = some (es.foldl step b) := by
  induction es generalizing b with
  | nil => rfl
  | cons e es ih =>
    obtain ⟨he, hes⟩ := List.forall_mem_cons.1 h
    have hstep : step? text b e = some (b.step e) := by
      unfold step?
      rw [readSpan?_eq he.1 he.2, step_eq_place, hindex]
      rfl
    rw [List.foldlM_cons, hstep, List.foldl_cons]
    exact ih ((index_step b e).trans hindex) hes

/-- The builder does not fail where the ranges of events end on boundaries, or past the text. -/
theorem build?_eq (h : ∀ e ∈ es, InReach text e.first ∧ InReach text e.last) :
    build? text es = some (build text es) := by
  unfold build? build
  rw [start?_eq]
  simp only [Option.bind_eq_bind, Option.bind_some]
  rw [foldlM_step?_eq rfl h]
  rfl

/-! ### The tree -/

theorem carries_root (ix : LineIndex) : Carries ix (fun _ _ => True)
    (fun s f => s = none → f.kind = "root") (fun _ _ => True) where
  inside _ _ := trivial
  opened _ _ := nofun
  leaf _ _ := trivial
  finish _ _ := trivial
  attach hf _ := hf
  collect hf hcollect := by
    obtain ⟨_, -, rfl⟩ := Option.map_eq_some_iff.1 hcollect
    exact hf
  extend _ hf _ _ := hf
  check hf := hf

theorem kind_build (text : List Char) (es : List Located) : (build text es).kind = "root" := by
  have hadmits : Admits (fun _ _ => True) [] es := admits_of_forall fun _ _ _ => trivial
  obtain ⟨f, hf, heq⟩ := (carries_root (LineIndex.ofChars text)).build (fun _ => rfl) hadmits
  rw [heq]
  exact hf rfl

/-- Whatever the events are, the tree has at most `maxDepth + 1` levels below its root, no two texts
side by side, nothing in a text, and no field with the name of the kind or of the children.  To
build it does not fail as long as the ranges of the events end on boundaries or past the text. -/
theorem shape_of_build (text : List Char) (es : List Located) :
    ((∀ e ∈ es, InReach text e.first ∧ InReach text e.last) →
      build? text es = some (build text es)) ∧
      (build text es).kind = "root" ∧
      Node.levelsAll (build text es).children ≤ maxDepth + 1 ∧
      ∀ n ∈ (build text es).preorder, Node.Apart n.children ∧
        (n.kind = "text" → n.children = []) ∧ ∀ key ∈ n.fields.keys, IsFieldName key := by
  obtain ⟨root, hroot, hfinish⟩ := ((shaped_start text).foldl es).exists_finish
  have hbuild : build text es = root.finish := hfinish
  refine ⟨build?_eq, kind_build text es, ?_, fun n hn => ?_⟩
  · rw [hbuild, Node.levelsAll_le_iff]
    exact fun n hn => (hroot.children n (List.mem_reverse.1 hn)).1
  · have hproper := (proper_build text es).everywhere.of_mem_preorder hn
    rw [hbuild] at hn
    obtain ⟨hapart, htext⟩ := hroot.finish.of_mem_preorder hn
    refine ⟨hapart, htext, fun key hkey => ?_⟩
    obtain ⟨hkind, hrest⟩ := List.nodup_cons.1 hproper.keys
    refine ⟨?_, ?_⟩
    · rintro rfl
      exact hkind (List.mem_cons_of_mem _ hkey)
    · rintro rfl
      exact (List.nodup_cons.1 hrest).1 hkey

/-- Ends without a start, a start without an end, and ranges past the text or backwards. -/
theorem shape_of_stray_events :
    let es : List Located := [⟨.end_ .item, 0, 1⟩, ⟨.start .paragraph, 0, 7⟩, ⟨.text "a", 0, 1⟩,
      ⟨.softBreak, 5, 0⟩, ⟨.start .emphasis, 1, 9⟩, ⟨.end_ .strong, 1, 1⟩]
    (∀ e ∈ es, InReach ['a'] e.first ∧ InReach ['a'] e.last) ∧ ¬ WellNested es ∧
      build? ['a'] es = some (build ['a'] es) := by
  intro es
  have hreach : ∀ o, InReach ['a'] o
    | 0 => .inl (onBoundary_zero _)
    | o + 1 => .inr (Nat.succ_le_succ (Nat.zero_le o))
  have h : ∀ e ∈ es, InReach ['a'] e.first ∧ InReach ['a'] e.last :=
    fun _ _ => ⟨hreach _, hreach _⟩
  exact ⟨h, by decide, (shape_of_build ['a'] es).1 h⟩

end TreeBuilder

end DocSchema
