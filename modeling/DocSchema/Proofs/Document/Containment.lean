/-
  DocSchema/Proofs/Document/Containment.lean
  ==========================================
  **A node lies within its parent, up to line breaks.**

  The events of a well-formed text nest: the range of each lies within that of the construct
  around it (`Encloses`).  The spans of a tree nest with them, but for one thing.  Line breaks are
  cut from the end of each range for itself, so where a construct ends with line breaks, what
  stands for these line breaks alone comes after the end of the construct (`Overhangs`).  An empty
  cell that pads a row of a table is such a thing.

  Everything else lies within its parent, however the builder puts it there: text that goes on
  with further text, and what is in a construct too deep for a frame of its own
  (`within_of_mem_preorder`).
-/
import DocSchema.Proofs.Document.Origin

namespace DocSchema

open DocSchema.Json DocSchema.Markdown

/-! ### Ranges of events -/

/-- An event lies within the construct that `s` opened, or within a text of some size. -/
def Encloses (size : Nat) : Option Located → Located → Prop
  | none, e => e.first ≤ e.last ∧ e.last ≤ size
  | some s, e => s.first ≤ e.first ∧ e.first ≤ e.last ∧ e.last ≤ s.last

instance (size : Nat) (s : Option Located) (e : Located) : Decidable (Encloses size s e) := by
  cases s with
  | none => exact inferInstanceAs (Decidable (_ ∧ _))
  | some s => exact inferInstanceAs (Decidable (_ ∧ _))

theorem Encloses.trans {size : Nat} {s : Option Located} {e e' : Located} (h : Encloses size s e)
    (h' : Encloses size (some e) e') : Encloses size s e' := by
  cases s with
  | none => exact ⟨h'.2.1, Nat.le_trans h'.2.2 h.2⟩
  | some s => exact ⟨Nat.le_trans h.1 h'.1, h'.2.1, Nat.le_trans h'.2.2 h.2.2⟩

namespace TreeBuilder

variable {E : Option Located → Located → Prop} {Q : Located → Prop}

instance decidableAdmits [∀ s e, Decidable (E s e)] (outer events : List Located) :
    Decidable (Admits E outer events) :=
  match events with
  | [] => .isTrue trivial
  | e :: events =>
    have := decidableAdmits (e.enter outer) events
    inferInstanceAs (Decidable ((e.isEnd = false → E outer.head? e) ∧ _))

theorem Admits.and {outer events : List Located} (h : Admits E outer events)
    (hQ : ∀ e ∈ events, Q e) : Admits (fun s e => Q e ∧ E s e) outer events := by
  induction events generalizing outer with
  | nil => trivial
  | cons e events ih =>
    obtain ⟨he, hevents⟩ := List.forall_mem_cons.1 hQ
    exact ⟨fun hend => ⟨he, h.1 hend⟩, ih h.2 hevents⟩

end TreeBuilder

/-! ### Spans of ranges -/

/-- `inner` starts within `outer` and ends after it, with nothing but line breaks in between.  It ends
where an event stands for line breaks alone. -/
structure Overhangs (ix : LineIndex) (events : List Located) (outer inner : Span) : Prop where
  startOffset : outer.startOffset ≤ inner.startOffset
  start : outer.start.le inner.start = true
  stopOffset : outer.stopOffset < inner.stopOffset
  isBreak : ∀ o, outer.stopOffset ≤ o → o < inner.stopOffset → ix.isBreak o = true
  blank : ∃ e ∈ events, ix.Blank e.first e.last ∧ inner.stopOffset = min e.first ix.size

/-- `inner` lies within `outer`, up to line breaks. -/
def Within (ix : LineIndex) (events : List Located) (outer inner : Span) : Prop :=
  outer.contains inner = true ∨ Overhangs ix events outer inner

theorem Span.contains_iff {outer inner : Span} : outer.contains inner = true ↔
    outer.startOffset ≤ inner.startOffset ∧ inner.stopOffset ≤ outer.stopOffset ∧
      outer.start.le inner.start = true ∧ inner.stop.le outer.stop = true := by
  simp [Span.contains, and_assoc]

variable {cs : List Char} {events : List Located} {s : Option Located} {e : Located}
  {outer inner further : Span}

/-- A longer span lies within another as its two ends do. -/
theorem Within.grow {ix : LineIndex} (h : Within ix events outer inner)
    (h' : Within ix events outer further) :
    Within ix events outer { inner with stop := further.stop, stopOffset := further.stopOffset } := by
  have hstart : outer.startOffset ≤ inner.startOffset ∧ outer.start.le inner.start = true := by
    obtain h | h := h
    · obtain ⟨hoffset, -, hstart, -⟩ := Span.contains_iff.1 h
      exact ⟨hoffset, hstart⟩
    · exact ⟨h.startOffset, h.start⟩
  obtain h' | h' := h'
  · obtain ⟨-, hoffset, -, hstop⟩ := Span.contains_iff.1 h'
    exact .inl (Span.contains_iff.2 ⟨hstart.1, hoffset, hstart.2, hstop⟩)
  · exact .inr ⟨hstart.1, hstart.2, h'.stopOffset, h'.isBreak, h'.blank⟩

/-- The span of the construct that `s` opened. -/
def spanOf (cs : List Char) : Option Located → Span
  | none => (LineIndex.ofChars cs).whole
  | some s => (LineIndex.ofChars cs).span s.first s.last

/-- An event in a construct covers nothing outside of it but line breaks. -/
theorem within_spanOf (he : e ∈ events) (h : Encloses (byteCount cs) s e) :
    Within (LineIndex.ofChars cs) events (spanOf cs s)
      ((LineIndex.ofChars cs).span e.first e.last) := by
  have hsize := LineIndex.size_ofChars cs
  cases s with
  | none =>
    refine .inl (Span.contains_iff.2 ⟨Nat.zero_le _, LineIndex.stopOffset_le_size _ _ _, ?_, ?_⟩)
    · change Position.start.le ((LineIndex.ofChars cs).position _) = true
      rw [LineIndex.position_ofChars]
      exact le_positionIn _ _ _
    · exact LineIndex.position_mono cs (LineIndex.stopOffset_le_size _ _ _)
  | some s =>
    obtain ⟨hfirst, hrange, hlast⟩ := h
    have hstart : min s.first (LineIndex.ofChars cs).size ≤ min e.first (LineIndex.ofChars cs).size :=
      by omega
    by_cases hstop : ((LineIndex.ofChars cs).span e.first e.last).stopOffset ≤
        ((LineIndex.ofChars cs).span s.first s.last).stopOffset
    · exact .inl (Span.contains_iff.2 ⟨hstart, hstop, LineIndex.position_mono cs hstart,
        LineIndex.position_mono cs hstop⟩)
    · have hlt := Nat.lt_of_not_le hstop
      obtain ⟨hbreak, hblank⟩ := LineIndex.blank_of_stopOffset_lt hlast hlt
      have hempty : ((LineIndex.ofChars cs).span e.first e.last).stopOffset =
          min e.first (LineIndex.ofChars cs).size :=
        Nat.le_antisymm (Nat.le_of_not_lt fun h => LineIndex.span_lt_iff.1 h hblank)
          (LineIndex.startOffset_le_stopOffset _ hrange)
      exact .inr ⟨hstart, LineIndex.position_mono cs hstart, hlt, hbreak, e, he, hblank, hempty⟩

/-! ### The tree -/

/-- A node of a construct with its children within it; texts have none. -/
def Nested (cs : List Char) (events : List Located) (n : Node) : Prop :=
  (n.kind = "text" → n.children = []) ∧
    ∀ c ∈ n.children, Within (LineIndex.ofChars cs) events n.span c.span

/-- A node in the construct that `s` opened. -/
def NestedIn (cs : List Char) (events : List Located) (s : Option Located) (n : Node) : Prop :=
  Within (LineIndex.ofChars cs) events (spanOf cs s) n.span ∧ n.Everywhere (Nested cs events)

/-- The frame of the construct that `s` opened. -/
structure Encloser (cs : List Char) (events : List Located) (s : Option Located) (f : OpenNode) :
    Prop where
  kind : f.kind ≠ "text"
  span : f.span = spanOf cs s
  children : ∀ n ∈ f.children, NestedIn cs events s n

theorem kind_tagNode (tag : Tag) : (tagNode tag).1 ≠ "text" := by
  cases tag with
  | list start => cases start <;> simp [tagNode]
  | _ => simp [tagNode, metadataKind]

theorem Encloser.finish {f : OpenNode} (hf : Encloser cs events s f) :
    f.finish.Everywhere (Nested cs events) := by
  refine .mk ⟨fun htext => absurd htext hf.kind, fun c hc => ?_⟩ fun c hc => ?_
  · have hwithin := (hf.children c (List.mem_reverse.1 hc)).1
    rw [← hf.span] at hwithin
    exact hwithin
  · exact (hf.children c (List.mem_reverse.1 hc)).2

theorem carries_within (cs : List Char) (events : List Located) :
    TreeBuilder.Carries (LineIndex.ofChars cs)
      (fun s e => e ∈ events ∧ Encloses (byteCount cs) s e) (Encloser cs events)
      (NestedIn cs events) where
  inside h h' := ⟨h'.1, h.2.trans h'.2⟩
  opened _ _ := ⟨kind_tagNode _, rfl, fun _ hn => absurd hn List.not_mem_nil⟩
  leaf h _ := by
    refine ⟨within_spanOf h.1 h.2, .mk ⟨fun _ => rfl, ?_⟩ ?_⟩
    · exact fun _ hc => absurd hc List.not_mem_nil
    · exact fun _ hc => absurd hc List.not_mem_nil
  finish {s e f} h hf := by
    refine ⟨?_, hf.finish⟩
    change Within _ _ _ f.span
    rw [hf.span]
    exact within_spanOf h.1 h.2
  attach hf hn := ⟨hf.kind, hf.span, List.forall_mem_cons.2 ⟨hn, hf.children⟩⟩
  collect hf hcollect := by
    obtain ⟨⟨key, collected⟩, -, rfl⟩ := Option.map_eq_some_iff.1 hcollect
    exact ⟨hf.kind, hf.span, hf.children⟩
  extend {s e f last before text} h hf hchildren hkind := by
    obtain ⟨⟨hwithin, hlast⟩, hbefore⟩ := List.forall_mem_cons.1 (hchildren ▸ hf.children)
    have hnone : last.children = [] := hlast.self.1 hkind
    have hempty : ∀ c, c ∉ (OpenNode.extendText last text
        ((LineIndex.ofChars cs).span e.first e.last)).children := by
      intro c hc
      change c ∈ last.children at hc
      rw [hnone] at hc
      exact absurd hc List.not_mem_nil
    refine ⟨hf.kind, hf.span, List.forall_mem_cons.2 ⟨⟨?_, ?_⟩, hbefore⟩⟩
    · obtain hspan | ⟨-, hspan⟩ :=
        OpenNode.span_extendText last text ((LineIndex.ofChars cs).span e.first e.last)
      · rw [hspan]
        exact hwithin
      · rw [hspan]
        exact hwithin.grow (within_spanOf h.1 h.2)
    · exact .mk ⟨fun _ => hnone, fun c hc => absurd hc (hempty c)⟩ fun c hc => absurd hc (hempty c)
  check hf := ⟨hf.kind, hf.span, hf.children⟩

/-- The tree of events that nest nests as they do. -/
theorem encloser_build (h : TreeBuilder.Admits (Encloses (byteCount cs)) [] events) :
    (TreeBuilder.build cs events).span = (LineIndex.ofChars cs).whole ∧
      (TreeBuilder.build cs events).Everywhere (Nested cs events) := by
  have hroot : Encloser cs events none (TreeBuilder.start cs).root :=
    ⟨by simp [TreeBuilder.start], rfl, fun _ hn => absurd hn List.not_mem_nil⟩
  obtain ⟨f, hf, heq⟩ := (carries_within cs events).build hroot (h.and fun _ he => he)
  rw [heq]
  exact ⟨hf.span, hf.finish⟩

/-- Nothing comes after the end of the text. -/
theorem contains_of_within_whole (h : Within (LineIndex.ofChars cs) events
    (LineIndex.ofChars cs).whole inner) : (LineIndex.ofChars cs).whole.contains inner = true := by
  obtain h | h := h
  · exact h
  · obtain ⟨e, -, -, hstop⟩ := h.blank
    have hlt : (LineIndex.ofChars cs).size < inner.stopOffset := h.stopOffset
    omega

namespace Document

/-- The root is the whole text and contains its children.  Every other node contains its children
too, but for what stands for line breaks alone and comes after the end of the node. -/
theorem contains_up_to_breaks (text : String)
    (h : TreeBuilder.Admits (Encloses (byteCount text.toList)) [] (Document.events text.toList)) :
    (parse text).root.span = (LineIndex.ofChars text.toList).whole ∧
      (∀ c ∈ (parse text).root.children, (parse text).root.span.contains c.span = true) ∧
      ∀ p ∈ (parse text).root.preorder, ∀ c ∈ p.children, p.span.contains c.span = true ∨
        Overhangs (LineIndex.ofChars text.toList) (Document.events text.toList) p.span c.span := by
  obtain ⟨hspan, hnested⟩ := encloser_build h
  refine ⟨hspan, fun c hc => ?_, fun p hp => (hnested.of_mem_preorder hp).2⟩
  have hwithin := hnested.self.2 c hc
  rw [hspan] at hwithin
  change (TreeBuilder.build _ _).span.contains c.span = true
  rw [hspan]
  exact contains_of_within_whole hwithin

/-- The events of a table with a short row nest. -/
theorem short_row_contains :
    TreeBuilder.Admits (Encloses (byteCount "|a|b|\n|-|-|\n|1|\n".toList)) []
        (Document.events "|a|b|\n|-|-|\n|1|\n".toList) ∧
      ∀ c ∈ (parse "|a|b|\n|-|-|\n|1|\n").root.children,
        (parse "|a|b|\n|-|-|\n|1|\n").root.span.contains c.span = true := by
  have h : TreeBuilder.Admits (Encloses (byteCount "|a|b|\n|-|-|\n|1|\n".toList)) []
      (Document.events "|a|b|\n|-|-|\n|1|\n".toList) := by decide +kernel
  exact ⟨h, (contains_up_to_breaks _ h).2.1⟩

/-- The cell that pads the short row comes after its end. -/
theorem exists_not_contains : ¬ ∀ text : String,
    TreeBuilder.Admits (Encloses (byteCount text.toList)) [] (Document.events text.toList) →
    ∀ p ∈ (parse text).root.preorder, ∀ c ∈ p.children, p.span.contains c.span = true := by
  intro h
  have hadmits : TreeBuilder.Admits (Encloses (byteCount "|a|b|\n|-|-|\n|1|\n".toList)) []
      (Document.events "|a|b|\n|-|-|\n|1|\n".toList) := by decide +kernel
  have hall : ((parse "|a|b|\n|-|-|\n|1|\n").root.preorder.all fun p =>
      p.children.all fun c => p.span.contains c.span) = false := by decide +kernel
  have hcontains := h _ hadmits
  simp only [← List.all_eq_true] at hcontains
  rw [hcontains] at hall
  cases hall

end Document

end DocSchema
