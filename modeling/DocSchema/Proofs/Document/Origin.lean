/-
  DocSchema/Proofs/Document/Origin.lean
  =====================================
  **Every node but the root stems from an event.**

  The event that opens a construct, or makes a node by itself, decides the kind of the node and
  where it starts (`StemsFrom`).  Only a text may end later than its event does, as it goes on with
  further text.  All offsets are on boundaries of characters (`onBoundary_events`), so that a
  node covers some text, by offsets and by positions, as soon as its event stands for more than
  line breaks.

  Line breaks are cut from the end of every range, and so a node without any text is left where
  an event stands for line breaks alone: a line break between two emphases, an empty cell at the
  end of a row.
-/
import DocSchema.Proofs.Document.Builder
import DocSchema.Proofs.Document.Node
import DocSchema.Proofs.Document.Span

namespace DocSchema

open DocSchema.Json DocSchema.Markdown

/-! ### Offsets of events -/

section Boundaries

variable {cs : List Char} {o : Nat}

theorem onBoundary_zero (cs : List Char) : OnBoundary cs 0 :=
  ⟨[], cs, rfl, rfl⟩

/-- The offset of a part of a text, in the whole. -/
theorem OnBoundary.shift {n : Nat} (h : OnBoundary (cs.drop n) o) :
    OnBoundary cs (o + byteCount (cs.take n)) := by
  obtain ⟨before, after, hdrop, rfl⟩ := h
  refine ⟨cs.take n ++ before, after, ?_, ?_⟩
  · rw [List.append_assoc, ← hdrop, List.take_append_drop]
  · rw [byteCount_append, Nat.add_comm]

theorem onBoundary_of_mem_byteOffsets {chars : Array Char} (h : o ∈ byteOffsets chars) :
    OnBoundary chars.toList o := by
  -- what has been written ends with the size of what has been read
  have hfold : ∀ (cs before : List Char) (acc : Array Nat), acc.back? = some (byteCount before) →
      (∀ o ∈ acc, OnBoundary (before ++ cs) o) →
      ∀ o ∈ cs.foldl (fun acc c => acc.push (acc.back?.getD 0 + c.utf8Size)) acc,
        OnBoundary (before ++ cs) o := by
    intro cs
    induction cs with
    | nil => exact fun before acc _ hacc => hacc
    | cons c cs ih =>
      intro before acc hback hacc
      have hwhole : before ++ c :: cs = (before ++ [c]) ++ cs := by simp
      rw [hwhole] at hacc ⊢
      refine ih (before ++ [c]) _ (by simp [hback]) fun o ho => ?_
      rcases Array.mem_push.1 ho with ho | rfl
      · exact hacc o ho
      · exact ⟨before ++ [c], cs, rfl, by simp [hback]⟩
  rw [byteOffsets, ← Array.foldl_toList] at h
  refine hfold chars.toList [] #[0] rfl (fun o ho => ?_) o h
  obtain rfl : o = 0 := by simpa using ho
  exact onBoundary_zero _

/-- The ends of an event's range are on boundaries. -/
def Markdown.Located.OnBoundaries (cs : List Char) (e : Located) : Prop :=
  OnBoundary cs e.first ∧ OnBoundary cs e.last

theorem onBoundaries_toBytes (chars : Array Char) (e : Located) :
    (e.toBytes (byteOffsets chars)).OnBoundaries chars.toList := by
  have hget : ∀ i, OnBoundary chars.toList ((byteOffsets chars).getD i 0) := by
    intro i
    rw [Array.getD_eq_getD_getElem?]
    cases h : (byteOffsets chars)[i]? with
    | none => exact onBoundary_zero _
    | some o => exact onBoundary_of_mem_byteOffsets (Array.mem_of_getElem? h)
  exact ⟨hget _, hget _⟩

theorem onBoundaries_markdown {e : Located} (he : e ∈ Markdown.events cs) : e.OnBoundaries cs := by
  obtain ⟨x, -, rfl⟩ := List.mem_map.1 he
  simpa using onBoundaries_toBytes cs.toArray x

theorem onBoundaries_header {header : List Located} {size : Nat} {e : Located}
    (h : header? cs = some (header, size)) (he : e ∈ header) : e.OnBoundaries cs := by
  unfold header? at h
  dsimp only at h
  split at h
  · obtain ⟨⟨lines, stop⟩, -, heq⟩ := Option.map_eq_some_iff.1 h
    cases heq
    obtain ⟨x, -, rfl⟩ := List.mem_map.1 he
    simpa using onBoundaries_toBytes cs.toArray x
  · cases h

/-- No event of a document starts or ends inside of a character. -/
theorem onBoundary_events {e : Located} (he : e ∈ Document.events cs) : e.OnBoundaries cs := by
  unfold Document.events at he
  split at he
  · rename_i header size hheader
    rcases List.mem_append.1 he with he | he
    · exact onBoundaries_header hheader he
    · obtain ⟨x, hx, rfl⟩ := List.mem_map.1 he
      obtain ⟨hfirst, hlast⟩ := onBoundaries_markdown hx
      exact ⟨hfirst.shift, hlast.shift⟩
  · exact onBoundaries_markdown he

end Boundaries

/-! ### Origins of nodes -/

/-- The kind of the node that an event opens or makes. -/
def Markdown.Event.kind? (event : Event) : Option String :=
  match event with
  | .start tag => some (tagNode tag).1
  | event => event.leaf?.map (·.1)

/-- The node starts where the range of the event does, and covers at least what the range does. -/
structure StemsFrom (ix : LineIndex) (e : Located) (n : Node) : Prop where
  kind : e.event.kind? = some n.kind
  startOffset : n.span.startOffset = (ix.span e.first e.last).startOffset
  stopOffset : (ix.span e.first e.last).stopOffset ≤ n.span.stopOffset
  span_eq : n.kind ≠ "text" → n.span = ix.span e.first e.last

/-- A span whose ends are on boundaries and have their positions. -/
structure Placed (cs : List Char) (s : Span) : Prop where
  start : s.start = (LineIndex.ofChars cs).position s.startOffset
  stop : s.stop = (LineIndex.ofChars cs).position s.stopOffset
  startOnBoundary : OnBoundary cs s.startOffset
  stopOnBoundary : OnBoundary cs s.stopOffset

variable {cs : List Char} {events : List Located} {e : Located} {n : Node} {f : OpenNode}

theorem placed_span (he : e.OnBoundaries cs) :
    Placed cs ((LineIndex.ofChars cs).span e.first e.last) := by
  have hmin : ∀ o, OnBoundary cs o → min o (LineIndex.ofChars cs).size = o :=
    fun o ho => Nat.min_eq_left (LineIndex.onBoundary_le_size ho)
  refine ⟨rfl, rfl, ?_, ?_⟩
  · rw [LineIndex.startOffset_span, hmin _ he.1]
    exact he.1
  · rw [LineIndex.stopOffset_span, hmin _ he.2]
    exact LineIndex.onBoundary_trimBreaks he.2

/-- By offsets or by positions, a span covers some text or not. -/
theorem Placed.before {s : Span} (h : Placed cs s) (hlt : s.startOffset < s.stopOffset) :
    s.start.Before s.stop := by
  rw [h.start, h.stop]
  exact LineIndex.position_lt h.startOnBoundary h.stopOnBoundary hlt

/-- A node of a tree that is made of events. -/
def Stems (cs : List Char) (events : List Located) (n : Node) : Prop :=
  Placed cs n.span ∧ ∃ e ∈ events, StemsFrom (LineIndex.ofChars cs) e n

/-- A frame that an event has opened, with the nodes in it so far. -/
structure OpenedBy (cs : List Char) (events : List Located) (s : Option Located) (f : OpenNode) :
    Prop where
  opener : ∀ e, s = some e → e.event.kind? = some f.kind ∧
    f.span = (LineIndex.ofChars cs).span e.first e.last
  children : ∀ n ∈ f.children, n.Everywhere (Stems cs events)

theorem kind?_of_leaf? {event : Event} {kind : String} {fields : Object}
    (h : event.leaf? = some (kind, fields)) : event.kind? = some kind := by
  have hmap : event.leaf?.map (·.1) = some kind := by rw [h]; rfl
  cases event with
  | start tag => cases h
  | _ => exact hmap

theorem Stems.extend {text : String} (he : e.OnBoundaries cs) (h : Stems cs events n)
    (htext : n.kind = "text") :
    Stems cs events (OpenNode.extendText n text ((LineIndex.ofChars cs).span e.first e.last)) := by
  have hpiece := placed_span he
  obtain ⟨hplaced, x, hx, hkind, hstart, hstop, -⟩ := h
  obtain hspan | ⟨hlt, hspan⟩ :=
    OpenNode.span_extendText n text ((LineIndex.ofChars cs).span e.first e.last)
  · refine ⟨hspan ▸ hplaced, x, hx, hkind, ?_, ?_, fun hne => absurd htext hne⟩
    · rw [hspan, hstart]
    · rw [hspan]
      exact hstop
  · refine ⟨?_, x, hx, hkind, ?_, ?_, fun hne => absurd htext hne⟩
    · rw [hspan]
      exact ⟨hplaced.start, hpiece.stop, hplaced.startOnBoundary, hpiece.stopOnBoundary⟩
    · rw [hspan]
      exact hstart
    · rw [hspan]
      exact Nat.le_trans hstop (Nat.le_of_lt hlt)

theorem carries_stems (hbounds : ∀ e ∈ events, e.OnBoundaries cs) :
    TreeBuilder.Carries (LineIndex.ofChars cs) (fun _ e => e ∈ events) (OpenedBy cs events)
      (fun _ n => n.Everywhere (Stems cs events)) where
  inside _ he' := he'
  opened he htag := by
    refine ⟨fun e heq => ?_, fun _ hn => absurd hn List.not_mem_nil⟩
    cases heq
    exact ⟨by rw [htag]; rfl, rfl⟩
  leaf {s e kind fields} he hleaf := by
    refine .mk ⟨placed_span (hbounds e he), e, he, ?_⟩ fun _ hc => absurd hc List.not_mem_nil
    exact ⟨kind?_of_leaf? hleaf, rfl, Nat.le_refl _, fun _ => rfl⟩
  finish {s e f} he hf := by
    obtain ⟨hkind, hspan⟩ := hf.opener e rfl
    refine .mk ⟨?_, e, he, ?_⟩ fun c hc => hf.children c (List.mem_reverse.1 hc)
    · change Placed cs f.span
      rw [hspan]
      exact placed_span (hbounds e he)
    · exact ⟨hkind, congrArg Span.startOffset hspan, Nat.le_of_eq (congrArg Span.stopOffset hspan).symm,
        fun _ => hspan⟩
  attach hf hn := ⟨hf.opener, List.forall_mem_cons.2 ⟨hn, hf.children⟩⟩
  collect hf hcollect := by
    obtain ⟨⟨key, collected⟩, -, rfl⟩ := Option.map_eq_some_iff.1 hcollect
    exact ⟨hf.opener, hf.children⟩
  extend {s e f last before text} he hf hchildren hkind := by
    obtain ⟨hlast, hbefore⟩ := List.forall_mem_cons.1 (hchildren ▸ hf.children)
    refine ⟨hf.opener, List.forall_mem_cons.2 ⟨?_, hbefore⟩⟩
    exact .mk (hlast.self.extend (hbounds e he) hkind) hlast.children
  check hf := ⟨hf.opener, hf.children⟩

theorem stems_build (hbounds : ∀ e ∈ events, e.OnBoundaries cs) :
    ∀ n ∈ Node.preorderAll (TreeBuilder.build cs events).children, Stems cs events n := by
  have hroot : OpenedBy cs events none (TreeBuilder.start cs).root :=
    ⟨(fun _ heq => nomatch heq), fun _ hn => absurd hn List.not_mem_nil⟩
  obtain ⟨f, hf, heq⟩ := (carries_stems hbounds).build hroot
    (TreeBuilder.admits_of_forall fun _ he _ => he)
  rw [heq]
  intro n hn
  obtain ⟨c, hc, hn⟩ := Node.mem_preorderAll.1 hn
  exact (hf.children c (List.mem_reverse.1 hc)).of_mem_preorder hn

namespace Document

/-- Every node but the root stems from an event.  It covers some text, by offsets and by positions,
where the range of its event holds more than line breaks; where it does not, only a text can. -/
theorem covers_text_unless_blank (text : String) :
    ∀ n ∈ Node.preorderAll (Document.parse text).root.children,
      ∃ e ∈ Document.events text.toList, StemsFrom (LineIndex.ofChars text.toList) e n ∧
        (¬ (LineIndex.ofChars text.toList).Blank e.first e.last →
          n.span.startOffset < n.span.stopOffset ∧ n.span.start.Before n.span.stop) ∧
        ((LineIndex.ofChars text.toList).Blank e.first e.last → n.kind ≠ "text" →
          n.span.stopOffset ≤ n.span.startOffset) := by
  intro n hn
  obtain ⟨hplaced, e, he, hstems⟩ := stems_build (fun _ => onBoundary_events) n hn
  refine ⟨e, he, hstems, fun hsolid => ?_, fun hblank hkind => ?_⟩
  · have hlt : n.span.startOffset < n.span.stopOffset := by
      rw [hstems.startOffset]
      exact Nat.lt_of_lt_of_le (LineIndex.span_lt_iff.2 hsolid) hstems.stopOffset
    exact ⟨hlt, hplaced.before hlt⟩
  · rw [hstems.span_eq hkind, ← Nat.not_lt, LineIndex.span_lt_iff]
    exact not_not_intro hblank

/-- A text has nodes besides its root. -/
theorem word_covers_text : ∃ n ∈ Node.preorderAll (Document.parse "word").root.children,
    ∃ e ∈ Document.events "word".toList, StemsFrom (LineIndex.ofChars "word".toList) e n ∧
      (¬ (LineIndex.ofChars "word".toList).Blank e.first e.last →
        n.span.startOffset < n.span.stopOffset ∧ n.span.start.Before n.span.stop) := by
  have hsome : (Node.preorderAll (Document.parse "word").root.children).isEmpty = false := by
    decide +kernel
  obtain ⟨n, hn⟩ := List.isEmpty_eq_false_iff_exists_mem.1 hsome
  obtain ⟨e, he, hstems, hsolid, -⟩ := covers_text_unless_blank "word" n hn
  exact ⟨n, hn, e, he, hstems, hsolid⟩

/-- A line break between two emphases leaves a text node that covers nothing. -/
theorem exists_degenerate : ¬ ∀ text : String,
    ∀ n ∈ Node.preorderAll (Document.parse text).root.children,
      n.span.startOffset < n.span.stopOffset ∧ n.span.start.Before n.span.stop := by
  intro h
  have hany : (Node.preorderAll (Document.parse "*a*\n*b*").root.children).any
      (fun n => n.span.startOffset == n.span.stopOffset) = true := by decide +kernel
  obtain ⟨n, hn, hempty⟩ := List.any_eq_true.1 hany
  have hlt := (h _ n hn).1
  rw [beq_iff_eq.1 hempty] at hlt
  exact absurd hlt (Nat.lt_irrefl _)

end Document

end DocSchema
