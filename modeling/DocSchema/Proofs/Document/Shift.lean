/-
  DocSchema/Proofs/Document/Shift.lean
  ====================================
  **A header only shifts the body.**

  The body of a document is read from the end of the header on, as if it were a text by itself, and
  its events are then moved by the bytes of the header.  The positions of their spans are those in
  the whole text.  They are the positions in the body, moved by the lines of the header, from the
  second line of the body on (`displaced_append`): the first line goes on with the closing line of
  the header, where columns are different.  So the tree of the body is shifted as a whole if no
  event is on that line, which is blank (`blank_after_header?`).

  The builder does not look at where nodes are, except to let a text grow.  So it does the same with
  the shifted events, on top of the node of the header, as it does with the events of the body
  (`step_shift`).
-/
import DocSchema.Proofs.Document.Exact
import DocSchema.Proofs.Document.Forest

namespace DocSchema

open DocSchema.Json DocSchema.Markdown DocSchema.Text

/-! ### Shifted places -/

def Position.shift (lines : Nat) (p : Position) : Position :=
  ⟨p.line + lines, p.column⟩

def Span.shift (bytes lines : Nat) (s : Span) : Span :=
  ⟨s.start.shift lines, s.stop.shift lines, s.startOffset + bytes, s.stopOffset + bytes⟩

namespace Position

variable {p : Position} {lines : Nat}

theorem advance_shift (c : Char) : (p.shift lines).advance c = (p.advance c).shift lines := by
  unfold advance shift
  split
  · rw [Nat.add_right_comm]
  · rfl

theorem line_pass (cs : List Char) : (p.pass cs).line = p.line + cs.count '\n' := by
  induction cs generalizing p with
  | nil => rfl
  | cons c cs ih =>
    refine (ih (p := p.advance c)).trans ?_
    rw [List.count_cons]
    by_cases hc : c = '\n'
    · simp [advance, hc]
      omega
    · simp [advance, hc]

/-- After a line feed there is a new line. -/
theorem pass_lineFeed (cs : List Char) :
    p.pass (cs ++ ['\n']) = ⟨p.line + cs.count '\n' + 1, 1⟩ := by
  rw [pass_append, ← line_pass]
  rfl

end Position

variable {p : Position} {lines bytes : Nat}

theorem positionIn_shift (cs : List Char) (o : Nat) :
    positionIn (p.shift lines) cs o = (positionIn p cs o).shift lines := by
  induction cs generalizing p o with
  | nil => rfl
  | cons c cs ih =>
    rw [positionIn, positionIn, Position.advance_shift]
    split
    · rfl
    · exact ih _

theorem positionIn_append_add (before after : List Char) (o : Nat) :
    positionIn p (before ++ after) (byteCount before + o) = positionIn (p.pass before) after o := by
  induction before generalizing p with
  | nil =>
    rw [byteCount_nil, Nat.zero_add]
    rfl
  | cons c cs ih =>
    rw [List.cons_append, byteCount_cons, positionIn, if_neg (by omega), Nat.add_assoc,
      Nat.add_sub_cancel_left]
    exact ih

theorem isBreakIn_append_add (before after : List Char) (o : Nat) :
    isBreakIn (before ++ after) (byteCount before + o) = isBreakIn after o := by
  induction before with
  | nil =>
    rw [byteCount_nil, Nat.zero_add]
    rfl
  | cons c cs ih =>
    rw [List.cons_append, byteCount_cons, isBreakIn, if_neg (by omega), Nat.add_assoc,
      Nat.add_sub_cancel_left]
    exact ih

/-! ### Shifted spans -/

namespace LineIndex

/-- One text is at the end of another: its breaks are moved by some bytes, and its positions by some
lines, if they are past a given offset. -/
structure Displaced (bytes lines feed : Nat) (ix ix' : LineIndex) : Prop where
  size : ix'.size = ix.size + bytes
  within : feed < ix.size
  isBreak : ∀ o, ix'.isBreak (o + bytes) = ix.isBreak o
  position : ∀ o, feed < o → ix'.position (o + bytes) = (ix.position o).shift lines

/-- Positions are moved from the second line on. -/
theorem displaced_append (before first rest : List Char) :
    Displaced (byteCount before) (before.count '\n') (byteCount first)
      (ofChars (first ++ '\n' :: rest)) (ofChars (before ++ (first ++ '\n' :: rest))) where
  size := by simp [Nat.add_comm]
  within := by
    have hfeed : '\n'.utf8Size = 1 := rfl
    rw [size_ofChars, byteCount_append, byteCount_cons, hfeed]
    omega
  isBreak o := by rw [isBreak_ofChars, isBreak_ofChars, Nat.add_comm, isBreakIn_append_add]
  position o ho := by
    have hfeed : byteCount (first ++ ['\n']) = byteCount first + 1 := by
      rw [byteCount_append]
      rfl
    obtain ⟨o, rfl⟩ := Nat.exists_eq_add_of_lt ho
    have hinside : byteCount first + o + 1 = byteCount (first ++ ['\n']) + o := by omega
    have hbody : first ++ '\n' :: rest = (first ++ ['\n']) ++ rest := by simp
    rw [position_ofChars, position_ofChars, hinside, hbody, Nat.add_comm, positionIn_append_add,
      positionIn_append_add, positionIn_append_add, ← positionIn_shift, ← Position.pass_append,
      ← List.append_assoc, Position.pass_lineFeed, Position.pass_lineFeed, List.count_append]
    congr 1
    unfold Position.shift Position.start
    dsimp only
    congr 1
    omega

variable {ix ix' : LineIndex} {feed first last : Nat}

theorem trimBreaks_shift (h : ∀ o, ix'.isBreak (o + bytes) = ix.isBreak o) :
    ix'.trimBreaks (first + bytes) (last + bytes) = ix.trimBreaks first last + bytes := by
  induction last with
  | zero =>
    cases bytes with
    | zero => rfl
    | succ bytes =>
      have hstop : ¬ first + (bytes + 1) ≤ bytes := by omega
      rw [Nat.zero_add, trimBreaks, trimBreaks, decide_eq_false hstop]
      exact (Nat.zero_add _).symm
  | succ last ih =>
    rw [Nat.add_right_comm, trimBreaks, trimBreaks, h, ih]
    simp only [Nat.add_le_add_iff_right]
    split <;> omega

theorem lt_trimBreaks (ix : LineIndex) (hfirst : feed < first) (hlast : feed < last) :
    feed < ix.trimBreaks first last := by
  induction last with
  | zero => exact hlast
  | succ last ih =>
    unfold trimBreaks
    split
    · rename_i hbreak
      have hle : first ≤ last := by simpa using (Bool.and_eq_true_iff.1 hbreak).1
      exact ih (Nat.lt_of_lt_of_le hfirst hle)
    · exact hlast

/-- A range is cut off at the same places, and its ends are moved. -/
theorem Displaced.span (h : Displaced bytes lines feed ix ix') (hfirst : feed < first)
    (hlast : feed < last) :
    ix'.span (first + bytes) (last + bytes) = (ix.span first last).shift bytes lines := by
  have hwithin := h.within
  have hmin : ∀ o, min (o + bytes) ix'.size = min o ix.size + bytes := fun o => by
    rw [h.size, Nat.add_min_add_right]
  have hfirst' : feed < min first ix.size := Nat.lt_min.2 ⟨hfirst, hwithin⟩
  have hlast' : feed < min last ix.size := Nat.lt_min.2 ⟨hlast, hwithin⟩
  unfold LineIndex.span
  simp only [hmin, trimBreaks_shift h.isBreak]
  rw [h.position _ hfirst', h.position _ (lt_trimBreaks ix hfirst' hlast')]
  rfl

end LineIndex

/-! ### Shifted trees -/

namespace Node

mutual

/-- The same tree, further down in a text. -/
def shift (bytes lines : Nat) : Node → Node
  | ⟨kind, fields, children, span⟩ =>
    ⟨kind, fields, shiftAll bytes lines children, span.shift bytes lines⟩

def shiftAll (bytes lines : Nat) : List Node → List Node
  | [] => []
  | n :: ns => shift bytes lines n :: shiftAll bytes lines ns

end

theorem shiftAll_eq_map (ns : List Node) :
    shiftAll bytes lines ns = ns.map (shift bytes lines) := by
  induction ns with
  | nil => rfl
  | cons n ns ih => rw [shiftAll, ih, List.map_cons]

@[simp] theorem shift_mk (kind : String) (fields : Object) (children : List Node) (span : Span) :
    shift bytes lines ⟨kind, fields, children, span⟩ =
      ⟨kind, fields, children.map (shift bytes lines), span.shift bytes lines⟩ := by
  rw [shift, shiftAll_eq_map]

@[simp] theorem kind_shift (n : Node) : (n.shift bytes lines).kind = n.kind := by
  obtain ⟨kind, fields, children, span⟩ := n
  rw [shift_mk]

end Node

/-! ### Shifted frames -/

def Item.shift (bytes lines : Nat) : Item → Item
  | .node n => .node (n.shift bytes lines)
  | .run text span => .run text (span.shift bytes lines)
  | .payload text n => .payload text (n.shift bytes lines)

namespace OpenNode

/-- The same frame, further down in a text. -/
def shift (bytes lines : Nat) (f : OpenNode) : OpenNode :=
  { f with children := f.children.map (Node.shift bytes lines), span := f.span.shift bytes lines }

/-- The same frame with a span of its own, and with nodes before those that it has. -/
def after (header : List Node) (span : Span) (f : OpenNode) : OpenNode :=
  { f with children := f.children ++ header, span }

variable {f : OpenNode} {header : List Node} {span : Span} {item : Item}

theorem extendText_shift (n : Node) (text : String) (s : Span) :
    extendText (n.shift bytes lines) text (s.shift bytes lines) =
      (extendText n text s).shift bytes lines := by
  obtain ⟨kind, fields, children, ⟨start, stop, startOffset, stopOffset⟩⟩ := n
  unfold extendText
  by_cases hlt : stopOffset < s.stopOffset
  · simp [Span.shift, hlt]
  · simp [Span.shift, hlt]

theorem receive_shift (f : OpenNode) (item : Item) :
    (f.shift bytes lines).receive (item.shift bytes lines) =
      (f.receive item).shift bytes lines := by
  obtain ⟨kind, fields, children, span, literal⟩ := f
  cases item with
  | node n => rfl
  | payload text n => cases literal <;> rfl
  | run text s =>
    have hleaf : ∀ s : Span, (Node.leaf "text" s).withField "value" (.string text) =
        ⟨"text", [("value", .string text)], [], s⟩ := fun _ => rfl
    cases literal with
    | some collecting => rfl
    | none =>
      cases children with
      | nil => simp [receive, addText, shift, Item.shift, collect?, attach, hleaf]
      | cons last before =>
        simp only [receive, addText, shift, Item.shift, collect?, attach, hleaf, Option.map_none,
          List.map_cons, Node.kind_shift, extendText_shift]
        split <;> simp

/-- The nodes before are left alone if none of them is a text. -/
theorem receive_after (h : ∀ n ∈ header, n.kind ≠ "text") (f : OpenNode) (item : Item) :
    (f.after header span).receive item = (f.receive item).after header span := by
  obtain ⟨kind, fields, children, s, literal⟩ := f
  cases item with
  | node n => rfl
  | payload text n => cases literal <;> rfl
  | run text s =>
    cases literal with
    | some collecting => rfl
    | none =>
      cases children with
      | nil =>
        cases header with
        | nil => rfl
        | cons n header => exact if_neg (h n List.mem_cons_self)
      | cons last before =>
        by_cases hlast : last.kind = "text"
        · simp [receive, addText, after, collect?, hlast]
        · simp [receive, addText, after, collect?, attach, hlast]

theorem foldl_receive_shift (f : OpenNode) (items : List Item) :
    (items.map (Item.shift bytes lines)).foldl receive (f.shift bytes lines) =
      (items.foldl receive f).shift bytes lines := by
  induction items generalizing f with
  | nil => rfl
  | cons item items ih => rw [List.map_cons, List.foldl_cons, receive_shift, ih, List.foldl_cons]

theorem foldl_receive_after (h : ∀ n ∈ header, n.kind ≠ "text") (f : OpenNode)
    (items : List Item) :
    items.foldl receive (f.after header span) = (items.foldl receive f).after header span := by
  induction items generalizing f with
  | nil => rfl
  | cons item items ih => rw [List.foldl_cons, receive_after h, ih, List.foldl_cons]

theorem finish_shift (f : OpenNode) :
    (f.shift bytes lines).finish = f.finish.shift bytes lines := by
  unfold finish shift
  rw [Node.shift_mk]
  dsimp only
  rw [List.map_reverse]

end OpenNode

/-! ### Shifted builders -/

namespace TreeBuilder

/-- The same builder for the text that an index is of, with nodes in the root before all others. -/
def shift (bytes lines : Nat) (ix : LineIndex) (header : List Node) (b : TreeBuilder) :
    TreeBuilder :=
  ⟨ix, (b.root.shift bytes lines).after header ix.whole, b.stack.map (.shift bytes lines),
    b.flattened⟩

variable {b : TreeBuilder} {ix : LineIndex} {header : List Node}

/-- With one node in the root a builder is one for any other text, shifted onto that node. -/
theorem attach_start (text body : List Char) (n : Node) :
    (start text).attach n = (start body).shift bytes lines (LineIndex.ofChars text) [n] :=
  rfl

theorem checkItem_shift (checked : Bool) (stack : List OpenNode) :
    checkItem checked (stack.map (.shift bytes lines)) =
      (checkItem checked stack).map (.shift bytes lines) := by
  induction stack with
  | nil => rfl
  | cons f stack ih =>
    rw [List.map_cons, checkItem, checkItem, ih]
    change (if f.kind = "listItem" then _ else _) = _
    split <;> rfl

theorem checkAll_shift (marks : List Bool) (stack : List OpenNode) :
    checkAll marks (stack.map (.shift bytes lines)) =
      (checkAll marks stack).map (.shift bytes lines) := by
  induction marks generalizing stack with
  | nil => rfl
  | cons checked marks ih =>
    change checkAll marks (checkItem checked _) = (checkAll marks (checkItem checked _)).map _
    rw [checkItem_shift, ih]

theorem receive_shift (h : ∀ n ∈ header, n.kind ≠ "text") (marks : List Bool)
    (items : List Item) :
    (b.shift bytes lines ix header).receive marks (items.map (.shift bytes lines)) =
      (b.receive marks items).shift bytes lines ix header := by
  unfold receive shift
  dsimp only
  rw [checkAll_shift]
  unfold modify
  cases hstack : checkAll marks b.stack with
  | nil =>
    simp only [List.map_nil]
    rw [OpenNode.foldl_receive_after h, OpenNode.foldl_receive_shift]
  | cons f stack =>
    simp only [List.map_cons]
    rw [OpenNode.foldl_receive_shift]

theorem itemOf?_shift {ix' : LineIndex} {e : Located}
    (hspan : ix'.span (e.first + bytes) (e.last + bytes) =
      (ix.span e.first e.last).shift bytes lines) :
    itemOf? ix' (e.shift bytes) = (itemOf? ix e).map (.shift bytes lines) := by
  obtain ⟨event, first, last⟩ := e
  cases event <;> simp [itemOf?, Event.leaf?, Located.shift, Item.shift, hspan]

theorem openTag_shift (tag : Tag) (span : Span) :
    (b.shift bytes lines ix header).openTag tag (span.shift bytes lines) =
      (b.openTag tag span).shift bytes lines ix header := by
  unfold openTag shift
  dsimp only
  rw [List.length_map]
  split <;> rfl

theorem close_shift (h : ∀ n ∈ header, n.kind ≠ "text") :
    (b.shift bytes lines ix header).close = b.close.shift bytes lines ix header := by
  unfold close
  have hflat : (b.shift bytes lines ix header).flattened = b.flattened := rfl
  rw [hflat]
  split
  · rfl
  · cases hstack : b.stack with
    | nil => simp [shift, hstack]
    | cons f stack =>
      have hshift : (b.shift bytes lines ix header).stack =
          f.shift bytes lines :: stack.map (.shift bytes lines) := by
        simp [shift, hstack]
      rw [hshift]
      dsimp only
      rw [OpenNode.finish_shift]
      exact receive_shift (b := { b with stack }) h [] [.node f.finish]

/-- A shifted builder does with a shifted event what the builder does with the event. -/
theorem step_shift (h : ∀ n ∈ header, n.kind ≠ "text") {e : Located}
    (hspan : ix.span (e.first + bytes) (e.last + bytes) =
      (b.index.span e.first e.last).shift bytes lines) :
    (b.shift bytes lines ix header).step (e.shift bytes) =
      (b.step e).shift bytes lines ix header := by
  by_cases hsingle : e.event.isSingle = true
  · rw [step_single hsingle 0, step_single (e := e.shift bytes) hsingle 0]
    have hitems : (Piece.single (e.shift bytes) hsingle).items ix 0 =
        ((Piece.single e hsingle).items b.index 0).map (.shift bytes lines) := by
      change (itemOf? ix (e.shift bytes)).toList = (itemOf? b.index e).toList.map _
      rw [itemOf?_shift hspan]
      cases itemOf? b.index e <;> rfl
    change (b.shift bytes lines ix header).receive _ (Piece.items ix 0 _) = _
    rw [hitems, receive_shift h]
    rfl
  · obtain ⟨event, first, last⟩ := e
    cases event with
    | start tag =>
      have hspan : ix.span (first + bytes) (last + bytes) =
          (b.index.span first last).shift bytes lines := hspan
      change (b.shift bytes lines ix header).openTag tag
        (ix.span (first + bytes) (last + bytes)) = _
      rw [hspan, openTag_shift]
      rfl
    | end_ tag => exact close_shift h
    | _ => exact absurd rfl hsingle

theorem foldl_step_shift (h : ∀ n ∈ header, n.kind ≠ "text") {es : List Located}
    (hspan : ∀ e ∈ es, ix.span (e.first + bytes) (e.last + bytes) =
      (b.index.span e.first e.last).shift bytes lines) :
    (es.map (.shift bytes)).foldl step (b.shift bytes lines ix header) =
      (es.foldl step b).shift bytes lines ix header := by
  induction es generalizing b with
  | nil => rfl
  | cons e es ih =>
    obtain ⟨he, hes⟩ := List.forall_mem_cons.1 hspan
    rw [List.map_cons, List.foldl_cons, step_shift h he, List.foldl_cons]
    refine ih ?_
    rw [index_step]
    exact hes

theorem closeAll_shift (root : OpenNode) (stack : List OpenNode) (span : Span) :
    closeAll ((root.shift bytes lines).after header span) (stack.map (.shift bytes lines)) =
      ((closeAll root stack).shift bytes lines).after header span := by
  induction stack using closeAll.induct with
  | case1 => simp [closeAll]
  | case2 f =>
    simp only [List.map_cons, List.map_nil, closeAll, OpenNode.finish_shift]
    rfl
  | case3 f g rest ih =>
    rw [closeAll, ← ih]
    simp only [List.map_cons, closeAll, OpenNode.finish_shift]
    rfl

/-- The children of a shifted tree come after those that were there before. -/
theorem children_finish_shift (b : TreeBuilder) :
    (b.shift bytes lines ix header).finish.children =
      header.reverse ++ b.finish.children.map (Node.shift bytes lines) := by
  unfold finish shift
  dsimp only
  rw [closeAll_shift]
  simp [OpenNode.finish, OpenNode.after, OpenNode.shift]

end TreeBuilder

/-! ### The line of the closing mark -/

namespace Markdown

variable {w : Window} {chars : List Char} {header : List Located} {size : Nat}

theorem lineEnd?_of_headerClose? {i stop : Nat} (h : headerClose? w i = some stop) :
    (w.lineEnd? stop).isSome = true := by
  unfold headerClose? at h
  dsimp only at h
  split at h
  · obtain ⟨next, hnext, rfl⟩ := Option.map_eq_some_iff.1 h
    rw [hnext]
    rfl
  · cases h

theorem lineEnd?_of_headerLines? {fuel : Nat} {acc lines : List Chunk} {i stop : Nat}
    (h : headerLines? w fuel acc i = some (lines, stop)) :
    (w.lineEnd? stop).isSome = true := by
  induction fuel generalizing acc i with
  | zero => cases h
  | succ fuel ih =>
    unfold headerLines? at h
    split at h
    · rename_i hclose
      cases h
      exact lineEnd?_of_headerClose? hclose
    · split at h
      · exact ih h
      · cases h

/-- The body of a document starts with the end of a line. -/
theorem blank_after_header? (h : header? chars = some (header, size)) :
    ∀ c ∈ (chars.drop size).head?, isLineEnd c = true := by
  obtain ⟨lines, -, -, hlines, -⟩ := exists_lines_header? h
  have hend := lineEnd?_of_headerLines? hlines
  intro c hc
  have hget : (Window.whole chars.toArray).get? size = some c := by
    have hsome : chars[size]? = some c := by simpa using hc
    obtain ⟨hlt, -⟩ := List.getElem?_eq_some_iff.1 hsome
    simpa [Window.get?, Window.whole, hlt] using hsome
  unfold Window.lineEnd? at hend
  rw [hget] at hend
  split at hend <;> simp_all [isLineEnd]

/-- A text that starts with the end of a line has no header. -/
theorem header?_eq_none (h : ∀ c ∈ chars.head?, isLineEnd c = true) : header? chars = none := by
  have hrun : (Window.whole chars.toArray).skipRun '-' 0 = 0 := by
    unfold Window.skipRun Window.skipWhile
    cases chars with
    | nil => rfl
    | cons c cs =>
      have hc : c ≠ '-' := by
        rintro rfl
        exact absurd (h '-' rfl) (by decide)
      simp [Window.whole, hc]
  unfold header?
  simp [hrun]

end Markdown

/-! ### Documents -/

/-- Every carriage return is followed by a line feed. -/
def ReturnsPaired (cs : List Char) : Prop :=
  ∀ i < cs.length, cs[i]? = some '\r' → cs[i + 1]? = some '\n'

instance (cs : List Char) : Decidable (ReturnsPaired cs) :=
  inferInstanceAs (Decidable (∀ i < cs.length, _))

/-- The range of an event is past the first line of a text. -/
def Markdown.Located.PastFirstLine (cs : List Char) (e : Located) : Prop :=
  let feed := byteCount (cs.takeWhile (· != '\n'))
  feed < e.first ∧ feed < e.last

instance (cs : List Char) (e : Located) : Decidable (e.PastFirstLine cs) :=
  inferInstanceAs (Decidable (_ ∧ _))

namespace Document

variable {text : List Char} {header : List Located} {size : Nat}

/-- The body starts with a line feed, or with a carriage return and a line feed, or is empty. -/
theorem exists_lineFeed_of_header? (h : header? text = some (header, size))
    (hreturns : ReturnsPaired text) (hbody : text.drop size ≠ []) :
    ∃ rest, text.drop size =
      (text.drop size).takeWhile (· != '\n') ++ '\n' :: rest := by
  have hblank := blank_after_header? h
  cases hdrop : text.drop size with
  | nil => exact absurd hdrop hbody
  | cons c rest =>
    rw [hdrop] at hblank
    have hc := hblank c rfl
    simp only [isLineEnd, Bool.or_eq_true, beq_iff_eq] at hc
    rcases hc with rfl | rfl
    · exact ⟨rest, rfl⟩
    · have hfirst : text[size]? = some '\r' := by
        rw [← List.head?_drop, hdrop]
        rfl
      have hsecond : text[size + 1]? = some '\n' :=
        hreturns size (List.getElem?_eq_some_iff.1 hfirst).1 hfirst
      have hrest : rest.head? = some '\n' := by
        rw [← hsecond, ← List.head?_drop, ← List.tail_drop, hdrop, List.tail_cons]
      obtain ⟨rest', rfl⟩ := List.head?_eq_some_iff.1 hrest
      exact ⟨rest', rfl⟩

theorem markdown_nil : Markdown.events [] = [] := by
  decide +kernel

/-- The spans of the body are moved as a whole. -/
theorem span_shift_of_header? (h : header? text = some (header, size))
    (hreturns : ReturnsPaired text)
    (hparser : ∀ e ∈ Markdown.events (text.drop size), e.PastFirstLine (text.drop size)) :
    ∀ e ∈ Markdown.events (text.drop size),
      (LineIndex.ofChars text).span (e.first + byteCount (text.take size))
          (e.last + byteCount (text.take size)) =
        ((LineIndex.ofChars (text.drop size)).span e.first e.last).shift
          (byteCount (text.take size)) ((text.take size).count '\n') := by
  intro e he
  have hbody : text.drop size ≠ [] := by
    intro hnil
    rw [hnil, markdown_nil] at he
    exact absurd he List.not_mem_nil
  obtain ⟨rest, hrest⟩ := exists_lineFeed_of_header? h hreturns hbody
  have hdisplaced := LineIndex.displaced_append (text.take size)
    ((text.drop size).takeWhile (· != '\n')) rest
  rw [← hrest, List.take_append_drop] at hdisplaced
  obtain ⟨hfirst, hlast⟩ := hparser e he
  exact hdisplaced.span hfirst hlast

/-- **A header only shifts the body.**  The nodes after that of the header are the nodes of the body
alone, moved by the bytes and the lines of the header. -/
theorem header_shifts_body {text : String} {header : List Located} {size : Nat}
    (h : header? text.toList = some (header, size)) (hreturns : ReturnsPaired text.toList)
    (hparser : ∀ e ∈ Markdown.events (text.toList.drop size),
      e.PastFirstLine (text.toList.drop size)) :
    ∃ yaml, yaml.kind = metadataKind ∧ (parse text).root.children = yaml ::
      (parse (String.ofList (text.toList.drop size))).root.children.map
        (Node.shift (byteCount (text.toList.take size)) ((text.toList.take size).count '\n')) := by
  generalize hbody : text.toList.drop size = body at hparser ⊢
  obtain ⟨yaml, hkind, hfold⟩ : ∃ yaml : Node, yaml.kind = metadataKind ∧
      header.foldl TreeBuilder.step (TreeBuilder.start text.toList) =
        (TreeBuilder.start text.toList).attach yaml := by
    obtain ⟨span, raw, hfold⟩ := TreeBuilder.exists_foldl_header text.toList h
    exact ⟨_, rfl, hfold⟩
  have hyaml : ∀ n ∈ [yaml], n.kind ≠ "text" := by
    intro n hn
    rw [List.mem_singleton.1 hn, hkind]
    decide
  have hnone : header? body = none := by
    rw [← hbody]
    exact header?_eq_none (blank_after_header? h)
  have hspan := span_shift_of_header? h hreturns (hbody ▸ hparser)
  rw [hbody] at hspan
  have hevents : events text.toList = header ++
      (Markdown.events body).map (·.shift (byteCount (text.toList.take size))) := by
    simp only [events, h, hbody]
  have hevents' : events body = Markdown.events body := by
    simp only [events, hnone]
  refine ⟨yaml, hkind, ?_⟩
  unfold parse ofChars TreeBuilder.build
  dsimp only
  -- after the header the builder is one for the body, shifted onto the node of the header
  rw [String.toList_ofList, hevents, hevents', List.foldl_append, hfold,
    TreeBuilder.attach_start text.toList body yaml,
    TreeBuilder.foldl_step_shift (b := TreeBuilder.start body) hyaml hspan,
    TreeBuilder.children_finish_shift, List.reverse_singleton, List.singleton_append]

/-- A heading after a header of three lines. -/
theorem title_shifted_by_header :
    let text := "---\r\na: 1\r\n---\r\n\r\n# T\r\n"
    (header? text.toList).map (·.2) = some 14 ∧ ReturnsPaired text.toList ∧
      (∀ e ∈ Markdown.events (text.toList.drop 14), e.PastFirstLine (text.toList.drop 14)) ∧
      ∃ yaml, yaml.kind = metadataKind ∧ (parse text).root.children =
        yaml :: (parse "\r\n\r\n# T\r\n").root.children.map (Node.shift 14 2) := by
  intro text
  have hheader : (header? text.toList).map (·.2) = some 14 := by decide +kernel
  have hreturns : ReturnsPaired text.toList := by decide +kernel
  have hparser : ∀ e ∈ Markdown.events (text.toList.drop 14),
      e.PastFirstLine (text.toList.drop 14) := by decide +kernel
  have hbytes : byteCount (text.toList.take 14) = 14 := by decide +kernel
  have hlines : (text.toList.take 14).count '\n' = 2 := by decide +kernel
  have hbody : String.ofList (text.toList.drop 14) = "\r\n\r\n# T\r\n" := by decide +kernel
  refine ⟨hheader, hreturns, hparser, ?_⟩
  obtain ⟨⟨header, size⟩, h, hsize⟩ := Option.map_eq_some_iff.1 hheader
  have hsize : size = 14 := hsize
  subst hsize
  have hshift := header_shifts_body h hreturns hparser
  rwa [hbytes, hlines, hbody] at hshift

end Document

end DocSchema
