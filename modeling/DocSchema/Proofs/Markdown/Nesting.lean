/-
  DocSchema/Proofs/Markdown/Nesting.lean
  ======================================
  **The events of every document are well-nested.**

  A construct is written as its start, its content and its end, so that it leaves what is open as it
  was.  A literal block is written around lines of text, and around nothing else.  Both are said of
  what a writer adds to the events so far (`Balanced`, `Output.Grows`), and they hold of whole
  documents (`wellNested_events`, `blocksHoldText_events`).
-/
import DocSchema.Proofs.Document.Conservation
import DocSchema.Proofs.Markdown.Event

namespace DocSchema.Markdown

/-! ### Balanced events -/

/-- Events that leave what is open as it was, and literal blocks among them hold text. -/
structure Balanced (xs : List Located) : Prop where
  closes : ∀ outer es, closesAll outer (xs ++ es) = closesAll outer es
  blocks : ∀ es, blocksHoldText false (xs ++ es) = blocksHoldText false es

section Lists

variable {xs ys : List Located} {e : Located} {tag : Tag} {first last first' last' : Nat}

theorem balanced_nil : Balanced [] :=
  ⟨fun _ _ => rfl, fun _ => rfl⟩

theorem Balanced.append (hx : Balanced xs) (hy : Balanced ys) : Balanced (xs ++ ys) where
  closes outer es := by rw [List.append_assoc, hx.closes, hy.closes]
  blocks es := by rw [List.append_assoc, hx.blocks, hy.blocks]

theorem closesAll_cons_of_isSingle (h : e.event.isSingle = true) (outer : List Tag)
    (es : List Located) : closesAll outer (e :: es) = closesAll outer es := by
  obtain ⟨event, first, last⟩ := e
  cases event with
  | start _ | end_ _ => cases h
  | _ => simp [closesAll]

theorem balanced_single (h : e.event.isSingle = true) : Balanced [e] where
  closes := closesAll_cons_of_isSingle h
  blocks es := by
    obtain ⟨event, first, last⟩ := e
    cases event with
    | start _ | end_ _ => cases h
    | _ => rfl

theorem closesAll_wrap (hx : ∀ outer es, closesAll outer (xs ++ es) = closesAll outer es)
    (outer : List Tag) (es : List Located) :
    closesAll outer (⟨.start tag, first, last⟩ :: (xs ++ [⟨.end_ tag, first', last'⟩]) ++ es) =
      closesAll outer es := by
  rw [List.cons_append, List.append_assoc]
  change closesAll (tag :: outer) (xs ++ ⟨.end_ tag, first', last'⟩ :: es) = _
  rw [hx]
  simp [closesAll]

theorem Balanced.wrap (hx : Balanced xs) (htag : tag.isLiteralBlock = false) :
    Balanced (⟨.start tag, first, last⟩ :: (xs ++ [⟨.end_ tag, first', last'⟩])) where
  closes := closesAll_wrap hx.closes
  blocks es := by
    rw [List.cons_append, List.append_assoc]
    change blocksHoldText tag.isLiteralBlock (xs ++ ⟨.end_ tag, first', last'⟩ :: es) = _
    rw [htag, hx.blocks]
    rfl

theorem isSingle_of_payload? (h : e.event.payload?.isSome = true) : e.event.isSingle = true := by
  obtain ⟨event, first, last⟩ := e
  cases event with
  | start _ | end_ _ => cases h
  | _ => rfl

theorem balanced_texts (h : ∀ e ∈ xs, e.event.payload?.isSome = true) : Balanced xs := by
  induction xs with
  | nil => exact balanced_nil
  | cons e xs ih =>
    obtain ⟨he, hxs⟩ := List.forall_mem_cons.1 h
    exact (balanced_single (isSingle_of_payload? he)).append (ih hxs)

theorem balanced_literal (h : ∀ e ∈ xs, e.event.payload?.isSome = true)
    (htag : tag.isLiteralBlock = true) :
    Balanced (⟨.start tag, first, last⟩ :: (xs ++ [⟨.end_ tag, first', last'⟩])) where
  closes := closesAll_wrap (balanced_texts h).closes
  blocks es := by
    have htexts : blocksHoldText true (xs ++ ⟨.end_ tag, first', last'⟩ :: es) =
        blocksHoldText false es := by
      induction xs with
      | nil => rfl
      | cons e xs ih =>
        obtain ⟨he, hxs⟩ := List.forall_mem_cons.1 h
        rw [← ih hxs]
        obtain ⟨event, first, last⟩ := e
        cases event with
        | text _ | code _ | html _ | inlineHtml _ | softBreak => rfl
        | _ => cases he
    rw [List.cons_append, List.append_assoc]
    change blocksHoldText tag.isLiteralBlock (xs ++ ⟨.end_ tag, first', last'⟩ :: es) = _
    rw [htag, htexts]

/-- Ranges do not matter. -/
theorem Balanced.map {g : Located → Located} (h : Balanced xs) (hg : ∀ e, (g e).event = e.event) :
    Balanced (xs.map g) := by
  have hcloses : ∀ outer es, closesAll outer (xs.map g ++ es) = closesAll outer (xs ++ es) := by
    intro outer es
    clear h
    induction xs generalizing outer with
    | nil => rfl
    | cons e xs ih => simp only [List.map_cons, List.cons_append, closesAll, hg, ih]
  have hblocks : ∀ inside es,
      blocksHoldText inside (xs.map g ++ es) = blocksHoldText inside (xs ++ es) := by
    intro inside es
    clear h hcloses
    induction xs generalizing inside with
    | nil => rfl
    | cons e xs ih =>
      cases inside <;>
        simp only [List.map_cons, List.cons_append, blocksHoldText, hg, ih]
  exact ⟨fun outer es => (hcloses outer es).trans (h.closes outer es),
    fun es => (hblocks false es).trans (h.blocks es)⟩

end Lists

/-! ### Output -/

namespace Output

/-- What has been added to the events is balanced. -/
def Grows (out out' : Output) : Prop :=
  ∃ xs, out'.events.toList = out.events.toList ++ xs ∧ Balanced xs

variable {out out' out'' : Output}

theorem Grows.refl (out : Output) : out.Grows out :=
  ⟨[], (List.append_nil _).symm, balanced_nil⟩

theorem Grows.trans (h : out.Grows out') (h' : out'.Grows out'') : out.Grows out'' := by
  obtain ⟨xs, hxs, hx⟩ := h
  obtain ⟨ys, hys, hy⟩ := h'
  exact ⟨xs ++ ys, by rw [hys, hxs, List.append_assoc], hx.append hy⟩

theorem grows_push (out : Output) {event : Event} (h : event.isSingle = true) (first last : Nat) :
    out.Grows (out.push event first last) :=
  ⟨[⟨event, first, last⟩], Array.toList_push, balanced_single h⟩

theorem grows_wrap (out : Output) {tag : Tag} (htag : tag.isLiteralBlock = false)
    {content : Output → Output} (h : ∀ out : Output, out.Grows (content out)) (first last : Nat) :
    out.Grows (out.wrap tag first last content) := by
  obtain ⟨xs, hxs, hx⟩ := h (out.push (.start tag) first last)
  refine ⟨⟨.start tag, first, last⟩ :: (xs ++ [⟨.end_ tag, first, last⟩]), ?_, hx.wrap htag⟩
  simp only [push, Array.toList_push] at hxs
  simp [wrap, push, hxs]

end Output

/-! ### Inline content -/

def BlockWriter.Grows (write : BlockWriter) : Prop :=
  ∀ first out, Output.Grows out (write first out)

section Inline

variable {w : Window} {blocks : List BlockWriter}

theorem Stress.isLiteralBlock_tag (kind : Stress) : kind.tag.isLiteralBlock = false := by
  cases kind <;> rfl

mutual

theorem grows_writeInline (hblocks : ∀ write ∈ blocks, BlockWriter.Grows write) :
    ∀ (x : Inline) (out : Output), out.Grows (writeInline w blocks x out)
  | .text .., out | .replaced .., out | .softBreak .., out | .hardBreak .., out
  | .code .., out | .html .., out | .delimiter .., out | .footnote .., out
  | .taskMarker .., out => by
    rw [writeInline]
    exact out.grows_push rfl _ _
  | .stress kind a b xs, out => by
    rw [writeInline]
    exact out.grows_wrap kind.isLiteralBlock_tag (grows_writeInlines hblocks xs) a b
  | .link image a b destination title xs, out => by
    rw [writeInline]
    have htag : Tag.isLiteralBlock (if image then
        .image (String.ofList destination) (String.ofList title)
        else .link (String.ofList destination) (String.ofList title)) = false := by
      cases image <;> rfl
    exact out.grows_wrap htag (grows_writeInlines hblocks xs) a b
  | .block a _ index, out => by
    rw [writeInline]
    split
    · rename_i write hwrite
      exact hblocks write (List.mem_of_getElem? hwrite) a out
    · exact .refl out

theorem grows_writeInlines (hblocks : ∀ write ∈ blocks, BlockWriter.Grows write) :
    ∀ (xs : List Inline) (out : Output), out.Grows (writeInlines w blocks xs out)
  | [], out => .refl out
  | x :: xs, out => by
    rw [writeInlines]
    exact (grows_writeInline hblocks x out).trans (grows_writeInlines hblocks xs _)

end

theorem grows_writeContent (hblocks : ∀ write ∈ blocks, BlockWriter.Grows write)
    (s : Surroundings) (inTable : Bool) (last : Nat) (tokens : List Token) (out : Output) :
    out.Grows (writeContent s inTable last blocks tokens out) := by
  unfold writeContent
  dsimp only
  have hplain := grows_writeInlines (w := s.window) hblocks
    ((tokens.span fun t => !t.kind.isOpen).1.map Token.asInline) out
  split
  · exact hplain
  · exact hplain.trans (grows_writeInlines hblocks _ _)

end Inline

/-! ### Blocks -/

section Blocks

variable {s : Surroundings}

theorem grows_nil : ∀ write ∈ ([] : List BlockWriter), BlockWriter.Grows write :=
  fun _ hw => absurd hw List.not_mem_nil

/-- Steps one after another grow the output if each of them does. -/
theorem Output.grows_foldl {α : Type} {f : Output → α → Output}
    (h : ∀ out x, Output.Grows out (f out x)) (xs : List α) (out : Output) :
    out.Grows (xs.foldl f out) := by
  induction xs generalizing out with
  | nil => exact .refl out
  | cons x xs ih => exact (h out x).trans (ih _)

theorem exists_writeChunks (w : Window) {make : String → Event}
    (hmake : ∀ text, (make text).payload?.isSome = true) (chunks : List Chunk) (out : Output) :
    ∃ texts, (writeChunks w make chunks out).events.toList = out.events.toList ++ texts ∧
      ∀ e ∈ texts, e.event.payload?.isSome = true := by
  unfold writeChunks
  induction chunks generalizing out with
  | nil => exact ⟨[], (List.append_nil _).symm, fun _ he => absurd he List.not_mem_nil⟩
  | cons c chunks ih =>
    have hpush : ∀ event : Event, event.payload?.isSome = true → ∃ texts,
        (writeChunks w make chunks (out.push event c.first c.last)).events.toList =
          out.events.toList ++ texts ∧ ∀ e ∈ texts, e.event.payload?.isSome = true := by
      intro event hevent
      obtain ⟨texts, heq, htexts⟩ := ih (out.push event c.first c.last)
      refine ⟨⟨event, c.first, c.last⟩ :: texts, ?_, List.forall_mem_cons.2 ⟨hevent, htexts⟩⟩
      unfold writeChunks
      rw [heq]
      simp [Output.push]
    rw [List.foldl_cons]
    split
    · exact hpush _ rfl
    · exact hpush _ (hmake _)

theorem grows_wrapChunks (w : Window) {tag : Tag} (htag : tag.isLiteralBlock = true)
    {make : String → Event} (hmake : ∀ text, (make text).payload?.isSome = true)
    (chunks : List Chunk) (first last : Nat) (out : Output) :
    out.Grows (out.wrap tag first last (writeChunks w make chunks)) := by
  obtain ⟨texts, heq, htexts⟩ :=
    exists_writeChunks w hmake chunks (out.push (.start tag) first last)
  refine ⟨⟨.start tag, first, last⟩ :: (texts ++ [⟨.end_ tag, first, last⟩]), ?_,
    balanced_literal htexts htag⟩
  simp only [Output.push, Array.toList_push] at heq
  simp [Output.wrap, Output.push, heq]

theorem grows_writeRow {tag : Tag} (htag : tag.isLiteralBlock = false) (row : Row) (out : Output) :
    out.Grows (writeRow s tag row out) := by
  have hcell : Tag.tableCell.isLiteralBlock = false := rfl
  refine out.grows_wrap htag (Output.grows_foldl (fun out c => ?_) row.cells) _ _
  exact out.grows_wrap hcell (grows_writeContent grows_nil _ _ _ _) _ _

theorem grows_writeLeaf (first last : Nat) (leaf : Leaf) (out : Output) :
    out.Grows (writeLeaf s first last leaf out) := by
  cases leaf with
  | paragraph content | heading level content =>
    exact out.grows_wrap rfl (grows_writeContent grows_nil _ _ _ _) _ _
  | code info lines => exact grows_wrapChunks _ rfl (fun _ => rfl) _ _ _ _
  | html lines => exact grows_wrapChunks _ rfl (fun _ => rfl) _ _ _ _
  | rule => exact out.grows_push rfl _ _
  | table alignments head rows =>
    have hhead : Tag.tableHead.isLiteralBlock = false := rfl
    have hrow : Tag.tableRow.isLiteralBlock = false := rfl
    refine out.grows_wrap rfl (fun out => ?_) _ _
    exact (grows_writeRow hhead head out).trans
      (Output.grows_foldl (fun out row => grows_writeRow hrow row out) rows _)
  | taskMarker checked => exact out.grows_push rfl _ _

theorem Frame.isLiteralBlock_tag (frame : Frame) : frame.tag.isLiteralBlock = false := by
  cases frame <;> rfl

mutual

theorem grows_writeBlock : ∀ (b : Block) (s : Surroundings), BlockWriter.Grows (writeBlock s b)
  | .leaf _ last leaf, s, first, out => by
    rw [writeBlock]
    exact grows_writeLeaf _ _ _ _
  | .container _ last frame children, s, first, out => by
    rw [writeBlock]
    refine out.grows_wrap frame.isLiteralBlock_tag (fun out => ?_) _ _
    split
    · exact grows_writeContent (grows_blockWriters children _) _ _ _ _ _
    · exact grows_writeBlocks children _ _

theorem grows_writeBlocks : ∀ (bs : List Block) (s : Surroundings) (out : Output),
    out.Grows (writeBlocks s bs out)
  | [], _, out => .refl out
  | b :: bs, s, out => by
    rw [writeBlocks]
    exact (grows_writeBlock b s b.first out).trans (grows_writeBlocks bs s _)

theorem grows_blockWriters : ∀ (bs : List Block) (s : Surroundings),
    ∀ write ∈ blockWriters s bs, BlockWriter.Grows write
  | [], _ => grows_nil
  | b :: bs, s => by
    rw [blockWriters]
    exact List.forall_mem_cons.2 ⟨grows_writeBlock b s, grows_blockWriters bs s⟩

end

end Blocks

/-! ### Documents -/

theorem balanced_events (chars : List Char) : Balanced (events chars) := by
  obtain ⟨xs, hxs, hx⟩ := grows_writeBlocks
    (Outline.read (Window.whole chars.toArray)).blocks.reverse
    ⟨Window.whole chars.toArray, ⟨(Outline.read (Window.whole chars.toArray)).links.reverse,
      (Outline.read (Window.whole chars.toArray)).notes⟩, [], false⟩
    ⟨#[], max ((byteOffsets chars.toArray).back?.getD 0) leastAllowance⟩
  unfold events
  dsimp only
  rw [hxs]
  exact hx.map fun _ => rfl

theorem balanced_header {chars : List Char} {header : List Located} {size : Nat}
    (h : header? chars = some (header, size)) : Balanced header := by
  obtain ⟨⟨_, first, last⟩, texts, ⟨_, first', last'⟩, rfl, rfl, htexts, rfl⟩ :=
    exists_events_header? h
  refine balanced_literal (fun e he => ?_) rfl
  obtain ⟨text, htext⟩ := htexts e he
  rw [htext]
  rfl

end DocSchema.Markdown

namespace DocSchema

open DocSchema.Markdown

theorem Document.balanced_events (text : List Char) : Balanced (Document.events text) := by
  unfold Document.events
  split
  · rename_i header size hheader
    exact (balanced_header hheader).append ((Markdown.balanced_events _).map fun _ => rfl)
  · exact Markdown.balanced_events text

theorem wellNested_events (text : List Char) : WellNested (Document.events text) := by
  have h := (Document.balanced_events text).closes [] []
  rwa [List.append_nil] at h

theorem blocksHoldText_events (text : List Char) :
    blocksHoldText false (Document.events text) = true := by
  have h := (Document.balanced_events text).blocks []
  rwa [List.append_nil] at h

end DocSchema
