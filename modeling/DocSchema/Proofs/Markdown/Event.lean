/-
  DocSchema/Proofs/Markdown/Event.lean
  ====================================
  **The constructs that the events of a text open.**

  What is written for a regular block structure opens regular constructs only
  (`Tag.Regular`): headings of six levels, lists that start with a number of at most nine digits,
  and no header, which only the start of a document can have (`regular_events`).
-/
import DocSchema.Markdown.Event
import DocSchema.Proofs.Markdown.Block

namespace DocSchema.Markdown

/-! ### Regular events -/

def Tag.Regular : Tag → Prop
  | .heading level => 1 ≤ level ∧ level ≤ 6
  | .list (some start) => start < 10 ^ 9
  | .metadataBlock => False
  | _ => True

/-- A construct that an event opens is regular. -/
def Event.Regular (event : Event) : Prop :=
  ∀ tag, event = .start tag → tag.Regular

namespace Output

def Regular (out : Output) : Prop :=
  ∀ e ∈ out.events, e.event.Regular

variable {out : Output}

theorem Regular.push {event : Event} (h : out.Regular) (hevent : event.Regular) (first last : Nat) :
    (out.push event first last).Regular := by
  intro e he
  rcases Array.mem_push.1 he with he | rfl
  · exact h e he
  · exact hevent

theorem Regular.wrap {tag : Tag} {content : Output → Output} (h : out.Regular)
    (htag : tag.Regular) (hcontent : ∀ out : Output, out.Regular → (content out).Regular)
    (first last : Nat) : (out.wrap tag first last content).Regular := by
  have hstart : (Event.start tag).Regular := by
    intro tag' heq
    cases heq
    exact htag
  have hend : (Event.end_ tag).Regular := nofun
  exact (hcontent _ (h.push hstart first last)).push hend first last

end Output

/-! ### Inline content -/

/-- What writes a block keeps events regular. -/
def BlockWriter.Regular (write : BlockWriter) : Prop :=
  ∀ first out, Output.Regular out → (write first out).Regular

section Inline

variable {w : Window} {blocks : List BlockWriter}

theorem Stress.regular_tag (kind : Stress) : kind.tag.Regular := by
  cases kind <;> trivial

mutual

theorem regular_writeInline (hblocks : ∀ write ∈ blocks, BlockWriter.Regular write) :
    ∀ (x : Inline) {out : Output}, out.Regular → (writeInline w blocks x out).Regular
  | .text .., _, h | .replaced .., _, h | .softBreak .., _, h | .hardBreak .., _, h
  | .code .., _, h | .html .., _, h | .delimiter .., _, h | .footnote .., _, h
  | .taskMarker .., _, h => by
    rw [writeInline]
    refine h.push ?_ _ _
    exact nofun
  | .stress kind a b xs, out, h => by
    rw [writeInline]
    exact h.wrap kind.regular_tag (fun _ => regular_writeInlines hblocks xs) a b
  | .link image a b destination title xs, out, h => by
    rw [writeInline]
    have htag : Tag.Regular (if image then .image (String.ofList destination) (String.ofList title)
        else .link (String.ofList destination) (String.ofList title)) := by
      cases image <;> trivial
    exact h.wrap htag (fun _ => regular_writeInlines hblocks xs) a b
  | .block a _ index, out, h => by
    rw [writeInline]
    split
    · rename_i write hwrite
      exact hblocks write (List.mem_of_getElem? hwrite) a out h
    · exact h

theorem regular_writeInlines (hblocks : ∀ write ∈ blocks, BlockWriter.Regular write) :
    ∀ (xs : List Inline) {out : Output}, out.Regular → (writeInlines w blocks xs out).Regular
  | [], _, h => h
  | x :: xs, _, h => by
    rw [writeInlines]
    exact regular_writeInlines hblocks xs (regular_writeInline hblocks x h)

end

theorem regular_writeContent (hblocks : ∀ write ∈ blocks, BlockWriter.Regular write)
    (s : Surroundings) (inTable : Bool) (last : Nat) (tokens : List Token) {out : Output}
    (h : out.Regular) : (writeContent s inTable last blocks tokens out).Regular := by
  unfold writeContent
  dsimp only
  have hplain := regular_writeInlines (w := s.window) hblocks
    ((tokens.span fun t => !t.kind.isOpen).1.map Token.asInline) h
  split
  · exact hplain
  · exact regular_writeInlines hblocks _ hplain

end Inline

/-! ### Blocks -/

section Blocks

variable {s : Surroundings} {out : Output}

theorem regular_nil : ∀ write ∈ ([] : List BlockWriter), BlockWriter.Regular write :=
  fun _ hw => absurd hw List.not_mem_nil

theorem regular_writeChunks (w : Window) {make : String → Event}
    (hmake : ∀ text, (make text).Regular) (chunks : List Chunk) (h : out.Regular) :
    (writeChunks w make chunks out).Regular := by
  unfold writeChunks
  induction chunks generalizing out with
  | nil => exact h
  | cons c chunks ih =>
    rw [List.foldl_cons]
    refine ih ?_
    split
    · refine h.push ?_ _ _
      exact nofun
    · exact h.push (hmake _) _ _

theorem regular_writeRow {tag : Tag} (htag : tag.Regular) (row : Row) (h : out.Regular) :
    (writeRow s tag row out).Regular := by
  refine h.wrap htag (fun out hout => ?_) _ _
  induction row.cells generalizing out with
  | nil => exact hout
  | cons c cells ih =>
    have hcell : Tag.tableCell.Regular := trivial
    rw [List.foldl_cons]
    exact ih _ (hout.wrap hcell (fun _ => regular_writeContent regular_nil _ _ _ _) _ _)

theorem regular_writeLeaf {leaf : Leaf} (hleaf : leaf.Regular) (first last : Nat)
    (h : out.Regular) : (writeLeaf s first last leaf out).Regular := by
  have htext : ∀ text, (Event.text text).Regular := fun _ => nofun
  have hhtml : ∀ text, (Event.html text).Regular := fun _ => nofun
  have hcontent (tokens : List Token) : ∀ out : Output, out.Regular →
      (writeContent s false last [] tokens out).Regular :=
    fun _ => regular_writeContent regular_nil _ _ _ _
  cases leaf with
  | paragraph content =>
    have htag : Tag.paragraph.Regular := trivial
    exact h.wrap htag (hcontent content) _ _
  | heading level content =>
    have htag : (Tag.heading level).Regular := hleaf
    exact h.wrap htag (hcontent content) _ _
  | code info lines =>
    have htag : (Tag.codeBlock (info.map String.ofList)).Regular := trivial
    exact h.wrap htag (fun _ => regular_writeChunks _ htext _) _ _
  | html lines =>
    have htag : Tag.htmlBlock.Regular := trivial
    exact h.wrap htag (fun _ => regular_writeChunks _ hhtml _) _ _
  | rule =>
    refine h.push ?_ _ _
    exact nofun
  | table alignments head rows =>
    have htag : (Tag.table alignments).Regular := trivial
    have hhead : Tag.tableHead.Regular := trivial
    have hrow : Tag.tableRow.Regular := trivial
    refine h.wrap htag (fun out hout => ?_) _ _
    have hrows := regular_writeRow (s := s) hhead head hout
    generalize writeRow s .tableHead head out = out at hrows
    clear hleaf htag
    induction rows generalizing out with
    | nil => exact hrows
    | cons row rows ih => exact ih _ (regular_writeRow hrow row hrows)
  | taskMarker checked =>
    refine h.push ?_ _ _
    exact nofun

theorem Frame.regular_tag {frame : Frame} (h : frame.Regular) : frame.tag.Regular := by
  cases frame with
  | list tight mark start =>
    have hlist (ordered : Bool) : (Tag.list (if ordered then some start else none)).Regular := by
      cases ordered with
      | true => exact h
      | false => trivial
    exact hlist _
  | _ => trivial

theorem regular_writeBlocks {bs : List Block}
    (h : ∀ b ∈ bs, ∀ s, BlockWriter.Regular (writeBlock s b)) (hout : out.Regular) :
    (writeBlocks s bs out).Regular := by
  induction bs generalizing out with
  | nil => exact hout
  | cons b bs ih =>
    obtain ⟨hb, hbs⟩ := List.forall_mem_cons.1 h
    rw [writeBlocks]
    exact ih hbs (hb s b.first out hout)

theorem regular_blockWriters {bs : List Block}
    (h : ∀ b ∈ bs, ∀ s, BlockWriter.Regular (writeBlock s b)) :
    ∀ write ∈ blockWriters s bs, BlockWriter.Regular write := by
  induction bs with
  | nil => exact regular_nil
  | cons b bs ih =>
    obtain ⟨hb, hbs⟩ := List.forall_mem_cons.1 h
    rw [blockWriters]
    exact List.forall_mem_cons.2 ⟨hb s, ih hbs⟩

/-- What is written for a regular block is regular. -/
theorem regular_writeBlock {b : Block} (h : b.Regular) (s : Surroundings) :
    BlockWriter.Regular (writeBlock s b) := by
  induction h generalizing s with
  | leaf h =>
    intro first out hout
    rw [writeBlock]
    exact regular_writeLeaf h _ _ hout
  | container hframe _ ih =>
    intro first out hout
    rw [writeBlock]
    refine hout.wrap (Frame.regular_tag hframe) (fun out hout => ?_) _ _
    split
    · exact regular_writeContent (regular_blockWriters ih) _ _ _ _ hout
    · exact regular_writeBlocks ih hout

end Blocks

/-- The events of every text are regular. -/
theorem regular_events {chars : List Char} {e : Located} (he : e ∈ events chars) :
    e.event.Regular := by
  obtain ⟨x, hx, rfl⟩ := List.mem_map.1 he
  have hread := Outline.regular_read (Window.whole chars.toArray)
  have hblocks : ∀ b ∈ (Outline.read (Window.whole chars.toArray)).blocks.reverse, ∀ s,
      BlockWriter.Regular (writeBlock s b) :=
    fun b hb s => regular_writeBlock (hread.blocks b (List.mem_reverse.1 hb)) s
  have hempty : Output.Regular ⟨#[], max ((byteOffsets chars.toArray).back?.getD 0)
      leastAllowance⟩ :=
    fun e he => absurd he (Array.not_mem_empty e)
  exact regular_writeBlocks hblocks hempty x (Array.mem_toList_iff.1 hx)

/-! ### Headers -/

def Event.IsText (event : Event) : Prop :=
  ∃ text, event = .text text

/-- The characters that a chunk stands for. -/
def Chunk.text (w : Window) (c : Chunk) : List Char :=
  c.replaced.getD (w.slice c.first c.last)

/-- A chunk as an event. -/
def Chunk.located (w : Window) (c : Chunk) : Located :=
  ⟨.text (String.ofList (c.text w)), c.first, c.last⟩

theorem writeChunks_text_cons (w : Window) (c : Chunk) (chunks : List Chunk) (out : Output) :
    writeChunks w .text (c :: chunks) out = writeChunks w .text chunks
      (out.push (c.located w).event c.first c.last) := by
  unfold writeChunks Chunk.located Chunk.text
  rw [List.foldl_cons]
  cases c.replaced <;> rfl

theorem events_writeChunks_text (w : Window) (chunks : List Chunk) (out : Output) :
    (writeChunks w .text chunks out).events.toList =
      out.events.toList ++ chunks.map (Chunk.located w) := by
  induction chunks generalizing out with
  | nil => exact (List.append_nil _).symm
  | cons c chunks ih =>
    rw [writeChunks_text_cons, ih]
    simp [Output.push, Chunk.located]

/-- The events of a header, around those of its chunks. -/
def headerEvents (chars : List Char) (chunks : List Chunk) (size : Nat) : List Located :=
  (Located.mk (.start .metadataBlock) 0 size ::
    chunks.map (Chunk.located (Window.whole chars.toArray)) ++
      [Located.mk (.end_ .metadataBlock) 0 size]).map
        (Located.toBytes (byteOffsets chars.toArray))

/-- What the header that a text opens with is read from, and its events. -/
theorem exists_lines_header? {chars : List Char} {header : List Located} {size : Nat}
    (h : header? chars = some (header, size)) :
    let w := Window.whole chars.toArray
    ∃ lines, w.skipRun '-' 0 = 3 ∧ headerClose? w (w.nextLine 3) = none ∧
      headerLines? w (w.stop + 1) [] (w.nextLine 3) = some (lines, size) ∧
      header = headerEvents chars lines size := by
  unfold header? at h
  dsimp only at h ⊢
  split at h
  · rename_i hopen
    obtain ⟨⟨lines, stop⟩, hlines, heq⟩ := Option.map_eq_some_iff.1 h
    simp only [Bool.and_eq_true, beq_iff_eq, Option.isNone_iff_eq_none] at hopen
    obtain ⟨⟨⟨hafter, -⟩, hclose⟩, -⟩ := hopen
    rw [hafter] at hclose hlines
    cases heq
    refine ⟨lines, hafter, hclose, hlines, congrArg (List.map _) ?_⟩
    have hevents := events_writeChunks_text (Window.whole chars.toArray) lines
      ((Output.mk #[] 0).push (.start .metadataBlock) 0 stop)
    simp only [Output.wrap, Output.push, Array.toList_push] at hevents ⊢
    rw [hevents]
    rfl
  · cases h

/-- The events of a header are its start, text and its end. -/
theorem exists_events_header? {chars : List Char} {header : List Located} {size : Nat}
    (h : header? chars = some (header, size)) :
    ∃ opening texts closing, header = opening :: texts ++ [closing] ∧
      opening.event = .start .metadataBlock ∧ (∀ e ∈ texts, e.event.IsText) ∧
      closing.event = .end_ .metadataBlock := by
  obtain ⟨lines, -, -, -, rfl⟩ := exists_lines_header? h
  rw [headerEvents, List.map_append, List.map_cons]
  refine ⟨_, _, _, rfl, rfl, fun e he => ?_, rfl⟩
  obtain ⟨x, hx, rfl⟩ := List.mem_map.1 he
  obtain ⟨c, -, rfl⟩ := List.mem_map.1 hx
  exact ⟨_, rfl⟩

end DocSchema.Markdown
