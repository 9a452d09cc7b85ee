/-
  DocSchema/Proofs/Markdown/Block.lean
  ====================================
  **The numbers in a block structure.**

  A heading has a level from one to six, and an ordered list starts with a number of at most nine
  digits.  Every step that builds the block structure of a text keeps this of the open containers
  and of the closed blocks (`Outline.Regular`), and so it holds of the whole structure in the end
  (`regular_read`).
-/
import DocSchema.Markdown.Block
import DocSchema.Proofs.Text.Digits

namespace DocSchema.Markdown

open DocSchema.Text

/-! ### Marks -/

namespace Window

/-- What has been passed over is of the kind that was asked for. -/
theorem getElem?_of_skipWhile {w : Window} {p : Char → Bool} {i j : Nat} (hi : i ≤ j)
    (hj : j < w.skipWhile p i) : ∃ c, w.chars[j]? = some c ∧ p c = true := by
  induction i using skipWhile.induct w p with
  | case1 i hstop c hget hp ih =>
    rw [skipWhile, if_pos hstop, hget] at hj
    dsimp only at hj
    rw [if_pos hp] at hj
    by_cases heq : i = j
    · exact ⟨c, heq ▸ hget, hp⟩
    · exact ih (Nat.lt_of_le_of_ne hi heq) hj
  | case2 i hstop c hget hp =>
    rw [skipWhile, if_pos hstop, hget] at hj
    dsimp only at hj
    rw [if_neg hp] at hj
    omega
  | case3 i hstop hget =>
    rw [skipWhile, if_pos hstop, hget] at hj
    dsimp only at hj
    omega
  | case4 i hstop =>
    rw [skipWhile, if_neg hstop] at hj
    omega

theorem of_mem_slice_skipWhile {w : Window} {p : Char → Bool} {i : Nat} {c : Char}
    (h : c ∈ w.slice i (w.skipWhile p i)) : p c = true := by
  unfold slice at h
  obtain ⟨j, hj, rfl⟩ := List.mem_iff_getElem.1 h
  rw [Array.length_toList, Array.size_extract] at hj
  obtain ⟨c, hget, hc⟩ := @getElem?_of_skipWhile w p i (i + j) (Nat.le_add_right _ _) (by omega)
  obtain ⟨hlt, rfl⟩ := Array.getElem?_eq_some_iff.1 hget
  rw [Array.getElem_toList, Array.getElem_extract]
  exact hc

theorem length_slice_le (w : Window) (first last : Nat) :
    (w.slice first last).length ≤ last - first := by
  unfold slice
  rw [Array.length_toList, Array.size_extract]
  omega

end Window

theorem headingLevel?_range {w : Window} {i level : Nat} (h : headingLevel? w i = some level) :
    1 ≤ level ∧ level ≤ 6 := by
  unfold headingLevel? at h
  obtain ⟨hcond, heq⟩ := Option.ite_none_right_eq_some.1 h
  cases heq
  obtain ⟨hlow, hhigh⟩ := Bool.and_eq_true_iff.1 hcond
  exact ⟨of_decide_eq_true (Bool.and_eq_true_iff.1 hlow).2, of_decide_eq_true hhigh⟩

theorem underline?_range {w : Window} {i level next : Nat}
    (h : underline? w i = some (level, next)) : 1 ≤ level ∧ level ≤ 6 := by
  unfold underline? at h
  split at h
  · obtain ⟨_, -, heq⟩ := Option.map_eq_some_iff.1 h
    cases heq
    decide
  · obtain ⟨_, -, heq⟩ := Option.map_eq_some_iff.1 h
    cases heq
    decide
  · cases h

theorem number_of_confirm {w : Window} {c after : Cursor} {ch mark : Char}
    {number indent n indent' : Nat}
    (h : openItem?.confirm w c ch number indent = some (after, mark, n, indent')) :
    n = number := by
  unfold openItem?.confirm at h
  dsimp only at h
  split at h
  · cases h
  · split at h
    · cases h
      rfl
    · split at h <;> cases h <;> rfl

/-- The number of an item has at most nine digits. -/
theorem number_of_openItem? {w : Window} {outer : Nat} {c after : Cursor} {mark : Char}
    {n indent : Nat} (h : openItem? w outer c = some (after, mark, n, indent)) : n < 10 ^ 9 := by
  unfold openItem? at h
  split at h
  · cases h
  · split at h
    · split at h
      · cases h
      · rw [number_of_confirm h]
        decide
    · split at h
      · dsimp only at h
        split at h
        · cases h
        · rename_i hlength
          split at h
          · split at h
            · rw [number_of_confirm h]
              have hdigits : ∀ d ∈ w.slice c.pos (w.skipWhile isDigit c.pos), isDigit d = true :=
                fun d hd => Window.of_mem_slice_skipWhile hd
              have hle := w.length_slice_le c.pos (w.skipWhile isDigit c.pos)
              have hpow := Nat.pow_le_pow_right (n := 10) (by decide)
                (Nat.le_trans hle (Nat.le_of_not_lt hlength))
              have hbound := decimalFrom_lt hdigits 0
              unfold decimalFrom at hbound
              omega
            · cases h
          · cases h
      · cases h

/-! ### Regular blocks -/

/-- The number of a list has at most nine digits. -/
def Frame.Regular : Frame → Prop
  | .list _ _ start => start < 10 ^ 9
  | _ => True

/-- The level of a heading is one of six. -/
def Leaf.Regular : Leaf → Prop
  | .heading level _ => 1 ≤ level ∧ level ≤ 6
  | _ => True

inductive Block.Regular : Block → Prop
  | leaf {first last : Nat} {leaf : Leaf} (h : leaf.Regular) : Regular (.leaf first last leaf)
  | container {first last : Nat} {frame : Frame} {children : List Block} (h : frame.Regular)
      (hchildren : ∀ b ∈ children, Regular b) : Regular (.container first last frame children)

/-- An open container with regular blocks in it. -/
structure OpenBlock.Regular (b : OpenBlock) : Prop where
  frame : b.frame.Regular
  children : ∀ c ∈ b.children, c.Regular

namespace Outline

/-- All blocks, open or closed, are regular. -/
structure Regular (o : Outline) : Prop where
  spine : ∀ b ∈ o.spine, b.Regular
  blocks : ∀ b ∈ o.blocks, b.Regular

variable {o : Outline} {b : Block} {frame : Frame} {w : Window}

theorem regular_empty : Regular {} where
  spine _ h := absurd h List.not_mem_nil
  blocks _ h := absurd h List.not_mem_nil

/-- Only the containers and the closed blocks count. -/
theorem Regular.of_eq {o' : Outline} (h : o.Regular) (hspine : o'.spine = o.spine)
    (hblocks : o'.blocks = o.blocks) : o'.Regular where
  spine := hspine ▸ h.spine
  blocks := hblocks ▸ h.blocks

theorem Regular.append (h : o.Regular) (hb : b.Regular) : (o.append b).Regular := by
  unfold Outline.append
  split
  · rename_i top rest hspine
    obtain ⟨htop, hrest⟩ := List.forall_mem_cons.1 (hspine ▸ h.spine)
    exact ⟨List.forall_mem_cons.2
      ⟨⟨htop.frame, List.forall_mem_cons.2 ⟨hb, htop.children⟩⟩, hrest⟩, h.blocks⟩
  · exact ⟨h.spine, List.forall_mem_cons.2 ⟨hb, h.blocks⟩⟩

theorem Regular.appendLeaf {leaf : Leaf} (h : o.Regular) (hleaf : leaf.Regular)
    (first last : Nat) : (o.appendLeaf first last leaf).Regular :=
  h.append (.leaf hleaf)

theorem Regular.push (h : o.Regular) (hframe : frame.Regular) (first : Nat) :
    (o.push first frame).Regular :=
  ⟨List.forall_mem_cons.2 ⟨⟨hframe, fun _ hc => absurd hc List.not_mem_nil⟩, h.spine⟩, h.blocks⟩

theorem Regular.pop (h : o.Regular) (last : Nat) : (o.pop last).Regular := by
  unfold Outline.pop
  split
  · exact h
  · rename_i top rest hspine
    obtain ⟨htop, hrest⟩ := List.forall_mem_cons.1 (hspine ▸ h.spine)
    have hclosed : Block.Regular (.container top.first last top.frame top.children.reverse) :=
      .container htop.frame fun c hc => htop.children c (List.mem_reverse.1 hc)
    have hrest : Regular { o with spine := rest } := ⟨hrest, h.blocks⟩
    dsimp only
    split
    · exact (hrest.append hclosed).of_eq rfl rfl
    · exact hrest.append hclosed

theorem Regular.popTo (h : o.Regular) (size last : Nat) : (o.popTo size last).Regular := by
  unfold Outline.popTo
  induction o.spine.length - size with
  | zero => exact h
  | succ n ih => exact ih.pop last

theorem Regular.finishEmptyItem (h : o.Regular) : o.finishEmptyItem.Regular := by
  unfold Outline.finishEmptyItem
  dsimp only
  split
  · exact (h.pop _).of_eq rfl rfl
  · exact h.of_eq rfl rfl

theorem regular_loosen {b : OpenBlock} (h : b.Regular) : (loosen b).Regular := by
  unfold loosen
  split
  · rename_i hframe
    have hregular := h.frame
    rw [hframe] at hregular
    exact ⟨hregular, h.children⟩
  · exact h

theorem regular_loosen_second {top parent : OpenBlock} {rest : List OpenBlock}
    (h : ∀ b ∈ top :: parent :: rest, b.Regular) :
    ∀ b ∈ top :: loosen parent :: rest, b.Regular := by
  obtain ⟨htop, hrest⟩ := List.forall_mem_cons.1 h
  obtain ⟨hparent, hrest⟩ := List.forall_mem_cons.1 hrest
  exact List.forall_mem_cons.2 ⟨htop, List.forall_mem_cons.2 ⟨regular_loosen hparent, hrest⟩⟩

theorem Regular.finishList (h : o.Regular) (last : Nat) : (o.finishList last).Regular := by
  unfold Outline.finishList
  dsimp only
  have hempty := h.finishEmptyItem
  split
  · have hclosed := hempty.pop last
    split
    · refine ⟨?_, hclosed.blocks⟩
      dsimp only
      split
      · rename_i hspine
        exact regular_loosen_second (hspine ▸ hclosed.spine)
      · exact hclosed.spine
    · exact hclosed
  · split
    · refine ⟨?_, hempty.blocks⟩
      dsimp only
      split
      · rename_i hspine
        exact regular_loosen_second (hspine ▸ hempty.spine)
      · exact hempty.spine
    · exact hempty

theorem Regular.continueList {start : Nat} (h : o.Regular) (first : Nat) (mark : Char)
    (hstart : start < 10 ^ 9) : (o.continueList first mark start).Regular := by
  unfold Outline.continueList
  dsimp only
  have hempty := h.finishEmptyItem
  generalize o.finishEmptyItem = o at hempty
  have hlist : (Frame.list true mark start).Regular := hstart
  refine iteInduction (fun _ => ?_) fun _ => ?_
  · -- the same list goes on
    refine iteInduction (fun _ => ⟨?_, hempty.blocks⟩) fun _ => hempty
    dsimp only
    split
    · rename_i top rest hspine
      obtain ⟨htop, hrest⟩ := List.forall_mem_cons.1 (hspine ▸ hempty.spine)
      exact List.forall_mem_cons.2 ⟨regular_loosen htop, hrest⟩
    · exact fun _ hb => absurd hb List.not_mem_nil
  · refine Regular.of_eq (Regular.push ?_ hlist first) rfl rfl
    exact iteInduction (fun _ => hempty) fun _ => hempty.finishList first

theorem Regular.noteBlank (h : o.Regular) : o.noteBlank.Regular := by
  unfold Outline.noteBlank
  split
  · rename_i top rest hspine
    obtain ⟨htop, hrest⟩ := List.forall_mem_cons.1 (hspine ▸ h.spine)
    split
    · exact h
    · split
      · exact ⟨List.forall_mem_cons.2 ⟨⟨trivial, htop.children⟩, hrest⟩, h.blocks⟩
      · exact h.of_eq rfl rfl
    · exact h.of_eq rfl rfl
  · exact h.of_eq rfl rfl

/-! ### Lines -/

theorem Regular.openFootnote? {i : Nat} {r : Outline × Nat} (h : o.Regular)
    (hopen : o.openFootnote? w i = some r) : r.1.Regular := by
  unfold Outline.openFootnote? at hopen
  split at hopen
  · split at hopen
    · rename_i stop label hlabel
      split at hopen
      · dsimp only at hopen
        cases hopen
        have hlist := h.finishList i
        have hframe : (Frame.footnote label).Regular := trivial
        refine Regular.of_eq (Regular.push ?_ hframe i) rfl rfl
        split
        · exact hlist.pop i
        · exact hlist
      · cases hopen
    · cases hopen
  · cases hopen

end Outline

/-- What has been opened is regular. -/
def Opened.Regular : Opened → Prop
  | .blank o _ => o.Regular
  | .content o _ _ => o.Regular

namespace Outline

variable {o : Outline} {w : Window}

theorem Regular.openContainers (h : o.Regular) (fuel start : Nat) (c : Cursor) :
    (openContainers w fuel o start c).Regular := by
  induction fuel generalizing o start c with
  | zero => exact h
  | succ fuel ih =>
    unfold Markdown.openContainers
    dsimp only
    split
    · exact h
    · split
      · rename_i r hfootnote
        exact ih (h.openFootnote? hfootnote) _ _
      · split
        · rename_i after mark number indent hitem
          have hframe : (Frame.item indent).Regular := trivial
          have hitem := (h.continueList ((c.indentUpTo w 4).2.pos - (c.indentUpTo w 4).1) mark
            (number_of_openItem? hitem)).push hframe
              ((c.indentUpTo w 4).2.pos - (c.indentUpTo w 4).1)
          split
          · exact hitem.of_eq rfl rfl
          · split
            · split
              · refine Regular.of_eq (Regular.appendLeaf hitem ?_ _ _) rfl rfl
                trivial
              · refine ih ?_ _ _
                exact hitem.of_eq rfl rfl
            · exact ih hitem _ _
        · split
          · have hframe : Frame.quote.Regular := trivial
            exact ih ((h.finishList start).push hframe _) _ _
          · exact h

theorem Regular.readReferences (h : o.Regular) (ks : List Container) (fuel start i : Nat) :
    (Outline.readReferences w ks fuel o start i).1.Regular := by
  induction fuel generalizing o start i with
  | zero => exact h
  | succ fuel ih =>
    unfold Outline.readReferences
    split
    · exact h
    · rename_i last key target hreference
      have hlinks : Regular { o with links := (key, target) :: o.links } := h.of_eq rfl rfl
      dsimp only
      split
      · exact hlinks.finishList start
      · split
        · exact hlinks.finishList start
        · exact ih hlinks _ _

theorem regular_paragraphLines (ks : List Container) (start fuel : Nat) (tokens : List Token)
    (i : Nat) : (paragraphLines w ks start fuel tokens i).leaf.Regular := by
  induction fuel generalizing tokens i with
  | zero => trivial
  | succ fuel ih =>
    unfold paragraphLines
    dsimp only
    split
    · trivial
    · split
      · rename_i level last hunderline
        obtain ⟨-, hunderline⟩ := Option.ite_none_right_eq_some.1 hunderline
        exact underline?_range hunderline
      · exact iteInduction (motive := fun t : TextBlock => t.leaf.Regular) (fun _ => trivial)
          fun _ => ih _ _

theorem Regular.readText (h : o.Regular) (ks : List Container) (start i : Nat) :
    (o.readText w ks start i).1.Regular := by
  have hreferences := h.readReferences (w := w) ks (w.stop - i + 2) start i
  unfold Outline.readText
  dsimp only
  split
  · rename_i o' next heq
    rw [heq] at hreferences
    exact hreferences
  · rename_i o' i' heq
    rw [heq] at hreferences
    exact ((hreferences.finishList i').appendLeaf (regular_paragraphLines _ _ _ _ _) _ _).of_eq
      rfl rfl

theorem Regular.readContent (h : o.Regular) (start : Nat) (c : Cursor) :
    (o.readContent w start c).1.Regular := by
  have hleaf (leaf : Leaf) (hregular : leaf.Regular) (first last : Nat) :
      ((o.finishList start).appendLeaf first last leaf).Regular :=
    (h.finishList start).appendLeaf hregular first last
  unfold Outline.readContent
  dsimp only
  split
  · exact (hleaf (.code none _) trivial _ _).of_eq rfl rfl
  · split
    · exact hleaf (.html _) trivial _ _
    · split
      · exact hleaf .rule trivial _ _
      · split
        · rename_i level hlevel
          refine hleaf _ ?_ _ _
          unfold headingLine
          dsimp only
          split
          · exact headingLevel?_range hlevel
          · exact headingLevel?_range hlevel
        · split
          · exact hleaf (.code (some _) _) trivial _ _
          · exact h.readText _ _ _

theorem Regular.readBlock (h : o.Regular) (start : Nat) : (o.readBlock w start).1.Regular := by
  unfold Outline.readBlock
  dsimp only
  have hopened := (h.popTo (matchContainers w o.containers (Cursor.start start)).1 start).openContainers
    (w := w) (w.stop - start + 1) start (matchContainers w o.containers (Cursor.start start)).2
  split
  · rename_i o' next heq
    rw [heq] at hopened
    exact hopened
  · rename_i o' start' c heq
    rw [heq] at hopened
    split
    · exact Regular.noteBlank hopened
    · exact Regular.readContent hopened _ _

theorem Regular.readBlocks (h : o.Regular) (fuel i : Nat) :
    (Outline.readBlocks w fuel o i).Regular := by
  induction fuel generalizing o i with
  | zero => exact h.popTo 0 i
  | succ fuel ih =>
    unfold Outline.readBlocks
    split
    · exact ih (h.readBlock i) _
    · exact h.popTo 0 i

/-- The block structure of every text is regular. -/
theorem regular_read (w : Window) : (Outline.read w).Regular :=
  regular_empty.readBlocks _ _

end Outline

end DocSchema.Markdown
