/-
  DocSchema/Proofs/Document/Marks.lean
  ====================================
  **Which list item a task list marker marks.**

  A marker belongs to the innermost item that it is in (`ownMarksOf`).  The builder looks for that
  item among its frames, and an item that is too deep has none.  So a list item of the tree has the
  last of the markers that are in no further item with a node (`marks_readForest`): its own, as long
  as no marker is in an item that is too deep (`MarksKept`); else it may have the marker of another
  item, far below it (`exists_mark_of_deep_item`).  Nothing but list items has a mark.
-/
import DocSchema.Proofs.Document.Forest

namespace DocSchema

open DocSchema.Json DocSchema.Markdown

/-! ### Marks of a tree -/

namespace Node

/-- The mark of a list item; of other nodes only if they have one. -/
def mark? (n : Node) : Option (Span × Option Value) :=
  let mark := n.fields.get? "checked"
  if n.kind = "listItem" ∨ mark.isSome then some (n.span, mark) else none

/-- The list items of a tree, each with its span and its mark, and whatever else has a mark. -/
def marks (n : Node) : List (Span × Option Value) :=
  n.preorder.filterMap mark?

theorem marks_mk (kind : String) (fields : Object) (children : List Node) (span : Span) :
    (⟨kind, fields, children, span⟩ : Node).marks =
      (mark? ⟨kind, fields, children, span⟩).toList ++ children.flatMap marks := by
  unfold marks
  rw [preorder, List.filterMap_cons, filterMap_preorderAll]
  cases mark? ⟨kind, fields, children, span⟩ <;> rfl

theorem marks_joined (ix : LineIndex) (text : String) (span : Span) (more : List (String × Span)) :
    (joined ix text span more).marks = [] := by
  rw [joined, marks_mk]
  rfl

end Node

/-! ### Marks of a forest -/

mutual

/-- The marks in a piece that are in no item inside of it. -/
def Piece.ownMarks : Piece → List Bool
  | .construct tag _ _ content _ _ => if tag = .item then [] else ownMarksOf content
  | .single e _ =>
    match e.event with
    | .taskListMarker checked => [checked]
    | _ => []

def ownMarksOf : List Piece → List Bool
  | [] => []
  | p :: ps => p.ownMarks ++ ownMarksOf ps

end

mutual

/-- No mark is in an item that is too deep, unless a further item is around the mark. -/
def Piece.MarksKept (depth : Nat) : Piece → Prop
  | .construct tag _ _ content _ _ =>
    (tag = .item → maxDepth ≤ depth → ownMarksOf content = []) ∧ MarksKept (depth + 1) content
  | .single _ _ => True

def MarksKept (depth : Nat) : List Piece → Prop
  | [] => True
  | p :: ps => p.MarksKept depth ∧ MarksKept depth ps

end

mutual

/-- The items that have a node, each with its span and the last of its marks.  Which marks fall to
an item is told by what it holds and how deep that is. -/
def Piece.itemMarks (ix : LineIndex) (own : Nat → List Piece → List Bool) (depth : Nat) :
    Piece → List (Span × Option Value)
  | .construct tag first last content _ _ =>
    (if tag = .item ∧ depth < maxDepth then
      [(ix.span first last, (own (depth + 1) content).getLast?.map .bool)] else []) ++
      itemMarksOf ix own (depth + 1) content
  | .single _ _ => []

def itemMarksOf (ix : LineIndex) (own : Nat → List Piece → List Bool) (depth : Nat) :
    List Piece → List (Span × Option Value)
  | [] => []
  | p :: ps => p.itemMarks ix own depth ++ itemMarksOf ix own depth ps

end

/-! ### Marks of items -/

/-- The marks in what falls to a construct. -/
def Item.marks : Item → List (Span × Option Value)
  | .node n => n.marks
  | .run _ _ => []
  | .payload _ n => n.marks

theorem marks_itemOf? {ix : LineIndex} {e : Located} {item : Item}
    (h : itemOf? ix e = some item) : item.marks = [] := by
  obtain ⟨event, first, last⟩ := e
  cases event with
  | start _ | end_ _ | taskListMarker _ | foreign => cases h
  | _ =>
    cases h
    rfl

mutual

theorem Piece.marks_of_payload {ix : LineIndex} {text : String} {n : Node} :
    ∀ {p : Piece} {depth : Nat}, Item.payload text n ∈ p.items ix depth → n.marks = []
  | .construct _ _ _ content _ _, depth, h => by
    rw [Piece.items] at h
    split at h
    · cases List.mem_singleton.1 h
    · exact marks_of_payload h
  | .single e _, _, h => by
    rw [Piece.items] at h
    exact marks_itemOf? (Option.mem_toList.1 h)

/-- What can be collected as a text is no list item. -/
theorem marks_of_payload {ix : LineIndex} {text : String} {n : Node} :
    ∀ {ps : List Piece} {depth : Nat}, Item.payload text n ∈ itemsOf ix depth ps → n.marks = []
  | [], _, h => absurd h List.not_mem_nil
  | _ :: _, _, h => by
    rw [itemsOf] at h
    obtain h | h := List.mem_append.1 h
    · exact Piece.marks_of_payload h
    · exact marks_of_payload h

end

section Items

variable {ix : LineIndex} {items : List Item}

theorem marks_goOn (ix : LineIndex) (text : String) (span : Span) (more : List (String × Span))
    (cs : List Cluster) :
    ((goOn text span more cs).map (·.toNode ix)).flatMap Node.marks =
      (cs.map (·.toNode ix)).flatMap Node.marks := by
  cases cs with
  | nil => simp [goOn, Cluster.toNode, Node.marks_joined]
  | cons c cs => cases c <;> simp [goOn, Cluster.toNode, Node.marks_joined]

theorem marks_clusters (ix : LineIndex) (items : List Item) :
    ((clusters items).map (·.toNode ix)).flatMap Node.marks = items.flatMap Item.marks := by
  induction items with
  | nil => rfl
  | cons item items ih =>
    cases item with
    | node n | payload _ n =>
      rw [clusters, List.map_cons, List.flatMap_cons, ih]
      rfl
    | run text span =>
      rw [clusters, marks_goOn, ih]
      rfl

theorem marks_uncollected (h : ∀ text n, Item.payload text n ∈ items → n.marks = []) :
    (uncollected items).flatMap Node.marks = items.flatMap Item.marks := by
  induction items with
  | nil => rfl
  | cons item items ih =>
    have hrest := ih fun text n hn => h text n (List.mem_cons_of_mem _ hn)
    rw [List.flatMap_cons, ← hrest]
    cases item with
    | node n => rfl
    | run text span => rfl
    | payload text n =>
      have hnone : Item.marks (.payload text n) = [] := h text n List.mem_cons_self
      rw [hnone]
      rfl

end Items

/-! ### Marks of constructs -/

theorem kind_tagNode_iff (tag : Tag) : (tagNode tag).1 = "listItem" ↔ tag = .item := by
  cases tag with
  | list start => cases start <;> simp [tagNode]
  | _ => simp [tagNode, metadataKind]

theorem get?_checked_tagNode (tag : Tag) : (tagNode tag).2.1.get? "checked" = none := by
  cases tag with
  | list start => cases start <;> rfl
  | _ => rfl

theorem get?_checked_checkedFields (marks : List Bool) {fields : Object}
    (h : fields.get? "checked" = none) :
    (checkedFields marks fields).get? "checked" = marks.getLast?.map .bool := by
  unfold checkedFields
  cases marks.getLast? with
  | none => exact h
  | some checked => exact Object.get?_insert_self _ _ _

theorem get?_checked_literalFields {tag : Tag} {key : String} (htag : (tagNode tag).2.2 = some key)
    (kind raw : String) (fields : Object) :
    (literalFields kind key raw fields).get? "checked" = fields.get? "checked" := by
  have hkey : "checked" ≠ key := by
    rintro rfl
    cases tag with
    | list start => cases start <;> simp [tagNode] at htag
    | _ => simp [tagNode] at htag
  unfold literalFields
  rw [Object.get?_insert_of_ne _ _ hkey]
  generalize (if kind = metadataKind then (parseMetadata raw).toOption else none) = data
  cases data with
  | none => rfl
  | some data => exact Object.get?_insert_of_ne _ _ (by decide)

/-- A construct has the mark that it takes, and in it are those of its items. -/
theorem marks_readConstruct (ix : LineIndex) (tag : Tag) (span : Span) (marks : List Bool)
    {items : List Item} (h : ∀ text n, Item.payload text n ∈ items → n.marks = [])
    (hmarks : tag ≠ .item → marks = []) :
    (readConstruct ix tag span marks items).marks =
      (if tag = .item then [(span, marks.getLast?.map .bool)] else []) ++
        items.flatMap Item.marks := by
  have hchecked := get?_checked_checkedFields marks (get?_checked_tagNode tag)
  have hmark : ∀ n : Node, n.kind = (tagNode tag).1 → n.span = span →
      n.fields.get? "checked" = marks.getLast?.map .bool →
      n.mark?.toList = if tag = .item then [(span, marks.getLast?.map .bool)] else [] := by
    intro n hnkind hnspan hnmark
    unfold Node.mark?
    rw [hnkind, hnspan, hnmark]
    by_cases hitem : tag = .item
    · simp [kind_tagNode_iff, hitem]
    · simp [kind_tagNode_iff, hitem, hmarks hitem]
  unfold readConstruct
  dsimp only
  split
  · rw [Node.marks_mk, hmark _ rfl rfl hchecked, marks_clusters]
  · rename_i key hliteral
    rw [Node.marks_mk, hmark _ rfl rfl ((get?_checked_literalFields hliteral _ _ _).trans hchecked),
      marks_uncollected h]

/-! ### Marks of trees -/

section Forests

variable {ix : LineIndex}

mutual

theorem Piece.marks_items : ∀ (p : Piece) (depth : Nat),
    (p.items ix depth).flatMap Item.marks = p.itemMarks ix marksOf depth
  | .construct tag first last content _ _, depth => by
    have hcontent := marks_itemsOf content (depth + 1)
    rw [Piece.items, Piece.itemMarks]
    by_cases hdepth : depth < maxDepth
    · have htakes : takesMarks depth tag = decide (tag = .item) := by
        simp [takesMarks, hdepth, beq_eq_decide, kind_tagNode_iff]
      have hmarks : tag ≠ .item →
          (if takesMarks depth tag = true then marksOf (depth + 1) content else []) = [] := by
        intro hitem
        simp [htakes, hitem]
      rw [if_pos hdepth, List.flatMap_singleton]
      change (readConstruct _ _ _ _ _).marks = _
      rw [marks_readConstruct ix tag _ _ (fun _ _ => marks_of_payload) hmarks, hcontent]
      by_cases hitem : tag = .item
      · subst hitem
        simp [htakes, hdepth]
      · simp [hitem]
    · rw [if_neg hdepth, hcontent, if_neg fun h => hdepth h.2, List.nil_append]
  | .single e _, depth => by
    rw [Piece.items, Piece.itemMarks]
    cases hitem : itemOf? ix e with
    | none => rfl
    | some item => simp [marks_itemOf? hitem]

theorem marks_itemsOf : ∀ (ps : List Piece) (depth : Nat),
    (itemsOf ix depth ps).flatMap Item.marks = itemMarksOf ix marksOf depth ps
  | [], _ => rfl
  | p :: ps, depth => by
    rw [itemsOf, List.flatMap_append, p.marks_items, marks_itemsOf ps, itemMarksOf]

end

/-- The list items of the tree have the marks that are in no further item with a node. -/
theorem marks_readForest (ix : LineIndex) (forest : List Piece) :
    (readForest ix forest).marks = itemMarksOf ix marksOf 0 forest := by
  rw [readForest, Node.marks_mk, marks_clusters, marks_itemsOf]
  rfl

mutual

theorem Piece.marks_eq_ownMarks : ∀ {p : Piece} {depth : Nat}, p.MarksKept depth →
    p.marks depth = p.ownMarks
  | .construct tag _ _ content _ _, depth, h => by
    rw [Piece.MarksKept] at h
    have hcontent := marksOf_eq_ownMarksOf h.2
    rw [Piece.marks, Piece.ownMarks]
    by_cases hitem : tag = .item
    · by_cases hdepth : depth < maxDepth
      · simp [takesMarks, hitem, hdepth, tagNode]
      · -- too deep for a node, and without marks of its own
        rw [if_pos hitem, hcontent, h.1 hitem (Nat.le_of_not_lt hdepth), ite_self]
    · simp [takesMarks, hitem, kind_tagNode_iff, hcontent]
  | .single ⟨event, _, _⟩ _, _, _ => by cases event <;> rfl

theorem marksOf_eq_ownMarksOf : ∀ {ps : List Piece} {depth : Nat}, MarksKept depth ps →
    marksOf depth ps = ownMarksOf ps
  | [], _, _ => rfl
  | p :: ps, depth, h => by
    rw [MarksKept] at h
    rw [marksOf, ownMarksOf, Piece.marks_eq_ownMarks h.1, marksOf_eq_ownMarksOf h.2]

end

mutual

theorem Piece.itemMarks_of_marksKept : ∀ {p : Piece} {depth : Nat}, p.MarksKept depth →
    p.itemMarks ix marksOf depth = p.itemMarks ix (fun _ => ownMarksOf) depth
  | .construct tag _ _ content _ _, depth, h => by
    rw [Piece.MarksKept] at h
    rw [Piece.itemMarks, Piece.itemMarks, marksOf_eq_ownMarksOf h.2,
      itemMarksOf_of_marksKept h.2]
  | .single _ _, _, _ => by rw [Piece.itemMarks, Piece.itemMarks]

theorem itemMarksOf_of_marksKept : ∀ {ps : List Piece} {depth : Nat}, MarksKept depth ps →
    itemMarksOf ix marksOf depth ps = itemMarksOf ix (fun _ => ownMarksOf) depth ps
  | [], _, _ => rfl
  | p :: ps, depth, h => by
    rw [MarksKept] at h
    rw [itemMarksOf, itemMarksOf, Piece.itemMarks_of_marksKept h.1, itemMarksOf_of_marksKept h.2]

end

end Forests

/-- A list item of the tree has the last of the marks that are in it and in no further item with a
node, and has none if there are none; no other node has a mark.  These marks are the item's own if
no mark is in an item that is too deep. -/
theorem marks_build {es : List Located} (h : WellNested es) (text : List Char) :
    (∃ forest, es = eventsOf forest) ∧ ∀ forest, es = eventsOf forest →
      (TreeBuilder.build text es).marks =
        itemMarksOf (LineIndex.ofChars text) marksOf 0 forest ∧
      (MarksKept 0 forest → (TreeBuilder.build text es).marks =
        itemMarksOf (LineIndex.ofChars text) (fun _ => ownMarksOf) 0 forest) := by
  refine ⟨exists_forest h, ?_⟩
  rintro forest rfl
  have hmarks : (TreeBuilder.build text (eventsOf forest)).marks =
      itemMarksOf (LineIndex.ofChars text) marksOf 0 forest := by
    rw [build_eventsOf, marks_readForest]
  exact ⟨hmarks, fun hkept => hmarks.trans (itemMarksOf_of_marksKept hkept)⟩

/-- An item with a mark, and a list in it of an item with a mark and one without. -/
def markedForest : List Piece :=
  [.construct (.list none) 0 22
    [.construct .item 0 22
      [.single ⟨.taskListMarker false, 2, 5⟩ rfl, .single ⟨.text "x", 6, 7⟩ rfl,
        .construct (.list none) 8 22
          [.construct .item 10 18
            [.single ⟨.taskListMarker true, 12, 15⟩ rfl, .single ⟨.text "y", 16, 17⟩ rfl] 10 18,
          .construct .item 18 22 [.single ⟨.text "z", 20, 21⟩ rfl] 18 22] 8 22] 0 22] 0 22]

theorem marks_build_markedForest : WellNested (eventsOf markedForest) ∧
    MarksKept 0 markedForest ∧ (TreeBuilder.build [] (eventsOf markedForest)).marks.map (·.2) =
      [some (.bool false), some (.bool true), none] := by
  have h : WellNested (eventsOf markedForest) := by decide
  have hkept : MarksKept 0 markedForest := by
    simp [markedForest, MarksKept, Piece.MarksKept, maxDepth]
  refine ⟨h, hkept, ?_⟩
  rw [((marks_build h []).2 markedForest rfl).2 hkept]
  rfl

/-- An item with a mark in block quotes. -/
def quotedItem : Nat → List Piece
  | 0 => [.construct .item 0 0 [.single ⟨.taskListMarker true, 0, 0⟩ rfl] 0 0]
  | n + 1 => [.construct .blockQuote 0 0 (quotedItem n) 0 0]

/-- The mark of an item that is too deep is given to an item with no mark of its own. -/
theorem exists_mark_of_deep_item : ¬ ∀ es, WellNested es → ∀ text forest, es = eventsOf forest →
    (TreeBuilder.build text es).marks =
      itemMarksOf (LineIndex.ofChars text) (fun _ => ownMarksOf) 0 forest := by
  intro h
  have hall := h _ (wellNested_eventsOf [.construct .item 0 0 (quotedItem 127) 0 0]) [] _ rfl
  rw [build_eventsOf, marks_readForest] at hall
  have hmarks := congrArg (List.map fun m => m.2.isSome) hall
  revert hmarks
  decide +kernel

end DocSchema
