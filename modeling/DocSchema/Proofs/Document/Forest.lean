/-
  DocSchema/Proofs/Document/Forest.lean
  =====================================
  **The builder makes the tree that a forest of events reads as.**

  Events are well-nested (`WellNested`) when every end meets the start that was last and is
  still open, and nothing is open in the end.  They are then those of a forest
  (`exists_forest`), and the tree is defined by recursion on it (`readForest`):

    * a construct with fewer than `maxDepth` constructs around it is one node (`readConstruct`);
      a deeper one is none, and what it holds falls to the deepest one that is (`itemsOf`);
    * texts that fall to the same node side by side are one text node (`joined`);
    * a literal construct collects the texts, the code and the HTML that fall to it
      (`collected`).

  The builder has no recursion: it has a stack, and a count of what is open beyond the stack.
  What a forest does to it is to give its items to the innermost frame and its marks to the
  innermost list item, and nothing else (`foldl_step_eventsOf`); so each end finds the frame of
  its own start (`EndsMeetStarts`).
-/
import DocSchema.Proofs.Document.Containment

namespace DocSchema

open DocSchema.Json DocSchema.Markdown

/-! ### Forests of events -/

/-- Whether the event neither starts nor ends a construct. -/
def Markdown.Event.isSingle : Event → Bool
  | .start _ => false
  | .end_ _ => false
  | _ => true

/-- A construct with what is between its two events, or an event by itself. -/
inductive Piece where
  | construct (tag : Tag) (first last : Nat) (content : List Piece) (endFirst endLast : Nat)
  | single (e : Located) (h : e.event.isSingle = true)

mutual

def Piece.events : Piece → List Located
  | .construct tag first last content endFirst endLast =>
    ⟨.start tag, first, last⟩ :: (eventsOf content ++ [⟨.end_ tag, endFirst, endLast⟩])
  | .single e _ => [e]

def eventsOf : List Piece → List Located
  | [] => []
  | p :: ps => p.events ++ eventsOf ps

end

/-- Whether the events close the constructs that are open, innermost first, and all that they open
themselves. -/
def closesAll : List Tag → List Located → Bool
  | outer, [] => outer.isEmpty
  | outer, e :: es =>
    match e.event, outer with
    | .start tag, _ => closesAll (tag :: outer) es
    | .end_ _, [] => false
    | .end_ tag, innermost :: outer => tag == innermost && closesAll outer es
    | _, _ => closesAll outer es

def WellNested (es : List Located) : Prop :=
  closesAll [] es = true

instance (es : List Located) : Decidable (WellNested es) :=
  inferInstanceAs (Decidable (_ = true))

/-- The events of a forest up to the end of the innermost open construct, then those of a forest
up to the end of the next, and so on, and those of a forest at last. -/
def Completes : List Tag → List Located → Prop
  | [], es => ∃ forest, es = eventsOf forest
  | tag :: outer, es => ∃ forest endFirst endLast rest,
    es = eventsOf forest ++ ⟨.end_ tag, endFirst, endLast⟩ :: rest ∧ Completes outer rest

theorem Completes.cons {outer : List Tag} {es : List Located} (h : Completes outer es) (p : Piece) :
    Completes outer (p.events ++ es) := by
  cases outer with
  | nil =>
    obtain ⟨forest, rfl⟩ := h
    exact ⟨p :: forest, rfl⟩
  | cons tag outer =>
    obtain ⟨forest, endFirst, endLast, rest, rfl, hrest⟩ := h
    exact ⟨p :: forest, endFirst, endLast, rest, by simp [eventsOf], hrest⟩

theorem completes_of_closesAll {outer : List Tag} {es : List Located}
    (h : closesAll outer es = true) : Completes outer es := by
  induction es generalizing outer with
  | nil =>
    have houter : outer = [] := by simpa [closesAll] using h
    subst houter
    exact ⟨[], rfl⟩
  | cons e es ih =>
    obtain ⟨event, first, last⟩ := e
    cases event with
    | start tag =>
      -- the rest closes this construct first, and it becomes a piece of what is around it
      obtain ⟨content, endFirst, endLast, rest, rfl, hrest⟩ := @ih (tag :: outer) h
      simpa [Piece.events] using hrest.cons (.construct tag first last content endFirst endLast)
    | end_ tag =>
      cases outer with
      | nil => simp [closesAll] at h
      | cons innermost outer =>
        simp only [closesAll, Bool.and_eq_true, beq_iff_eq] at h
        obtain ⟨rfl, h⟩ := h
        exact ⟨[], first, last, es, rfl, ih h⟩
    | _ => exact (ih (by simpa [closesAll] using h)).cons (.single _ rfl)

theorem exists_forest {es : List Located} (h : WellNested es) : ∃ forest, es = eventsOf forest :=
  completes_of_closesAll h

/-! ### The recursive reading -/

/-- What falls to a construct. -/
inductive Item where
  | node (n : Node)
  /-- A text, which goes on with a text before it. -/
  | run (text : String) (span : Span)
  /-- Code or HTML, which is a text to a literal construct and a node to any other. -/
  | payload (text : String) (n : Node)

/-- What an event by itself yields. -/
def itemOf? (ix : LineIndex) (e : Located) : Option Item :=
  e.event.leaf?.map fun (kind, fields) =>
    let span := ix.span e.first e.last
    match e.event with
    | .text text => .run text span
    | .softBreak => .run "\n" span
    | .code text | .html text | .inlineHtml text => .payload text ⟨kind, fields, [], span⟩
    | _ => .node ⟨kind, fields, [], span⟩

/-- A node, or texts side by side. -/
inductive Cluster where
  | node (n : Node)
  | texts (text : String) (span : Span) (more : List (String × Span))

/-- Texts go on with the texts that come next. -/
def goOn (text : String) (span : Span) (more : List (String × Span)) :
    List Cluster → List Cluster
  | .texts text' span' more' :: others =>
    .texts text span (more ++ (text', span') :: more') :: others
  | others => .texts text span more :: others

/-- Texts with no node between them belong together. -/
def clusters : List Item → List Cluster
  | [] => []
  | .node n :: rest => .node n :: clusters rest
  | .payload _ n :: rest => .node n :: clusters rest
  | .run text span :: rest => goOn text span [] (clusters rest)

/-- The text node of texts side by side, from the start of the first one to the greatest of their
ends. -/
def joined (ix : LineIndex) (text : String) (span : Span) (more : List (String × Span)) : Node :=
  let stop := more.foldl (fun n t => max n t.2.stopOffset) span.stopOffset
  ⟨"text", [("value", .string (String.join (text :: more.map (·.1))))], [],
    ⟨span.start, ix.position stop, span.startOffset, stop⟩⟩

def Cluster.toNode (ix : LineIndex) : Cluster → Node
  | .node n => n
  | .texts text span more => joined ix text span more

/-- What a literal construct collects of what falls to it. -/
def collected (items : List Item) : String :=
  String.join (items.filterMap fun
    | .node _ => none
    | .run text _ => some text
    | .payload text _ => some text)

/-- The children of a literal construct. -/
def uncollected (items : List Item) : List Node :=
  items.filterMap fun
    | .node n => some n
    | _ => none

/-- The fields of a literal construct that has collected a text. -/
def literalFields (kind key raw : String) (fields : Object) : Object :=
  let data := if kind = metadataKind then (parseMetadata raw).toOption else none
  (data.elim fields fun data => fields.insert "data" (.object data)).insert key (.string raw)

/-- The last mark on a list item counts. -/
def checkedFields (marks : List Bool) (fields : Object) : Object :=
  marks.getLast?.elim fields fun checked => fields.insert "checked" (.bool checked)

/-- The node of a construct by what falls to it. -/
def readConstruct (ix : LineIndex) (tag : Tag) (span : Span) (marks : List Bool)
    (items : List Item) : Node :=
  let (kind, fields, literal) := tagNode tag
  match literal with
  | none => ⟨kind, checkedFields marks fields, (clusters items).map (·.toNode ix), span⟩
  | some key =>
    ⟨kind, literalFields kind key (OpenNode.dropLineFeed (collected items))
      (checkedFields marks fields), uncollected items, span⟩

/-- Whether a construct with `depth` constructs around it is a list item of the tree. -/
def takesMarks (depth : Nat) (tag : Tag) : Bool :=
  decide (depth < maxDepth) && (tagNode tag).1 == "listItem"

mutual

/-- The marks in a piece that are in no list item of its own. -/
def Piece.marks (depth : Nat) : Piece → List Bool
  | .construct tag _ _ content _ _ =>
    if takesMarks depth tag then [] else marksOf (depth + 1) content
  | .single e _ =>
    match e.event with
    | .taskListMarker checked => [checked]
    | _ => []

def marksOf (depth : Nat) : List Piece → List Bool
  | [] => []
  | p :: ps => p.marks depth ++ marksOf depth ps

end

mutual

/-- What a piece with `depth` constructs around it yields to the node that it falls to. -/
def Piece.items (ix : LineIndex) (depth : Nat) : Piece → List Item
  | .construct tag first last content _ _ =>
    let items := itemsOf ix (depth + 1) content
    if depth < maxDepth then
      [.node (readConstruct ix tag (ix.span first last)
        (if takesMarks depth tag then marksOf (depth + 1) content else []) items)]
    else items
  | .single e _ => (itemOf? ix e).toList

def itemsOf (ix : LineIndex) (depth : Nat) : List Piece → List Item
  | [] => []
  | p :: ps => p.items ix depth ++ itemsOf ix depth ps

end

/-- The tree that a forest reads as. -/
def readForest (ix : LineIndex) (forest : List Piece) : Node :=
  ⟨"root", [], (clusters (itemsOf ix 0 forest)).map (·.toNode ix), ix.whole⟩

/-! ### What a frame receives -/

/-- No text but those that go on with others, and these end where their offset says. -/
def Item.Regular (ix : LineIndex) : Item → Prop
  | .node n => n.kind ≠ "text"
  | .run _ span => span.stop = ix.position span.stopOffset
  | .payload _ n => n.kind ≠ "text"

theorem regular_itemOf? {ix : LineIndex} {e : Located} {item : Item}
    (h : itemOf? ix e = some item) : item.Regular ix := by
  obtain ⟨event, first, last⟩ := e
  cases event with
  | start _ | end_ _ | taskListMarker _ | foreign => cases h
  | _ =>
    cases h
    simp [Item.Regular, LineIndex.span]

theorem kind_readConstruct (ix : LineIndex) (tag : Tag) (span : Span) (marks : List Bool)
    (items : List Item) : (readConstruct ix tag span marks items).kind = (tagNode tag).1 := by
  unfold readConstruct
  dsimp only
  split <;> rfl

mutual

theorem Piece.regular_items {ix : LineIndex} {item : Item} :
    ∀ {p : Piece} {depth : Nat}, item ∈ p.items ix depth → item.Regular ix
  | .construct tag _ _ content _ _, depth, h => by
    rw [Piece.items] at h
    split at h
    · rw [List.mem_singleton.1 h]
      change (readConstruct _ _ _ _ _).kind ≠ "text"
      rw [kind_readConstruct]
      exact kind_tagNode tag
    · exact regular_itemsOf h
  | .single e _, _, h => by
    rw [Piece.items] at h
    exact regular_itemOf? (Option.mem_toList.1 h)

theorem regular_itemsOf {ix : LineIndex} {item : Item} :
    ∀ {ps : List Piece} {depth : Nat}, item ∈ itemsOf ix depth ps → item.Regular ix
  | [], _, h => absurd h List.not_mem_nil
  | _ :: _, _, h => by
    rw [itemsOf] at h
    obtain h | h := List.mem_append.1 h
    · exact Piece.regular_items h
    · exact regular_itemsOf h

end

theorem Json.Object.insert_insert (fields : Object) (key : String) (value value' : Value) :
    (fields.insert key value).insert key value' = fields.insert key value' := by
  induction fields with
  | nil => simp [Object.insert]
  | cons member fields ih =>
    obtain ⟨k, v⟩ := member
    by_cases hk : k = key <;> simp [Object.insert, hk, ih]

namespace OpenNode

def receive (f : OpenNode) : Item → OpenNode
  | .node n => f.attach n
  | .run text span => f.addText text span
  | .payload text n => (f.collect? text).getD (f.attach n)

def mark (f : OpenNode) (checked : Bool) : OpenNode :=
  if f.kind = "listItem" then { f with fields := f.fields.insert "checked" (.bool checked) } else f

/-- What a frame receives is not for its fields, and does not depend on them. -/
theorem exists_receive (f : OpenNode) (item : Item) : ∃ children literal, ∀ fields,
    ({ f with fields } : OpenNode).receive item =
      { f with fields, children, literal } := by
  obtain ⟨kind, fields, children, span, literal⟩ := f
  cases item with
  | node n => exact ⟨n :: children, literal, fun _ => rfl⟩
  | payload text n =>
    cases literal with
    | none => exact ⟨n :: children, none, fun _ => rfl⟩
    | some collecting => exact ⟨children, _, fun _ => rfl⟩
  | run text s =>
    cases literal with
    | some collecting => exact ⟨children, _, fun _ => rfl⟩
    | none =>
      cases children with
      | nil =>
        exact ⟨[(Node.leaf "text" s).withField "value" (.string text)], none, fun _ => rfl⟩
      | cons last before =>
        by_cases hkind : last.kind = "text"
        · exact ⟨extendText last text s :: before, none, fun _ => if_pos hkind⟩
        · exact ⟨(Node.leaf "text" s).withField "value" (.string text) :: last :: before, none,
            fun _ => if_neg hkind⟩

/-- The frames of one construct. -/
def SameConstruct (f f' : OpenNode) : Prop :=
  f.kind = f'.kind ∧ f.span = f'.span

theorem sameConstruct_receive (f : OpenNode) (item : Item) : f.SameConstruct (f.receive item) := by
  obtain ⟨children, literal, h⟩ := exists_receive f item
  have hself : f.receive item = { f with children, literal } := h f.fields
  rw [hself]
  exact ⟨rfl, rfl⟩

theorem sameConstruct_mark (f : OpenNode) (checked : Bool) : f.SameConstruct (f.mark checked) := by
  unfold mark
  split <;> exact ⟨rfl, rfl⟩

theorem sameConstruct_foldl {α : Type} {g : OpenNode → α → OpenNode}
    (h : ∀ f x, SameConstruct f (g f x)) (f : OpenNode) (xs : List α) :
    f.SameConstruct (xs.foldl g f) := by
  induction xs generalizing f with
  | nil => exact ⟨rfl, rfl⟩
  | cons x xs ih => exact ⟨(h f x).1.trans (ih (g f x)).1, (h f x).2.trans (ih (g f x)).2⟩

theorem mark_receive (f : OpenNode) (item : Item) (checked : Bool) :
    (f.receive item).mark checked = (f.mark checked).receive item := by
  obtain ⟨children, literal, h⟩ := exists_receive f item
  have hself : f.receive item = { f with children, literal } := h f.fields
  by_cases hitem : f.kind = "listItem"
  · have hmark : f.mark checked = { f with fields := f.fields.insert "checked" (.bool checked) } :=
      if_pos hitem
    rw [hmark, h (f.fields.insert "checked" (.bool checked)), hself]
    exact if_pos hitem
  · have hkind : (f.receive item).kind = f.kind := (sameConstruct_receive f item).1.symm
    simp [mark, hkind, hitem]

variable {ix : LineIndex} {kind text : String} {fields : Object} {before : List Node}
  {items : List Item} {span s : Span} {more : List (String × Span)}

theorem extendText_joined (h : s.stop = ix.position s.stopOffset) (t : String) :
    extendText (joined ix text span more) t s = joined ix text span (more ++ [(t, s)]) := by
  have hvalue : String.join (text :: (more ++ [(t, s)]).map (·.1)) =
      String.join (text :: more.map (·.1)) ++ t := by
    simp [String.append_assoc]
  have hstop : (more ++ [(t, s)]).foldl (fun n t => max n t.2.stopOffset) span.stopOffset =
      max (more.foldl (fun n t => max n t.2.stopOffset) span.stopOffset) s.stopOffset := by
    simp
  unfold joined extendText
  dsimp only
  rw [hvalue, hstop]
  generalize more.foldl (fun n t => max n t.2.stopOffset) span.stopOffset = stop
  by_cases hlt : stop < s.stopOffset
  · rw [if_pos hlt, Nat.max_eq_right (Nat.le_of_lt hlt), h]
    simp [Object.get?, Object.insert]
  · rw [if_neg hlt, Nat.max_eq_left (Nat.le_of_not_lt hlt)]
    simp [Object.get?, Object.insert]

theorem leaf_text_eq_joined (h : s.stop = ix.position s.stopOffset) (t : String) :
    (Node.leaf "text" s).withField "value" (.string t) = joined ix t s [] := by
  simp [Node.leaf, Node.withField, joined, Object.insert, ← h]

/-- Two cases, since the texts at the front go on with a text that is there already. -/
theorem foldl_receive (h : ∀ item ∈ items, item.Regular ix) :
    (∀ before : List Node, (∀ n ∈ before.head?, n.kind ≠ "text") →
      items.foldl receive ⟨kind, fields, before, span, none⟩ =
        ⟨kind, fields, ((clusters items).map (·.toNode ix)).reverse ++ before, span, none⟩) ∧
    ∀ (before : List Node) text s more,
      items.foldl receive ⟨kind, fields, joined ix text s more :: before, span, none⟩ =
        ⟨kind, fields, ((goOn text s more (clusters items)).map (·.toNode ix)).reverse ++ before,
          span, none⟩ := by
  induction items with
  | nil => exact ⟨fun _ _ => rfl, fun _ _ _ _ => rfl⟩
  | cons item items ih =>
    obtain ⟨hitem, hitems⟩ := List.forall_mem_cons.1 h
    obtain ⟨hapart, hon⟩ := ih hitems
    cases item with
    | node n | payload _ n =>
      have hn : ∀ m ∈ some n, m.kind ≠ "text" := by
        rintro m ⟨⟩
        exact hitem
      refine ⟨fun before _ => ?_, fun before text s more => ?_⟩
      · rw [List.foldl_cons]
        refine (hapart (n :: before) hn).trans ?_
        simp [clusters, Cluster.toNode]
      · rw [List.foldl_cons]
        refine (hapart (n :: joined ix text s more :: before) hn).trans ?_
        simp [clusters, goOn, Cluster.toNode]
    | run t s' =>
      refine ⟨fun before hbefore => ?_, fun before text s more => ?_⟩
      · have hnew : receive ⟨kind, fields, before, span, none⟩ (.run t s') =
            ⟨kind, fields, joined ix t s' [] :: before, span, none⟩ := by
          rw [← leaf_text_eq_joined hitem]
          cases before with
          | nil => rfl
          | cons last before => exact if_neg (hbefore last rfl)
        rw [List.foldl_cons, hnew, hon, clusters]
      · have hgrown : receive ⟨kind, fields, joined ix text s more :: before, span, none⟩
            (.run t s') =
            ⟨kind, fields, joined ix text s (more ++ [(t, s')]) :: before, span, none⟩ := by
          rw [← extendText_joined hitem]
          rfl
        rw [List.foldl_cons, hgrown, hon, clusters]
        congr 3
        cases clusters items with
        | nil => rfl
        | cons c others => cases c <;> simp [goOn]

theorem foldl_receive_literal (key collecting : String) (items : List Item) :
    items.foldl receive ⟨kind, fields, before, span, some (key, collecting)⟩ =
      ⟨kind, fields, (uncollected items).reverse ++ before, span,
        some (key, collecting ++ collected items)⟩ := by
  induction items generalizing before collecting with
  | nil => simp [uncollected, collected]
  | cons item items ih =>
    rw [List.foldl_cons]
    cases item with
    | node n => exact (ih collecting).trans (by simp [uncollected, collected])
    | run text s =>
      exact (ih (collecting ++ text)).trans (by simp [uncollected, collected, String.append_assoc])
    | payload text n =>
      exact (ih (collecting ++ text)).trans (by simp [uncollected, collected, String.append_assoc])

theorem checkedFields_insert (checked : Bool) (marks : List Bool) (fields : Object) :
    checkedFields marks (fields.insert "checked" (.bool checked)) =
      checkedFields (checked :: marks) fields := by
  cases marks with
  | nil => rfl
  | cons _ _ => simp [checkedFields, List.getLast?_cons, Object.insert_insert]

theorem foldl_mark {f : OpenNode} (hitem : f.kind = "listItem") (marks : List Bool) :
    marks.foldl mark f = { f with fields := checkedFields marks f.fields } := by
  induction marks generalizing f with
  | nil => rfl
  | cons checked marks ih =>
    have hmark : f.mark checked = { f with fields := f.fields.insert "checked" (.bool checked) } :=
      if_pos hitem
    rw [List.foldl_cons, hmark, ← checkedFields_insert]
    exact ih hitem

theorem foldl_mark_of_ne {f : OpenNode} (hitem : f.kind ≠ "listItem") (marks : List Bool) :
    marks.foldl mark f = f := by
  induction marks with
  | nil => rfl
  | cons checked marks ih => simpa [mark, hitem] using ih

/-- The node that a frame becomes is the one that the recursion makes. -/
theorem finish_receive (h : ∀ item ∈ items, item.Regular ix) (tag : Tag) (span : Span)
    (marks : List Bool) :
    (items.foldl receive (marks.foldl mark (.ofTag tag span))).finish =
      readConstruct ix tag span (if (tagNode tag).1 = "listItem" then marks else []) items := by
  have hframe : marks.foldl mark (.ofTag tag span) = { OpenNode.ofTag tag span with
      fields := checkedFields (if (tagNode tag).1 = "listItem" then marks else [])
        (tagNode tag).2.1 } := by
    by_cases hitem : (tagNode tag).1 = "listItem"
    · rw [if_pos hitem, foldl_mark hitem]
      rfl
    · rw [if_neg hitem, foldl_mark_of_ne hitem]
      rfl
  rw [hframe]
  generalize (if (tagNode tag).1 = "listItem" then marks else []) = marks
  unfold ofTag readConstruct
  obtain ⟨kind, fields, literal⟩ := tagNode tag
  dsimp only
  cases literal with
  | none =>
    have hnil : ∀ n ∈ ([] : List Node).head?, n.kind ≠ "text" := fun n hn => by cases hn
    rw [Option.map_none, (foldl_receive h).1 [] hnil]
    simp [finish]
  | some key =>
    rw [Option.map_some, foldl_receive_literal]
    simp only [finish, String.empty_append, List.append_nil, List.reverse_reverse, literalFields]
    by_cases hmetadata : kind = metadataKind
    · rw [if_pos hmetadata, if_pos hmetadata]
      cases parseMetadata (dropLineFeed (collected items)) <;> rfl
    · rw [if_neg hmetadata, if_neg hmetadata]
      rfl

end OpenNode

/-! ### What the builder does with a forest -/

namespace TreeBuilder

variable {b : TreeBuilder} {f : OpenNode} {stack : List OpenNode}

/-- The constructs that are open. -/
def depth (b : TreeBuilder) : Nat :=
  b.stack.length + b.flattened

/-- Nothing is flattened as long as there is room on the stack. -/
def Steady (b : TreeBuilder) : Prop :=
  0 < b.flattened → maxDepth ≤ b.stack.length

def checkAll (marks : List Bool) (stack : List OpenNode) : List OpenNode :=
  marks.foldl (fun stack checked => checkItem checked stack) stack

/-- The builder after marks and items that have fallen to what is open. -/
def receive (b : TreeBuilder) (marks : List Bool) (items : List Item) : TreeBuilder :=
  { b with stack := checkAll marks b.stack }.modify fun f => items.foldl OpenNode.receive f

theorem checkItem_cons (checked : Bool) : checkItem checked (f :: stack) =
    f.mark checked :: (if f.kind = "listItem" then stack else checkItem checked stack) := by
  by_cases hitem : f.kind = "listItem" <;> simp [checkItem, OpenNode.mark, hitem]

theorem checkAll_cons (marks : List Bool) : checkAll marks (f :: stack) =
    marks.foldl OpenNode.mark f ::
      (if f.kind = "listItem" then stack else checkAll marks stack) := by
  induction marks generalizing f stack with
  | nil => simp [checkAll]
  | cons checked marks ih =>
    change checkAll marks (checkItem checked (f :: stack)) = _
    rw [checkItem_cons, ih, ← (f.sameConstruct_mark checked).1]
    by_cases hitem : f.kind = "listItem" <;> simp [hitem, checkAll]

theorem checkAll_append (marks marks' : List Bool) :
    checkAll (marks ++ marks') stack = checkAll marks' (checkAll marks stack) :=
  List.foldl_append

@[simp] theorem checkAll_nil (marks : List Bool) : checkAll marks [] = [] := by
  induction marks with
  | nil => rfl
  | cons checked marks ih => exact ih

@[simp] theorem length_checkAll (marks : List Bool) :
    (checkAll marks stack).length = stack.length := by
  induction stack with
  | nil => simp
  | cons f stack ih =>
    rw [checkAll_cons]
    split <;> simp [ih]

theorem receive_of_nil (h : b.stack = []) (marks : List Bool) (items : List Item) :
    b.receive marks items = { b with root := items.foldl OpenNode.receive b.root } := by
  simp [receive, modify, h]

theorem receive_of_cons (h : b.stack = f :: stack) (marks : List Bool) (items : List Item) :
    b.receive marks items = { b with
      stack := items.foldl OpenNode.receive (marks.foldl OpenNode.mark f) ::
        (if f.kind = "listItem" then stack else checkAll marks stack) } := by
  simp [receive, modify, h, checkAll_cons]

@[simp] theorem index_receive (marks : List Bool) (items : List Item) :
    (b.receive marks items).index = b.index := by
  simp [receive]

@[simp] theorem flattened_receive (marks : List Bool) (items : List Item) :
    (b.receive marks items).flattened = b.flattened := by
  simp [receive]

@[simp] theorem length_stack_receive (marks : List Bool) (items : List Item) :
    (b.receive marks items).stack.length = b.stack.length := by
  cases hstack : b.stack with
  | nil => simp [receive_of_nil hstack, hstack]
  | cons f stack =>
    rw [receive_of_cons hstack]
    split <;> simp

@[simp] theorem depth_receive (marks : List Bool) (items : List Item) :
    (b.receive marks items).depth = b.depth := by
  simp [depth]

theorem Steady.receive (h : b.Steady) (marks : List Bool) (items : List Item) :
    (b.receive marks items).Steady := by
  intro hflat
  rw [length_stack_receive]
  exact h (by simpa using hflat)

theorem mark_foldl_receive (checked : Bool) (items : List Item) :
    (items.foldl OpenNode.receive f).mark checked =
      items.foldl OpenNode.receive (f.mark checked) := by
  induction items generalizing f with
  | nil => rfl
  | cons item items ih => rw [List.foldl_cons, List.foldl_cons, ih, OpenNode.mark_receive]

theorem foldl_mark_foldl_receive (marks : List Bool) (items : List Item) :
    marks.foldl OpenNode.mark (items.foldl OpenNode.receive f) =
      items.foldl OpenNode.receive (marks.foldl OpenNode.mark f) := by
  induction marks generalizing f with
  | nil => rfl
  | cons checked marks ih =>
    rw [List.foldl_cons, mark_foldl_receive, ih, List.foldl_cons]

theorem receive_receive (marks marks' : List Bool) (items items' : List Item) :
    (b.receive marks items).receive marks' items' =
      b.receive (marks ++ marks') (items ++ items') := by
  cases hstack : b.stack with
  | nil =>
    rw [receive_of_nil hstack, receive_of_nil hstack, receive_of_nil (by exact hstack)]
    simp
  | cons f stack =>
    have hmarked := OpenNode.sameConstruct_foldl OpenNode.sameConstruct_mark f marks
    have hfilled := OpenNode.sameConstruct_foldl OpenNode.sameConstruct_receive
      (marks.foldl OpenNode.mark f) items
    rw [receive_of_cons hstack, receive_of_cons hstack, receive_of_cons rfl, ← hfilled.1,
      ← hmarked.1]
    simp only [foldl_mark_foldl_receive, List.foldl_append, checkAll_append]
    split <;> rfl

theorem receive_nil : b.receive [] [] = b := by
  cases hstack : b.stack with
  | nil => rw [receive_of_nil hstack]; rfl
  | cons f stack =>
    rw [receive_of_cons hstack]
    obtain ⟨index, root, _, flattened⟩ := b
    subst hstack
    simp [checkAll]

/-! ### Steps -/

theorem step_single {e : Located} (h : e.event.isSingle = true) (depth : Nat) :
    b.step e =
      b.receive ((Piece.single e h).marks depth) ((Piece.single e h).items b.index depth) := by
  obtain ⟨event, first, last⟩ := e
  cases event with
  | start tag | end_ tag => cases h
  | taskListMarker checked =>
    cases hstack : b.stack with
    | nil =>
      rw [receive_of_nil hstack]
      simp [step, hstack, checkItem, Piece.items, itemOf?, Event.leaf?]
    | cons f stack =>
      rw [receive_of_cons hstack]
      simp [step, hstack, Piece.items, Piece.marks, itemOf?, Event.leaf?, checkItem_cons, checkAll]
  | foreign => exact receive_nil.symm
  | _ => rfl

theorem depth_openTag (tag : Tag) (span : Span) : (b.openTag tag span).depth = b.depth + 1 := by
  unfold openTag depth
  split <;> simp <;> omega

@[simp] theorem index_openTag (tag : Tag) (span : Span) : (b.openTag tag span).index = b.index := by
  unfold openTag
  split <;> rfl

theorem index_step (b : TreeBuilder) (e : Located) : (b.step e).index = b.index := by
  by_cases hsingle : e.event.isSingle = true
  · rw [step_single hsingle 0, index_receive]
  · obtain ⟨event, first, last⟩ := e
    cases event with
    | start tag => exact index_openTag tag _
    | end_ tag =>
      change b.close.index = b.index
      unfold close
      split
      · rfl
      · split
        · rfl
        · exact index_modify _ _
    | _ => exact absurd rfl hsingle

theorem Steady.openTag (h : b.Steady) (tag : Tag) (span : Span) : (b.openTag tag span).Steady := by
  unfold TreeBuilder.openTag
  split
  · rename_i hdeep
    intro _
    rcases hdeep with hflat | hdeep
    · exact h hflat
    · exact hdeep
  · rename_i hroom
    intro hflat
    exact absurd (.inl hflat) hroom

/-- A construct that is opened, receives what it holds and is closed, is an item of what is around
it, or what it holds is, if it is too deep. -/
theorem close_receive_openTag (h : b.Steady) (tag : Tag) (span : Span) (marks : List Bool)
    {items : List Item} (hitems : ∀ item ∈ items, item.Regular b.index) :
    ((b.openTag tag span).receive marks items).close =
      b.receive (if takesMarks b.depth tag then [] else marks)
        (if b.depth < maxDepth then
          [.node (readConstruct b.index tag span
            (if takesMarks b.depth tag then marks else []) items)]
        else items) := by
  by_cases hdeep : 0 < b.flattened ∨ maxDepth ≤ b.stack.length
  · have hdepth : ¬ b.depth < maxDepth := by
      have := h
      unfold Steady at this
      unfold depth
      omega
    have hopen : b.openTag tag span = { b with flattened := b.flattened + 1 } := if_pos hdeep
    have hmarks : takesMarks b.depth tag = false := by simp [takesMarks, hdepth]
    rw [hopen, hmarks, if_neg hdepth, if_neg Bool.false_ne_true]
    -- the frame that the items fall to is the same, whatever is counted as flattened
    unfold receive
    dsimp only
    cases checkAll marks b.stack <;> rfl
  · have hflat : b.flattened = 0 := by omega
    have hdepth : b.depth < maxDepth := by
      unfold depth
      omega
    have hopen : b.openTag tag span = { b with stack := .ofTag tag span :: b.stack } := if_neg hdeep
    have hkind : (OpenNode.ofTag tag span).kind = (tagNode tag).1 := rfl
    rw [hopen, receive_of_cons rfl, if_pos hdepth]
    unfold close
    rw [if_neg (by simp [hflat])]
    dsimp only
    rw [OpenNode.finish_receive hitems, hkind]
    by_cases hitem : (tagNode tag).1 = "listItem"
    · have hmarks : takesMarks b.depth tag = true := by simp [takesMarks, hdepth, hitem]
      simp only [hmarks, if_pos hitem, if_true]
      rfl
    · have hmarks : takesMarks b.depth tag = false := by simp [takesMarks, hdepth, hitem]
      simp only [hmarks, if_neg hitem, if_neg Bool.false_ne_true]
      rfl

end TreeBuilder

mutual

theorem foldl_step_events : ∀ (p : Piece) (b : TreeBuilder), b.Steady →
    p.events.foldl TreeBuilder.step b = b.receive (p.marks b.depth) (p.items b.index b.depth)
  | .single e h, b, _ => TreeBuilder.step_single h b.depth
  | .construct tag first last content endFirst endLast, b, hb => by
    -- the content is read from where the start has left the builder, one construct deeper
    have hcontent := foldl_step_eventsOf content _ (hb.openTag tag (b.index.span first last))
    rw [TreeBuilder.depth_openTag, TreeBuilder.index_openTag] at hcontent
    rw [Piece.events, List.foldl_cons, List.foldl_append]
    change ((eventsOf content).foldl TreeBuilder.step
      (b.openTag tag (b.index.span first last))).close = _
    rw [hcontent, TreeBuilder.close_receive_openTag hb _ _ _ fun _ => regular_itemsOf]
    rfl

/-- A forest gives its marks and its items to what is open, and leaves everything else. -/
theorem foldl_step_eventsOf : ∀ (ps : List Piece) (b : TreeBuilder), b.Steady →
    (eventsOf ps).foldl TreeBuilder.step b =
      b.receive (marksOf b.depth ps) (itemsOf b.index b.depth ps)
  | [], b, _ => TreeBuilder.receive_nil.symm
  | p :: ps, b, hb => by
    rw [eventsOf, List.foldl_append, foldl_step_events p b hb,
      foldl_step_eventsOf ps _ (hb.receive _ _), TreeBuilder.depth_receive,
      TreeBuilder.index_receive, TreeBuilder.receive_receive]
    rfl

end

theorem steady_start (text : List Char) : (TreeBuilder.start text).Steady :=
  fun h => absurd h (Nat.lt_irrefl 0)

theorem build_eventsOf (text : List Char) (forest : List Piece) :
    TreeBuilder.build text (eventsOf forest) = readForest (LineIndex.ofChars text) forest := by
  let items := itemsOf (LineIndex.ofChars text) 0 forest
  have hnone : ∀ n ∈ ([] : List Node).head?, n.kind ≠ "text" := fun n hn => by cases hn
  have hroot : items.foldl OpenNode.receive (TreeBuilder.start text).root =
      ⟨"root", [], ((clusters items).map (·.toNode (LineIndex.ofChars text))).reverse ++ [],
        (LineIndex.ofChars text).whole, none⟩ :=
    (OpenNode.foldl_receive fun _ => regular_itemsOf).1 [] hnone
  unfold TreeBuilder.build
  rw [foldl_step_eventsOf forest _ (steady_start text), TreeBuilder.receive_of_nil rfl]
  unfold TreeBuilder.finish
  change (TreeBuilder.closeAll (items.foldl OpenNode.receive (TreeBuilder.start text).root)
    []).finish = _
  rw [hroot]
  simp [TreeBuilder.closeAll, OpenNode.finish, readForest, items]

/-! ### Ends and their starts -/

/-- The same constructs are open, whatever has come to be in them. -/
def TreeBuilder.SameOpen (b b' : TreeBuilder) : Prop :=
  List.Forall₂ OpenNode.SameConstruct b.stack b'.stack ∧ b.flattened = b'.flattened

/-- Every end has its start, and closes what that has opened: what is open before the end is what
is open after its start, and what is open after the end what is open before its start. -/
def EndsMeetStarts (text : List Char) (es : List Located) : Prop :=
  ∀ passed stop after tag, es = passed ++ stop :: after → stop.event = .end_ tag →
    ∃ before start content, passed = before ++ start :: content ∧ start.event = .start tag ∧
      WellNested content ∧
      let outside := before.foldl TreeBuilder.step (TreeBuilder.start text)
      let inside := content.foldl TreeBuilder.step (outside.step start)
      (outside.step start).SameOpen inside ∧ outside.SameOpen (inside.step stop)

mutual

theorem closesAll_events_append {outer : List Tag} {es : List Located} :
    ∀ p : Piece, closesAll outer (p.events ++ es) = closesAll outer es
  | .construct tag _ _ content _ _ => by
    rw [Piece.events, List.cons_append, List.append_assoc]
    change closesAll (tag :: outer) (eventsOf content ++ _) = _
    rw [closesAll_eventsOf_append content]
    simp [closesAll]
  | .single e h => by
    obtain ⟨event, first, last⟩ := e
    rw [Piece.events, List.singleton_append]
    cases event with
    | start tag | end_ tag => cases h
    | _ => simp [closesAll]

theorem closesAll_eventsOf_append {outer : List Tag} {es : List Located} :
    ∀ ps : List Piece, closesAll outer (eventsOf ps ++ es) = closesAll outer es
  | [] => rfl
  | p :: ps => by
    rw [eventsOf, List.append_assoc, closesAll_events_append p, closesAll_eventsOf_append ps]

end

theorem wellNested_eventsOf (forest : List Piece) : WellNested (eventsOf forest) := by
  have h := @closesAll_eventsOf_append [] [] forest
  rwa [List.append_nil] at h

/-- A place in a list that is put together is in its first part or in its second. -/
theorem of_append_eq_append_cons {xs ys passed after : List Located} {e : Located}
    (h : xs ++ ys = passed ++ e :: after) :
    (∃ between, xs = passed ++ e :: between) ∨
      ∃ between, passed = xs ++ between ∧ ys = between ++ e :: after := by
  rcases List.append_eq_append_iff.1 h with ⟨between, hpassed, hys⟩ | ⟨between, hxs, hrest⟩
  · exact .inr ⟨between, hpassed, hys⟩
  · cases between with
    | nil => exact .inr ⟨[], by simpa using hxs.symm, hrest.symm⟩
    | cons e' between =>
      obtain ⟨rfl, -⟩ := List.cons.inj hrest
      exact .inl ⟨between, hxs⟩

mutual

theorem exists_start_events {stop : Located} {tag : Tag} (hstop : stop.event = .end_ tag) :
    ∀ {p : Piece} {passed after : List Located}, p.events = passed ++ stop :: after →
      ∃ before start content, passed = before ++ start :: eventsOf content ∧
        start.event = .start tag
  | .single e he, passed, after, h => by
    have hmem : stop ∈ [e] := by
      rw [Piece.events] at h
      simp [h]
    rw [← List.mem_singleton.1 hmem, hstop] at he
    cases he
  | .construct outer first last content endFirst endLast, passed, after, h => by
    rw [Piece.events, ← List.cons_append] at h
    rcases of_append_eq_append_cons h with ⟨between, hinside⟩ | ⟨between, hpassed, hend⟩
    · cases passed with
      | nil =>
        obtain ⟨rfl, -⟩ := List.cons.inj hinside
        cases hstop
      | cons start passed =>
        obtain ⟨rfl, hcontent⟩ := List.cons.inj hinside
        obtain ⟨before, start, inner, rfl, hstart⟩ := exists_start_eventsOf hstop hcontent
        exact ⟨_ :: before, start, inner, rfl, hstart⟩
    · cases between with
      | nil =>
        obtain ⟨rfl, -⟩ := List.cons.inj hend
        cases hstop
        exact ⟨[], _, content, by simpa using hpassed, rfl⟩
      | cons _ between => simp at hend

theorem exists_start_eventsOf {stop : Located} {tag : Tag} (hstop : stop.event = .end_ tag) :
    ∀ {ps : List Piece} {passed after : List Located}, eventsOf ps = passed ++ stop :: after →
      ∃ before start content, passed = before ++ start :: eventsOf content ∧
        start.event = .start tag
  | [], passed, after, h => by
    rw [eventsOf] at h
    simp at h
  | p :: ps, passed, after, h => by
    rw [eventsOf] at h
    rcases of_append_eq_append_cons h with ⟨between, hp⟩ | ⟨between, hpassed, hps⟩
    · exact exists_start_events hstop hp
    · obtain ⟨before, start, content, rfl, hstart⟩ := exists_start_eventsOf hstop hps
      exact ⟨p.events ++ before, start, content, by simp [hpassed], hstart⟩

end

namespace TreeBuilder

variable {b : TreeBuilder}

theorem forall₂_checkAll (marks : List Bool) (stack : List OpenNode) :
    List.Forall₂ OpenNode.SameConstruct stack (checkAll marks stack) := by
  induction stack with
  | nil => simp
  | cons f stack ih =>
    rw [checkAll_cons]
    refine .cons (OpenNode.sameConstruct_foldl OpenNode.sameConstruct_mark f marks) ?_
    split
    · exact List.forall₂_same.2 fun _ _ => ⟨rfl, rfl⟩
    · exact ih

theorem sameOpen_receive (b : TreeBuilder) (marks : List Bool) (items : List Item) :
    b.SameOpen (b.receive marks items) := by
  refine ⟨?_, (flattened_receive marks items).symm⟩
  have hmarks := forall₂_checkAll marks b.stack
  cases hstack : b.stack with
  | nil => simp [receive_of_nil hstack, hstack]
  | cons f stack =>
    rw [hstack, checkAll_cons] at hmarks
    rw [receive_of_cons hstack]
    cases hmarks with
    | cons hframe hrest =>
      have hfilled := OpenNode.sameConstruct_foldl OpenNode.sameConstruct_receive
        (marks.foldl OpenNode.mark f) items
      exact .cons ⟨hframe.1.trans hfilled.1, hframe.2.trans hfilled.2⟩ hrest

theorem Steady.close (h : b.Steady) : b.close.Steady := by
  unfold TreeBuilder.close
  split
  · rename_i hflat
    exact fun _ => h hflat
  · rename_i hflat
    split
    · exact h
    · intro hpos
      exact absurd hpos (by simpa [TreeBuilder.attach] using hflat)

theorem Steady.step (h : b.Steady) (e : Located) : (b.step e).Steady := by
  by_cases hsingle : e.event.isSingle = true
  · rw [step_single hsingle b.depth]
    exact h.receive _ _
  · obtain ⟨event, first, last⟩ := e
    cases event with
    | start tag => exact h.openTag tag _
    | end_ tag => exact h.close
    | _ => exact absurd rfl hsingle

theorem steady_foldl (h : b.Steady) (es : List Located) :
    (es.foldl TreeBuilder.step b).Steady := by
  induction es generalizing b with
  | nil => exact h
  | cons e es ih => exact ih (h.step e)

end TreeBuilder

theorem endsMeetStarts {text : List Char} {es : List Located} (h : WellNested es) :
    EndsMeetStarts text es := by
  intro passed stop after tag hes hstop
  obtain ⟨forest, hforest⟩ := exists_forest h
  obtain ⟨before, start, content, rfl, hstart⟩ := exists_start_eventsOf hstop (hforest ▸ hes)
  refine ⟨before, start, eventsOf content, rfl, hstart, wellNested_eventsOf content, ?_⟩
  intro outside inside
  have hsteady : outside.Steady := TreeBuilder.steady_foldl (steady_start text) before
  have hinside := foldl_step_eventsOf content _ (hsteady.step start)
  have hopen : outside.step start =
      outside.openTag tag (outside.index.span start.first start.last) := by
    unfold TreeBuilder.step
    rw [hstart]
  have hclose : inside.step stop = inside.close := by
    unfold TreeBuilder.step
    rw [hstop]
  refine ⟨?_, ?_⟩
  · change (outside.step start).SameOpen ((eventsOf content).foldl TreeBuilder.step _)
    rw [hinside]
    exact TreeBuilder.sameOpen_receive _ _ _
  · rw [hclose]
    change outside.SameOpen ((eventsOf content).foldl TreeBuilder.step (outside.step start)).close
    rw [hinside, hopen, TreeBuilder.close_receive_openTag hsteady]
    · exact TreeBuilder.sameOpen_receive _ _ _
    · intro item hitem
      rw [TreeBuilder.index_openTag] at hitem
      exact regular_itemsOf hitem

/-- Well-nested events are those of a forest, and the builder makes the tree that the forest reads
as.  Each end closes the construct that its start has opened. -/
theorem build_eq_readForest {text : List Char} {es : List Located} (h : WellNested es) :
    (∃ forest, es = eventsOf forest) ∧
      (∀ forest, es = eventsOf forest →
        TreeBuilder.build text es = readForest (LineIndex.ofChars text) forest) ∧
      EndsMeetStarts text es := by
  refine ⟨exists_forest h, ?_, endsMeetStarts h⟩
  rintro forest rfl
  exact build_eventsOf text forest

/-- A list item with a mark, texts in two lines and an image. -/
def taskForest : List Piece :=
  [.construct .item 0 17
    [.single ⟨.taskListMarker true, 2, 5⟩ rfl, .single ⟨.text "a", 6, 7⟩ rfl,
      .single ⟨.softBreak, 7, 8⟩ rfl, .single ⟨.text "b", 8, 9⟩ rfl,
      .construct (.image "d" "") 9 15 [.single ⟨.code "c", 11, 12⟩ rfl] 9 15] 0 17]

theorem build_taskForest : WellNested (eventsOf taskForest) ∧
    TreeBuilder.build "- [x] a\nb![`c`](d)".toList (eventsOf taskForest) =
      readForest (LineIndex.ofChars "- [x] a\nb![`c`](d)".toList) taskForest :=
  have h : WellNested (eventsOf taskForest) := by decide
  ⟨h, (build_eq_readForest h).2.1 taskForest rfl⟩

end DocSchema
