/-
  DocSchema/Proofs/Document/Conservation.lean
  ===========================================
  **No text is lost on the way into the tree.**

  The texts that events carry reach the tree by different ways: they go on with the text before
  them, they make a node of their own, or a literal block collects them.  Which it is depends on
  what is around them and beside them.  All the same, the values of the tree one after the other are
  those texts one after the other (`build_keeps_text`), but for the line feed that a literal block
  loses at its end.

  The proof is about the forest that well-nested events are those of (`exists_forest`).  A list of
  items yields parts of the text (`Yields`), which may be joined with others but stay in their order
  (`exists_kept`); so each piece of the forest yields what its events carry (`Piece.Conserves`).
-/
import DocSchema.Proofs.Document.Forest

namespace DocSchema

open DocSchema.Json DocSchema.Markdown

/-! ### Texts of events and values of nodes -/

/-- The text that an event carries; a soft break is a line feed. -/
def Markdown.Event.payload? : Event → Option String
  | .text x => some x
  | .code x => some x
  | .html x => some x
  | .inlineHtml x => some x
  | .softBreak => some "\n"
  | _ => none

/-- The texts that events carry, one after the other. -/
def payloads (es : List Located) : String :=
  String.join (es.filterMap (·.event.payload?))

/-- The values of the nodes of a tree, each before those of its children. -/
def Node.values (n : Node) : List String :=
  n.preorder.filterMap fun m => (m.fields.get? "value").bind Value.asString?

/-- Whether a construct is a block of code, of HTML or of metadata. -/
def Markdown.Tag.isLiteralBlock : Tag → Bool
  | .codeBlock _ => true
  | .htmlBlock => true
  | .metadataBlock => true
  | _ => false

/-- None of the constructs is an image. -/
def WithoutImages (es : List Located) : Prop :=
  ∀ e ∈ es, ∀ url title, e.event ≠ .start (.image url title)

/-- Whether literal blocks have nothing but events that carry text before their end; the first
argument tells whether such a block is open. -/
def blocksHoldText : Bool → List Located → Bool
  | _, [] => true
  | false, e :: es =>
    match e.event with
    | .start tag => blocksHoldText tag.isLiteralBlock es
    | _ => blocksHoldText false es
  | true, e :: es =>
    match e.event with
    | .end_ _ => blocksHoldText false es
    | event => event.payload?.isSome && blocksHoldText true es

/-! ### Parts -/

/-- A character of a text, or one of the two ends of a literal block. -/
inductive Symbol where
  | char (c : Char)
  | opening
  | closing
  deriving DecidableEq, Repr

/-- What events carry, with the ends of those literal blocks that have a node. -/
def transcript : Nat → List Located → List Symbol
  | _, [] => []
  | depth, e :: es =>
    match e.event with
    | .start tag =>
      (if tag.isLiteralBlock && depth < maxDepth then [.opening] else []) ++
        transcript (depth + 1) es
    | .end_ tag =>
      (if tag.isLiteralBlock && depth - 1 < maxDepth then [.closing] else []) ++
        transcript (depth - 1) es
    | event => (event.payload?.getD "").toList.map .char ++ transcript depth es

/-- A part of the text that falls to one node. -/
structure Portion where
  text : String
  /-- Whether it is all that falls to a literal block. -/
  isBlock : Bool

namespace Portion

/-- The value of the node: a literal block has lost the line feed at its end. -/
def value (p : Portion) : String :=
  if p.isBlock && p.text.toList.getLast? == some '\n' then String.ofList p.text.toList.dropLast
  else p.text

def transcript (p : Portion) : List Symbol :=
  if p.isBlock then .opening :: (p.text.toList.map .char ++ [.closing])
  else p.text.toList.map .char

end Portion

/-- The values of a tree are the parts of the text that events carry, in their order.  Each literal
block is a part by itself, in its place; it has lost the line feed at its end, and nothing else is
lost. -/
def KeepsText (es : List Located) (tree : Node) : Prop :=
  ∃ parts : List Portion, tree.values = parts.map Portion.value ∧
    String.join (parts.map (·.text)) = payloads es ∧
    parts.flatMap Portion.transcript = transcript 0 es

/-! ### Characters of a transcript -/

namespace Symbol

def chars (symbols : List Symbol) : List Char :=
  symbols.filterMap fun
    | .char c => some c
    | _ => none

theorem chars_append (xs ys : List Symbol) : chars (xs ++ ys) = chars xs ++ chars ys :=
  List.filterMap_append

theorem chars_map_char (cs : List Char) : chars (cs.map .char) = cs := by
  simp [chars, List.filterMap_map]

end Symbol

theorem payloads_cons (e : Located) (es : List Located) :
    payloads (e :: es) = e.event.payload?.getD "" ++ payloads es := by
  unfold payloads
  rw [List.filterMap_cons]
  cases e.event.payload? with
  | none => simp
  | some text => simp

theorem payloads_append (es es' : List Located) :
    payloads (es ++ es') = payloads es ++ payloads es' := by
  simp [payloads]

theorem transcript_cons_of_isSingle {e : Located} (h : e.event.isSingle = true) (depth : Nat)
    (es : List Located) : transcript depth (e :: es) =
      (e.event.payload?.getD "").toList.map .char ++ transcript depth es := by
  obtain ⟨event, first, last⟩ := e
  cases event with
  | start _ | end_ _ => cases h
  | _ => rfl

theorem chars_transcript (depth : Nat) (es : List Located) :
    Symbol.chars (transcript depth es) = (payloads es).toList := by
  induction es generalizing depth with
  | nil => rfl
  | cons e es ih =>
    rw [payloads_cons, String.toList_append]
    by_cases hsingle : e.event.isSingle = true
    · rw [transcript_cons_of_isSingle hsingle, Symbol.chars_append, Symbol.chars_map_char, ih]
    · obtain ⟨event, first, last⟩ := e
      cases event with
      | start tag | end_ tag =>
        -- the end of a block is no character
        rw [transcript, Symbol.chars_append, ih]
        congr 1
        split <;> rfl
      | _ => exact absurd rfl hsingle

theorem chars_flatMap_transcript (parts : List Portion) :
    Symbol.chars (parts.flatMap Portion.transcript) =
      (String.join (parts.map (·.text))).toList := by
  induction parts with
  | nil => rfl
  | cons p parts ih =>
    obtain ⟨text, isBlock⟩ := p
    rw [List.flatMap_cons, Symbol.chars_append, ih]
    cases isBlock with
    | false => simp [Portion.transcript, Symbol.chars_map_char]
    | true =>
      have hblock : Symbol.chars (Portion.transcript ⟨text, true⟩) = text.toList := by
        simp only [Portion.transcript, if_true]
        change Symbol.chars ([.opening] ++ (text.toList.map .char ++ [.closing])) = _
        rw [Symbol.chars_append, Symbol.chars_append, Symbol.chars_map_char]
        simp [Symbol.chars]
      rw [hblock]
      simp

/-! ### Values of nodes -/

namespace Node

theorem values_mk (kind : String) (fields : Object) (children : List Node) (span : Span) :
    (⟨kind, fields, children, span⟩ : Node).values =
      ((fields.get? "value").bind Value.asString?).toList ++ children.flatMap values := by
  unfold values
  rw [preorder, List.filterMap_cons, filterMap_preorderAll]
  cases (fields.get? "value").bind Value.asString? <;> rfl

end Node

theorem get?_value_tagNode (tag : Tag) : (tagNode tag).2.1.get? "value" = none := by
  cases tag with
  | list start => cases start <;> rfl
  | _ => rfl

theorem literal_of_isLiteralBlock {tag : Tag} (h : tag.isLiteralBlock = true) :
    (tagNode tag).2.2 = some "value" := by
  cases tag with
  | codeBlock _ | htmlBlock | metadataBlock => rfl
  | _ => cases h

theorem get?_value_checkedFields (marks : List Bool) (fields : Object) :
    (checkedFields marks fields).get? "value" = fields.get? "value" := by
  unfold checkedFields
  cases marks.getLast? with
  | none => rfl
  | some checked => exact Object.get?_insert_of_ne _ _ (by decide)

theorem values_readConstruct_of_none (ix : LineIndex) {tag : Tag} (span : Span)
    (marks : List Bool) (items : List Item) (h : (tagNode tag).2.2 = none) :
    (readConstruct ix tag span marks items).values =
      ((clusters items).map (·.toNode ix)).flatMap Node.values := by
  unfold readConstruct
  simp only [h]
  rw [Node.values_mk, get?_value_checkedFields, get?_value_tagNode]
  rfl

theorem values_readConstruct_of_literal (ix : LineIndex) {tag : Tag} (span : Span)
    (marks : List Bool) {items : List Item} (h : (tagNode tag).2.2 = some "value")
    (hitems : uncollected items = []) :
    (readConstruct ix tag span marks items).values =
      [OpenNode.dropLineFeed (collected items)] := by
  unfold readConstruct literalFields
  simp only [h]
  rw [Node.values_mk, Object.get?_insert_self, hitems]
  rfl

/-- The value of a literal block is the part that falls to it. -/
theorem dropLineFeed_eq (text : String) :
    OpenNode.dropLineFeed text = Portion.value ⟨text, true⟩ := by
  unfold OpenNode.dropLineFeed Portion.value
  obtain hnil | ⟨init, c, hc⟩ := text.toList.eq_nil_or_concat
  · simp [hnil]
  · rw [List.concat_eq_append] at hc
    by_cases hlf : c = '\n'
    · simp [hc, hlf]
    · simp [hc, hlf]

/-! ### What items yield -/

/-- The items yield the parts, in their order: a text or a payload is one part, and a node has its
values from any number of them. -/
inductive Yields : List Item → List Portion → Prop
  | nil : Yields [] []
  | run (text : String) (span : Span) {items : List Item} {parts : List Portion}
      (h : Yields items parts) : Yields (.run text span :: items) (⟨text, false⟩ :: parts)
  | payload {text : String} {n : Node} (hn : n.values = [text]) {items : List Item}
      {parts : List Portion} (h : Yields items parts) :
      Yields (.payload text n :: items) (⟨text, false⟩ :: parts)
  | node {n : Node} {own : List Portion} (hn : n.values = own.map Portion.value) {items : List Item}
      {parts : List Portion} (h : Yields items parts) : Yields (.node n :: items) (own ++ parts)

/-- The clusters have the parts for their values. -/
inductive Kept : List Cluster → List Portion → Prop
  | nil : Kept [] []
  | texts (text : String) (span : Span) (more : List (String × Span)) {cs : List Cluster}
      {parts : List Portion} (h : Kept cs parts) :
      Kept (.texts text span more :: cs) (⟨String.join (text :: more.map (·.1)), false⟩ :: parts)
  | node {n : Node} {own : List Portion} (hn : n.values = own.map Portion.value) {cs : List Cluster}
      {parts : List Portion} (h : Kept cs parts) : Kept (.node n :: cs) (own ++ parts)

variable {ix : LineIndex} {items items' : List Item} {parts parts' : List Portion}

theorem Yields.append (h : Yields items parts) (h' : Yields items' parts') :
    Yields (items ++ items') (parts ++ parts') := by
  induction h with
  | nil => exact h'
  | run text span _ ih => exact .run text span ih
  | payload hn _ ih => exact .payload hn ih
  | node hn _ ih =>
    rw [List.cons_append, List.append_assoc]
    exact .node hn ih

theorem Kept.goOn {cs : List Cluster} (h : Kept cs parts) (text : String) (span : Span) :
    ∃ parts', Kept (goOn text span [] cs) parts' ∧
      parts'.flatMap Portion.transcript =
        text.toList.map .char ++ parts.flatMap Portion.transcript := by
  cases h with
  | nil => exact ⟨_, .texts text span [] .nil, by simp [Portion.transcript]⟩
  | texts text' span' more h =>
    exact ⟨_, .texts text span ((text', span') :: more) h, by simp [Portion.transcript]⟩
  | node hn h =>
    refine ⟨_, .texts text span [] (.node hn h), ?_⟩
    simp [Portion.transcript]

/-- Texts side by side become one part, which does not change what is written. -/
theorem exists_kept (h : Yields items parts) : ∃ parts', Kept (clusters items) parts' ∧
    parts'.flatMap Portion.transcript = parts.flatMap Portion.transcript := by
  induction h with
  | nil => exact ⟨[], .nil, rfl⟩
  | run text span _ ih =>
    obtain ⟨parts', hkept, heq⟩ := ih
    obtain ⟨parts'', hkept, heq'⟩ := hkept.goOn text span
    refine ⟨parts'', hkept, heq'.trans ?_⟩
    rw [heq, List.flatMap_cons]
    rfl
  | @payload text n hn _ _ _ ih =>
    obtain ⟨parts', hkept, heq⟩ := ih
    have hvalue : n.values = [Portion.mk text false].map Portion.value := by
      simp [hn, Portion.value]
    refine ⟨_, .node hvalue hkept, ?_⟩
    rw [List.flatMap_append, heq]
    simp
  | node hn _ ih =>
    obtain ⟨parts', hkept, heq⟩ := ih
    refine ⟨_, .node hn hkept, ?_⟩
    rw [List.flatMap_append, heq, List.flatMap_append]

theorem Kept.values {cs : List Cluster} (h : Kept cs parts) (ix : LineIndex) :
    (cs.map (·.toNode ix)).flatMap Node.values = parts.map Portion.value := by
  induction h with
  | nil => rfl
  | texts text span more _ ih =>
    have hjoined : (joined ix text span more).values = [String.join (text :: more.map (·.1))] := by
      rw [joined, Node.values_mk]
      rfl
    rw [List.map_cons, List.flatMap_cons, ih, Cluster.toNode, hjoined]
    rfl
  | node hn _ ih => rw [List.map_cons, List.flatMap_cons, ih, Cluster.toNode, hn, List.map_append]

/-- A literal block collects all parts if no item is a node. -/
theorem Yields.collected (h : Yields items parts) (hitems : ∀ n, Item.node n ∉ items) :
    uncollected items = [] ∧
      parts.flatMap Portion.transcript = (collected items).toList.map .char := by
  induction h with
  | nil => exact ⟨rfl, rfl⟩
  | run text span _ ih | payload _ _ ih =>
    obtain ⟨hnone, heq⟩ := ih fun n hn => hitems n (List.mem_cons_of_mem _ hn)
    refine ⟨hnone, ?_⟩
    rw [List.flatMap_cons, heq]
    simp [DocSchema.collected, Portion.transcript]
  | node hn _ ih => exact absurd List.mem_cons_self (hitems _)

/-! ### Pieces -/

/-- Whether the piece is an event that carries text. -/
def Piece.isText : Piece → Bool
  | .construct _ _ _ _ _ _ => false
  | .single e _ => e.event.payload?.isSome

/-- A piece without images, whose literal blocks hold nothing but text. -/
inductive Piece.Plain : Piece → Prop
  | single (e : Located) (h : e.event.isSingle = true) : Plain (.single e h)
  | literal {tag : Tag} {first last endFirst endLast : Nat} {content : List Piece}
      (htag : tag.isLiteralBlock = true) (hcontent : ∀ p ∈ content, p.isText = true) :
      Plain (.construct tag first last content endFirst endLast)
  | other {tag : Tag} {first last endFirst endLast : Nat} {content : List Piece}
      (htag : tag.isLiteralBlock = false) (hnone : (tagNode tag).2.2 = none)
      (hcontent : ∀ p ∈ content, Plain p) :
      Plain (.construct tag first last content endFirst endLast)

/-- What a literal block holds is text, up to its end. -/
theorem isText_of_blocksHoldText {tag : Tag} {endFirst endLast : Nat} {es : List Located}
    {content : List Piece}
    (h : blocksHoldText true (eventsOf content ++ ⟨.end_ tag, endFirst, endLast⟩ :: es) = true) :
    (∀ p ∈ content, p.isText = true) ∧ blocksHoldText false es = true := by
  induction content with
  | nil => exact ⟨fun p hp => absurd hp List.not_mem_nil, h⟩
  | cons p content ih =>
    cases p with
    | construct tag' first last inner endFirst' endLast' => cases h
    | single e hsingle =>
      have hevent : e.event.payload?.isSome = true ∧ blocksHoldText true
          (eventsOf content ++ ⟨.end_ tag, endFirst, endLast⟩ :: es) = true := by
        obtain ⟨event, first, last⟩ := e
        cases event with
        | start _ | end_ _ => cases hsingle
        | _ => exact Bool.and_eq_true_iff.1 h
      obtain ⟨hcontent, hes⟩ := ih hevent.2
      exact ⟨List.forall_mem_cons.2 ⟨hevent.1, hcontent⟩, hes⟩

theorem literal_of_not_isLiteralBlock {tag : Tag} (himage : ∀ url title, tag ≠ .image url title)
    (h : tag.isLiteralBlock = false) : (tagNode tag).2.2 = none := by
  cases tag with
  | codeBlock _ | htmlBlock | metadataBlock => cases h
  | image url title => exact absurd rfl (himage url title)
  | list start => cases start <;> rfl
  | _ => rfl

mutual

theorem Piece.plain_of_events : ∀ {p : Piece} {es : List Located}, WithoutImages p.events →
    blocksHoldText false (p.events ++ es) = true → p.Plain ∧ blocksHoldText false es = true
  | .single e hsingle, es, _, h => by
    refine ⟨.single e hsingle, ?_⟩
    obtain ⟨event, first, last⟩ := e
    cases event with
    | start _ | end_ _ => cases hsingle
    | _ => exact h
  | .construct tag first last content endFirst endLast, es, himages, h => by
    rw [Piece.events] at himages
    obtain ⟨hstart, hrest⟩ := List.forall_mem_cons.1 himages
    have hcontent : WithoutImages (eventsOf content) := fun e he =>
      hrest e (List.mem_append_left _ he)
    have hscan : blocksHoldText tag.isLiteralBlock
        (eventsOf content ++ ⟨.end_ tag, endFirst, endLast⟩ :: es) = true := by
      rw [Piece.events, List.cons_append, List.append_assoc] at h
      exact h
    cases htag : tag.isLiteralBlock with
    | true =>
      rw [htag] at hscan
      obtain ⟨htext, hes⟩ := isText_of_blocksHoldText hscan
      exact ⟨.literal htag htext, hes⟩
    | false =>
      rw [htag] at hscan
      have hnone := literal_of_not_isLiteralBlock (fun url title heq => by
        subst heq
        exact hstart url title rfl) htag
      obtain ⟨hplain, hes⟩ := plain_of_eventsOf hcontent hscan
      exact ⟨.other htag hnone hplain, hes⟩

theorem plain_of_eventsOf : ∀ {ps : List Piece} {es : List Located}, WithoutImages (eventsOf ps) →
    blocksHoldText false (eventsOf ps ++ es) = true →
      (∀ p ∈ ps, p.Plain) ∧ blocksHoldText false es = true
  | [], es, _, h => ⟨fun p hp => absurd hp List.not_mem_nil, h⟩
  | p :: ps, es, himages, h => by
    rw [eventsOf] at himages
    rw [eventsOf, List.append_assoc] at h
    obtain ⟨himage, himages⟩ := List.forall_mem_append.1 himages
    obtain ⟨hp, hrest⟩ := Piece.plain_of_events himage h
    obtain ⟨hps, hes⟩ := plain_of_eventsOf himages hrest
    exact ⟨List.forall_mem_cons.2 ⟨hp, hps⟩, hes⟩

end

/-! ### What pieces yield -/

/-- The items yield what the events carry, with `depth` constructs around them. -/
def Conserves (depth : Nat) (items : List Item) (events : List Located) : Prop :=
  ∃ parts, Yields items parts ∧ ∀ es,
    transcript depth (events ++ es) = parts.flatMap Portion.transcript ++ transcript depth es

theorem conserves_single (ix : LineIndex) {e : Located} (h : e.event.isSingle = true)
    (depth : Nat) :
    Conserves depth ((Piece.single e h).items ix depth) (Piece.single e h).events := by
  have hevents : ∀ parts : List Portion,
      parts.flatMap Portion.transcript = (e.event.payload?.getD "").toList.map .char → ∀ es,
        transcript depth ((Piece.single e h).events ++ es) =
          parts.flatMap Portion.transcript ++ transcript depth es := by
    intro parts hparts es
    rw [Piece.events, List.singleton_append, transcript_cons_of_isSingle h, hparts]
  have hpart : ∀ text, [Portion.mk text false].flatMap Portion.transcript = text.toList.map .char :=
    fun text => List.append_nil _
  obtain ⟨event, first, last⟩ := e
  cases event with
  | start _ | end_ _ => cases h
  | text x => exact ⟨_, .run x _ .nil, hevents _ (hpart x)⟩
  | softBreak => exact ⟨_, .run "\n" _ .nil, hevents _ (hpart "\n")⟩
  | code x | html x | inlineHtml x => exact ⟨_, .payload rfl .nil, hevents _ (hpart x)⟩
  | footnoteReference _ | hardBreak | rule =>
    exact ⟨[] ++ [], .node rfl .nil, hevents _ rfl⟩
  | taskListMarker _ | foreign => exact ⟨_, .nil, hevents _ rfl⟩

theorem conserves_eventsOf {ix : LineIndex} {depth : Nat} {ps : List Piece}
    (h : ∀ p ∈ ps, Conserves depth (p.items ix depth) p.events) :
    Conserves depth (itemsOf ix depth ps) (eventsOf ps) := by
  induction ps with
  | nil => exact ⟨_, .nil, fun es => rfl⟩
  | cons p ps ih =>
    obtain ⟨hp, hps⟩ := List.forall_mem_cons.1 h
    obtain ⟨parts, hparts, heq⟩ := hp
    obtain ⟨parts', hparts', heq'⟩ := ih hps
    refine ⟨parts ++ parts', hparts.append hparts', fun es => ?_⟩
    rw [eventsOf, List.append_assoc, heq, heq', List.flatMap_append, List.append_assoc]

theorem node_not_mem_itemsOf {ix : LineIndex} {depth : Nat} {content : List Piece}
    (h : ∀ p ∈ content, p.isText = true) (n : Node) : Item.node n ∉ itemsOf ix depth content := by
  induction content with
  | nil => exact List.not_mem_nil
  | cons p content ih =>
    obtain ⟨hp, hcontent⟩ := List.forall_mem_cons.1 h
    have hfirst : Item.node n ∉ p.items ix depth := by
      cases p with
      | construct _ _ _ _ _ _ => cases hp
      | single e _ =>
        obtain ⟨event, first, last⟩ := e
        cases event with
        | text _ | code _ | html _ | inlineHtml _ | softBreak =>
          simp [Piece.items, itemOf?, Event.leaf?]
        | _ => cases hp
    rw [itemsOf]
    exact fun hmem => (List.mem_append.1 hmem).elim hfirst (ih hcontent)

/-- What a construct does to the depth is undone by its end. -/
theorem transcript_construct {tag : Tag} {first last endFirst endLast depth : Nat}
    {content : List Piece} {symbols : List Symbol}
    (h : ∀ es, transcript (depth + 1) (eventsOf content ++ es) =
      symbols ++ transcript (depth + 1) es) (es : List Located) :
    transcript depth ((Piece.construct tag first last content endFirst endLast).events ++ es) =
      (if tag.isLiteralBlock && depth < maxDepth then [.opening] else []) ++ symbols ++
        (if tag.isLiteralBlock && depth < maxDepth then [.closing] else []) ++
        transcript depth es := by
  rw [Piece.events, List.cons_append, List.append_assoc, transcript, h]
  simp only [List.singleton_append, transcript, Nat.add_sub_cancel, List.append_assoc]

/-- What a construct holds that is too deep falls to what is around it. -/
theorem conserves_of_deep {ix : LineIndex} {tag : Tag} {first last endFirst endLast depth : Nat}
    {content : List Piece} (hdepth : ¬ depth < maxDepth)
    (h : Conserves (depth + 1) (itemsOf ix (depth + 1) content) (eventsOf content)) :
    Conserves depth ((Piece.construct tag first last content endFirst endLast).items ix depth)
      (Piece.construct tag first last content endFirst endLast).events := by
  obtain ⟨parts, hyields, hevents⟩ := h
  rw [Piece.items, if_neg hdepth]
  refine ⟨parts, hyields, fun es => ?_⟩
  rw [transcript_construct hevents]
  simp [hdepth]

/-- A plain piece yields what its events carry, however deep it is. -/
theorem Piece.Plain.conserves {ix : LineIndex} {p : Piece} (h : p.Plain) (depth : Nat) :
    Conserves depth (p.items ix depth) p.events := by
  induction h generalizing depth with
  | single e h => exact conserves_single ix h depth
  | @literal tag first last endFirst endLast content htag hcontent =>
    have hconserves :
        Conserves (depth + 1) (itemsOf ix (depth + 1) content) (eventsOf content) := by
      refine conserves_eventsOf fun p hp => ?_
      cases p with
      | construct => exact absurd (hcontent _ hp) Bool.false_ne_true
      | single e h => exact conserves_single ix h (depth + 1)
    by_cases hdepth : depth < maxDepth
    · -- the block is one part
      obtain ⟨parts, hyields, hevents⟩ := hconserves
      obtain ⟨hnone, hcollected⟩ := hyields.collected (node_not_mem_itemsOf hcontent)
      have hvalues := values_readConstruct_of_literal ix (ix.span first last)
        (if takesMarks depth tag then marksOf (depth + 1) content else [])
        (literal_of_isLiteralBlock htag) hnone
      rw [dropLineFeed_eq] at hvalues
      rw [Piece.items, if_pos hdepth]
      refine ⟨[⟨collected (itemsOf ix (depth + 1) content), true⟩] ++ [], .node hvalues .nil,
        fun es => ?_⟩
      rw [transcript_construct hevents, hcollected]
      simp [htag, hdepth, Portion.transcript]
    · exact conserves_of_deep hdepth hconserves
  | @other tag first last endFirst endLast content htag hnone _ ih =>
    have hconserves := conserves_eventsOf fun p hp => ih p hp (depth + 1)
    by_cases hdepth : depth < maxDepth
    · obtain ⟨parts, hyields, hevents⟩ := hconserves
      obtain ⟨parts', hkept, hsame⟩ := exists_kept hyields
      have hvalues := values_readConstruct_of_none ix (ix.span first last)
        (if takesMarks depth tag then marksOf (depth + 1) content else [])
        (itemsOf ix (depth + 1) content) hnone
      rw [hkept.values] at hvalues
      rw [Piece.items, if_pos hdepth]
      refine ⟨_, .node hvalues .nil, fun es => ?_⟩
      rw [transcript_construct hevents, List.append_nil, hsame]
      simp [htag]
    · exact conserves_of_deep hdepth hconserves

/-! ### Trees -/

theorem keepsText_readForest (ix : LineIndex) {forest : List Piece} (h : ∀ p ∈ forest, p.Plain) :
    KeepsText (eventsOf forest) (readForest ix forest) := by
  have hconserves : Conserves 0 (itemsOf ix 0 forest) (eventsOf forest) :=
    conserves_eventsOf fun p hp => (h p hp).conserves 0
  obtain ⟨parts, hyields, hevents⟩ := hconserves
  obtain ⟨parts', hkept, hsame⟩ := exists_kept hyields
  have htranscript : parts'.flatMap Portion.transcript = transcript 0 (eventsOf forest) := by
    have hall := hevents []
    rw [List.append_nil, transcript, List.append_nil] at hall
    rw [hsame, hall]
  refine ⟨parts', ?_, ?_, htranscript⟩
  · rw [readForest, Node.values_mk]
    exact hkept.values ix
  · rw [← String.toList_inj, ← chars_flatMap_transcript, htranscript, chars_transcript]

/-- **No text is lost, doubled or moved by the builder.**  For well-nested events without images,
whose literal blocks hold nothing but text, the values of the tree are parts of the text that the
events carry, and put together they are all of it.  A part that is a literal block has lost the line
feed at its end. -/
theorem build_keeps_text {es : List Located} (h : WellNested es) (himages : WithoutImages es)
    (hblocks : blocksHoldText false es = true) (text : List Char) :
    KeepsText es (TreeBuilder.build text es) := by
  obtain ⟨forest, rfl⟩ := exists_forest h
  rw [← List.append_nil (eventsOf forest)] at hblocks
  obtain ⟨hplain, -⟩ := plain_of_eventsOf himages hblocks
  rw [build_eventsOf]
  exact keepsText_readForest _ hplain

/-- Texts in two lines, and a block of code that ends with an empty line. -/
theorem code_block_keeps_text :
    let es : List Located := [⟨.start .paragraph, 0, 8⟩, ⟨.text "a", 0, 1⟩, ⟨.softBreak, 1, 2⟩,
      ⟨.text "b", 2, 3⟩, ⟨.code "c", 4, 7⟩, ⟨.end_ .paragraph, 0, 8⟩,
      ⟨.start (.codeBlock none), 9, 20⟩, ⟨.text "d\n", 13, 15⟩, ⟨.text "\n", 15, 16⟩,
      ⟨.end_ (.codeBlock none), 9, 20⟩]
    KeepsText es (TreeBuilder.build [] es) ∧ payloads es = "a\nbcd\n\n" ∧
      (TreeBuilder.build [] es).values = ["a\nb", "c", "d\n"] := by
  intro es
  have himages : WithoutImages es := by
    intro e he url title heq
    simp only [es, List.mem_cons, List.not_mem_nil, or_false] at he
    rcases he with rfl | rfl | rfl | rfl | rfl | rfl | rfl | rfl | rfl | rfl <;> cases heq
  refine ⟨build_keeps_text (by decide) himages (by decide) [], by decide, by decide +kernel⟩

end DocSchema
