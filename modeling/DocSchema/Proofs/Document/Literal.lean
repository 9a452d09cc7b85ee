/-
  DocSchema/Proofs/Document/Literal.lean
  ======================================
  **What literal constructs collect.**

  Every node but the root and the texts is made by one event or by one construct of the document
  (`Provenance`), and every construct that is not too deep makes one (`Construct.exists_node`).  The
  node of a literal construct has the texts that fall to its frame for its value.  A construct
  inside of it has a frame of its own, as long as there is room, and takes the texts that are in it;
  so the value has all of the text wherever the node has no children (`Construct.Collects`).  Blocks
  of code, of HTML and of metadata hold nothing but text and never have any; an image has children
  as soon as there is markup in its description (`exists_image_with_children`).
-/
import DocSchema.Proofs.Markdown.Nesting

namespace DocSchema

open DocSchema.Json DocSchema.Markdown

/-! ### Constructs -/

/-- The constructs that are open after some events, innermost first, by the events that opened
them. -/
def openAfter (es : List Located) : List Located :=
  es.foldl (fun outer e => e.enter outer) []

/-- A construct of a sequence of events, with what comes before and after it. -/
structure Construct (es : List Located) where
  before : List Located
  start : Located
  content : List Located
  stop : Located
  after : List Located
  tag : Tag
  split : es = before ++ start :: (content ++ stop :: after)
  opening : start.event = .start tag
  closing : stop.event = .end_ tag
  nested : WellNested content

/-- The events that are in no construct, where some constructs have been opened already. -/
def outermost : Nat → List Located → List Located
  | _, [] => []
  | inner, e :: es =>
    match e.event with
    | .start _ => outermost (inner + 1) es
    | .end_ _ => outermost (inner - 1) es
    | _ => if inner = 0 then e :: outermost inner es else outermost inner es

namespace Construct

variable {es : List Located}

/-- The number of constructs around it. -/
def depth (c : Construct es) : Nat :=
  (openAfter c.before).length

/-- Whether constructs in it have nodes of their own. -/
def roomy (c : Construct es) : Bool :=
  c.depth + 1 < maxDepth

/-- The events in it that are in no construct with a node of its own. -/
def own (c : Construct es) : List Located :=
  if c.roomy then outermost 0 c.content else c.content

end Construct

/-- Whether an event in a literal construct makes a node. -/
def Markdown.Event.makesNode (roomy : Bool) : Event → Bool
  | .start _ => roomy
  | .footnoteReference _ | .hardBreak | .rule => true
  | _ => false

theorem openAfter_append_start (before : List Located) (tag : Tag) (first last : Nat) :
    openAfter (before ++ [⟨.start tag, first, last⟩]) =
      ⟨.start tag, first, last⟩ :: openAfter before := by
  simp [openAfter, Located.enter]

mutual

theorem Piece.foldl_enter : ∀ (p : Piece) (outer : List Located),
    p.events.foldl (fun outer e => e.enter outer) outer = outer
  | .construct tag first last content _ _, outer => by
    rw [Piece.events, List.foldl_cons, List.foldl_append]
    change [_].foldl _ ((eventsOf content).foldl _ (_ :: outer)) = outer
    rw [foldl_enter content]
    rfl
  | .single e h, outer => by
    obtain ⟨event, first, last⟩ := e
    cases event with
    | start _ | end_ _ => cases h
    | _ => rfl

theorem foldl_enter : ∀ (ps : List Piece) (outer : List Located),
    (eventsOf ps).foldl (fun outer e => e.enter outer) outer = outer
  | [], _ => rfl
  | p :: ps, outer => by
    rw [eventsOf, List.foldl_append, p.foldl_enter, foldl_enter ps]

end

theorem openAfter_append_piece (before : List Located) (p : Piece) :
    openAfter (before ++ p.events) = openAfter before := by
  rw [openAfter, List.foldl_append, p.foldl_enter]
  rfl

/-! ### Provenance -/

/-- How a node of a tree comes from the events, if it is not the root. -/
inductive Provenance (ix : LineIndex) (es : List Located) (n : Node) : Prop
  | text (h : n.kind = "text")
  | single {e : Located} (he : e ∈ es) {kind : String} {fields : Object}
      (hleaf : e.event.leaf? = some (kind, fields))
      (hn : n = ⟨kind, fields, [], ix.span e.first e.last⟩)
  | construct (c : Construct es) (hdepth : c.depth < maxDepth) {forest : List Piece}
      (hcontent : c.content = eventsOf forest) (marks : List Bool)
      (hn : n = readConstruct ix c.tag (ix.span c.start.first c.start.last) marks
        (itemsOf ix (c.depth + 1) forest))

/-- All nodes in what falls to a construct have a property. -/
def Item.Everywhere (P : Node → Prop) : Item → Prop
  | .node n => n.Everywhere P
  | .run _ _ => True
  | .payload _ n => n.Everywhere P

section Everywhere

variable {P : Node → Prop} {ix : LineIndex} {items : List Item}

theorem everywhere_goOn (htext : ∀ n : Node, n.kind = "text" → P n) {cs : List Cluster}
    (h : ∀ n ∈ cs.map (·.toNode ix), n.Everywhere P) (text : String) (span : Span)
    (more : List (String × Span)) :
    ∀ n ∈ (goOn text span more cs).map (·.toNode ix), n.Everywhere P := by
  have hjoined : ∀ more, (joined ix text span more).Everywhere P := fun more =>
    .mk (htext _ rfl) fun _ hc => absurd hc List.not_mem_nil
  cases cs with
  | nil => exact List.forall_mem_cons.2 ⟨hjoined more, h⟩
  | cons c cs =>
    cases c with
    | texts text' span' more' =>
      exact List.forall_mem_cons.2 ⟨hjoined _, (List.forall_mem_cons.1 h).2⟩
    | node n => exact List.forall_mem_cons.2 ⟨hjoined more, h⟩

theorem everywhere_clusters (htext : ∀ n : Node, n.kind = "text" → P n)
    (h : ∀ item ∈ items, item.Everywhere P) :
    ∀ n ∈ (clusters items).map (·.toNode ix), n.Everywhere P := by
  induction items with
  | nil => exact fun _ hn => absurd hn List.not_mem_nil
  | cons item items ih =>
    obtain ⟨hitem, hitems⟩ := List.forall_mem_cons.1 h
    cases item with
    | node n | payload _ n => exact List.forall_mem_cons.2 ⟨hitem, ih hitems⟩
    | run text span => exact everywhere_goOn htext (ih hitems) text span []

theorem everywhere_uncollected (h : ∀ item ∈ items, item.Everywhere P) :
    ∀ n ∈ uncollected items, n.Everywhere P := by
  intro n hn
  obtain ⟨item, hitem, heq⟩ := List.mem_filterMap.1 hn
  cases item with
  | node m =>
    cases heq
    exact h _ hitem
  | run _ _ | payload _ _ => cases heq

theorem everywhere_readConstruct (htext : ∀ n : Node, n.kind = "text" → P n)
    (h : ∀ item ∈ items, item.Everywhere P) {tag : Tag} {span : Span} {marks : List Bool}
    (hself : P (readConstruct ix tag span marks items)) :
    (readConstruct ix tag span marks items).Everywhere P := by
  refine .mk hself ?_
  unfold readConstruct
  dsimp only
  split
  · exact everywhere_clusters htext h
  · exact everywhere_uncollected h

end Everywhere

section Provenance

variable {ix : LineIndex} {es : List Located}

theorem everywhere_itemOf? {e : Located} {item : Item} (he : e ∈ es)
    (h : itemOf? ix e = some item) : item.Everywhere (Provenance ix es) := by
  have hmade : ∀ {kind : String} {fields : Object}, e.event.leaf? = some (kind, fields) →
      Node.Everywhere (Provenance ix es) ⟨kind, fields, [], ix.span e.first e.last⟩ := fun hleaf =>
    .mk (.single he hleaf rfl) fun _ hc => absurd hc List.not_mem_nil
  obtain ⟨event, first, last⟩ := e
  cases event with
  | start _ | end_ _ | taskListMarker _ | foreign => cases h
  | text _ | softBreak =>
    cases h
    trivial
  | code _ | html _ | inlineHtml _ | footnoteReference _ | hardBreak | rule =>
    cases h
    exact hmade rfl

mutual

theorem Piece.provenance_items : ∀ (p : Piece) {before after : List Located} {depth : Nat},
    es = before ++ (p.events ++ after) → (openAfter before).length = depth →
      ∀ item ∈ p.items ix depth, item.Everywhere (Provenance ix es)
  | .construct tag first last content endFirst endLast, before, after, depth, hes, hdepth => by
    have hsplit : es = before ++ ⟨.start tag, first, last⟩ ::
        (eventsOf content ++ ⟨.end_ tag, endFirst, endLast⟩ :: after) := by
      rw [hes, Piece.events]
      simp
    have hinside : es = (before ++ [⟨.start tag, first, last⟩]) ++
        (eventsOf content ++ ⟨.end_ tag, endFirst, endLast⟩ :: after) := by
      rw [hsplit, List.append_assoc]
      rfl
    have hdeeper : (openAfter (before ++ [⟨.start tag, first, last⟩])).length = depth + 1 := by
      rw [openAfter_append_start, List.length_cons, hdepth]
    have hcontent := provenance_itemsOf content hinside hdeeper
    rw [Piece.items]
    split
    · rename_i hroom
      intro item hitem
      rw [List.mem_singleton.1 hitem]
      refine everywhere_readConstruct (fun _ => .text) hcontent ?_
      -- the construct of the document that this piece is
      let c : Construct es := ⟨before, ⟨.start tag, first, last⟩, eventsOf content,
        ⟨.end_ tag, endFirst, endLast⟩, after, tag, hsplit, rfl, rfl, wellNested_eventsOf content⟩
      have hc : c.depth = depth := hdepth
      exact .construct c (hc ▸ hroom) rfl _ (by rw [hc])
    · exact hcontent
  | .single e _, before, after, _, hes, _ => by
    intro item hitem
    rw [Piece.items] at hitem
    refine everywhere_itemOf? ?_ (Option.mem_toList.1 hitem)
    rw [hes, Piece.events]
    simp

theorem provenance_itemsOf : ∀ (ps : List Piece) {before after : List Located} {depth : Nat},
    es = before ++ (eventsOf ps ++ after) → (openAfter before).length = depth →
      ∀ item ∈ itemsOf ix depth ps, item.Everywhere (Provenance ix es)
  | [], _, _, _, _, _ => fun _ hitem => absurd hitem List.not_mem_nil
  | p :: ps, before, after, depth, hes, hdepth => by
    have hfirst : es = before ++ (p.events ++ (eventsOf ps ++ after)) := by
      rw [hes, eventsOf, List.append_assoc]
    have hrest : es = (before ++ p.events) ++ (eventsOf ps ++ after) := by
      rw [hfirst, List.append_assoc]
    rw [itemsOf]
    refine List.forall_mem_append.2 ⟨p.provenance_items hfirst hdepth, ?_⟩
    have hsame := congrArg List.length (openAfter_append_piece before p)
    exact provenance_itemsOf ps hrest (hsame.trans hdepth)

end

/-- Every node but the root is a text or made by an event or a construct. -/
theorem provenance_readForest (forest : List Piece) :
    ∀ n ∈ Node.preorderAll (readForest ix forest).children, Provenance ix (eventsOf forest) n := by
  intro n hn
  have hitems : ∀ item ∈ itemsOf ix 0 forest, item.Everywhere (Provenance ix (eventsOf forest)) :=
    @provenance_itemsOf _ _ forest [] [] 0 (List.append_nil _).symm rfl
  obtain ⟨c, hc, hn⟩ := Node.mem_preorderAll.1 hn
  exact (everywhere_clusters (fun _ => .text) hitems c hc).of_mem_preorder hn

end Provenance

/-! ### Nodes of constructs -/

section Nodes

variable {ix : LineIndex} {items : List Item} {n : Node}

theorem mem_goOn {cs : List Cluster} (h : n ∈ cs.map (·.toNode ix)) (hn : n.kind ≠ "text")
    (text : String) (span : Span) (more : List (String × Span)) :
    n ∈ (goOn text span more cs).map (·.toNode ix) := by
  cases cs with
  | nil => exact absurd h List.not_mem_nil
  | cons c cs =>
    cases c with
    | texts text' span' more' =>
      rcases List.mem_cons.1 h with rfl | h
      · exact absurd rfl hn
      · exact List.mem_cons_of_mem _ h
    | node m => exact List.mem_cons_of_mem _ h

theorem mem_clusters (h : .node n ∈ items) (hn : n.kind ≠ "text") :
    n ∈ (clusters items).map (·.toNode ix) := by
  induction items with
  | nil => exact absurd h List.not_mem_nil
  | cons item items ih =>
    rcases List.mem_cons.1 h with rfl | hlater
    · exact List.mem_cons_self
    · have hrest := ih hlater
      cases item with
      | node m | payload _ m => exact List.mem_cons_of_mem _ hrest
      | run text span => exact mem_goOn hrest hn text span []

/-- A node that falls to a construct is a child of it, even of a literal one. -/
theorem mem_children_readConstruct (h : .node n ∈ items) (hn : n.kind ≠ "text") (tag : Tag)
    (span : Span) (marks : List Bool) : n ∈ (readConstruct ix tag span marks items).children := by
  unfold readConstruct
  dsimp only
  split
  · exact mem_clusters h hn
  · exact List.mem_filterMap.2 ⟨_, h, rfl⟩

/-- The construct that a start opens comes to its end, and its node is in the trees of some items
if there is room for it. -/
def HasNode (ix : LineIndex) (items : List Item) (depth : Nat) (tag : Tag) (start : Located)
    (rest : List Located) : Prop :=
  ∃ inner stop after, rest = eventsOf inner ++ stop :: after ∧ stop.event = .end_ tag ∧
    (depth < maxDepth → ∃ marks m, .node m ∈ items ∧
      readConstruct ix tag (ix.span start.first start.last) marks (itemsOf ix (depth + 1) inner) ∈
        m.preorder)

theorem HasNode.mono {items' : List Item} {depth : Nat} {tag : Tag} {start : Located}
    {rest : List Located} (h : HasNode ix items depth tag start rest)
    (hitems : ∀ m, .node m ∈ items → ∃ m', .node m' ∈ items' ∧ ∀ n ∈ m.preorder, n ∈ m'.preorder)
    (more : List Located) : HasNode ix items' depth tag start (rest ++ more) := by
  obtain ⟨inner, stop, after, rfl, hstop, hnode⟩ := h
  refine ⟨inner, stop, after ++ more, by simp, hstop, fun hdepth => ?_⟩
  obtain ⟨marks, m, hm, hn⟩ := hnode hdepth
  obtain ⟨m', hm', hsub⟩ := hitems m hm
  exact ⟨marks, m', hm', hsub _ hn⟩

mutual

theorem Piece.hasNode {start : Located} {tag : Tag} (hstart : start.event = .start tag) :
    ∀ (p : Piece) (outer : List Located) {before rest : List Located},
      p.events = before ++ start :: rest →
        HasNode ix (p.items ix outer.length)
          (before.foldl (fun outer e => e.enter outer) outer).length tag start rest
  | .single e he, _, before, rest, h => by
    have hmem : start ∈ [e] := by
      rw [Piece.events] at h
      simp [h]
    rw [← List.mem_singleton.1 hmem, hstart] at he
    cases he
  | .construct tag' first last content endFirst endLast, outer, before, rest, h => by
    rw [Piece.events] at h
    cases before with
    | nil =>
      obtain ⟨rfl, rfl⟩ := List.cons.inj h
      cases hstart
      refine ⟨content, _, [], rfl, rfl, fun hdepth => ?_⟩
      have hroom : outer.length < maxDepth := hdepth
      rw [Piece.items, if_pos hroom]
      exact ⟨_, _, List.mem_singleton_self _, Node.self_mem_preorder _⟩
    | cons e before =>
      obtain ⟨rfl, hinner⟩ := List.cons.inj h
      rcases of_append_eq_append_cons hinner with ⟨between, hinside⟩ | ⟨between, -, hend⟩
      · have hcontent :=
          hasNode_itemsOf hstart content (⟨.start tag', first, last⟩ :: outer) hinside
        have hrest : rest = between ++ [⟨.end_ tag', endFirst, endLast⟩] := by
          rw [hinside, List.append_assoc] at hinner
          exact (List.cons.inj (List.append_cancel_left hinner)).2.symm
        rw [hrest]
        refine hcontent.mono (fun m hm => ?_) _
        rw [Piece.items]
        split
        · have hkind : m.kind ≠ "text" := regular_itemsOf hm
          exact ⟨_, List.mem_singleton_self _, fun n hn =>
            Node.mem_preorder_of_child (mem_children_readConstruct hm hkind _ _ _) hn⟩
        · exact ⟨m, hm, fun _ hn => hn⟩
      · -- the end of the construct is no start
        have hmem : start ∈ [(⟨.end_ tag', endFirst, endLast⟩ : Located)] := by simp [hend]
        rw [List.mem_singleton.1 hmem] at hstart
        cases hstart

theorem hasNode_itemsOf {start : Located} {tag : Tag} (hstart : start.event = .start tag) :
    ∀ (ps : List Piece) (outer : List Located) {before rest : List Located},
      eventsOf ps = before ++ start :: rest →
        HasNode ix (itemsOf ix outer.length ps)
          (before.foldl (fun outer e => e.enter outer) outer).length tag start rest
  | [], _, before, rest, h => by
    rw [eventsOf] at h
    simp at h
  | p :: ps, outer, before, rest, h => by
    rw [eventsOf] at h
    rw [itemsOf]
    rcases of_append_eq_append_cons h with ⟨between, hp⟩ | ⟨between, rfl, hps⟩
    · have hrest : rest = between ++ eventsOf ps := by
        rw [hp, List.append_assoc] at h
        exact (List.cons.inj (List.append_cancel_left h)).2.symm
      rw [hrest]
      exact (p.hasNode hstart outer hp).mono (fun m hm =>
        ⟨m, List.mem_append_left _ hm, fun _ hn => hn⟩) _
    · rw [List.foldl_append, p.foldl_enter]
      have hlater := (hasNode_itemsOf hstart ps outer hps).mono (fun m hm =>
        ⟨m, List.mem_append_right (p.items ix outer.length) hm, fun _ hn => hn⟩) []
      rwa [List.append_nil] at hlater

end

/-- Well-nested events go on up to the first end that has no start among them. -/
theorem eventsOf_unique {ps : List Piece} {content after after' : List Located}
    {stop stop' : Located} {tag : Tag} (h : eventsOf ps ++ stop :: after = content ++ stop' :: after')
    (hnested : WellNested content) (hstop : stop.event = .end_ tag)
    (hstop' : stop'.event = .end_ tag) : eventsOf ps = content := by
  obtain ⟨inner, rfl⟩ := exists_forest hnested
  have hopen : ∀ (ps inner : List Piece) {stop : Located} (between : List Located),
      stop.event = .end_ tag → eventsOf inner ≠ eventsOf ps ++ stop :: between := by
    rintro ps inner ⟨_, first, last⟩ between rfl heq
    have hclosed := wellNested_eventsOf inner
    rw [heq, WellNested, closesAll_eventsOf_append] at hclosed
    cases hclosed
  rcases List.append_eq_append_iff.1 h with ⟨between, hinner, hrest⟩ | ⟨between, hps, hrest⟩
  · cases between with
    | nil => simpa using hinner.symm
    | cons e between =>
      obtain ⟨rfl, -⟩ := List.cons.inj hrest
      exact absurd hinner (hopen ps inner between hstop)
  · cases between with
    | nil => simpa using hps
    | cons e between =>
      obtain ⟨rfl, -⟩ := List.cons.inj hrest
      exact absurd hps (hopen inner ps between hstop')

/-- Every construct with room for a node has one. -/
theorem Construct.exists_node (ix : LineIndex) {es : List Located} {forest : List Piece}
    (c : Construct es) (hforest : es = eventsOf forest) (h : c.depth < maxDepth) :
    ∃ inner marks, c.content = eventsOf inner ∧
      readConstruct ix c.tag (ix.span c.start.first c.start.last) marks
        (itemsOf ix (c.depth + 1) inner) ∈ (readForest ix forest).preorder := by
  have hplace : HasNode ix (itemsOf ix 0 forest) c.depth c.tag c.start _ :=
    hasNode_itemsOf c.opening forest [] (hforest.symm.trans c.split)
  obtain ⟨inner, stop, after, hrest, hstop, hnode⟩ := hplace
  obtain ⟨marks, m, hm, hn⟩ := hnode h
  refine ⟨inner, marks, (eventsOf_unique hrest.symm c.nested hstop c.closing).symm, ?_⟩
  exact Node.mem_preorder_of_child (mem_clusters hm (regular_itemsOf hm)) hn

end Nodes

/-! ### What falls to a literal construct -/

section Items

variable {ix : LineIndex}

theorem collected_append (items items' : List Item) :
    collected (items ++ items') = collected items ++ collected items' := by
  simp [collected]

theorem uncollected_append (items items' : List Item) :
    uncollected (items ++ items') = uncollected items ++ uncollected items' :=
  List.filterMap_append

theorem payloads_single (e : Located) : payloads [e] = e.event.payload?.getD "" := by
  rw [payloads_cons]
  exact String.append_empty

theorem collected_itemOf? (ix : LineIndex) (e : Located) :
    collected (itemOf? ix e).toList = e.event.payload?.getD "" := by
  obtain ⟨event, first, last⟩ := e
  cases event <;> simp [itemOf?, Event.leaf?, collected, Event.payload?]

theorem uncollected_itemOf? (ix : LineIndex) {e : Located} (h : e.event.isSingle = true)
    (roomy : Bool) :
    uncollected (itemOf? ix e).toList = [] ↔ e.event.makesNode roomy = false := by
  obtain ⟨event, first, last⟩ := e
  cases event with
  | start _ | end_ _ => cases h
  | _ => simp [itemOf?, Event.leaf?, uncollected, Event.makesNode]

theorem outermost_zero_cons {e : Located} (h : e.event.isSingle = true) (es : List Located) :
    outermost 0 (e :: es) = e :: outermost 0 es := by
  obtain ⟨event, first, last⟩ := e
  cases event with
  | start _ | end_ _ => cases h
  | _ => simp [outermost]

mutual

theorem Piece.outermost_events_append : ∀ (p : Piece) (inner : Nat) (es : List Located),
    outermost (inner + 1) (p.events ++ es) = outermost (inner + 1) es
  | .construct _ _ _ content _ _, inner, es => by
    rw [Piece.events, List.cons_append, List.append_assoc]
    change outermost (inner + 1 + 1) (eventsOf content ++ _) = _
    rw [outermost_eventsOf_append content]
    rfl
  | .single e h, inner, es => by
    obtain ⟨event, first, last⟩ := e
    rw [Piece.events, List.singleton_append]
    cases event with
    | start _ | end_ _ => cases h
    | _ => simp [outermost]

theorem outermost_eventsOf_append : ∀ (ps : List Piece) (inner : Nat) (es : List Located),
    outermost (inner + 1) (eventsOf ps ++ es) = outermost (inner + 1) es
  | [], _, _ => rfl
  | p :: ps, inner, es => by
    rw [eventsOf, List.append_assoc, p.outermost_events_append, outermost_eventsOf_append ps]

end

/-- A construct is passed over. -/
theorem outermost_construct (tag : Tag) (first last : Nat) (content : List Piece)
    (endFirst endLast : Nat) (es : List Located) :
    outermost 0 ((Piece.construct tag first last content endFirst endLast).events ++ es) =
      outermost 0 es := by
  rw [Piece.events, List.cons_append, List.append_assoc]
  change outermost 1 (eventsOf content ++ _) = _
  rw [outermost_eventsOf_append content]
  rfl

/-- Where there is room, constructs keep what is in them. -/
theorem collected_itemsOf_of_lt {depth : Nat} (h : depth < maxDepth) (ps : List Piece) :
    collected (itemsOf ix depth ps) = payloads (outermost 0 (eventsOf ps)) := by
  induction ps with
  | nil => rfl
  | cons p ps ih =>
    rw [itemsOf, collected_append, ih, eventsOf]
    cases p with
    | construct tag first last content endFirst endLast =>
      rw [outermost_construct, Piece.items, if_pos h]
      exact String.empty_append
    | single e he =>
      rw [Piece.events, List.singleton_append, outermost_zero_cons he, payloads_cons, Piece.items,
        collected_itemOf?]

mutual

theorem Piece.collected_items_of_le : ∀ (p : Piece) {depth : Nat}, maxDepth ≤ depth →
    collected (p.items ix depth) = payloads p.events
  | .construct tag first last content endFirst endLast, depth, h => by
    rw [Piece.items, if_neg (Nat.not_lt.2 h), Piece.events, payloads_cons, payloads_append,
      payloads_single, collected_itemsOf_of_le content (Nat.le_succ_of_le h)]
    exact (String.empty_append.trans String.append_empty).symm
  | .single e _, _, _ => by
    rw [Piece.items, Piece.events, payloads_single, collected_itemOf?]

/-- Where there is no room, all texts fall to what is around them. -/
theorem collected_itemsOf_of_le : ∀ (ps : List Piece) {depth : Nat}, maxDepth ≤ depth →
    collected (itemsOf ix depth ps) = payloads (eventsOf ps)
  | [], _, _ => rfl
  | p :: ps, _, h => by
    rw [itemsOf, collected_append, p.collected_items_of_le h, collected_itemsOf_of_le ps h,
      eventsOf, payloads_append]

end

mutual

theorem Piece.uncollected_items : ∀ (p : Piece) (depth : Nat),
    uncollected (p.items ix depth) = [] ↔
      ∀ e ∈ p.events, e.event.makesNode (decide (depth < maxDepth)) = false
  | .construct tag first last content endFirst endLast, depth => by
    rw [Piece.items, Piece.events]
    by_cases h : depth < maxDepth
    · simp [h, uncollected, Event.makesNode]
    · have hdeeper : ¬ depth + 1 < maxDepth := by omega
      have hcontent := uncollected_itemsOf content (depth + 1)
      simp only [hdeeper, decide_false] at hcontent
      simp [h, hcontent, Event.makesNode, or_imp, forall_and]
  | .single e he, depth => by
    rw [Piece.items, Piece.events, List.forall_mem_singleton]
    exact uncollected_itemOf? ix he _

theorem uncollected_itemsOf : ∀ (ps : List Piece) (depth : Nat),
    uncollected (itemsOf ix depth ps) = [] ↔
      ∀ e ∈ eventsOf ps, e.event.makesNode (decide (depth < maxDepth)) = false
  | [], _ => by simp [itemsOf, eventsOf, uncollected]
  | p :: ps, depth => by
    rw [itemsOf, uncollected_append, List.append_eq_nil_iff, p.uncollected_items,
      uncollected_itemsOf ps, eventsOf, List.forall_mem_append]

end

/-- Without constructs nothing is passed over. -/
theorem outermost_eq_self {ps : List Piece}
    (h : ∀ e ∈ eventsOf ps, e.event.makesNode true = false) :
    outermost 0 (eventsOf ps) = eventsOf ps := by
  induction ps with
  | nil => rfl
  | cons p ps ih =>
    rw [eventsOf] at h ⊢
    obtain ⟨hp, hps⟩ := List.forall_mem_append.1 h
    cases p with
    | construct tag first last content endFirst endLast =>
      have hstart := hp ⟨.start tag, first, last⟩ List.mem_cons_self
      cases hstart
    | single e he =>
      rw [Piece.events, List.singleton_append, outermost_zero_cons he, ih hps]

end Items

/-! ### Blocks -/

section Blocks

theorem exists_blocksHoldText {before rest : List Located} {inBlock : Bool}
    (h : blocksHoldText inBlock (before ++ rest) = true) :
    ∃ inBlock', blocksHoldText inBlock' rest = true := by
  induction before generalizing inBlock with
  | nil => exact ⟨inBlock, h⟩
  | cons e before ih =>
    rw [List.cons_append] at h
    cases inBlock with
    | false =>
      unfold blocksHoldText at h
      split at h
      · exact ih h
      · exact ih h
    | true =>
      unfold blocksHoldText at h
      split at h
      · exact ih h
      · exact ih (Bool.and_eq_true_iff.1 h).2

theorem makesNode_of_payload? {event : Event} (h : event.payload?.isSome = true) (roomy : Bool) :
    event.makesNode roomy = false := by
  cases event with
  | text _ | code _ | html _ | inlineHtml _ | softBreak => rfl
  | _ => cases h

theorem mem_eventsOf {e : Located} {ps : List Piece} :
    e ∈ eventsOf ps ↔ ∃ p ∈ ps, e ∈ p.events := by
  induction ps with
  | nil => simp [eventsOf]
  | cons p ps ih => simp [eventsOf, ih]

/-- What a literal block holds makes no node. -/
theorem Construct.makesNode_of_isLiteralBlock {es : List Located} (c : Construct es)
    (hblocks : blocksHoldText false es = true) (htag : c.tag.isLiteralBlock = true)
    {forest : List Piece} (hcontent : c.content = eventsOf forest) (roomy : Bool) :
    ∀ e ∈ c.content, e.event.makesNode roomy = false := by
  have hstart : c.start = ⟨.start c.tag, c.start.first, c.start.last⟩ := by rw [← c.opening]
  have hstop : c.stop = ⟨.end_ c.tag, c.stop.first, c.stop.last⟩ := by rw [← c.closing]
  rw [c.split, hstart, hstop, hcontent] at hblocks
  obtain ⟨inBlock, hrest⟩ := exists_blocksHoldText hblocks
  have hinside : blocksHoldText true
      (eventsOf forest ++ ⟨.end_ c.tag, c.stop.first, c.stop.last⟩ :: c.after) = true := by
    cases inBlock with
    | false =>
      have hscan : blocksHoldText c.tag.isLiteralBlock (eventsOf forest ++ _) = true := hrest
      rwa [htag] at hscan
    | true => cases hrest
  rw [hcontent]
  obtain ⟨htext, -⟩ := isText_of_blocksHoldText hinside
  intro e he
  obtain ⟨p, hp, he⟩ := mem_eventsOf.1 he
  cases p with
  | construct _ _ _ _ _ _ => exact absurd (htext _ hp) Bool.false_ne_true
  | single e' _ =>
    rw [List.mem_singleton.1 he]
    exact makesNode_of_payload? (htext _ hp) roomy

end Blocks

/-! ### Literal nodes -/

/-- A node is that of a literal construct: it has the texts that fall to the construct for its
value, less a line feed at the end, and children for all that makes a node.  Without children these
are all texts in the construct; and a block has no children. -/
structure Construct.Collects (ix : LineIndex) {es : List Located} (c : Construct es) (n : Node) :
    Prop where
  kind : n.kind = (tagNode c.tag).1
  span : n.span = ix.span c.start.first c.start.last
  value : ∃ key, (tagNode c.tag).2.2 = some key ∧
    n.fields.get? key = some (.string (OpenNode.dropLineFeed (payloads c.own)))
  childless : n.children = [] ↔ ∀ e ∈ c.content, e.event.makesNode c.roomy = false
  complete : n.children = [] → payloads c.own = payloads c.content
  block : c.tag.isLiteralBlock = true → n.children = []

section Literal

variable {ix : LineIndex} {es : List Located}

theorem Construct.payloads_own (c : Construct es) {forest : List Piece}
    (hcontent : c.content = eventsOf forest) :
    payloads c.own = collected (itemsOf ix (c.depth + 1) forest) := by
  unfold own roomy
  by_cases h : c.depth + 1 < maxDepth
  · rw [if_pos (decide_eq_true h), hcontent, collected_itemsOf_of_lt h]
  · rw [if_neg (by simpa using h), hcontent, collected_itemsOf_of_le forest (Nat.not_lt.1 h)]

theorem Construct.payloads_own_of_childless (c : Construct es) {forest : List Piece}
    (hcontent : c.content = eventsOf forest)
    (h : ∀ e ∈ c.content, e.event.makesNode c.roomy = false) :
    payloads c.own = payloads c.content := by
  unfold own
  cases hroomy : c.roomy with
  | false => rfl
  | true =>
    rw [hroomy, hcontent] at h
    rw [if_pos rfl, hcontent, outermost_eq_self h]

theorem collects_readConstruct (c : Construct es) {forest : List Piece}
    (hcontent : c.content = eventsOf forest) (hblocks : blocksHoldText false es = true)
    (marks : List Bool) {key : String} (hliteral : (tagNode c.tag).2.2 = some key) :
    c.Collects ix (readConstruct ix c.tag (ix.span c.start.first c.start.last) marks
      (itemsOf ix (c.depth + 1) forest)) := by
  have hchildless : uncollected (itemsOf ix (c.depth + 1) forest) = [] ↔
      ∀ e ∈ c.content, e.event.makesNode c.roomy = false := by
    rw [hcontent]
    exact uncollected_itemsOf forest (c.depth + 1)
  unfold readConstruct
  simp only [hliteral]
  refine ⟨rfl, rfl, ⟨key, hliteral, ?_⟩, hchildless, fun hnone => ?_, fun htag => ?_⟩
  · rw [c.payloads_own hcontent]
    exact Object.get?_insert_self _ _ _
  · exact c.payloads_own_of_childless hcontent (hchildless.1 hnone)
  · exact hchildless.2 (c.makesNode_of_isLiteralBlock hblocks htag hcontent c.roomy)

end Literal

/-- The kinds of literal constructs. -/
def literalKinds : List String :=
  ["code", "html", "image", metadataKind]

theorem exists_literal_of_kind {tag : Tag} (h : (tagNode tag).1 ∈ literalKinds) :
    ∃ key, (tagNode tag).2.2 = some key := by
  cases tag with
  | codeBlock _ | htmlBlock | image _ _ | metadataBlock => exact ⟨_, rfl⟩
  | list start => cases start <;> simp [tagNode, literalKinds, metadataKind] at h
  | _ => simp [tagNode, literalKinds, metadataKind] at h

/-- A leaf of these kinds is HTML. -/
theorem html_of_leaf? {event : Event} {kind : String} {fields : Object}
    (h : event.leaf? = some (kind, fields)) (hkind : kind ∈ literalKinds) :
    ∃ text, (event = .html text ∨ event = .inlineHtml text) ∧ kind = "html" ∧
      fields = [("value", .string text)] := by
  cases event with
  | html text =>
    cases h
    exact ⟨text, .inl rfl, rfl, rfl⟩
  | inlineHtml text =>
    cases h
    exact ⟨text, .inr rfl, rfl, rfl⟩
  | start _ | end_ _ | taskListMarker _ | foreign => cases h
  | _ =>
    cases h
    simp [literalKinds, metadataKind] at hkind

/-- Every node of code, HTML, an image or metadata collects what falls to its construct: all the
text inside where it has no children, as is so for every block.  (A node of HTML may be a piece of
HTML in a line of text instead.)  And every such construct that is not too deep has its node. -/
theorem literal_nodes_of_parse (text : String) :
    let ix := LineIndex.ofChars text.toList
    let es := Document.events text.toList
    (∀ n ∈ (Document.parse text).root.preorder, n.kind ∈ literalKinds →
      (∃ e ∈ es, ∃ x, (e.event = .html x ∨ e.event = .inlineHtml x) ∧
        n = ⟨"html", [("value", .string x)], [], ix.span e.first e.last⟩) ∨
      ∃ c : Construct es, c.depth < maxDepth ∧ c.Collects ix n) ∧
    ∀ c : Construct es, c.depth < maxDepth → (tagNode c.tag).1 ∈ literalKinds →
      ∃ n ∈ (Document.parse text).root.preorder, c.Collects ix n := by
  intro ix es
  obtain ⟨forest, hforest⟩ := exists_forest (wellNested_events text.toList)
  have hblocks := blocksHoldText_events text.toList
  have hroot : (Document.parse text).root = readForest ix forest := by
    change TreeBuilder.build text.toList (Document.events text.toList) = _
    rw [hforest, build_eventsOf]
  rw [hroot]
  refine ⟨fun n hn hkind => ?_, fun c hdepth hkind => ?_⟩
  · rcases List.mem_cons.1 hn with rfl | hn
    · have hkind : "root" ∈ literalKinds := hkind
      exact absurd hkind (by decide)
    · have hprovenance : Provenance ix es n := by
        change Provenance ix (Document.events text.toList) n
        rw [hforest]
        exact provenance_readForest forest n hn
      cases hprovenance with
      | text h =>
        rw [h] at hkind
        exact absurd hkind (by decide)
      | @single e he kind fields hleaf heq =>
        subst heq
        obtain ⟨x, hevent, rfl, rfl⟩ := html_of_leaf? hleaf hkind
        exact .inl ⟨e, he, x, hevent, rfl⟩
      | @construct c hdepth inner hcontent marks heq =>
        subst heq
        rw [kind_readConstruct] at hkind
        obtain ⟨key, hliteral⟩ := exists_literal_of_kind hkind
        exact .inr ⟨c, hdepth, collects_readConstruct c hcontent hblocks marks hliteral⟩
  · obtain ⟨inner, marks, hcontent, hn⟩ := c.exists_node ix hforest hdepth
    obtain ⟨key, hliteral⟩ := exists_literal_of_kind hkind
    exact ⟨_, hn, collects_readConstruct c hcontent hblocks marks hliteral⟩

/-- The description of an image in two lines, with code in it. -/
theorem plain_image_of_parse :
    let text := "![a `b`\nc](d)"
    ∃ n ∈ (Document.parse text).root.preorder, n.kind ∈ literalKinds ∧ n.children = [] ∧
      (n.fields.get? "alt").bind Value.asString? = some "a b\nc" ∧
      ∃ c : Construct (Document.events text.toList), c.depth < maxDepth ∧
        c.Collects (LineIndex.ofChars text.toList) n := by
  intro text
  have himage : ∃ n ∈ (Document.parse text).root.preorder, n.kind = "image" ∧
      n.children.isEmpty = true ∧
      (n.fields.get? "alt").bind Value.asString? = some "a b\nc" := by
    decide +kernel
  obtain ⟨n, hn, hkind, hchildren, halt⟩ := himage
  have hliteral : n.kind ∈ literalKinds := by
    rw [hkind]
    decide
  refine ⟨n, hn, hliteral, List.isEmpty_iff.1 hchildren, halt, ?_⟩
  have hne : "html" ≠ "image" := by decide
  rcases (literal_nodes_of_parse text).1 n hn hliteral with ⟨_, _, _, _, rfl⟩ | h
  · exact absurd hkind hne
  · exact h

/-- Markup in the description of an image is not collected: its node is a child of the image, and
has the text. -/
theorem exists_image_with_children : ∃ n ∈ (Document.parse "![*a*](b)").root.preorder,
    n.kind = "image" ∧ (n.fields.get? "alt").bind Value.asString? = some "" ∧
      n.children.map (·.kind) = ["emphasis"] := by
  decide +kernel

end DocSchema
