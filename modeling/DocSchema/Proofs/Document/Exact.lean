/-
  DocSchema/Proofs/Document/Exact.lean
  ====================================
  **Only a header brings floating-point numbers into a tree.**

  The fields of all other nodes hold the levels of headings and the numbers of lists, which are
  whole and small.  The header, if there is one, is the first child of the root and is attached
  before anything else; so the tree of a text has no floating-point number as soon as the data of
  the document have none (`exact_parse`).
-/
import DocSchema.Proofs.Document.Conservation
import DocSchema.Proofs.Document.Proper
import DocSchema.Proofs.Markdown.Event

namespace DocSchema

open DocSchema.Json DocSchema.Markdown

/-! ### Exact fields -/

/-- The fields of a node have no floating-point numbers, and their numbers are in range. -/
def Node.ExactFields (n : Node) : Prop :=
  Value.Exact (.object n.fields)

section Fields

variable {key key' : String} {value value' : Value}

theorem exact_nil : Value.Exact (.object []) :=
  .object fun _ _ h => absurd h List.not_mem_nil

theorem exact_one (h : value.Exact) : Value.Exact (.object [(key, value)]) :=
  exact_nil.insert h

theorem exact_two (h : value.Exact) (h' : value'.Exact) :
    Value.Exact (.object [(key, value), (key', value')]) := by
  refine .object fun k x hx => ?_
  rcases List.mem_cons.1 hx with heq | hx
  · cases heq
    exact h
  · cases List.mem_singleton.1 hx
    exact h'

theorem exact_ofNat {n : Nat} (h : n < twoTo 64) : (Value.ofNat n).Exact := by
  have hword : twoTo 64 = 18446744073709551616 := rfl
  have hsigned : twoTo 63 = 9223372036854775808 := rfl
  exact .number ⟨⟨by omega, by omega⟩, n, rfl⟩

theorem exact_textOrNull (text : String) : (textOrNull text).Exact := by
  unfold textOrNull
  split
  · exact .null
  · exact .string text

theorem exact_tagNode {tag : Tag} (h : tag.Regular) :
    Value.Exact (.object (tagNode tag).2.1) := by
  have hword : twoTo 64 = 18446744073709551616 := rfl
  cases tag with
  | heading level =>
    have hlevel : 1 ≤ level ∧ level ≤ 6 := h
    exact exact_one (exact_ofNat (by omega))
  | codeBlock info =>
    refine exact_one ?_
    cases info.bind firstWord? with
    | none => exact .null
    | some word => exact .string word
  | list start =>
    cases start with
    | none => exact exact_one (.bool _)
    | some n =>
      have hn : n < 10 ^ 9 := h
      exact exact_two (.bool _) (exact_ofNat (by omega))
  | footnoteDefinition label => exact exact_one (.string label)
  | table alignments =>
    refine exact_one (.array fun x hx => ?_)
    obtain ⟨a, -, rfl⟩ := List.mem_map.1 hx
    cases a with
    | none => exact .null
    | left | center | right => exact .string _
  | link url title | image url title => exact exact_two (.string url) (exact_textOrNull title)
  | paragraph | blockQuote | htmlBlock | item | tableHead | tableRow | tableCell | emphasis
  | strong | strikethrough | metadataBlock | foreign => exact exact_nil

theorem exact_leaf? {event : Event} {kind : String} {fields : Object}
    (h : event.leaf? = some (kind, fields)) : Value.Exact (.object fields) := by
  cases event with
  | text x | softBreak | code x | html x | inlineHtml x | footnoteReference label =>
    cases h
    exact exact_one (.string _)
  | hardBreak | rule =>
    cases h
    exact exact_nil
  | start tag | end_ tag | taskListMarker checked | foreign => cases h

theorem kind_tagNode_ne {tag : Tag} (h : tag.Regular) : (tagNode tag).1 ≠ metadataKind := by
  cases tag with
  | metadataBlock => exact absurd h id
  | list start => cases start <;> simp [tagNode, metadataKind]
  | _ => simp [tagNode, metadataKind]

end Fields

/-! ### Frames -/

namespace OpenNode

/-- A frame that is not of a header; the root has the node of the header, if any, before all other
nodes. -/
structure Exact (header : List Node) (s : Option Located) (f : OpenNode) : Prop where
  kind : f.kind ≠ metadataKind
  fields : Value.Exact (.object f.fields)
  children : ∃ front, f.children = front ++ (if s.isNone then header else []) ∧
    ∀ n ∈ front, n.Everywhere Node.ExactFields

variable {header : List Node} {s : Option Located} {f g : OpenNode} {n : Node} {text : String}
  {span : Span}

theorem Exact.attach (h : f.Exact header s) (hn : n.Everywhere Node.ExactFields) :
    (f.attach n).Exact header s := by
  obtain ⟨front, hchildren, hfront⟩ := h.children
  exact ⟨h.kind, h.fields, n :: front, congrArg (n :: ·) hchildren,
    List.forall_mem_cons.2 ⟨hn, hfront⟩⟩

theorem Exact.collect? (h : f.Exact header s) (hg : f.collect? text = some g) :
    g.Exact header s := by
  obtain ⟨_, -, rfl⟩ := Option.map_eq_some_iff.1 hg
  exact ⟨h.kind, h.fields, h.children⟩

theorem exactFields_extendText (h : n.ExactFields) : (extendText n text span).ExactFields := by
  unfold Node.ExactFields extendText
  dsimp only
  split
  · exact h.insert (.string _)
  · exact h

/-- A text that goes on is not the header. -/
theorem Exact.extend {last : Node} {before : List Node} (h : f.Exact header s)
    (hheader : ∀ n ∈ header, n.kind ≠ "text") (hchildren : f.children = last :: before)
    (htext : last.kind = "text") :
    OpenNode.Exact header s { f with children := extendText last text span :: before } := by
  obtain ⟨front, heq, hfront⟩ := h.children
  rw [hchildren] at heq
  cases front with
  | nil =>
    -- the last node would be the header's, but that is no text
    have hlast : last ∈ header := by
      have hmem : last ∈ (if s.isNone then header else []) := by
        rw [← List.nil_append (ite _ _ _), ← heq]
        exact List.mem_cons_self
      split at hmem
      · exact hmem
      · cases hmem
    exact absurd htext (hheader last hlast)
  | cons n front =>
    obtain ⟨rfl, rfl⟩ := List.cons.inj heq
    obtain ⟨hn, hrest⟩ := List.forall_mem_cons.1 hfront
    refine ⟨h.kind, h.fields, extendText last text span :: front, rfl,
      List.forall_mem_cons.2 ⟨.mk (exactFields_extendText hn.self) ?_, hrest⟩⟩
    exact hn.children

theorem Exact.exactFields_finish (h : f.Exact header s) : f.finish.ExactFields := by
  unfold Node.ExactFields OpenNode.finish
  dsimp only
  split
  · exact h.fields
  · rw [if_neg h.kind]
    exact h.fields.insert (.string _)

theorem Exact.finish (h : f.Exact header s)
    (hheader : ∀ n ∈ (if s.isNone then header else []), n.Everywhere Node.ExactFields) :
    f.finish.Everywhere Node.ExactFields := by
  obtain ⟨front, hchildren, hfront⟩ := h.children
  refine .mk h.exactFields_finish fun n hn => ?_
  have hn : n ∈ front ++ (if s.isNone then header else []) := hchildren ▸ List.mem_reverse.1 hn
  rcases List.mem_append.1 hn with hn | hn
  · exact hfront n hn
  · exact hheader n hn

end OpenNode

/-! ### The header -/

/-- The frame of a header, with its text so far. -/
def OpenNode.ofHeader (span : Span) (raw : String) : OpenNode :=
  ⟨metadataKind, [], [], span, some ("value", raw)⟩

/-- The data are among the fields of the header's node, so that there are none without them. -/
theorem exactFields_header {span : Span} {raw : String}
    (h : ∀ m, (OpenNode.ofHeader span raw).finish.metadata? = some m →
      Value.Numbers Number.Integral (.object m)) :
    (OpenNode.ofHeader span raw).finish.ExactFields := by
  unfold OpenNode.ofHeader OpenNode.finish Node.metadata? at h
  unfold Node.ExactFields OpenNode.ofHeader OpenNode.finish
  dsimp only at h ⊢
  rw [if_pos rfl] at h ⊢
  cases hdata : parseMetadata (OpenNode.dropLineFeed raw) with
  | ok data =>
    rw [hdata] at h
    have hintegral : Value.Numbers Number.Integral (.object data) := h data rfl
    exact (exact_nil.insert ((inRange_of_parseMetadata hdata).and hintegral)).insert (.string _)
  | error e => exact exact_nil.insert (.string _)

namespace TreeBuilder

/-- The frame of a header collects what text there is. -/
theorem foldl_texts (b : TreeBuilder) (span : Span) (raw : String) {texts : List Located}
    (h : ∀ e ∈ texts, e.event.IsText) :
    texts.foldl step { b with stack := [.ofHeader span raw] } =
      { b with stack := [.ofHeader span (raw ++ payloads texts)] } := by
  induction texts generalizing raw with
  | nil =>
    have hraw : raw ++ payloads [] = raw := String.append_empty
    rw [hraw, List.foldl_nil]
  | cons e texts ih =>
    obtain ⟨⟨text, htext⟩, hrest⟩ := List.forall_mem_cons.1 h
    have hpayload : e.event.payload?.getD "" = text := by
      rw [htext]
      rfl
    rw [List.foldl_cons, payloads_cons, hpayload, ← String.append_assoc, ← ih (raw ++ text) hrest]
    congr 1
    unfold step
    rw [htext]
    rfl

/-- After the header its node is all there is in the root, with the text of the events. -/
theorem foldl_header (text : List Char) {chars : List Char} {header : List Located}
    {size : Nat} (h : header? chars = some (header, size)) :
    ∃ span, header.foldl step (start text) =
      (start text).attach (OpenNode.ofHeader span (payloads header)).finish := by
  obtain ⟨opening, texts, closing, rfl, hopening, htexts, hclosing⟩ := exists_events_header? h
  have hpayloads : payloads (opening :: texts ++ [closing]) = "" ++ payloads texts := by
    rw [payloads_append, payloads_cons, payloads_cons, hopening, hclosing]
    exact String.append_empty
  have hopen : (start text).step opening = { start text with
      stack := [.ofHeader ((start text).index.span opening.first opening.last) ""] } := by
    unfold step
    rw [hopening]
    rfl
  refine ⟨(start text).index.span opening.first opening.last, ?_⟩
  rw [hpayloads, List.foldl_append, List.foldl_cons (l := texts), hopen,
    foldl_texts (start text) _ "" htexts]
  change step _ closing = _
  unfold step
  rw [hclosing]
  rfl

theorem exists_foldl_header (text : List Char) {chars : List Char} {header : List Located}
    {size : Nat} (h : header? chars = some (header, size)) :
    ∃ span raw, header.foldl step (start text) =
      (start text).attach (OpenNode.ofHeader span raw).finish :=
  (foldl_header text h).imp fun _ h => ⟨_, h⟩

end TreeBuilder

/-! ### The body -/

namespace TreeBuilder

theorem carries_exact (ix : LineIndex) {header : List Node}
    (hheader : ∀ n ∈ header, n.kind ≠ "text") :
    Carries ix (fun _ e => e.event.Regular) (fun s f => f.Exact header s)
      (fun _ n => n.Everywhere Node.ExactFields) where
  inside _ h := h
  opened he htag := ⟨kind_tagNode_ne (he _ htag), exact_tagNode (he _ htag), [], rfl,
    fun _ hn => absurd hn List.not_mem_nil⟩
  leaf _ h := .mk (exact_leaf? h) fun _ hc => absurd hc List.not_mem_nil
  finish _ hf := hf.finish fun _ hn => absurd hn List.not_mem_nil
  attach hf hn := hf.attach hn
  collect hf h := hf.collect? h
  extend _ hf hchildren htext := hf.extend hheader hchildren htext
  check hf := ⟨hf.kind, hf.fields.insert (.bool _), hf.children⟩

/-- What is built of regular events, with the node of the header in the root already. -/
theorem exists_exact_foldl (text : List Char) {header : List Node} {events : List Located}
    (hheader : ∀ n ∈ header, n.kind ≠ "text") (hevents : ∀ e ∈ events, e.event.Regular) :
    ∃ f, OpenNode.Exact header none f ∧
      (events.foldl step { start text with root.children := header }).finish = f.finish := by
  have hroot : OpenNode.Exact header none { (start text).root with children := header } := by
    refine ⟨?_, exact_nil, [], rfl, fun _ hn => absurd hn List.not_mem_nil⟩
    change "root" ≠ metadataKind
    decide
  have hadmits : Admits (fun _ e => e.event.Regular) [] events :=
    admits_of_forall fun e he _ => hevents e he
  have hstart : Holds (LineIndex.ofChars text) (fun _ e => e.event.Regular)
      (fun s f => f.Exact header s) { start text with root.children := header } [] :=
    ⟨rfl, hroot, trivial, [], [], rfl, rfl, .nil⟩
  exact ⟨_, (carries_exact (LineIndex.ofChars text) hheader).foldl hstart hadmits, rfl⟩

end TreeBuilder

/-! ### The tree -/

/-- After the header a document is built of regular events. -/
theorem exact_build_of_header? {chars : List Char} {header : List Located} {size : Nat}
    (h : header? chars = some (header, size)) :
    ∃ span f, OpenNode.Exact [(OpenNode.ofHeader span (payloads header)).finish] none f ∧
      TreeBuilder.build chars (Document.events chars) = f.finish := by
  obtain ⟨span, hfold⟩ := TreeBuilder.foldl_header chars h
  have hkind : ∀ n ∈ [(OpenNode.ofHeader span (payloads header)).finish], n.kind ≠ "text" := by
    intro n hn
    rw [List.mem_singleton.1 hn]
    change metadataKind ≠ "text"
    decide
  have hevents : ∀ e ∈ (Markdown.events (chars.drop size)).map
      (·.shift (byteCount (chars.take size))), e.event.Regular := by
    intro e he
    obtain ⟨x, hx, rfl⟩ := List.mem_map.1 he
    exact regular_events (e := x) hx
  obtain ⟨f, hf, heq⟩ := TreeBuilder.exists_exact_foldl chars hkind hevents
  refine ⟨span, f, hf, ?_⟩
  unfold TreeBuilder.build Document.events
  rw [h]
  dsimp only
  rw [List.foldl_append, hfold]
  exact heq

/-- A document is built of regular events, but for those of its header. -/
theorem exists_exact_build (chars : List Char) :
    ∃ header f, (header = [] ∨ ∃ span raw, header = [(OpenNode.ofHeader span raw).finish]) ∧
      OpenNode.Exact header none f ∧
      TreeBuilder.build chars (Document.events chars) = f.finish := by
  cases hheader : header? chars with
  | none =>
    have hevents : ∀ e ∈ Markdown.events chars, e.event.Regular := fun _ => regular_events
    have hnone : ∀ n ∈ ([] : List Node), n.kind ≠ "text" := fun _ hn => absurd hn List.not_mem_nil
    obtain ⟨f, hf, heq⟩ := TreeBuilder.exists_exact_foldl chars hnone hevents
    refine ⟨[], f, .inl rfl, hf, ?_⟩
    unfold TreeBuilder.build Document.events
    rw [hheader]
    exact heq
  | some found =>
    obtain ⟨span, f, hf, heq⟩ := exact_build_of_header? hheader
    exact ⟨_, f, .inr ⟨span, _, rfl⟩, hf, heq⟩

/-- The node of the header is the first one. -/
theorem OpenNode.Exact.head?_children {n : Node} {f : OpenNode} (h : f.Exact [n] none) :
    f.finish.children.head? = some n := by
  obtain ⟨front, hchildren, -⟩ := h.children
  change f.children.reverse.head? = _
  rw [hchildren]
  simp

/-- A tree has no floating-point number if the data of its header have none. -/
theorem exact_parse (text : String)
    (h : ∀ m, (Document.parse text).metadata = some m →
      Value.Numbers Number.Integral (.object m)) :
    (Document.parse text).root.Everywhere Node.ExactFields := by
  obtain ⟨header, f, hheader, hf, heq⟩ := exists_exact_build text.toList
  unfold Document.parse Document.ofChars at h ⊢
  rw [heq] at h ⊢
  refine hf.finish fun n hn => ?_
  rcases hheader with rfl | ⟨span, raw, rfl⟩
  · exact absurd hn List.not_mem_nil
  · dsimp only at h
    rw [hf.head?_children, Option.bind_some] at h
    have hfields := exactFields_header h
    rw [List.mem_singleton.1 hn]
    exact .mk hfields fun c hc => absurd hc List.not_mem_nil

end DocSchema
