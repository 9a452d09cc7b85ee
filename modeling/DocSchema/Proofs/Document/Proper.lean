/-
  DocSchema/Proofs/Document/Proper.lean
  =====================================
  **The tree of a document is proper.**

  Whatever the events, no frame of the builder ever has a field of a name that the instance form
  needs for itself (`OpenNode.Proper`), and every node that is attached to a frame is proper.
  The builder carries this to the tree in the end (`proper_build`).
-/
import DocSchema.Proofs.Document.Builder
import DocSchema.Proofs.Document.Node
import DocSchema.Proofs.Yaml.Data

namespace DocSchema

open DocSchema.Json DocSchema.Markdown

/-! ### Frames -/

def IsFieldName (key : String) : Prop :=
  key ≠ kindKey ∧ key ≠ childrenKey

instance (key : String) : Decidable (IsFieldName key) :=
  inferInstanceAs (Decidable (_ ∧ _))

namespace OpenNode

/-- A construct whose node will be proper. -/
structure Proper (f : OpenNode) : Prop where
  fields : ProperFields f.fields
  children : ∀ n ∈ f.children, n.Proper
  literal : ∀ key text, f.literal = some (key, text) → IsFieldName key

variable {f : OpenNode} {n : Node} {text : String} {span : Span}

theorem Proper.attach (h : f.Proper) (hn : n.Proper) : (f.attach n).Proper where
  fields := h.fields
  children := List.forall_mem_cons.2 ⟨hn, h.children⟩
  literal := h.literal

theorem Proper.collect? {g : OpenNode} (h : f.Proper) (hg : f.collect? text = some g) :
    g.Proper := by
  obtain ⟨⟨key, collected⟩, hliteral, rfl⟩ := Option.map_eq_some_iff.1 hg
  refine ⟨h.fields, h.children, fun key' text' heq => ?_⟩
  cases heq
  exact h.literal key collected hliteral

theorem proper_extendText (h : n.Proper) : (extendText n text span).Proper := by
  cases h with
  | mk hfields hchildren =>
    refine .mk ?_ hchildren
    dsimp only
    split
    · exact hfields.insert (by decide) (by decide) (.string _)
    · exact hfields

theorem Proper.extend {last : Node} {before : List Node} (h : f.Proper)
    (hchildren : f.children = last :: before) :
    OpenNode.Proper { f with children := extendText last text span :: before } := by
  obtain ⟨hlast, hbefore⟩ := List.forall_mem_cons.1 (hchildren ▸ h.children)
  exact ⟨h.fields, List.forall_mem_cons.2 ⟨proper_extendText hlast, hbefore⟩, h.literal⟩

/-- The node of a construct that ends, with the data of a header in it. -/
theorem Proper.finish (h : f.Proper) : f.finish.Proper := by
  refine .mk ?_ fun n hn => h.children n (List.mem_reverse.1 hn)
  cases hliteral : f.literal with
  | none => exact h.fields
  | some literal =>
    obtain ⟨key, collected⟩ := literal
    have hkey := h.literal key collected hliteral
    dsimp only
    refine ProperFields.insert ?_ hkey.1 hkey.2 (.string _)
    split
    · split
      · rename_i data hdata
        exact h.fields.insert (by decide) (by decide) (proper_of_parseMetadata hdata)
      · exact h.fields
    · exact h.fields

end OpenNode

/-! ### Constructs -/

section Constructs

variable {key key' : String} {value value' : Value}

theorem properFields_one (hkey : IsFieldName key) (hvalue : value.Proper) :
    ProperFields [(key, value)] :=
  properFields_nil.insert hkey.1 hkey.2 hvalue

theorem properFields_two (hkey : IsFieldName key) (hkey' : IsFieldName key') (hne : key ≠ key')
    (hvalue : value.Proper) (hvalue' : value'.Proper) :
    ProperFields [(key, value), (key', value')] := by
  have hinsert : Object.insert [(key, value)] key' value' = [(key, value), (key', value')] :=
    if_neg hne
  rw [← hinsert]
  exact (properFields_one hkey hvalue).insert hkey'.1 hkey'.2 hvalue'

theorem proper_textOrNull (text : String) : (textOrNull text).Proper := by
  unfold textOrNull
  split
  · exact .null
  · exact .string text

theorem proper_alignmentName (a : Markdown.Alignment) : (alignmentName a).Proper := by
  cases a with
  | none => exact .null
  | left | center | right => exact .string _

theorem properFields_tagNode (tag : Tag) : ProperFields (tagNode tag).2.1 := by
  cases tag with
  | heading level => exact properFields_one (by decide) (.number _)
  | codeBlock info =>
    refine properFields_one (by decide) ?_
    cases info.bind firstWord? with
    | none => exact .null
    | some word => exact .string word
  | list start =>
    cases start with
    | none => exact properFields_one (by decide) (.bool _)
    | some n => exact properFields_two (by decide) (by decide) (by decide) (.bool _) (.number _)
  | footnoteDefinition label => exact properFields_one (by decide) (.string label)
  | table alignments =>
    refine properFields_one (by decide) (.array fun x hx => ?_)
    obtain ⟨a, -, rfl⟩ := List.mem_map.1 hx
    exact proper_alignmentName a
  | link url title | image url title =>
    exact properFields_two (by decide) (by decide) (by decide) (.string url)
      (proper_textOrNull title)
  | paragraph | blockQuote | htmlBlock | item | tableHead | tableRow | tableCell | emphasis
  | strong | strikethrough | metadataBlock | foreign => exact properFields_nil

theorem isFieldName_literal {tag : Tag} (h : (tagNode tag).2.2 = some key) : IsFieldName key := by
  cases tag with
  | codeBlock info | htmlBlock | image url title | metadataBlock =>
    cases h
    decide
  | list start => cases start <;> cases h
  | paragraph | heading level | blockQuote | item | footnoteDefinition label | table alignments
  | tableHead | tableRow | tableCell | emphasis | strong | strikethrough | link url title | foreign =>
    cases h

end Constructs

/-! ### The tree is proper -/

namespace TreeBuilder

theorem properFields_leaf? {event : Event} {kind : String} {fields : Object}
    (h : event.leaf? = some (kind, fields)) : ProperFields fields := by
  cases event with
  | text x | softBreak | code x | html x | inlineHtml x | footnoteReference label =>
    cases h
    exact properFields_one (by decide) (.string _)
  | hardBreak | rule =>
    cases h
    exact properFields_nil
  | start tag | end_ tag | taskListMarker checked | foreign => cases h

theorem proper_ofTag (tag : Tag) (span : Span) : (OpenNode.ofTag tag span).Proper := by
  refine ⟨properFields_tagNode tag, fun _ hn => absurd hn List.not_mem_nil, ?_⟩
  intro key text hliteral
  obtain ⟨name, hname, heq⟩ := Option.map_eq_some_iff.1 hliteral
  cases heq
  exact isFieldName_literal hname

theorem carries_proper (ix : LineIndex) :
    Carries ix (fun _ _ => True) (fun _ f => f.Proper) (fun _ n => n.Proper) where
  inside _ _ := trivial
  opened _ _ := proper_ofTag _ _
  leaf _ h := .mk (properFields_leaf? h) fun _ hc => absurd hc List.not_mem_nil
  finish _ hf := hf.finish
  attach hf hn := hf.attach hn
  collect hf h := hf.collect? h
  extend _ hf hchildren _ := hf.extend hchildren
  check hf := ⟨hf.fields.insert (by decide) (by decide) (.bool _), hf.children, hf.literal⟩

/-- The tree of a sequence of events is proper. -/
theorem proper_build (text : List Char) (events : List Located) : (build text events).Proper := by
  have hroot : (start text).root.Proper :=
    ⟨properFields_nil, fun _ hn => absurd hn List.not_mem_nil, fun _ _ h => by cases h⟩
  obtain ⟨f, hf, heq⟩ := (carries_proper _).build hroot (admits_of_forall fun _ _ _ => trivial)
  rw [heq]
  exact hf.finish

end TreeBuilder

theorem Document.proper_parse (text : String) : (Document.parse text).root.Proper :=
  TreeBuilder.proper_build _ _

end DocSchema
