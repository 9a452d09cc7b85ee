/-
  DocSchema/Proofs/Document/Serialized.lean
  =========================================
  **The serialized form is the instance form with positions.**

  The fields of a tree that has been built have few names (`Node.fieldNames`), and none of them is
  that of a member which the serialized form has besides: the kind, the children or the position.  So
  if the position is taken out of each node (`dropPosition`), what is left is the instance form
  (`dropPosition_toJson_parse`).  The data of a header are left as they are, whatever their keys.
-/
import DocSchema.Proofs.Document.Proper

namespace DocSchema

open DocSchema.Json DocSchema.Markdown

/-! ### The names of fields -/

/-- The names that fields of a document's tree can have. -/
def Node.fieldNames : List String :=
  ["value", "data", "lang", "depth", "ordered", "start", "checked", "label", "align", "url", "title",
    "alt"]

/-- The fields of a node have these names only. -/
def Node.Named (n : Node) : Prop :=
  n.fields.keys ⊆ Node.fieldNames

section Names

variable {fields : Object} {key : String} {value : Value}

theorem keys_insert_subset (h : fields.keys ⊆ Node.fieldNames) (hkey : key ∈ Node.fieldNames) :
    (fields.insert key value).keys ⊆ Node.fieldNames := by
  intro k hk
  obtain ⟨⟨k, x⟩, hm, rfl⟩ := List.mem_map.1 hk
  rcases Object.mem_insert hm with hold | ⟨rfl, -⟩
  · exact h (List.mem_map_of_mem (f := (·.1)) hold)
  · exact hkey

theorem keys_tagNode_subset (tag : Tag) : Object.keys (tagNode tag).2.1 ⊆ Node.fieldNames := by
  cases tag with
  | list start => cases start <;> simp [tagNode, Object.keys, Node.fieldNames]
  | _ => simp [tagNode, Object.keys, Node.fieldNames]

theorem literal_tagNode_mem {tag : Tag} (h : (tagNode tag).2.2 = some key) :
    key ∈ Node.fieldNames := by
  cases tag with
  | codeBlock info | htmlBlock | image url title | metadataBlock =>
    cases h
    decide
  | list start => cases start <;> cases h
  | _ => cases h

theorem keys_leaf?_subset {event : Event} {kind : String}
    (h : event.leaf? = some (kind, fields)) : fields.keys ⊆ Node.fieldNames := by
  cases event with
  | text x | softBreak | code x | html x | inlineHtml x | footnoteReference label | hardBreak
  | rule =>
    cases h
    simp [Object.keys, Node.fieldNames]
  | start tag | end_ tag | taskListMarker checked | foreign => cases h

end Names

namespace OpenNode

/-- A construct whose node will have the names of fields. -/
structure Named (f : OpenNode) : Prop where
  fields : f.fields.keys ⊆ Node.fieldNames
  children : ∀ n ∈ f.children, n.Everywhere Node.Named
  literal : ∀ key text, f.literal = some (key, text) → key ∈ Node.fieldNames

variable {f g : OpenNode} {n : Node} {text : String} {span : Span}

theorem Named.attach (h : f.Named) (hn : n.Everywhere Node.Named) : (f.attach n).Named where
  fields := h.fields
  children := List.forall_mem_cons.2 ⟨hn, h.children⟩
  literal := h.literal

theorem Named.collect? (h : f.Named) (hg : f.collect? text = some g) : g.Named := by
  obtain ⟨⟨key, collected⟩, hliteral, rfl⟩ := Option.map_eq_some_iff.1 hg
  refine ⟨h.fields, h.children, fun key' text' heq => ?_⟩
  cases heq
  exact h.literal key collected hliteral

theorem named_extendText (h : n.Named) : (extendText n text span).Named := by
  unfold Node.Named extendText
  dsimp only
  split
  · exact keys_insert_subset h (by decide)
  · exact h

theorem Named.extend {last : Node} {before : List Node} (h : f.Named)
    (hchildren : f.children = last :: before) :
    OpenNode.Named { f with children := extendText last text span :: before } := by
  obtain ⟨hlast, hbefore⟩ := List.forall_mem_cons.1 (hchildren ▸ h.children)
  have hgrown : (extendText last text span).Everywhere Node.Named :=
    .mk (named_extendText hlast.self) hlast.children
  exact ⟨h.fields, List.forall_mem_cons.2 ⟨hgrown, hbefore⟩, h.literal⟩

/-- The data of a header are one field, whatever names there are in them. -/
theorem Named.finish (h : f.Named) : f.finish.Everywhere Node.Named := by
  refine .mk ?_ fun n hn => h.children n (List.mem_reverse.1 hn)
  unfold Node.Named OpenNode.finish
  dsimp only
  split
  · exact h.fields
  · rename_i key collected hliteral
    refine keys_insert_subset ?_ (h.literal key collected hliteral)
    split
    · split
      · exact keys_insert_subset h.fields (by decide)
      · exact h.fields
    · exact h.fields

end OpenNode

namespace TreeBuilder

theorem named_ofTag (tag : Tag) (span : Span) : (OpenNode.ofTag tag span).Named := by
  refine ⟨keys_tagNode_subset tag, fun _ hn => absurd hn List.not_mem_nil, ?_⟩
  intro key text hliteral
  obtain ⟨name, hname, heq⟩ := Option.map_eq_some_iff.1 hliteral
  cases heq
  exact literal_tagNode_mem hname

theorem carries_named (ix : LineIndex) :
    Carries ix (fun _ _ => True) (fun _ f => f.Named) (fun _ n => n.Everywhere Node.Named) where
  inside _ _ := trivial
  opened _ _ := named_ofTag _ _
  leaf _ h := .mk (keys_leaf?_subset h) fun _ hc => absurd hc List.not_mem_nil
  finish _ hf := hf.finish
  attach hf hn := hf.attach hn
  collect hf h := hf.collect? h
  extend _ hf hchildren _ := hf.extend hchildren
  check hf := ⟨keys_insert_subset hf.fields (by decide), hf.children, hf.literal⟩

/-- Whatever the events, the fields of the tree have no other names. -/
theorem named_build (text : List Char) (events : List Located) :
    (build text events).Everywhere Node.Named := by
  have hroot : (start text).root.Named :=
    ⟨List.nil_subset _, fun _ hn => absurd hn List.not_mem_nil, fun _ _ h => by cases h⟩
  obtain ⟨f, hf, heq⟩ := (carries_named _).build hroot (admits_of_forall fun _ _ _ => trivial)
  rw [heq]
  exact hf.finish

end TreeBuilder

/-! ### Taking out positions -/

/-- The member that holds the span of a node. -/
def positionKey : String := "position"

mutual

/-- Takes the position out of the serialized form of a node and out of those of its children. -/
def dropPosition : Value → Value
  | .object members => .object (dropFromMembers members)
  | v => v

def dropFromMembers : List (String × Value) → List (String × Value)
  | [] => []
  | (key, value) :: rest =>
    if key = positionKey then dropFromMembers rest
    else if key = childrenKey then (key, dropFromItems value) :: dropFromMembers rest
    else (key, value) :: dropFromMembers rest

/-- Takes the positions out of nodes that stand in an array. -/
def dropFromItems : Value → Value
  | .array items => .array (dropFromEach items)
  | v => v

def dropFromEach : List Value → List Value
  | [] => []
  | v :: vs => dropPosition v :: dropFromEach vs

end

theorem dropFromMembers_append (ms ns : List (String × Value)) :
    dropFromMembers (ms ++ ns) = dropFromMembers ms ++ dropFromMembers ns := by
  induction ms with
  | nil => rfl
  | cons m ms ih =>
    obtain ⟨key, value⟩ := m
    rw [List.cons_append, dropFromMembers, dropFromMembers, ih]
    split
    · rfl
    · split <;> rfl

/-- Fields are left as they are. -/
theorem dropFromMembers_eq_self {fields : Object} (hposition : positionKey ∉ fields.keys)
    (hchildren : childrenKey ∉ fields.keys) : dropFromMembers fields = fields := by
  induction fields with
  | nil => rfl
  | cons m fields ih =>
    obtain ⟨key, value⟩ := m
    obtain ⟨hp, hps⟩ := not_or.1 (fun h => hposition (List.mem_cons.2 h))
    obtain ⟨hc, hcs⟩ := not_or.1 (fun h => hchildren (List.mem_cons.2 h))
    rw [dropFromMembers, if_neg (Ne.symm hp), if_neg (Ne.symm hc), ih hps hcs]

namespace Node

theorem childrenToJson_eq_map (ns : List Node) : childrenToJson ns = ns.map toJson := by
  induction ns with
  | nil => rfl
  | cons n ns ih => rw [childrenToJson, ih, List.map_cons]

theorem dropFromEach_eq_map (vs : List Value) : dropFromEach vs = vs.map dropPosition := by
  induction vs with
  | nil => rfl
  | cons v vs ih => rw [dropFromEach, ih, List.map_cons]

/-- Without positions the serialized form is the instance form, if no field takes the name of one of
the other members. -/
theorem dropPosition_toJson {n : Node} (h : n.Everywhere fun n => n.OwnNames ∧ n.Named) :
    dropPosition n.toJson = n.toInstance := by
  induction h with
  | @mk n hself _ ih =>
    obtain ⟨hown, hnamed⟩ := hself
    rw [toInstance_of_ownNames hown]
    obtain ⟨kind, fields, children, span⟩ := n
    have hkind : positionKey ≠ kindKey := by decide
    have hposition : positionKey ∉ (ownMembers kind fields).keys := by
      intro hmem
      rcases List.mem_cons.1 hmem with heq | hmem
      · exact hkind heq
      · exact absurd (hnamed hmem) (by decide)
    have hfields : dropFromMembers (ownMembers kind fields) = ownMembers kind fields :=
      dropFromMembers_eq_self hposition hown.ownMembers.1
    have hitems : dropFromEach (childrenToJson children) = children.map toInstance := by
      rw [dropFromEach_eq_map, childrenToJson_eq_map, List.map_map]
      exact List.map_congr_left ih
    have hlast : dropFromMembers [(positionKey, span.toJson)] = [] := rfl
    have hmembers : toJson ⟨kind, fields, children, span⟩ = .object (ownMembers kind fields ++
        ((if children.isEmpty then [] else [(childrenKey, .array (childrenToJson children))]) ++
          [(positionKey, span.toJson)])) := by
      rw [← List.append_assoc]
      rfl
    rw [hmembers, dropPosition, dropFromMembers_append, dropFromMembers_append, hfields, hlast,
      List.append_nil]
    unfold layout
    dsimp only
    split
    · rfl
    · have hne : childrenKey ≠ positionKey := by decide
      simp only [dropFromMembers, if_neg hne, if_true, dropFromItems, hitems]

end Node

/-- **The two encodings of a tree agree.**  Whatever the text, its tree as it is serialized, less the
position of every node, is the instance that schemas are checked against. -/
theorem dropPosition_toJson_parse (text : String) :
    dropPosition (Document.parse text).root.toJson = (Document.parse text).root.toInstance := by
  have hown : (Document.parse text).root.Everywhere Node.OwnNames :=
    (Document.proper_parse text).everywhere.imp fun _ h => h.keys
  exact Node.dropPosition_toJson (hown.and (TreeBuilder.named_build _ _))

end DocSchema
