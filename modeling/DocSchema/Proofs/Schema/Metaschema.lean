/-
  DocSchema/Proofs/Schema/Metaschema.lean
  =======================================
  **What the metaschema of draft 7 accepts.**

  The metaschema refers to itself and to its definitions, and to nothing else (`context`).  Among
  the published documents these references lead where they should (`lawful_context`), so that a
  schema whose keywords fit the members of the metaschema is accepted
  (`violations_draft7_eq_nil`).
-/
import DocSchema.Proofs.Schema.Fitting
import DocSchema.Proofs.Schema.Published

namespace DocSchema.Metaschema

open DocSchema.Json DocSchema.Schema

/-! ### References -/

/-- What the references of the metaschema mean. -/
def known : List (String × Value) :=
  ("#", Draft.draft7.document) ::
    Draft7.definitions.map fun (name, v) => ("#/definitions/" ++ name, v)

def context : Context :=
  ⟨published, uri7, known⟩

theorem publication_draft7 :
    (Draft.draft7.publication Draft.draft7.document).1 = uri7 := by decide

/-- A reference that begins with `#` leads into the document around it. -/
theorem exists_find?_of_lookup {r : Registry} {scope : Scope} {reference : String}
    {fragment : List Char} (href : reference.toList = '#' :: fragment) {found : Scope × Value}
    (h : r.lookup scope reference = .ok found) :
    ∃ s, r.find? scope.base = some s ∧
      (fragment = [] → found = ({ r.moveTo scope scope.base with draft := s.draft }, s.value)) ∧
      ∀ path, fragment = '/' :: path → Registry.atPointer s.draft fragment
        { r.moveTo scope scope.base with draft := s.draft } s.value = .ok found := by
  unfold Registry.lookup at h
  rw [href] at h
  simp only [pure_bind] at h
  cases hs : r.find? scope.base with
  | none =>
    rw [hs] at h
    cases h
  | some s =>
    rw [hs] at h
    refine ⟨s, rfl, fun hf => ?_, fun path hf => ?_⟩
    · subst hf
      exact (Except.ok.inj h).symm
    · subst hf
      exact h

section Lookup

variable {r : Registry} (hr : Settled r)
include hr

theorem moveTo_uri7 (hasMoved : Bool) :
    r.moveTo (context.scope hasMoved) uri7 = context.scope true := by
  unfold Registry.moveTo
  cases hasMoved with
  | true => exact if_pos rfl
  | false =>
    change (⟨.draft7, .draft7, uri7, true, [] ++ ((r.dynamicNames uri7).filter _).map _, _⟩ : Scope)
      = _
    rw [hr.dynamicNames]
    change (⟨_, _, _, _, _, if r.isRecursive uri7 then _ else none⟩ : Scope) = _
    rw [hr.isRecursive]
    rfl

theorem lookup_self {hasMoved : Bool} {found : Scope × Value}
    (h : r.lookup (context.scope hasMoved) "#" = .ok found) :
    found = (context.scope true, Draft.draft7.document) := by
  obtain ⟨s, hs, hself, -⟩ := exists_find?_of_lookup rfl h
  rw [hself rfl, hr.eq_of_find? hs]
  change ({ r.moveTo (context.scope hasMoved) uri7 with draft := .draft7 }, _) = _
  rw [moveTo_uri7 hr hasMoved]
  rfl

theorem lookup_pointer {hasMoved : Bool} {reference : String} {path : List Char}
    (href : reference.toList = '#' :: '/' :: path) {found : Scope × Value}
    (h : r.lookup (context.scope hasMoved) reference = .ok found) :
    Registry.atPointer .draft7 ('/' :: path) (context.scope true) Draft.draft7.document =
      .ok found := by
  obtain ⟨s, hs, -, hpointer⟩ := exists_find?_of_lookup href h
  have hfound := hpointer path rfl
  rw [hr.eq_of_find? hs] at hfound
  change Registry.atPointer .draft7 _ { r.moveTo (context.scope hasMoved) uri7 with
    draft := .draft7 } _ = _ at hfound
  rw [moveTo_uri7 hr hasMoved] at hfound
  exact hfound

end Lookup

theorem lawful_context : context.Lawful where
  lookup m hm hasMoved found hfound := by
    have hpointer : ∀ m ∈ Draft7.definitions,
        ("#/definitions/" ++ m.1).toList = '#' :: '/' :: ("definitions/" ++ m.1).toList ∧
          Registry.atPointer .draft7 ('/' :: ("definitions/" ++ m.1).toList) (context.scope true)
            Draft.draft7.document = .ok (context.scope true, m.2) := by
      decide +kernel
    rcases List.mem_cons.1 hm with rfl | hm
    · exact lookup_self settled_published hfound
    · obtain ⟨m, hdefinition, rfl⟩ := List.mem_map.1 hm
      obtain ⟨href, hpointer⟩ := hpointer m hdefinition
      have hfound' := lookup_pointer settled_published href hfound
      exact (Except.ok.inj (hpointer.symm.trans hfound')).symm
  enter := by decide
  draft := by decide
  plain := by decide
  unique m hm m' hm' uri uri' huri huri' htext := by
    have heq : ∀ m ∈ known, ∀ m' ∈ known,
        (context.target m.1).toOption.map Uri.text = (context.target m'.1).toOption.map Uri.text →
          m.2 = m'.2 := by
      decide
    refine heq m hm m' hm' ?_
    rw [huri, huri']
    exact congrArg some htext

/-! ### Schemas that fit -/

theorem enter_document : (context.scope false).enter Draft.draft7.document =
    .ok (context.scope false) := by
  decide

theorem violations_draft7_eq_nil {w : Value} (hw : context.Fits Draft.draft7.document w) :
    draft7.violations w = [] := by
  have heq : draft7 = (Validator.ofDocument published uri7
      ⟨.draft7, Draft.draft7.document⟩).toOption.getD ⟨.always, #[]⟩ :=
    congrArg (fun uri => (Validator.ofDocument published uri
      ⟨.draft7, Draft.draft7.document⟩).toOption.getD ⟨.always, #[]⟩) publication_draft7
  rw [heq]
  cases hva : Validator.ofDocument published uri7 ⟨.draft7, Draft.draft7.document⟩ with
  | error e => rfl
  | ok va =>
    have hknown : ("#", Draft.draft7.document) ∈ context.known := List.mem_cons_self
    exact Context.violations_eq_nil lawful_context hknown enter_document hva hw

/-- What stands under a keyword fits the member of the metaschema that describes it. -/
def FitsAt (m : String × Value) : Prop :=
  ∀ s, Object.get? (Draft7.members .draft7) m.1 = some s → context.Fits s m.2

theorem nodup_members : (Object.keys (Draft7.members .draft7)).Nodup := by
  decide

theorem fits_document {ms : Object} (h : ∀ m ∈ ms, FitsAt m) :
    context.Fits Draft.draft7.document (.object ms) := by
  refine Context.fits_of_keeps ?_
  refine .cons rfl (.idle _ _) (.cons rfl (.idle _ _) (.cons rfl (.idle _ _) ?_))
  refine .cons rfl (.type (t := .object) (.some List.mem_cons_self) rfl) ?_
  refine .cons rfl (.properties fun m hm x hx => ?_) (.cons rfl (.idle _ _) .nil)
  exact h (m.1, x) (Object.mem_of_get? hx) m.2 (Object.get?_of_mem nodup_members hm)

/-! ### Keywords that fit -/

theorem fits_self {x : Value} (h : context.Fits Draft.draft7.document x) : context.Fits self x :=
  Context.fits_of_keeps (.cons rfl (.ref List.mem_cons_self h) .nil)

theorem fits_definition {name : String} {s x : Value} (hs : (name, s) ∈ Draft7.definitions)
    (h : context.Fits s x) : context.Fits (definition name) x := by
  have hknown : ("#/definitions/" ++ name, s) ∈ context.known :=
    List.mem_cons_of_mem _ (List.mem_map_of_mem
      (f := fun m : String × Value => ("#/definitions/" ++ m.1, m.2)) hs)
  exact Context.fits_of_keeps (.cons rfl (.ref hknown h) .nil)

/-- The members of the metaschema that describe the keywords of skeletons. -/
theorem get?_members :
    Object.get? (Draft7.members .draft7) "$schema" = some (formatted "uri") ∧
    Object.get? (Draft7.members .draft7) "title" = some text ∧
    Object.get? (Draft7.members .draft7) "const" = some (.bool true) ∧
    Object.get? (Draft7.members .draft7) "type" = some (typeValue (definition "simpleTypes")) ∧
    Object.get? (Draft7.members .draft7) "maxItems" = some (definition "nonNegativeInteger") ∧
    Object.get? (Draft7.members .draft7) "items" = some (.object
      [("anyOf", .array [self, definition "schemaArray"]), ("default", .bool true)]) ∧
    Object.get? (Draft7.members .draft7) "properties" = some (mapOf self emptyMap) :=
  ⟨rfl, rfl, rfl, rfl, rfl, rfl, rfl⟩

theorem fitsAt_of_get? {key : String} {s x : Value}
    (hs : Object.get? (Draft7.members .draft7) key = some s) (h : context.Fits s x) :
    FitsAt (key, x) := by
  intro s' hs'
  cases hs.symm.trans hs'
  exact h

theorem fitsAt_const (x : Value) : FitsAt ("const", x) :=
  fitsAt_of_get? get?_members.2.2.1 (.truth x)

theorem fitsAt_title (title : String) : FitsAt ("title", .string title) :=
  fitsAt_of_get? get?_members.2.1
    (Context.fits_of_keeps (.cons rfl (.type (.one .string) rfl) .nil))

theorem fitsAt_schema {uri : String} (h : Format.uri.accepts uri = true) :
    FitsAt ("$schema", .string uri) := by
  refine fitsAt_of_get? get?_members.1 (Context.fits_of_keeps ?_)
  refine .cons rfl (.type (.one .string) rfl) (.cons rfl (.format fun f s hf hs => ?_) .nil)
  have huri : Format.ofName? .draft7 "uri" = some .uri := rfl
  cases huri.symm.trans hf
  cases hs
  exact h

theorem fitsAt_type (t : TypeName) : FitsAt ("type", .string t.text) := by
  refine fitsAt_of_get? get?_members.2.2.2.1 (Context.fits_of_keeps ?_)
  refine .cons rfl (.anyOf List.mem_cons_self ?_) .nil
  refine fits_definition (s := typeNames) (by simp [Draft7.definitions]) (Context.fits_of_keeps ?_)
  exact .cons rfl (.enum (by cases t <;> rfl)) .nil

theorem accepts_minimum (n : Nat) : Bound.minimum.accepts (.int 0) (.int n) = true := by
  have hcompare : Number.compare (.int n) (.int 0) = compare (n : Int) 0 := by
    unfold Number.compare Binary64.compareScaled
    simp [Number.scaled, twoTo]
  unfold Bound.accepts
  dsimp only
  rw [hcompare]
  simp [Std.isGE_compare]

theorem fitsAt_maxItems (n : Nat) : FitsAt ("maxItems", .ofNat n) := by
  refine fitsAt_of_get? get?_members.2.2.2.2.1 ?_
  refine fits_definition (s := count) (by simp [Draft7.definitions]) (Context.fits_of_keeps ?_)
  refine .cons rfl (.type (.one .integer) rfl) (.cons rfl (.minimum fun m hm => ?_) .nil)
  cases hm
  exact accepts_minimum n

/-- Schemas for the items one by one; there has to be one. -/
theorem fitsAt_items {first : Value} {rest : List Value}
    (h : ∀ x ∈ first :: rest, context.Fits Draft.draft7.document x) :
    FitsAt ("items", .array (first :: rest)) := by
  refine fitsAt_of_get? get?_members.2.2.2.2.2.1 (Context.fits_of_keeps ?_)
  refine .cons rfl (.anyOf (List.mem_cons_of_mem _ List.mem_cons_self) ?_)
    (.cons rfl (.idle _ _) .nil)
  refine fits_definition (s := schemaList self) (by simp [Draft7.definitions]) (Context.fits_of_keeps ?_)
  refine .cons rfl (.type (.one .array) rfl) (.cons rfl (.minItems (n := 1) ?_)
    (.cons rfl (.items rfl fun xs hxs x hx => ?_) .nil))
  · simp [SizeBound.accepts]
  · cases hxs
    exact fits_self (h x hx)

theorem fitsAt_properties {ms : Object}
    (h : ∀ m ∈ ms, context.Fits Draft.draft7.document m.2) :
    FitsAt ("properties", .object ms) := by
  refine fitsAt_of_get? get?_members.2.2.2.2.2.2 (Context.fits_of_keeps ?_)
  refine .cons rfl (.type (.one .object) rfl) (.cons rfl (.additionalProperties fun ms' hms m hm =>
    ?_) (.cons rfl (.idle _ _) .nil))
  cases hms
  exact fits_self (h m hm)

end DocSchema.Metaschema
