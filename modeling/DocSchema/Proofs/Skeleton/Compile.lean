/-
  DocSchema/Proofs/Skeleton/Compile.lean
  ======================================
  **Every skeleton becomes a validator.**

  A shape has an exact reading, which needs neither a registry nor links
  (`readSchema_toValue`).  A skeleton names nothing and refers to nothing (`Local`), and its
  keywords fit the metaschema; so it always becomes a validator, of the schema of its shape
  (`compile_synthesize`).
-/
import DocSchema.Proofs.Schema.Metaschema
import DocSchema.Proofs.Schema.Retrieval
import DocSchema.Proofs.Skeleton.Shape

namespace DocSchema.Skeleton

open DocSchema.Json DocSchema.Schema

/-! ### The metaschema -/

theorem text_typeOf (v : Value) : (Shape.typeOf v).text = v.typeName := by
  cases v <;> rfl

theorem fits_toValue (s : Shape) : Metaschema.context.Fits Draft.draft7.document s.toValue := by
  induction s using Shape.by_parts with
  | const v =>
    refine Metaschema.fits_document (List.forall_mem_cons.2 ⟨Metaschema.fitsAt_const v, ?_⟩)
    rw [List.forall_mem_singleton, ← text_typeOf v]
    exact Metaschema.fitsAt_type _
  | members title ms ih =>
    refine Metaschema.fits_document (List.forall_mem_cons.2 ⟨Metaschema.fitsAt_type .object,
      List.forall_mem_cons.2 ⟨Metaschema.fitsAt_title title, ?_⟩⟩)
    rw [List.forall_mem_singleton, Shape.memberValues_eq_map]
    refine Metaschema.fitsAt_properties fun m hm => ?_
    obtain ⟨e, he, rfl⟩ := List.mem_map.1 hm
    exact ih e he
  | items first rest ih =>
    refine Metaschema.fits_document (List.forall_mem_cons.2 ⟨Metaschema.fitsAt_type .array,
      List.forall_mem_cons.2 ⟨Metaschema.fitsAt_maxItems _, ?_⟩⟩)
    rw [List.forall_mem_singleton, Shape.itemValues_eq_map]
    refine Metaschema.fitsAt_items fun x hx => ?_
    rw [← List.map_cons] at hx
    obtain ⟨s, hs, rfl⟩ := List.mem_map.1 hx
    exact ih s hs

/-- What stands in a skeleton as a whole. -/
def rootMembers (title : String) (ms : List (String × Shape)) : Object :=
  [("$schema", .string draft), ("type", .string "object"), ("title", .string title),
    ("properties", .object (Shape.memberValues ms))]

theorem withDraft_members (title : String) (ms : List (String × Shape)) :
    withDraft (Shape.members title ms).toValue = .object (rootMembers title ms) := by
  rw [Shape.toValue]
  rfl

theorem fits_rootMembers (title : String) (ms : List (String × Shape)) :
    Metaschema.context.Fits Draft.draft7.document (.object (rootMembers title ms)) := by
  refine Metaschema.fits_document (List.forall_mem_cons.2
    ⟨Metaschema.fitsAt_schema (by decide +kernel), List.forall_mem_cons.2
      ⟨Metaschema.fitsAt_type .object, List.forall_mem_cons.2 ⟨Metaschema.fitsAt_title title, ?_⟩⟩⟩)
  rw [List.forall_mem_singleton, Shape.memberValues_eq_map]
  refine Metaschema.fitsAt_properties fun m hm => ?_
  obtain ⟨e, -, rfl⟩ := List.mem_map.1 hm
  exact fits_toValue e.2

/-! ### Reading -/

section Reading

variable {r : Registry} {scope : Scope} {members : Object} {read : Scope → Value → Reading Schema}
  {p : Schema.Progress}

theorem mapM_eq_ok {α β : Type} {f : α → Reading β} {xs : List α} {ys : List β}
    (h : List.Forall₂ (fun x y => f x p = .ok (y, p)) xs ys) : xs.mapM f p = .ok (ys, p) := by
  induction h with
  | nil => rfl
  | @cons x y xs ys hx _ ih =>
    rw [List.mapM_cons]
    change (f x p).bind (fun r => (xs.mapM f >>= fun ys => pure (r.1 :: ys)) r.2) = _
    rw [hx]
    change (xs.mapM f p).bind _ = _
    rw [ih]
    rfl

theorem only_eq_ok {α : Type} {f : α → Schema} {m : Reading α} {a : α}
    (h : m p = .ok (a, p)) : Place.only (f <$> m) p = .ok ([f a], p) := by
  change ((m p).bind fun r => .ok (f r.1, r.2)).bind (fun r => .ok ([r.1], r.2)) = _
  rw [h]
  rfl

/-- The answers for the keywords of an object are put together. -/
theorem readSchema_object {n : Nat} {partss : List (List Schema)}
    (href : Object.contains members "$ref" = false)
    (h : List.Forall₂ (fun m parts => Place.keyword ⟨r, scope, members, readSchema r n⟩ m.1 m.2 p =
      .ok (parts, p)) members partss) :
    readSchema r (n + 1) scope (.object members) p = .ok (.all partss.flatten, p) := by
  have hcounting : countingKeywords scope.draft members = members := by
    unfold countingKeywords
    rw [href, Bool.and_false]
    rfl
  unfold readSchema
  dsimp only
  rw [hcounting]
  have hmapM := mapM_eq_ok h
  change (members.mapM (fun m => Place.keyword ⟨r, scope, members, readSchema r n⟩ m.1 m.2) p).bind
    _ = _
  rw [hmapM]
  rfl

theorem keyword_type (hscope : scope.draft = .draft7) (t : TypeName) :
    Place.keyword ⟨r, scope, members, read⟩ "type" (.string t.text) p =
      .ok ([.type [t] true], p) := by
  obtain ⟨d, vocabularies, base, hasMoved, dynamic, recursive⟩ := scope
  cases hscope
  cases t <;> rfl

theorem keyword_const (hscope : scope.draft = .draft7) (v : Value) :
    Place.keyword ⟨r, scope, members, read⟩ "const" v p = .ok ([.const v], p) := by
  obtain ⟨d, vocabularies, base, hasMoved, dynamic, recursive⟩ := scope
  cases hscope
  rfl

theorem keyword_idle (hscope : scope.draft = .draft7) {key : String}
    (hkey : key = "$schema" ∨ key = "title") (v : Value) :
    Place.keyword ⟨r, scope, members, read⟩ key v p = .ok ([], p) := by
  obtain ⟨d, vocabularies, base, hasMoved, dynamic, recursive⟩ := scope
  cases hscope
  rcases hkey with rfl | rfl <;> rfl

theorem keyword_maxItems (hscope : scope.draft = .draft7) (n : Nat) :
    Place.keyword ⟨r, scope, members, read⟩ "maxItems" (.ofNat n) p =
      .ok ([.size .maxItems n], p) := by
  obtain ⟨d, vocabularies, base, hasMoved, dynamic, recursive⟩ := scope
  cases hscope
  have hsize : Reading.sizeOf .draft7 (.ofNat n) = pure n := by
    unfold Reading.sizeOf Value.ofNat
    dsimp only
    rw [if_pos (Int.natCast_nonneg n), Int.toNat_natCast]
  have hok : Reading.sizeOf .draft7 (.ofNat n) p = .ok (n, p) := by
    rw [hsize]
    rfl
  exact only_eq_ok (f := Schema.size .maxItems) hok

theorem inner_toValue (hscope : scope.draft = .draft7) (s : Shape) :
    Place.inner ⟨r, scope, members, read⟩ s.toValue = read scope s.toValue := by
  obtain ⟨d, vocabularies, base, hasMoved, dynamic, recursive⟩ := scope
  cases hscope
  cases s <;> rfl

/-- A shape inside is read as it should be. -/
def ReadsAs (read : Scope → Value → Reading Schema) (scope : Scope) (p : Schema.Progress)
    (s : Shape) :
    Prop :=
  read scope s.toValue p = .ok (s.schema, p)

theorem inner_of_readsAs (hscope : scope.draft = .draft7) {s : Shape}
    (h : ReadsAs read scope p s) :
    Place.inner ⟨r, scope, members, read⟩ s.toValue p = .ok (s.schema, p) := by
  rw [inner_toValue hscope]
  exact h

theorem keyword_properties (hscope : scope.draft = .draft7) {ms : List (String × Shape)}
    (hclosed : Object.get? members "additionalProperties" = none)
    (h : ∀ m ∈ ms, ReadsAs read scope p m.2) :
    Place.keyword ⟨r, scope, members, read⟩ "properties" (.object (Shape.memberValues ms)) p =
      .ok ([.properties (Shape.memberSchemas ms)], p) := by
  have hnamed : Place.innerNamed ⟨r, scope, members, read⟩
      (some (.object (Shape.memberValues ms))) p = .ok (Shape.memberSchemas ms, p) := by
    rw [Shape.memberValues_eq_map, Shape.memberSchemas_eq_map]
    refine mapM_eq_ok (List.forall₂_map_left_iff.2 (List.forall₂_map_right_iff.2
      (List.forall₂_same.2 fun m hm => ?_)))
    change (Place.inner ⟨r, scope, members, read⟩ m.2.toValue p).bind _ = _
    rw [inner_of_readsAs hscope (h m hm)]
    rfl
  have hopen : Place.closesObject ⟨r, scope, members, read⟩ = false := by
    unfold Place.closesObject Place.get?
    dsimp only
    rw [hclosed]
  obtain ⟨d, vocabularies, base, hasMoved, dynamic, recursive⟩ := scope
  cases hscope
  change (if Place.closesObject _ then _ else _ : Reading (List Schema)) p = _
  rw [hopen]
  exact only_eq_ok (f := Schema.properties) hnamed

theorem keyword_items (hscope : scope.draft = .draft7) {first : Shape} {rest : List Shape}
    (h : ∀ s ∈ first :: rest, ReadsAs read scope p s) :
    Place.keyword ⟨r, scope, members, read⟩ "items"
      (.array (first.toValue :: Shape.itemValues rest)) p =
        .ok ([.itemList "items" (first.schema :: Shape.itemSchemas rest)], p) := by
  have hlist : Place.innerList ⟨r, scope, members, read⟩
      (.array (first.toValue :: Shape.itemValues rest)) p =
        .ok (first.schema :: Shape.itemSchemas rest, p) := by
    rw [Shape.itemValues_eq_map, Shape.itemSchemas_eq_map, ← List.map_cons, ← List.map_cons]
    exact mapM_eq_ok (List.forall₂_map_left_iff.2 (List.forall₂_map_right_iff.2
      (List.forall₂_same.2 fun s hs => inner_of_readsAs hscope (h s hs))))
  obtain ⟨d, vocabularies, base, hasMoved, dynamic, recursive⟩ := scope
  cases hscope
  exact only_eq_ok (f := Schema.itemList "items") hlist

theorem valueCount_le_items {x : Value} {xs : List Value} (h : x ∈ xs) :
    valueCount x ≤ valueCountOfItems xs := by
  induction xs with
  | nil => exact absurd h List.not_mem_nil
  | cons y ys ih =>
    rw [valueCountOfItems]
    rcases List.mem_cons.1 h with rfl | h
    · omega
    · have hle := ih h
      omega

theorem valueCount_le_members {m : String × Value} {ms : Object} (h : m ∈ ms) :
    valueCount m.2 ≤ valueCountOfMembers ms := by
  induction ms with
  | nil => exact absurd h List.not_mem_nil
  | cons m' ms ih =>
    rw [valueCountOfMembers]
    rcases List.mem_cons.1 h with rfl | h
    · omega
    · have hle := ih h
      omega

theorem valueCount_lt_ofProperties (title : String) {ms : List (String × Shape)}
    {m : String × Shape} (hm : m ∈ ms) :
    valueCount m.2.toValue < valueCount (ofProperties title (Shape.memberValues ms)) := by
  have hle := valueCount_le_members (List.mem_map_of_mem
    (f := fun m : String × Shape => (m.1, m.2.toValue)) hm)
  rw [← Shape.memberValues_eq_map] at hle
  simp only [ofProperties, valueCount, valueCountOfMembers]
  dsimp only at hle
  omega

theorem keywords_ofProperties (hscope : scope.draft = .draft7) (title : String)
    {ms : List (String × Shape)}
    (hclosed : Object.get? members "additionalProperties" = none)
    (h : ∀ m ∈ ms, ReadsAs read scope p m.2) :
    List.Forall₂ (fun m parts => Place.keyword ⟨r, scope, members, read⟩ m.1 m.2 p = .ok (parts, p))
      [("type", .string "object"), ("title", .string title),
        ("properties", .object (Shape.memberValues ms))]
      [[.type [.object] true], [], [.properties (Shape.memberSchemas ms)]] := by
  refine .cons (keyword_type hscope .object) (.cons (keyword_idle hscope (.inr rfl) _) (.cons ?_ .nil))
  exact keyword_properties hscope hclosed h

theorem readSchema_ofProperties (hscope : scope.draft = .draft7) (title : String)
    {ms : List (String × Shape)} {n : Nat}
    (h : ∀ m ∈ ms, ReadsAs (readSchema r n) scope p m.2) :
    readSchema r (n + 1) scope (ofProperties title (Shape.memberValues ms)) p =
      .ok ((Shape.members title ms).schema, p) := by
  have hclosed : Object.get? [("type", .string "object"), ("title", .string title),
      ("properties", .object (Shape.memberValues ms))] "additionalProperties" = none := by
    simp [Object.get?]
  have href : Object.contains [("type", .string "object"), ("title", .string title),
      ("properties", .object (Shape.memberValues ms))] "$ref" = false := by
    simp [Object.contains, Object.get?]
  rw [Shape.schema]
  exact readSchema_object href (keywords_ofProperties hscope title hclosed h)

theorem readSchema_rootMembers (hscope : scope.draft = .draft7) (title : String)
    {ms : List (String × Shape)} {n : Nat}
    (h : ∀ m ∈ ms, ReadsAs (readSchema r n) scope p m.2) :
    readSchema r (n + 1) scope (.object (rootMembers title ms)) p =
      .ok ((Shape.members title ms).schema, p) := by
  have hclosed : Object.get? (rootMembers title ms) "additionalProperties" = none := by
    simp [Object.get?, rootMembers]
  have href : Object.contains (rootMembers title ms) "$ref" = false := by
    simp [Object.contains, Object.get?, rootMembers]
  rw [Shape.schema]
  exact readSchema_object href (.cons (keyword_idle hscope (.inl rfl) _)
    (keywords_ofProperties hscope title hclosed h))

/-- With steps enough, a shape is read as its schema. -/
theorem readSchema_toValue (hscope : scope.draft = .draft7) (s : Shape) {n : Nat}
    (hn : valueCount s.toValue ≤ n) : readSchema r n scope s.toValue p = .ok (s.schema, p) := by
  induction s using Shape.by_parts generalizing n with
  | const v =>
    cases n with
    | zero => simp [Shape.toValue, ofConst, valueCount] at hn
    | succ n =>
      have href : Object.contains [("const", v), ("type", .string v.typeName)] "$ref" = false := by
        simp [Object.contains, Object.get?]
      rw [Shape.toValue, ofConst]
      rw [← text_typeOf v] at href ⊢
      exact readSchema_object href
        (.cons (keyword_const hscope v) (.cons (keyword_type hscope (Shape.typeOf v)) .nil))
  | members title ms ih =>
    rw [Shape.toValue] at hn ⊢
    cases n with
    | zero => simp [ofProperties, valueCount] at hn
    | succ n =>
      have hinner : ∀ m ∈ ms, ReadsAs (readSchema r n) scope p m.2 := fun m hm => by
        have hlt := valueCount_lt_ofProperties title hm
        exact ih m hm (by omega)
      exact readSchema_ofProperties hscope title hinner
  | items first rest ih =>
    rw [Shape.toValue] at hn ⊢
    cases n with
    | zero => simp [valueCount] at hn
    | succ n =>
      have hinner : ∀ s ∈ first :: rest, ReadsAs (readSchema r n) scope p s := fun s hs => by
        have hle := valueCount_le_items (List.mem_map_of_mem (f := Shape.toValue) hs)
        rw [List.map_cons, ← Shape.itemValues_eq_map] at hle
        simp only [valueCount, valueCountOfMembers] at hn
        exact ih s hs (by omega)
      have href : Object.contains [("type", .string "array"),
          ("maxItems", .ofNat (rest.length + 1)),
          ("items", .array (first.toValue :: Shape.itemValues rest))] "$ref" = false := by
        simp [Object.contains, Object.get?]
      rw [Shape.schema]
      exact readSchema_object href (.cons (keyword_type hscope .array)
        (.cons (keyword_maxItems hscope _) (.cons (keyword_items hscope hinner) .nil)))

end Reading

/-! ### Gathering -/

/-- A schema that names nothing and needs no other document, and so do those inside it. -/
inductive Local : Value → Prop
  | mk {v : Value} (huri : Draft.draft7.ownUri? v = none) (hnames : Draft.draft7.ownNames v = [])
      (href : v.get? "$ref" = none)
      (hdraft : ∀ x ∈ Draft.draft7.subschemas v, Draft.draft7.detect x = .ok .draft7)
      (hinside : ∀ x ∈ Draft.draft7.subschemas v, Local x) : Local v

theorem Local.baseInside {v : Value} (h : Local v) (base : Uri) :
    Resource.baseInside ⟨.draft7, v⟩ base = .ok base := by
  obtain ⟨huri, -, -, -, -⟩ := h
  unfold Resource.baseInside
  dsimp only
  rw [huri]

theorem Local.neededDocument {v : Value} (h : Local v) (base : Uri) :
    neededDocument base v = .ok [] := by
  obtain ⟨-, -, href, -, -⟩ := h
  unfold Schema.neededDocument
  rw [href]
  rfl

theorem Local.inside {v : Value} (h : Local v) : Resource.inside ⟨.draft7, v⟩ =
    .ok ((Draft.draft7.subschemas v).map fun x => ⟨.draft7, x⟩) := by
  obtain ⟨-, -, -, hdraft, -⟩ := h
  refine mapM_eq_ok_map fun x hx => ?_
  dsimp only
  rw [hdraft x hx]

/-- Among schemas that name nothing there is nothing to gather. -/
theorem gather_local (n : Nat) (queue : List (Uri × Resource)) (g : Gathered)
    (h : ∀ e ∈ queue, e.2.draft = .draft7 ∧ Local e.2.value) : gather n queue g = .ok g := by
  induction n generalizing queue with
  | zero => rfl
  | succ n ih =>
    cases queue with
    | nil => rfl
    | cons e queue =>
      obtain ⟨base, ⟨draft, v⟩⟩ := e
      obtain ⟨⟨hdraft, hv⟩, hqueue⟩ := List.forall_mem_cons.1 h
      dsimp only at hdraft hv
      subst hdraft
      have hinside : ∀ x ∈ Draft.draft7.subschemas v, Local x := by
        obtain ⟨-, -, -, -, hinside⟩ := hv
        exact hinside
      have hneeded : ((Draft.draft7.subschemas v).map fun x => (⟨.draft7, x⟩ : Resource)).mapM
          (fun part => do Schema.neededDocument (← part.baseInside base) part.value) =
            .ok (((Draft.draft7.subschemas v).map fun x => (⟨.draft7, x⟩ : Resource)).map
              fun _ => []) := by
        refine mapM_eq_ok_map fun part hpart => ?_
        obtain ⟨x, hx, rfl⟩ := List.mem_map.1 hpart
        rw [(hinside x hx).baseInside]
        exact (hinside x hx).neededDocument base
      have hnames : Draft.draft7.ownNames v = [] ∧ (Draft.draft7.ownUri? v).isSome = false := by
        obtain ⟨huri, hnames, -, -, -⟩ := hv
        exact ⟨hnames, by rw [huri]; rfl⟩
      have hnext : ∀ e ∈ queue ++ ((Draft.draft7.subschemas v).map
          fun x => (⟨.draft7, x⟩ : Resource)).map fun part => (base, part),
            e.2.draft = .draft7 ∧ Local e.2.value := by
        intro e he
        rcases List.mem_append.1 he with he | he
        · exact hqueue e he
        · obtain ⟨part, hpart, rfl⟩ := List.mem_map.1 he
          obtain ⟨x, hx, rfl⟩ := List.mem_map.1 hpart
          exact ⟨rfl, hinside x hx⟩
      have hbind {α β : Type} (a : α) (f : α → Except LookupError β) :
          (Except.ok a >>= f) = f a := rfl
      rw [gather, hv.baseInside, hbind, hv.neededDocument, hbind, hv.inside, hbind, hneeded, hbind]
      dsimp only
      have hnone : (((Draft.draft7.subschemas v).map fun x => (⟨.draft7, x⟩ : Resource)).map
          fun _ => ([] : List Uri)).flatten = [] := by
        refine List.flatten_eq_nil_iff.2 fun us hus => ?_
        obtain ⟨-, -, rfl⟩ := List.mem_map.1 hus
        rfl
      rw [hnames.1, hnames.2, hnone]
      simpa using ih _ hnext

/-- The registry of a schema that names nothing is the known one, and itself. -/
theorem ofDocument_local [Retrieval] {known : Registry} {uri : Uri} {v : Value} (h : Local v) :
    Registry.ofDocument known uri ⟨.draft7, v⟩ =
      .ok (Registry.append ⟨[(uri, ⟨.draft7, v⟩)], []⟩ known) :=
  ofDocument_of_known (gather_local _ _ _ fun e he => by
    cases List.mem_singleton.1 he
    exact ⟨rfl, h⟩) rfl

theorem detect_toValue (s : Shape) : Draft.draft7.detect s.toValue = .ok .draft7 := by
  cases s <;> rfl

/-- The schemas of the properties are what is inside the schema of an object. -/
theorem subschemas_properties (more : Object) (ms : List (String × Shape))
    (hmore : ∀ m ∈ more, Draft.draft7.holding? m.1 = none) :
    Draft.draft7.subschemas (.object (more ++ [("properties", .object (Shape.memberValues ms))])) =
      (ms.map (·.2)).map Shape.toValue := by
  have hnone : (more.flatMap fun m => ((Draft.draft7.holding? m.1).map
      (Draft.Holding.schemas · m.2)).getD []) = [] := by
    refine List.flatMap_eq_nil_iff.2 fun m hm => ?_
    rw [hmore m hm]
    rfl
  unfold Draft.subschemas
  change (more ++ [("properties", _)]).flatMap _ = _
  rw [List.flatMap_append]
  change more.flatMap (fun m => ((Draft.draft7.holding? m.1).map
      (Draft.Holding.schemas · m.2)).getD []) ++ ((Shape.memberValues ms).map (·.2) ++ []) = _
  rw [hnone, Shape.memberValues_eq_map, List.map_map, List.map_map, List.append_nil]
  rfl

theorem local_of_subschemas {members : Object} (ss : List Shape)
    (hid : Object.get? members "$id" = none) (href : Object.get? members "$ref" = none)
    (hss : Draft.draft7.subschemas (.object members) = ss.map Shape.toValue)
    (h : ∀ s ∈ ss, Local s.toValue) : Local (.object members) := by
  have huri : Draft.draft7.ownUri? (.object members) = none := by
    change ((Object.get? members "$id").bind Value.asString?).bind _ = none
    rw [hid]
    rfl
  have hnames : Draft.draft7.ownNames (.object members) = [] := by
    simp [Draft.ownNames, Value.get?, Value.asObject?, Draft.idKey, hid]
  refine .mk huri hnames href (fun x hx => ?_) fun x hx => ?_
  · rw [hss] at hx
    obtain ⟨s, -, rfl⟩ := List.mem_map.1 hx
    exact detect_toValue s
  · rw [hss] at hx
    obtain ⟨s, hs, rfl⟩ := List.mem_map.1 hx
    exact h s hs

theorem local_toValue (s : Shape) : Local s.toValue := by
  induction s using Shape.by_parts with
  | const v =>
    refine local_of_subschemas [] ?_ ?_ rfl fun s hs => absurd hs List.not_mem_nil
    · simp [Object.get?]
    · simp [Object.get?]
  | members title ms ih =>
    rw [Shape.toValue]
    have hmore : ∀ m ∈ ([("type", .string "object"), ("title", .string title)] : Object),
        Draft.draft7.holding? m.1 = none :=
      List.forall_mem_cons.2 ⟨rfl, List.forall_mem_singleton.2 rfl⟩
    refine local_of_subschemas _ ?_ ?_ (subschemas_properties _ ms hmore) fun s hs => ?_
    · simp [Object.get?]
    · simp [Object.get?]
    · obtain ⟨m, hm, rfl⟩ := List.mem_map.1 hs
      exact ih m hm
  | items first rest ih =>
    rw [Shape.toValue, Shape.itemValues_eq_map]
    refine local_of_subschemas (first :: rest) ?_ ?_ ?_ ih
    · simp [Object.get?]
    · simp [Object.get?]
    · exact (List.append_nil _)

theorem local_rootMembers (title : String) (ms : List (String × Shape)) :
    Local (.object (rootMembers title ms)) := by
  have hmore : ∀ m ∈ ([("$schema", .string draft), ("type", .string "object"),
      ("title", .string title)] : Object), Draft.draft7.holding? m.1 = none :=
    List.forall_mem_cons.2 ⟨rfl, List.forall_mem_cons.2 ⟨rfl, List.forall_mem_singleton.2 rfl⟩⟩
  refine local_of_subschemas _ ?_ ?_ (subschemas_properties _ ms hmore) fun s _ => local_toValue s
  · simp [Object.get?, rootMembers]
  · simp [Object.get?, rootMembers]

/-! ### Compiling -/

theorem ok_bind {ε α β : Type} (a : α) (f : α → Except ε β) : (Except.ok a >>= f) = f a :=
  rfl

theorem compile_eq_ofDocument [Retrieval] {v : Value} {d : Draft} {uri : Uri} {r : Registry}
    (hdetect : Draft.detect .draft2020 v = .ok d) (huri : uriOf ⟨d, v⟩ = .ok uri)
    (hregistry : Registry.ofDocument Metaschema.published uri ⟨d, v⟩ = .ok r)
    (hmeta : d.metaschema.violations v = []) :
    Validator.compile v = Validator.ofDocument r uri ⟨d, v⟩ := by
  unfold Validator.compile
  rw [hdetect]
  dsimp only [Except.mapError]
  rw [ok_bind, huri]
  dsimp only
  rw [ok_bind, hregistry]
  dsimp only
  rw [ok_bind, hmeta]

theorem readLinks_nil (r : Registry) (depth n : Nat) : readLinks r depth n #[] #[] = #[] := by
  cases n <;> rfl

/-- A document whose reading meets no links becomes a validator without definitions. -/
theorem ofDocument_eq_ok {r : Registry} {uri : Uri} {s : Resource} {scope : Scope} {root : Schema}
    (henter : Scope.enter ⟨s.draft, s.draft, uri, false, [], none⟩ s.value = .ok scope)
    (hread : readSchema r (readingLimit s.value) scope s.value {} = .ok (root, {})) :
    Validator.ofDocument r uri s = .ok ⟨root, #[]⟩ := by
  unfold Validator.ofDocument
  dsimp only
  generalize readingLimit s.value = limit at hread
  rw [henter]
  dsimp only [Except.mapError]
  rw [ok_bind, hread, ok_bind]
  exact congrArg (fun table => Except.ok (⟨root, table⟩ : Validator)) (readLinks_nil r limit limit)

theorem valueCount_le_readingLimit (v : Value) : valueCount v ≤ readingLimit v :=
  Nat.le_trans (Nat.le_add_right _ _) (Nat.le_mul_self _)

theorem valueCount_lt_rootMembers (title : String) {ms : List (String × Shape)}
    {m : String × Shape} (hm : m ∈ ms) :
    valueCount m.2.toValue < valueCount (.object (rootMembers title ms)) := by
  have hlt := valueCount_lt_ofProperties title hm
  simp only [ofProperties, rootMembers, valueCount, valueCountOfMembers] at hlt ⊢
  omega

/-- Every skeleton becomes a validator, of the schema of its shape. -/
theorem compile_rootMembers [Retrieval] (title : String) (ms : List (String × Shape)) :
    Validator.compile (.object (rootMembers title ms)) =
      .ok ⟨(Shape.members title ms).schema, #[]⟩ := by
  have hlocal := local_rootMembers title ms
  have hdetect : Draft.detect .draft2020 (.object (rootMembers title ms)) = .ok .draft7 := by
    have hdraft : Draft.ofUri? draft = some .draft7 := by decide
    have hget : Value.get? (.object (rootMembers title ms)) "$schema" = some (.string draft) := rfl
    unfold Draft.detect
    rw [hget]
    dsimp only [Option.bind, Value.asString?]
    rw [hdraft]
  have huri : uriOf ⟨.draft7, .object (rootMembers title ms)⟩ = .ok defaultUri := by
    obtain ⟨huri, -, -, -, -⟩ := hlocal
    unfold uriOf
    dsimp only
    rw [huri]
    rfl
  have hmeta : Draft.draft7.metaschema.violations (.object (rootMembers title ms)) = [] :=
    Metaschema.violations_draft7_eq_nil (fits_rootMembers title ms)
  rw [compile_eq_ofDocument hdetect huri (ofDocument_local hlocal) hmeta]
  have henter : Scope.enter ⟨.draft7, .draft7, defaultUri, false, [], none⟩
      (.object (rootMembers title ms)) =
        .ok ⟨.draft7, .draft7, defaultUri, false, [], none⟩ := by
    unfold Scope.enter
    dsimp only
    rw [hlocal.baseInside]
    rfl
  refine ofDocument_eq_ok henter ?_
  dsimp only
  have hle := valueCount_le_readingLimit (.object (rootMembers title ms))
  obtain ⟨n, hn⟩ : ∃ n, readingLimit (.object (rootMembers title ms)) = n + 1 :=
    Nat.exists_eq_succ_of_ne_zero (by
      simp only [valueCount] at hle
      omega)
  rw [hn] at hle ⊢
  refine readSchema_rootMembers rfl title fun m hm => readSchema_toValue rfl m.2 ?_
  have hlt := valueCount_lt_rootMembers title hm
  omega

/-- The skeleton of a proper tree becomes a validator, of the schema of its shape. -/
theorem compile_synthesize [Retrieval] {n : Node} (h : n.Proper) :
    Validator.compile (synthesize n) = .ok ⟨(shape n).schema, #[]⟩ := by
  unfold synthesize
  rw [ofTree_eq_toValue h]
  cases n with
  | mk kind fields children span =>
    rw [shape, withDraft_members]
    exact compile_rootMembers _ _

end DocSchema.Skeleton
