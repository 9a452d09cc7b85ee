/-
  DocSchema/Proofs/Schema/Fitting.lean
  ====================================
  **What fits a schema is accepted.**

  What a schema of draft 7 asks can be told from its text: `Fits` goes by the keywords, and
  follows the references that are known to lead somewhere.

  A schema that refers to itself is read with a table of links.  Where the schemas are closed
  under references (`Context.Lawful`, `isPlain`), a reading only adds links to what references
  mean, and its answer accepts all values that fit, provided that the links are read so in the end
  (`Context.Accepts`).  Put together, the validator of a document has nothing against what fits
  the document (`Context.violations_eq_nil`).
-/
import DocSchema.Proofs.Schema.Clean
import DocSchema.Proofs.Schema.Plain
import DocSchema.Proofs.Schema.Reading

namespace DocSchema.Schema

open DocSchema.Json

/-! ### Contexts -/

/-- A document of draft 7 with a registry that it is in, and with what its references mean. -/
structure Context where
  registry : Registry
  base : Uri
  known : List (String × Value)

namespace Context

def references (C : Context) : List String :=
  C.known.map (·.1)

/-- The scope in the document, before and after a reference has been followed. -/
def scope (C : Context) (hasMoved : Bool) : Scope :=
  ⟨.draft7, .draft7, C.base, hasMoved, [], none⟩

/-- The URI that a reference stands for. -/
def target (C : Context) (reference : String) : Except LookupError Uri :=
  if reference == "#" then .ok C.base else resolveAt C.base reference

/-- A link to what one of the references means. -/
structure Knows (C : Context) (l : Link) : Prop where
  scope : l.scope = C.scope true
  meaning : ∃ m ∈ C.known, ∃ uri, C.target m.1 = .ok uri ∧ l.reference = uri.text ∧ l.value = m.2

/-- The references lead where the world says, and what they lead to is plain. -/
structure Lawful (C : Context) : Prop where
  lookup : ∀ m ∈ C.known, ∀ hasMoved found,
    C.registry.lookup (C.scope hasMoved) m.1 = .ok found → found = (C.scope true, m.2)
  enter : ∀ m ∈ C.known, (C.scope true).enter m.2 = .ok (C.scope true)
  draft : ∀ m ∈ C.known, (Draft.draft7.detect m.2).toOption.getD .draft7 = .draft7
  plain : ∀ m ∈ C.known, m.2.asObject?.any (isPlainObject C.references) = true
  unique : ∀ m ∈ C.known, ∀ m' ∈ C.known, ∀ uri uri', C.target m.1 = .ok uri →
    C.target m'.1 = .ok uri' → uri.text = uri'.text → m.2 = m'.2

end Context

/-! ### Values that fit a schema -/

/-- A type that the keyword `type` names. -/
inductive Names : Value → TypeName → Prop
  | one (t : TypeName) : Names (.string t.text) t
  | some {t : TypeName} {xs : List Value} (h : .string t.text ∈ xs) : Names (.array xs) t

mutual

/-- `C.Fits v w`: by the keywords below, the schema `v` has nothing against `w`. -/
inductive Context.Fits (C : Context) : Value → Value → Prop
  | truth (w : Value) : Fits C (.bool true) w
  | keywords {members : Object} {w : Value}
      (h : ∀ m ∈ countingKeywords .draft7 members,
        ∀ k, Keyword.ofKey? m.1 = some k → Keeps C k m.2 w) : Fits C (.object members) w

/-- The same of a keyword and its value. -/
inductive Context.Keeps (C : Context) : Keyword → Value → Value → Prop
  | idle (x w : Value) : Keeps C .idle x w
  | type {x w : Value} {t : TypeName} (h : Names x t) (hw : t.accepts true w = true) :
      Keeps C .type x w
  | enum {xs : List Value} {w : Value} (h : xs.any (Value.same w) = true) :
      Keeps C .enum (.array xs) w
  | format {name : String} {w : Value}
      (h : ∀ f s, Format.ofName? .draft7 name = some f → w = .string s → f.accepts s = true) :
      Keeps C .format (.string name) w
  | minimum {limit : Number} {w : Value}
      (h : ∀ n, w = .number n → Bound.minimum.accepts limit n = true) :
      Keeps C .minimum (.number limit) w
  | minItems {n : Nat} {w : Value} (h : SizeBound.minItems.accepts n w = true) :
      Keeps C .minItems (.ofNat n) w
  | items {s w : Value} (hs : s.asArray? = none)
      (h : ∀ xs, w = .array xs → ∀ x ∈ xs, Fits C s x) : Keeps C .items s w
  | additionalProperties {s w : Value} (h : ∀ members, w = .object members →
      ∀ m ∈ members, Fits C s m.2) : Keeps C .additionalProperties s w
  | anyOf {xs : List Value} {x w : Value} (hx : x ∈ xs) (h : Fits C x w) :
      Keeps C .anyOf (.array xs) w
  | properties {named : Object} {w : Value}
      (h : ∀ m ∈ named, ∀ x, w.get? m.1 = some x → Fits C m.2 x) :
      Keeps C .properties (.object named) w
  | ref {reference : String} {v w : Value} (hv : (reference, v) ∈ C.known) (h : Fits C v w) :
      Keeps C .ref (.string reference) w

end

namespace Context

/-- `w` keeps all keywords of an object. -/
inductive KeepsAll (C : Context) (w : Value) : Object → Prop
  | nil : KeepsAll C w []
  | cons {key : String} {k : Keyword} {x : Value} {rest : Object}
      (hk : Keyword.ofKey? key = some k) (h : C.Keeps k x w) (hrest : KeepsAll C w rest) :
      KeepsAll C w ((key, x) :: rest)

/-- The schema `s` has nothing against `w`, where links are to what fits. -/
def Accepts (C : Context) (L : List Link) (s : Schema) (w : Value) : Prop :=
  ∀ definition : Nat → Check,
    (∀ i l, L[i]? = some l → ∀ w, C.Fits l.value w → (definition i w).violations = []) →
    (s.check definition w).Clean

/-- The schema that has been read from `v` accepts what fits `v`. -/
def Means (C : Context) (v : Value) (L : List Link) (s : Schema) : Prop :=
  ∀ w, C.Fits v w → C.Accepts L s w

/-- The schemas that have been read from a keyword accept what keeps it. -/
def MeansAt (C : Context) (k : Keyword) (x : Value) (L : List Link) (parts : List Schema) : Prop :=
  ∀ w, C.Keeps k x w → ∀ s ∈ parts, C.Accepts L s w

/-- A place in the document. -/
abbrev place (C : Context) (hasMoved : Bool) (members : Object)
    (read : Scope → Value → Reading Schema) : Place :=
  ⟨C.registry, C.scope hasMoved, members, read⟩

/-- Beside plain keywords, what is plain or known is read as it should be. -/
structure ReadsIn (C : Context) (members : Object) (read : Scope → Value → Reading Schema) :
    Prop where
  keywords : PlainObject C.references members
  read : ∀ hasMoved v, isPlain C.references v = true ∨ (∃ m ∈ C.known, v = m.2) →
    Reading.Yields C.Knows (C.Means v) (read (C.scope hasMoved) v)

variable {C : Context} {hasMoved : Bool} {members : Object} {read : Scope → Value → Reading Schema}
  {v x : Value} {L : List Link}

theorem mem_of_mem_countingKeywords {m : String × Value}
    (h : m ∈ countingKeywords .draft7 members) : m ∈ members := by
  unfold countingKeywords at h
  split at h
  · exact (List.mem_filter.1 h).1
  · exact h

theorem fits_of_keeps {w : Value} (h : C.KeepsAll w members) : C.Fits (.object members) w := by
  have hall : ∀ m ∈ members, ∀ k, Keyword.ofKey? m.1 = some k → C.Keeps k m.2 w := by
    induction h with
    | nil => exact fun m hm => absurd hm List.not_mem_nil
    | cons hk h _ ih =>
      refine List.forall_mem_cons.2 ⟨fun k hk' => ?_, ih⟩
      cases hk.symm.trans hk'
      exact h
  exact .keywords fun m hm => hall m (mem_of_mem_countingKeywords hm)

/-! ### Schemas inside a schema -/

open Reading

theorem get?_of_not_contains {members : Object} {key : String}
    (h : Object.contains members key = false) : Object.get? members key = none := by
  simpa [Object.contains] using h

/-- A plain schema neither changes the draft nor the URI. -/
theorem enter_of_isPlain {references : List String} (h : isPlain references v = true)
    (hasMoved : Bool) : Draft.draft7.detect v = .ok .draft7 ∧
      (C.scope hasMoved).enter v = .ok (C.scope hasMoved) := by
  have hnone : v.get? "$schema" = none ∧ Draft.draft7.ownUri? v = none := by
    cases v with
    | object members =>
      obtain ⟨-, hid, hschema⟩ := plainObject_of_isPlain h
      refine ⟨get?_of_not_contains hschema, ?_⟩
      have hget : Object.get? members Draft.draft7.idKey = none := get?_of_not_contains hid
      change ((Object.get? members Draft.draft7.idKey).bind Value.asString?).bind _ = none
      rw [hget]
      rfl
    | _ => exact ⟨rfl, rfl⟩
  constructor
  · unfold Draft.detect
    rw [hnone.1]
    rfl
  · have hinside : Resource.baseInside ⟨.draft7, v⟩ C.base = .ok C.base := by
      unfold Resource.baseInside
      dsimp only
      rw [hnone.2]
    change (Resource.baseInside ⟨.draft7, v⟩ C.base >>= _) = _
    rw [hinside]
    rfl

theorem yields_inner (hr : C.ReadsIn members read) (hv : isPlain C.references v = true) :
    Yields C.Knows (C.Means v) ((C.place hasMoved members read).inner v) := by
  obtain ⟨hdetect, henter⟩ := @enter_of_isPlain C v C.references hv hasMoved
  unfold Place.inner
  change Yields _ _ (ofLookup (Scope.enter { C.scope hasMoved with
    draft := (Draft.draft7.detect v).toOption.getD .draft2020 } v) >>= fun inner => read inner v)
  rw [hdetect]
  change Yields _ _ (ofLookup ((C.scope hasMoved).enter v) >>= fun inner => read inner v)
  rw [henter]
  exact hr.read hasMoved v (.inl hv)

theorem yields_innerList (hr : C.ReadsIn members read) (hv : isPlain C.references v = true) :
    Yields C.Knows (fun L ss => ∃ xs, v = .array xs ∧ List.Forall₂ (fun x s => C.Means x L s) xs ss)
      ((C.place hasMoved members read).innerList v) := by
  refine yields_bind_of_tells (tells_itemsOf v) fun xs hxs => ?_
  subst hxs
  have hplain := isPlain_of_arePlain hv
  refine (yields_mapM fun x hx => yields_inner hr (hplain x hx)).mono fun L ss hss => ?_
  exact ⟨xs, rfl, hss⟩

theorem yields_innerNamed (hr : C.ReadsIn members read)
    (hv : ∀ ms, v = .object ms → ∀ m ∈ ms, isPlain C.references m.2 = true) :
    Yields C.Knows (fun L ss => ∃ ms, v = .object ms ∧
      List.Forall₂ (fun m s => s.1 = m.1 ∧ C.Means m.2 L s.2) ms ss) ((C.place hasMoved members read).innerNamed (some v)) := by
  refine yields_bind_of_tells (tells_membersOf v) fun ms hms => ?_
  have hone : ∀ m ∈ ms, Yields C.Knows (fun L s => s.1 = m.1 ∧ C.Means m.2 L s.2)
      (do return (m.1, ← (C.place hasMoved members read).inner m.2)) := fun m hm =>
    yields_bind (yields_inner hr (hv ms hms m hm)) fun s => yields_pure fun L hs => ⟨rfl, hs⟩
  exact (yields_mapM hone).mono fun L ss hss => ⟨ms, hms, hss⟩

/-! ### Keywords -/

theorem accepts_of_check {s : Schema} {w : Value}
    (h : ∀ definition, (s.check definition w).Clean) : C.Accepts L s w :=
  fun definition _ => h definition

theorem yields_one {k : Keyword} {m : Reading Schema}
    (h : Yields C.Knows (fun L s => ∀ w, C.Keeps k x w → C.Accepts L s w) m) :
    Yields C.Knows (C.MeansAt k x) (Place.only m) :=
  yields_map h fun _ _ hs w hw _ ht => List.mem_singleton.1 ht ▸ hs w hw

/-- A keyword for which one schema is made of what has been read. -/
theorem yields_only {α : Type} {k : Keyword} {Q : List Link → α → Prop} {m : Reading α}
    {f : α → Schema} (h : Yields C.Knows Q m)
    (hQ : ∀ L a, Q L a → ∀ w, C.Keeps k x w → C.Accepts L (f a) w) :
    Yields C.Knows (C.MeansAt k x) (Place.only (f <$> m)) :=
  yields_one (yields_map h hQ)

theorem exists_of_forall₂ {α β : Type} {R : α → β → Prop} {xs : List α} {ys : List β} {a : α}
    (h : List.Forall₂ R xs ys) (ha : a ∈ xs) : ∃ b ∈ ys, R a b := by
  induction h with
  | nil => exact absurd ha List.not_mem_nil
  | cons hab _ ih =>
    rcases List.mem_cons.1 ha with rfl | ha
    · exact ⟨_, List.mem_cons_self, hab⟩
    · obtain ⟨b, hb, hR⟩ := ih ha
      exact ⟨b, List.mem_cons_of_mem _ hb, hR⟩

/-- Of a keyword that nothing is known of, only the links count. -/
theorem yields_any {k : Keyword} {Q : List Link → List Schema → Prop} {m : Reading (List Schema)}
    (h : Yields C.Knows Q m) (hk : ∀ w, ¬ C.Keeps k x w) : Yields C.Knows (C.MeansAt k x) m :=
  h.mono fun _ _ _ w hw => absurd hw (hk w)

theorem yields_typeOf (v : Value) (unknown : Fault) :
    Yields C.Knows (fun _ t => v = .string t.text) (Place.typeOf v unknown) := by
  refine yields_bind_of_tells (tells_textOf v) fun s hs => ?_
  split
  · rename_i t ht
    have htext : t.text = s := by simpa using List.find?_some ht
    exact yields_pure fun _ => by rw [hs, htext]
  · exact yields_throw _

theorem text_injective {t t' : TypeName} (h : t.text = t'.text) : t = t' := by
  cases t <;> cases t' <;> first | rfl | exact absurd h (by decide)

theorem yields_typesOf (v : Value) :
    Yields C.Knows (fun _ ts => ∀ t, Names v t → t ∈ ts) (Place.typesOf v) := by
  have hall : ∀ (given : Reading (List TypeName)),
      Yields C.Knows (fun _ ts => ∀ t, Names v t → t ∈ ts) given →
      Yields C.Knows (fun _ ts => ∀ t, Names v t → t ∈ ts)
        (given >>= fun given => pure (TypeName.all.filter (given.contains ·))) := fun given h =>
    yields_bind h fun given => yields_pure fun _ hgiven t ht => List.mem_filter.2
      ⟨by cases t <;> decide, List.contains_iff_mem.2 (hgiven t ht)⟩
  have hone : ∀ x unknown, (∀ t, Names v t → x = .string t.text) →
      Yields C.Knows (fun _ ts => ∀ t, Names v t → t ∈ ts)
        (List.singleton <$> Place.typeOf x unknown) := fun x unknown hx =>
    yields_map (yields_typeOf x unknown) fun _ t' ht' t ht => by
      have heq := (hx t ht).symm.trans ht'
      rw [text_injective (Value.string.inj heq)]
      exact List.mem_singleton_self t'
  unfold Place.typesOf
  dsimp only
  split
  · exact hall _ (hone _ _ fun t ht => by cases ht; rfl)
  · refine hall _ (hone _ _ fun t ht => ?_)
    cases ht with
    | some h => exact (List.mem_singleton.1 h).symm
  · refine hall _ ((yields_mapM fun x _ => yields_typeOf x _).mono fun _ ts hts t ht => ?_)
    cases ht with
    | some h =>
      obtain ⟨t', ht', heq⟩ := exists_of_forall₂ hts h
      rwa [text_injective (Value.string.inj heq)]
  · exact hall _ (yields_throw _)

theorem yields_type :
    Yields C.Knows (C.MeansAt .type x) ((C.place hasMoved members read).keyword "type" x) := by
  change Yields C.Knows (C.MeansAt .type x)
    (Place.only ((Schema.type · true) <$> Place.typesOf x))
  refine yields_only (yields_typesOf x) fun _ ts hts w hw => accepts_of_check fun _ => ?_
  cases hw with
  | type hname hw => exact Check.clean_type (hts _ hname) hw

theorem yields_enum :
    Yields C.Knows (C.MeansAt .enum x) ((C.place hasMoved members read).keyword "enum" x) := by
  change Yields C.Knows (C.MeansAt .enum x) (Place.only (Schema.enum <$> Reading.itemsOf x))
  refine yields_only (tells_itemsOf x).yields fun _ xs hxs w hw => accepts_of_check fun _ => ?_
  cases hw with
  | enum hw =>
    cases hxs
    exact Outcome.clean_require hw _ _

theorem yields_format :
    Yields C.Knows (C.MeansAt .format x) ((C.place hasMoved members read).keyword "format" x) := by
  change Yields C.Knows (C.MeansAt .format x)
    (textOf x >>= fun name => pure ((Format.ofName? .draft7 name).map Schema.format).toList)
  refine yields_bind_of_tells (tells_textOf x) fun name hname => yields_pure fun L w hw s hs => ?_
  obtain ⟨f, hf, rfl⟩ := Option.map_eq_some_iff.1 (Option.mem_toList.1 hs)
  refine accepts_of_check fun _ => ?_
  cases hw with
  | format hw =>
    cases hname
    cases w with
    | string s => exact Outcome.clean_require (hw f s hf rfl) _ _
    | _ => exact Outcome.clean_ok

theorem yields_minimum :
    Yields C.Knows (C.MeansAt .minimum x) ((C.place hasMoved members read).keyword "minimum" x) := by
  change Yields C.Knows (C.MeansAt .minimum x)
    (Place.only (Schema.bound .minimum <$> numberOf x))
  refine yields_only (tells_numberOf x).yields fun _ limit hlimit w hw =>
    accepts_of_check fun _ => ?_
  cases hw with
  | minimum hw =>
    cases hlimit
    cases w with
    | number n => exact Outcome.clean_require (hw n rfl) _ _
    | _ => exact Outcome.clean_ok

theorem tells_sizeOf (v : Value) :
    Tells (fun n => ∀ m, v = .ofNat m → m = n) (Reading.sizeOf .draft7 v) := by
  unfold Reading.sizeOf
  split
  · split
    · refine tells_pure fun m hm => ?_
      cases hm
      rfl
    · exact tells_throw _ _
  · split
    · split
      · exact tells_pure fun m hm => by cases hm
      · exact tells_throw _ _
    · exact tells_throw _ _
  · exact tells_throw _ _

theorem yields_minItems :
    Yields C.Knows (C.MeansAt .minItems x) ((C.place hasMoved members read).keyword "minItems" x) := by
  change Yields C.Knows (C.MeansAt .minItems x)
    (Place.only (Schema.size .minItems <$> Reading.sizeOf .draft7 x))
  refine yields_only (tells_sizeOf x).yields fun _ limit hlimit w hw => accepts_of_check fun _ => ?_
  cases hw with
  | minItems hw =>
    cases hlimit _ rfl
    exact Outcome.clean_require hw _ _

theorem yields_exclusiveMinimum :
    Yields C.Knows (C.MeansAt .exclusiveMinimum x) ((C.place hasMoved members read).keyword "exclusiveMinimum" x) := by
  exact yields_only (tells_numberOf x).yields fun _ _ _ _ hw => nomatch hw

theorem yields_uniqueItems :
    Yields C.Knows (C.MeansAt .uniqueItems x) ((C.place hasMoved members read).keyword "uniqueItems" x) := by
  cases x with
  | bool b => exact yields_pure fun _ w hw => nomatch hw
  | _ => exact yields_throw _

theorem yields_items (hr : C.ReadsIn members read) (hx : isPlain C.references x = true) :
    Yields C.Knows (C.MeansAt .items x) ((C.place hasMoved members read).keyword "items" x) := by
  have hsingle : Yields C.Knows (C.MeansAt .items x) (Place.only
      (Schema.items "items" 0 <$> (C.place hasMoved members read).inner x)) := by
    refine yields_only (yields_inner hr hx) fun L s hs w hw definition hdefinition => ?_
    cases hw with
    | items _ hw => exact Check.clean_items _ fun xs hxs y hy =>
        (hs y (hw xs hxs y hy) definition hdefinition).violations
  cases x with
  | array xs =>
    refine yields_only (f := Schema.itemList "items") (yields_innerList hr hx) fun _ _ _ _ hw => ?_
    cases hw with
    | items hnone => cases hnone
  | _ => exact hsingle

theorem yields_allOf (hr : C.ReadsIn members read) (hx : isPlain C.references x = true) :
    Yields C.Knows (C.MeansAt .allOf x) ((C.place hasMoved members read).keyword "allOf" x) :=
  yields_only (f := Schema.allOf) (yields_innerList hr hx) fun _ _ _ _ hw => nomatch hw

theorem yields_anyOf (hr : C.ReadsIn members read) (hx : isPlain C.references x = true) :
    Yields C.Knows (C.MeansAt .anyOf x) ((C.place hasMoved members read).keyword "anyOf" x) := by
  refine yields_only (f := Schema.anyOf) (yields_innerList hr hx)
    fun L ss hss w hw definition hdefinition => ?_
  obtain ⟨xs, hxs, hmeans⟩ := hss
  cases hw with
  | anyOf hy hw =>
    cases hxs
    obtain ⟨s, hs, hmeans⟩ := exists_of_forall₂ hmeans hy
    rw [Schema.check, checkBranches_eq_map]
    exact Check.clean_anyOf (List.mem_map_of_mem hs)
      (hmeans w hw definition hdefinition).violations

theorem yields_properties (hr : C.ReadsIn members read)
    (hx : ∀ ms, x = .object ms → ∀ m ∈ ms, isPlain C.references m.2 = true) :
    Yields C.Knows (C.MeansAt .properties x)
      ((C.place hasMoved members read).keyword "properties" x) := by
  change Yields C.Knows (C.MeansAt .properties x)
    (if (C.place hasMoved members read).closesObject then pure [] else Place.only
      (Schema.properties <$> (C.place hasMoved members read).innerNamed (some x)))
  split
  · exact yields_pure fun _ _ _ s hs => absurd hs List.not_mem_nil
  · refine yields_only (yields_innerNamed hr hx) fun L named hnamed w hw definition hdefinition => ?_
    obtain ⟨ms, hms, hmeans⟩ := hnamed
    cases hw with
    | properties hw =>
      cases hms
      rw [Schema.check, checkNamed_eq_map]
      refine Check.clean_properties fun e he y hy => ?_
      obtain ⟨⟨k, s⟩, hs, rfl⟩ := List.mem_map.1 he
      obtain ⟨m, hm, hkey, hmeans⟩ := exists_of_forall₂ hmeans.flip hs
      dsimp only at hkey hy
      exact (hmeans y (hw m hm y (hkey ▸ hy)) definition hdefinition).violations

theorem get?_eq_none (h : PlainObject C.references members) (key : String)
    (hkey : Keyword.ofKey? key = none) : Object.get? members key = none := by
  cases hget : Object.get? members key with
  | none => rfl
  | some y =>
    obtain ⟨k, hk, -⟩ := h.keywords _ (Object.mem_of_get? hget)
    rw [hkey] at hk
    cases hk

theorem yields_othersOf (hr : C.ReadsIn members read) (hx : isPlain C.references x = true)
    (hproperties : Object.get? members "properties" = none) :
    Yields C.Knows (fun L s => ∀ w, C.Keeps .additionalProperties x w → C.Accepts L s w)
      ((C.place hasMoved members read).othersOf x) := by
  have hpatterns := get?_eq_none hr.keywords "patternProperties" rfl
  have hmatched : (C.place hasMoved members read).innerMatched
      ((C.place hasMoved members read).get? "patternProperties") = pure [] := by
    unfold Place.get?
    rw [hpatterns]
    rfl
  have hnamed : (C.place hasMoved members read).innerNamed
      ((C.place hasMoved members read).get? "properties") = pure [] := by
    unfold Place.get?
    rw [hproperties]
    rfl
  unfold Place.othersOf
  rw [hmatched, hnamed]
  split
  · exact yields_pure fun L w hw => accepts_of_check fun _ =>
      Check.clean_additionalProperties fun _ _ _ _ => rfl
  · simp only [pure_bind]
    split
    · refine yields_bind (yields_inner hr hx) fun s => yields_pure fun L hs w hw definition hdef => ?_
      cases hw with
      | additionalProperties hw => exact Check.clean_additionalProperties fun ms hms m hm =>
          (hs m.2 (hw ms hms m hm) definition hdef).violations
    · rename_i hfalse
      have hx : x = .bool false := by simpa using hfalse
      subst hx
      refine yields_pure fun L w hw => ?_
      have hempty : ∀ m ms, w ≠ .object (m :: ms) := fun m ms heq => by
        cases hw with
        | additionalProperties hw => cases hw _ heq m List.mem_cons_self
      have hhas : ((C.place hasMoved members read).has "properties" ||
          (C.place hasMoved members read).has "patternProperties") = false := by
        simp [Place.has, Place.get?, hpatterns, hproperties]
      rw [hhas]
      refine accepts_of_check fun _ => ?_
      cases w with
      | object ms =>
        cases ms with
        | nil => exact Outcome.clean_ok
        | cons m ms => exact absurd rfl (hempty m ms)
      | _ => exact Outcome.clean_ok

theorem yields_additionalProperties (hr : C.ReadsIn members read)
    (hx : isPlain C.references x = true) (hmem : ("additionalProperties", x) ∈ members) :
    Yields C.Knows (C.MeansAt .additionalProperties x)
      ((C.place hasMoved members read).keyword "additionalProperties" x) := by
  refine yields_one (yields_othersOf hr hx ?_)
  cases hproperties : Object.get? members "properties" with
  | none => rfl
  | some y =>
    have hapart := hr.keywords.apart
    have hcontains : Object.contains members "properties" = true := by
      rw [Object.contains, hproperties]
      rfl
    rw [areApart, Object.contains_of_mem hmem, hcontains] at hapart
    cases hapart

theorem yields_propertyNames (hr : C.ReadsIn members read) (hx : isPlain C.references x = true) :
    Yields C.Knows (C.MeansAt .propertyNames x)
      ((C.place hasMoved members read).keyword "propertyNames" x) := by
  refine yields_any (Q := fun _ _ => True) ?_ fun w hw => nomatch hw
  change Yields _ _ ((C.place hasMoved members read).memberNamesOf x)
  unfold Place.memberNamesOf
  split
  · exact yields_bind (yields_inner hr hx) fun _ => yields_pure fun _ _ => trivial
  · exact yields_pure fun _ => trivial
  · exact yields_pure fun _ => trivial

theorem yields_dependencies (hr : C.ReadsIn members read)
    (hx : ∀ ms, x = .object ms → ∀ m ∈ ms, isPlain C.references m.2 = true) :
    Yields C.Knows (C.MeansAt .dependencies x)
      ((C.place hasMoved members read).keyword "dependencies" x) := by
  refine yields_any (Q := fun _ _ => True) ?_ fun w hw => nomatch hw
  refine yields_bind_of_tells (tells_membersOf x) fun ms hms =>
    (yields_mapM (Q := fun _ _ _ => True) fun m hm => ?_).mono fun _ _ _ => trivial
  dsimp only
  split
  · have hnames : Yields C.Knows (fun _ _ => True) (Place.namesOf m.2) :=
      yields_bind_of_tells (tells_itemsOf m.2) fun ys _ =>
        (yields_mapM fun y _ => (tells_textOf y).yields).mono fun _ _ _ => trivial
    exact yields_bind hnames fun _ => yields_pure fun _ _ => trivial
  · exact yields_bind (yields_inner hr (hx ms hms m hm)) fun _ => yields_pure fun _ _ => trivial

/-! ### References -/

/-- A link to what a reference means accepts what fits the meaning. -/
theorem accepts_link (hC : C.Lawful) {m : String × Value} {uri : Uri} {l : Link} {i : Nat}
    (hm : m ∈ C.known) (htarget : C.target m.1 = .ok uri) (hi : L[i]? = some l)
    (hl : C.Knows l) (hreference : l.reference = uri.text) {w : Value} (hw : C.Fits m.2 w) :
    C.Accepts L (.link "$ref" i) w := by
  intro definition hdefinition
  obtain ⟨m', hm', uri', htarget', hreference', hvalue⟩ := hl.meaning
  have heq := hC.unique m hm m' hm' uri uri' htarget htarget' (hreference.symm.trans hreference')
  refine Outcome.clean_under _ (hdefinition i l hi w ?_)
  rw [hvalue, ← heq]
  exact hw

theorem yields_linkTo (hC : C.Lawful) {m : String × Value} {uri : Uri} (hm : m ∈ C.known)
    (htarget : C.target m.1 = .ok uri) :
    Yields C.Knows (fun L parts => ∀ w, C.Fits m.2 w → ∀ s ∈ parts, C.Accepts L s w)
      ((C.place hasMoved members read).linkTo "$ref" m.1 uri (C.scope true, m.2)) := by
  unfold Place.linkTo
  dsimp only
  split
  · exact yields_pure fun _ _ _ s hs => absurd hs List.not_mem_nil
  · have hscope : (C.place hasMoved members read).linkScope (C.scope true) m.2 =
        .ok (C.scope true) := hC.enter m hm
    rw [hscope]
    have hlink : C.Knows ⟨uri.text, C.scope true, m.2⟩ := ⟨rfl, m, hm, uri, htarget, rfl, rfl⟩
    refine yields_bind_of_tells (tells_ofLookup _) fun inner hinner => ?_
    cases hinner
    refine yields_bind (yields_link "$ref" hlink) fun s => yields_pure fun L hs w hw t ht => ?_
    obtain ⟨i, l, rfl, hi, hreference, -, hl⟩ := hs
    rw [List.mem_singleton.1 ht]
    exact accepts_link hC hm htarget hi hl hreference hw

/-- Two values with one reference are the same. -/
theorem Lawful.eq (hC : C.Lawful) {reference : String} {v v' : Value} {uri : Uri}
    (hv : (reference, v) ∈ C.known) (hv' : (reference, v') ∈ C.known)
    (htarget : C.target reference = .ok uri) : v = v' :=
  hC.unique _ hv _ hv' uri uri htarget htarget rfl

theorem yields_ref (hC : C.Lawful) (hr : C.ReadsIn members read)
    (hx : ∀ s, x = .string s → s ∈ C.references) :
    Yields C.Knows (C.MeansAt .ref x) ((C.place hasMoved members read).keyword "$ref" x) := by
  refine yields_bind_of_tells (tells_textOf x) fun reference hreference => ?_
  obtain ⟨⟨reference', v⟩, hm, heq⟩ := List.mem_map.1 (hx reference hreference)
  dsimp only at heq
  subst heq hreference
  have hlookup := hC.lookup _ hm hasMoved
  -- What is linked or read means the value that the reference is known to lead to.
  have hmeans {uri : Uri} (htarget : C.target reference' = .ok uri) {m : Reading (List Schema)}
      (h : Yields C.Knows (fun L parts => ∀ w, C.Fits v w → ∀ s ∈ parts, C.Accepts L s w) m) :
      Yields C.Knows (C.MeansAt .ref (.string reference')) m :=
    h.mono fun L parts hparts w hw s hs => by
      cases hw with
      | ref hv' hw => exact hparts w (hC.eq hm hv' htarget ▸ hw) s hs
  split
  · rename_i hself
    have htarget : C.target reference' = .ok C.base := if_pos hself
    have hrecursive : ∀ found, C.registry.lookupRecursive (C.scope hasMoved) = .ok found →
        found = (C.scope true, v) := by
      intro found hfound
      unfold Registry.lookupRecursive at hfound
      rw [← eq_of_beq hself] at hfound
      obtain ⟨inner, hinner, hfound⟩ := except_bind_eq_ok hfound
      obtain rfl := hlookup inner hinner
      dsimp only at hfound
      split at hfound
      · rename_i hnone
        cases hnone
      · exact (Except.ok.inj hfound).symm
    refine hmeans htarget (yields_bind_of_tells (tells_ofLookup _) fun found hfound => ?_)
    have heq : found = (C.scope true, v) := by
      split at hfound
      · exact hrecursive found hfound
      · exact hlookup found hfound
    subst heq
    exact yields_linkTo hC hm htarget
  · rename_i hself
    have htarget : C.target reference' = resolveAt C.base reference' := if_neg hself
    refine yields_bind_of_tells (tells_ofLookup _) fun target hresolve => ?_
    refine hmeans (htarget.trans hresolve) ?_
    refine yields_bind_of_tells (tells_ofLookup _) fun found hfound => ?_
    obtain rfl := hlookup found hfound
    refine yields_bind_of_tells tells_get fun progress _ => ?_
    split
    · exact yields_linkTo hC hm (htarget.trans hresolve)
    · refine yields_bind (yields_follow target) fun _ => ?_
      have hscope : { C.scope true with
          vocabularies := (Draft.draft7.detect v).toOption.getD .draft7 } = C.scope true := by
        rw [hC.draft _ hm]
        rfl
      change Yields _ _ (read { C.scope true with
        vocabularies := (Draft.draft7.detect v).toOption.getD .draft7 } v >>= fun s =>
          pure [Schema.ref "$ref" s])
      rw [hscope]
      refine yields_bind (hr.read true v (.inr ⟨_, hm, rfl⟩)) fun s => yields_pure
        fun L hs _ w hw t ht definition hdefinition => ?_
      rw [List.mem_singleton.1 ht]
      exact Outcome.clean_under _ (hs w hw definition hdefinition).violations

/-! ### Schemas -/

theorem yields_keyword (hC : C.Lawful) (hr : C.ReadsIn members read) {key : String} {k : Keyword}
    (hmem : (key, x) ∈ members) (hk : Keyword.ofKey? key = some k) (hx : PlainAt C.references k x) :
    Yields C.Knows (C.MeansAt k x) ((C.place hasMoved members read).keyword key x) := by
  have hidle : Yields C.Knows (C.MeansAt .idle x) (pure []) :=
    yields_pure fun _ _ _ s hs => absurd hs List.not_mem_nil
  unfold Keyword.ofKey? at hk
  split at hk
  all_goals cases hk
  -- The keywords that ask for nothing come first.
  iterate 5 exact hidle
  · exact yields_type
  · exact yields_enum
  · exact yields_format
  · exact yields_minimum
  · exact yields_exclusiveMinimum
  · exact yields_minItems
  · exact yields_uniqueItems
  · exact yields_items hr (hx.schema rfl)
  · exact yields_additionalProperties hr (hx.schema rfl) hmem
  · exact yields_propertyNames hr (hx.schema rfl)
  · exact yields_allOf hr (hx.schema rfl)
  · exact yields_anyOf hr (hx.schema rfl)
  · exact yields_properties hr (hx.map rfl)
  · exact yields_dependencies hr (hx.map rfl)
  · exact yields_ref hC hr (hx.reference rfl)

theorem yields_members (hC : C.Lawful) (hr : C.ReadsIn members read) :
    Yields C.Knows (C.Means (.object members)) (do
      let parts ← (countingKeywords .draft7 members).mapM fun (k, x) =>
        (C.place hasMoved members read).keyword k x
      return .all parts.flatten) := by
  have hone : ∀ m ∈ countingKeywords .draft7 members, Yields C.Knows
      (fun L parts => ∃ k, Keyword.ofKey? m.1 = some k ∧ C.MeansAt k m.2 L parts)
      ((C.place hasMoved members read).keyword m.1 m.2) := fun m hm => by
    have hmem := mem_of_mem_countingKeywords hm
    obtain ⟨k, hk, hx⟩ := hr.keywords.keywords m hmem
    exact (yields_keyword hC hr hmem hk hx).mono fun L parts hparts => ⟨k, hk, hparts⟩
  refine yields_bind (yields_mapM hone) fun parts => yields_pure fun L hparts w hw => ?_
  intro definition hdefinition
  refine clean_all definition fun s hs => ?_
  obtain ⟨ss, hss, hs⟩ := List.mem_flatten.1 hs
  obtain ⟨m, hm, k, hk, hmeans⟩ := exists_of_forall₂ hparts.flip hss
  cases hw with
  | keywords hw => exact hmeans w (hw m hm k hk) s hs definition hdefinition

theorem accepts_always (w : Value) : C.Accepts L .always w :=
  accepts_of_check fun _ => Outcome.clean_ok

/-- However deep it goes, the reading of a plain schema yields one that accepts what fits. -/
theorem yields_readSchema (hC : C.Lawful) (n : Nat) (hasMoved : Bool) (v : Value)
    (hv : isPlain C.references v = true ∨ ∃ m ∈ C.known, v = m.2) :
    Yields C.Knows (C.Means v) (readSchema C.registry n (C.scope hasMoved) v) := by
  induction n generalizing hasMoved v with
  | zero => exact yields_pure fun _ w _ => accepts_always w
  | succ n ih =>
    cases v with
    | bool b =>
      cases b with
      | true => exact yields_pure fun _ w _ => accepts_always w
      | false => exact yields_pure fun _ w hw => nomatch hw
    | object members =>
      refine yields_members hC ⟨?_, ih⟩
      rcases hv with hplain | ⟨m, hm, heq⟩
      · exact (plainObject_of_isPlain hplain).1
      · have hplain := hC.plain m hm
        rw [← heq] at hplain
        exact plainObject_of_isPlainObject hplain
    | _ => exact yields_throw _

/-! ### Links -/

/-- The schemas of a table are what has been read for the links. -/
def ReadsLinks (C : Context) (L : List Link) (table : Array Schema) : Prop :=
  ∀ (i : Nat) (s : Schema) (l : Link), table[i]? = some s → L[i]? = some l → C.Means l.value L s

theorem ReadsLinks.push {table : Array Schema} {l : Link} {s : Schema}
    (h : C.ReadsLinks L table) (hl : L[table.size]? = some l) (hs : C.Means l.value L s) :
    C.ReadsLinks L (table.push s) := by
  intro i s' l' hs' hl'
  rw [Array.getElem?_push] at hs'
  split at hs'
  · rename_i hi
    cases hs'
    rw [hi, hl] at hl'
    cases hl'
    exact hs
  · exact h i s' l' hs' hl'

theorem exists_readsLinks (hC : C.Lawful) (depth n : Nat) (links : Array Link)
    (done : Array Schema) (hlinks : ∀ l ∈ links.toList, C.Knows l)
    (hdone : ∀ L, links.toList <+: L → C.ReadsLinks L done) :
    ∃ L, links.toList <+: L ∧ C.ReadsLinks L (readLinks C.registry depth n links done) := by
  induction n generalizing links done with
  | zero => exact ⟨_, List.prefix_refl _, hdone _ (List.prefix_refl _)⟩
  | succ n ih =>
    unfold readLinks
    split
    · exact ⟨_, List.prefix_refl _, hdone _ (List.prefix_refl _)⟩
    · rename_i l hl
      have hl : links.toList[done.size]? = some l := by simpa using hl
      have hknows := hlinks l (List.mem_of_getElem? hl)
      obtain ⟨m, hm, -, -, -, hvalue⟩ := hknows.meaning
      have hread := yields_readSchema hC depth true l.value (.inr ⟨m, hm, hvalue⟩)
      rw [hknows.scope]
      split
      · rename_i s p hok
        obtain ⟨hp, hmore, hs⟩ := hread { links } _ _ hlinks hok
        obtain ⟨L, hL, htable⟩ := ih p.links (done.push s) hp fun L hL =>
          (hdone L (hmore.trans hL)).push (getElem?_extended (hmore.trans hL) hl) (hs L hL)
        exact ⟨L, hmore.trans hL, htable⟩
      · exact ih links (done.push .always) hlinks fun L hL =>
          (hdone L hL).push (getElem?_extended hL hl) fun w _ => accepts_always w

theorem violations_definition {table : Array Schema} (h : C.ReadsLinks L table) (n i : Nat)
    {l : Link} (hl : L[i]? = some l) {w : Value} (hw : C.Fits l.value w) :
    (Validator.definition table n i w).violations = [] := by
  induction n generalizing i l w with
  | zero => rfl
  | succ n ih =>
    unfold Validator.definition
    split
    · rename_i s hs
      exact (h i s l hs hl w hw _ fun i l hl w hw => ih i hl hw).violations
    · rfl

theorem eq_ok_of_bind {ε α β : Type} {x : Except ε α} {f : α → Except ε β} {b : β}
    (h : x >>= f = .ok b) : ∃ a, x = .ok a ∧ f a = .ok b := by
  cases x with
  | error e => cases h
  | ok a => exact ⟨a, rfl, h⟩

theorem exists_of_ofDocument {r : Registry} {uri : Uri} {s : Resource} {va : Validator}
    (h : Validator.ofDocument r uri s = .ok va) : ∃ limit scope root p,
      Scope.enter ⟨s.draft, s.draft, uri, false, [], none⟩ s.value = .ok scope ∧
      readSchema r limit scope s.value {} = .ok (root, p) ∧
      va = ⟨root, readLinks r limit limit p.links #[]⟩ := by
  refine ⟨readingLimit s.value, ?_⟩
  unfold Validator.ofDocument at h
  obtain ⟨scope, hscope, h⟩ := eq_ok_of_bind h
  obtain ⟨⟨root, p⟩, hread, h⟩ := eq_ok_of_bind h
  refine ⟨scope, root, p, ?_, hread, ?_⟩
  · cases henter : Scope.enter ⟨s.draft, s.draft, uri, false, [], none⟩ s.value with
    | error e =>
      rw [henter] at hscope
      cases hscope
    | ok scope' =>
      rw [henter] at hscope
      exact congrArg Except.ok (Except.ok.inj hscope)
  · exact (Except.ok.inj h).symm

/-- The validator of a document has nothing against what fits the document. -/
theorem violations_eq_nil (hC : C.Lawful) {va : Validator} {m : String × Value} (hm : m ∈ C.known)
    (henter : (C.scope false).enter m.2 = .ok (C.scope false))
    (hva : Validator.ofDocument C.registry C.base ⟨.draft7, m.2⟩ = .ok va) {w : Value}
    (hw : C.Fits m.2 w) : va.violations w = [] := by
  obtain ⟨limit, scope, root, p, hscope, hread, rfl⟩ := exists_of_ofDocument hva
  cases henter.symm.trans hscope
  obtain ⟨hp, -, hroot⟩ := yields_readSchema hC _ false m.2 (.inr ⟨m, hm, rfl⟩) {} _ _
    (fun l hl => absurd hl List.not_mem_nil) hread
  obtain ⟨L, hL, htable⟩ := exists_readsLinks hC limit limit p.links #[] hp
    fun L _ i s l hs => by simp at hs
  exact (hroot L hL w hw _ fun i l hl w hw => violations_definition htable _ i hl hw).violations

end Context

end DocSchema.Schema
