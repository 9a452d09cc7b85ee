/-
  DocSchema/Proofs/Yaml/TrimTokens.lean
  =====================================
  **The tokens of a YAML text and of its trimmed form.**

  At the end of the texts the one scan stands on a line of its own, where a key that is missing
  is refused on every flow level; the other stands behind its last character, where it is refused
  on the innermost level alone.
-/
import DocSchema.Yaml.Data
import DocSchema.Proofs.Yaml.Flow
import DocSchema.Proofs.Yaml.TrimScan

namespace DocSchema.Yaml

open Cursor

variable {c d c' d' : Cursor} {s t : Scan} {ch : Char}

/-! ### The end of a scan -/

namespace Scan

/-- What a scan does at the end of a text. -/
def finish? (s : Scan) : Option Scan := do
  let s ← s.refreshCandidates?
  ((s.leaveTo s.cursor.column).leaveTo (-1)).dropCandidate?

theorem leaveTo_cursor (s : Scan) (column : Int) : (s.leaveTo column).cursor = s.cursor := by
  unfold leaveTo
  split <;> rfl

theorem leaveTo_outer (s : Scan) (column : Int) : (s.leaveTo column).outer = s.outer := by
  unfold leaveTo
  split <;> rfl

theorem leaveTo_candidate (s : Scan) (column : Int) :
    (s.leaveTo column).candidate = s.candidate := by
  unfold leaveTo
  split <;> rfl

/-- Blocks that were left on the way are not left again. -/
theorem leaveBlocks_twice {column : Int} (hcolumn : -1 ≤ column) (indent : Int)
    (indents : List Int) (tokens : Array Token) :
    leaveBlocks (-1) (leaveBlocks column indent indents tokens).1
      (leaveBlocks column indent indents tokens).2.1
      (leaveBlocks column indent indents tokens).2.2 = leaveBlocks (-1) indent indents tokens := by
  induction indents generalizing indent tokens with
  | nil =>
    by_cases hlt : column < indent
    · have hlt' : -1 < indent := by omega
      simp [leaveBlocks, hlt, hlt']
    · simp [leaveBlocks, hlt]
  | cons around rest ih =>
    by_cases hlt : column < indent
    · have hlt' : -1 < indent := by omega
      simpa [leaveBlocks, hlt, hlt'] using ih around (tokens.push .blockEnd)
    · simp [leaveBlocks, hlt]

theorem leaveTo_twice {column : Int} (hcolumn : -1 ≤ column) (s : Scan) :
    (s.leaveTo column).leaveTo (-1) = s.leaveTo (-1) := by
  cases hflow : s.inFlow with
  | true => simp [leaveTo, hflow]
  | false =>
    have htwice := leaveBlocks_twice hcolumn s.indent s.indents s.tokens
    have hflow' : (s.leaveTo column).inFlow = false := by
      rw [inFlow, leaveTo_outer]
      exact hflow
    rw [leaveTo, hflow', leaveTo, hflow]
    simp only [Bool.false_eq_true, ↓reduceIte]
    rw [htwice, leaveTo, hflow]
    rfl

/-! ### Keys that have to be -/

/-- No candidate on any flow level has to be a key. -/
def Optional (s : Scan) : Prop :=
  (∀ k ∈ s.candidate, k.required = false) ∧ ∀ o ∈ s.outer, ∀ k ∈ o, k.required = false

theorem refresh?_of_optional {k : Option Candidate} (c : Cursor)
    (h : ∀ x ∈ k, x.required = false) :
    ∃ k', refresh? c k = some k' ∧ ∀ x ∈ k', x.required = false := by
  cases k with
  | none => exact ⟨none, rfl, h⟩
  | some k =>
    rw [refresh?, h k rfl]
    split
    · exact ⟨none, rfl, by simp⟩
    · exact ⟨some k, rfl, h⟩

theorem isEmpty_of_mapM {α β : Type} {f : α → Option β} {xs : List α} {ys : List β}
    (h : xs.mapM f = some ys) : ys.isEmpty = xs.isEmpty := by
  rw [Bool.eq_iff_iff, List.isEmpty_iff_length_eq_zero, List.isEmpty_iff_length_eq_zero,
    length_of_mapM h]

theorem mapM_refresh?_of_optional {ks : List (Option Candidate)} (c : Cursor)
    (h : ∀ k ∈ ks, ∀ x ∈ k, x.required = false) :
    ∃ ks', ks.mapM (refresh? c) = some ks' := by
  induction ks with
  | nil => exact ⟨[], rfl⟩
  | cons k ks ih =>
    obtain ⟨k', hk, -⟩ := refresh?_of_optional c (h k List.mem_cons_self)
    obtain ⟨ks', hks⟩ := ih fun x hx => h x (List.mem_cons_of_mem k hx)
    exact ⟨k' :: ks', by simp [List.mapM_cons, hk, hks]⟩

theorem dropCandidate?_of_optional (h : ∀ k ∈ s.candidate, k.required = false) :
    ∃ f, s.dropCandidate? = some f ∧ f.tokens = s.tokens := by
  unfold dropCandidate?
  split
  · rename_i k hk
    rw [h k hk]
    exact ⟨_, rfl, rfl⟩
  · exact ⟨s, rfl, rfl⟩

theorem leaveTo_tokens_congr {s' : Scan} (hflow : s'.inFlow = s.inFlow)
    (htokens : s'.tokens = s.tokens) (hindent : s'.indent = s.indent)
    (hindents : s'.indents = s.indents) (column : Int) :
    (s'.leaveTo column).tokens = (s.leaveTo column).tokens := by
  unfold leaveTo
  rw [hflow, hindent, hindents, htokens]
  split
  · exact htokens
  · rfl

/-- Where no key is missing, the scan ends with the tokens that close its blocks. -/
theorem finish?_of_optional (h : s.Optional) :
    ∃ f, s.finish? = some f ∧ f.tokens = (s.leaveTo (-1)).tokens := by
  obtain ⟨k, hk, hopt⟩ := refresh?_of_optional s.cursor h.1
  obtain ⟨ks, hks⟩ := mapM_refresh?_of_optional s.cursor h.2
  let s' : Scan := { s with candidate := k, outer := ks }
  have hrefresh : s.refreshCandidates? = some s' := by
    rw [refreshCandidates?, hk, Option.bind_eq_bind, Option.bind_some, hks]
    rfl
  obtain ⟨f, hf, htokens⟩ : ∃ f, (s'.leaveTo (-1)).dropCandidate? = some f ∧
      f.tokens = (s'.leaveTo (-1)).tokens :=
    dropCandidate?_of_optional (by rw [leaveTo_candidate]; exact hopt)
  have hflow : s'.inFlow = s.inFlow := congrArg (!·) (isEmpty_of_mapM hks)
  refine ⟨f, ?_, htokens.trans (leaveTo_tokens_congr hflow rfl rfl rfl (-1))⟩
  rw [finish?, hrefresh, Option.bind_eq_bind, Option.bind_some, leaveTo_twice (by omega)]
  exact hf

/-- A key that is missing on the innermost level is refused. -/
theorem finish?_of_required {k : Candidate} (hk : s.candidate = some k)
    (hrequired : k.required = true) : s.finish? = none := by
  rw [finish?]
  cases hrefresh : s.refreshCandidates? with
  | none => rfl
  | some s' =>
    obtain ⟨k', ks, hk', -, rfl⟩ := refreshCandidates?_spec hrefresh
    rw [hk, refresh?, hrequired] at hk'
    split at hk'
    · cases hk'
    · cases hk'
      rw [Option.bind_eq_bind, Option.bind_some, dropCandidate?, leaveTo_candidate,
        leaveTo_candidate]
      simp only [hrequired, ↓reduceIte]

theorem mapM_refresh?_of_required {ks : List (Option Candidate)} {k : Candidate}
    (hk : some k ∈ ks) (hline : k.line < c.line) (hrequired : k.required = true) :
    ks.mapM (refresh? c) = none := by
  have hnone : refresh? c (some k) = none := by simp [refresh?, hline, hrequired]
  induction ks with
  | nil => cases hk
  | cons o ks ih =>
    rw [List.mapM_cons]
    rcases List.mem_cons.1 hk with rfl | hmem
    · rw [hnone]
      rfl
    · rw [ih hmem]
      cases refresh? c o <;> rfl

/-- On a later line a key that is missing on an outer level is refused. -/
theorem finish?_of_outer_required {k : Candidate} (hk : some k ∈ s.outer)
    (hline : k.line < s.cursor.line) (hrequired : k.required = true) : s.finish? = none := by
  rw [finish?, refreshCandidates?, mapM_refresh?_of_required hk hline hrequired]
  cases refresh? s.cursor s.candidate <;> rfl

theorem dropCandidate?_outer {s' : Scan} (h : s.dropCandidate? = some s') :
    s'.outer = s.outer := by
  unfold dropCandidate? at h
  split at h
  · split at h <;> cases h
    rfl
  · cases h
    rfl

theorem finish?_inFlow {f : Scan} (h : s.finish? = some f) : f.inFlow = s.inFlow := by
  obtain ⟨s', hrefresh, h⟩ := Option.bind_eq_some_iff.1 h
  obtain ⟨k, ks, -, hks, rfl⟩ := refreshCandidates?_spec hrefresh
  rw [inFlow, dropCandidate?_outer h, leaveTo_outer, leaveTo_outer, inFlow]
  exact congrArg (!·) (isEmpty_of_mapM hks)

/-- Before the end of the text a scan takes a token and goes on. -/
theorem readAll?_of_peek? {s₁ s₂ : Scan} {n : Nat}
    (hskip : skipToToken (s.cursor.chars.size + 1) s = s₁)
    (hrefresh : s₁.refreshCandidates? = some s₂) (hpeek : s₂.cursor.peek? = some ch) :
    readAll? (n + 1) s = ((s₂.leaveTo s₂.cursor.column).readToken? ch).bind (readAll? n) := by
  have hpeek' : (s₂.leaveTo s₂.cursor.column).cursor.peek? = some ch := by
    rw [leaveTo_cursor, hpeek]
  rw [readAll?, hskip, hrefresh, Option.bind_eq_bind, Option.bind_some]
  dsimp only
  rw [hpeek']

/-- The token is no block scalar that keeps the last line break if there is none in the text. -/
theorem keepsLastBreak_of_peek? {s₁ s₂ : Scan} {n : Nat}
    (hskip : skipToToken (s.cursor.chars.size + 1) s = s₁)
    (hrefresh : s₁.refreshCandidates? = some s₂) (hpeek : s₂.cursor.peek? = some ch)
    (h : s.keepsLastBreak (n + 1) = false) :
    (s₂.leaveTo s₂.cursor.column).atLastBlock ch = false ∧
      ∀ s₃ ∈ (s₂.leaveTo s₂.cursor.column).readToken? ch, s₃.keepsLastBreak n = false := by
  have hpeek' : (s₂.leaveTo s₂.cursor.column).cursor.peek? = some ch := by
    rw [leaveTo_cursor, hpeek]
  rw [keepsLastBreak, hskip, hrefresh] at h
  dsimp only at h
  rw [hpeek'] at h
  dsimp only at h
  rw [Bool.or_eq_false_iff] at h
  refine ⟨h.1, fun s₃ hs₃ => ?_⟩
  have hrest := h.2
  rw [hs₃] at hrest
  exact hrest

/-- At the end of the text a scan finishes. -/
theorem readAll?_of_end {n : Nat}
    (h : (skipToToken (s.cursor.chars.size + 1) s).cursor.peek? = none) :
    readAll? (n + 1) s = (skipToToken (s.cursor.chars.size + 1) s).finish? := by
  rw [readAll?, finish?]
  cases hrefresh : (skipToToken (s.cursor.chars.size + 1) s).refreshCandidates? with
  | none => rfl
  | some s' =>
    obtain ⟨k, ks, -, -, hs'⟩ := refreshCandidates?_spec hrefresh
    have hend : (s'.leaveTo s'.cursor.column).cursor.peek? = none := by
      rw [leaveTo_cursor, hs']
      exact h
    rw [Option.bind_eq_bind, Option.bind_some, Option.bind_some]
    dsimp only
    rw [hend]

end Scan

/-! ### Two scans -/

/-- Results of the two scans: the same tokens; or the one is refused, and the other ends inside
a flow collection. -/
def SameTokens (x y : Option Scan) : Prop :=
  Option.Rel (fun s t => s.tokens = t.tokens) x y ∨
    (x = none ∧ ∃ t, y = some t ∧ t.inFlow = true)

namespace Matches

theorem exists_of_mem {α β : Type} {R : α → β → Prop} {xs : List α} {ys : List β} {x : α}
    (h : List.Forall₂ R xs ys) (hx : x ∈ xs) : ∃ y ∈ ys, R x y := by
  induction h with
  | nil => cases hx
  | cons hxy _ ih =>
    rcases List.mem_cons.1 hx with rfl | hmem
    · exact ⟨_, List.mem_cons_self, hxy⟩
    · obtain ⟨y, hy, hR⟩ := ih hmem
      exact ⟨y, List.mem_cons_of_mem _ hy, hR⟩

theorem optional_of_rel {k k' : Option Candidate} (h : Option.Rel (SameKey c d) k k')
    (hk : ∀ x ∈ k, x.required = false) : ∀ x ∈ k', x.required = false := by
  cases h with
  | none => exact hk
  | some hsame =>
    rintro x ⟨⟩
    exact hsame.required ▸ hk _ rfl

theorem optional (h : Matches c d s t) (hs : s.Optional) : t.Optional := by
  refine ⟨optional_of_rel h.candidate hs.1, fun o ho => ?_⟩
  obtain ⟨k, hk, hrel⟩ := exists_of_mem h.outer.flip ho
  exact optional_of_rel hrel (hs.2 k hk)

/-- At the ends of the texts the two scans finish alike, but for a key that is missing outside an
open flow collection. -/
theorem finish? (h : Matches c d s t) (hended : Ended c d) :
    SameTokens s.finish? t.finish? := by
  by_cases hopt : s.Optional
  · obtain ⟨f, hf, htokens⟩ := Scan.finish?_of_optional hopt
    obtain ⟨g, hg, htokens'⟩ := Scan.finish?_of_optional (h.optional hopt)
    rw [hf, hg]
    exact .inl (.some (htokens.trans ((h.leaveTo (-1)).tokens.trans htokens'.symm)))
  · by_cases hinner : ∀ k ∈ s.candidate, k.required = false
    · -- the missing key is outside
      obtain ⟨o, ho, k, hk, hrequired⟩ : ∃ o ∈ s.outer, ∃ k ∈ o, k.required = true := by
        by_contra hnone
        push Not at hnone
        exact hopt ⟨hinner, fun o ho k hk => Bool.eq_false_iff.2 (hnone o ho k hk)⟩
      obtain ⟨o', ho', hrel⟩ := exists_of_mem h.outer ho
      cases hrel with
      | none => cases hk
      | some hsame =>
        cases hk
        have hline : k.line < s.cursor.line := by
          rw [hsame.line, h.full]
          exact Nat.lt_of_le_of_lt hsame.cut.1 hended.line
        rw [Scan.finish?_of_outer_required ho hline hrequired]
        cases ht : t.finish? with
        | none => exact .inl .none
        | some f =>
          refine .inr ⟨rfl, f, rfl, ?_⟩
          rw [Scan.finish?_inFlow ht, Scan.inFlow]
          cases houter : t.outer with
          | nil => rw [houter] at ho'; cases ho'
          | cons => rfl
    · have hcandidate := h.candidate
      generalize hk : s.candidate = k, hk' : t.candidate = k' at hcandidate
      cases hcandidate with
      | none => exact absurd (by simp [hk]) hinner
      | @some k k' hsame =>
        have hrequired : k.required = true := by simpa [hk] using hinner
        rw [Scan.finish?_of_required hk hrequired,
          Scan.finish?_of_required hk' (hsame.required ▸ hrequired)]
        exact .inl .none

theorem readAll? {n m : Nat} (h : Matches c d s t) (hn : c.rest.length < n)
    (hm : d.rest.length < m) (hkeep : s.keepsLastBreak n = false) :
    SameTokens (Scan.readAll? n s) (Scan.readAll? m t) := by
  induction n generalizing m c d s t with
  | zero => exact absurd hn (Nat.not_lt_zero _)
  | succ n ih =>
    obtain ⟨m, rfl⟩ : ∃ k, m = k + 1 := ⟨m - 1, by omega⟩
    obtain ⟨c₁, d₁, hmove, h₁, hstop⟩ := h.skipToToken (n := s.cursor.chars.size + 1)
      (m := t.cursor.chars.size + 1) (by rw [h.full]; exact Nat.lt_succ_of_le (rest_le_size c))
      (by rw [h.cut]; exact Nat.lt_succ_of_le (rest_le_size d))
    have hleft := hmove.full.left
    have hleft' := hmove.cut.left
    cases h₁.abreast.here with
    | ended hended =>
      rw [Scan.readAll?_of_end (h₁.full ▸ hended.full), Scan.readAll?_of_end (h₁.cut ▸ hended.cut)]
      exact h₁.finish? hended
    | last ch hc hch => rw [test_some hc, hch] at hstop; cases hstop
    | «break» ch ch' hc hch => rw [test_some hc, hch] at hstop; cases hstop
    | char ch hc hd hch after =>
      have hlevel : Level c₁ d₁ := h₁.place.resolve_right fun hended => by
        rw [hended.full] at hc
        cases hc
      have hat : AtChar c₁ d₁ ch := ⟨hc, hd, hlevel, after⟩
      rcases rel_cases (h₁.refreshCandidates? hlevel) with ⟨hx, hy⟩ | ⟨s₂, t₂, hx, hy, h₂⟩
      · rw [Scan.readAll?, Scan.readAll?, hx, hy]
        exact .inl .none
      · have hpeek : s₂.cursor.peek? = some ch := by rw [h₂.full, hc]
        have hpeek' : t₂.cursor.peek? = some ch := by rw [h₂.cut, hd]
        have hcolumn : t₂.cursor.column = s₂.cursor.column := by
          rw [h₂.full, h₂.cut, hlevel.column]
        obtain ⟨hlast, hnext⟩ := Scan.keepsLastBreak_of_peek? rfl hx hpeek hkeep
        rw [Scan.readAll?_of_peek? rfl hx hpeek, Scan.readAll?_of_peek? rfl hy hpeek', hcolumn]
        rcases rel_cases ((h₂.leaveTo s₂.cursor.column).readToken? hat hlast) with
          ⟨hx, hy⟩ | ⟨s', t', hx, hy, c', d', h', hlt, hlt'⟩
        · rw [hx, hy]
          exact .inl .none
        · rw [hx, hy]
          exact ih h' (by omega) (by omega) (hnext s' hx)

end Matches

/-! ### Two texts -/

theorem Trimmed.all_isAllowed {cs ds : List Char} (h : Trimmed cs ds) :
    cs.all isAllowed = ds.all isAllowed := by
  have hfeed : isAllowed '\n' = true := by decide
  have hreturn : isAllowed '\r' = true := by decide
  induction h with
  | feed => rw [List.all_cons, hfeed, Bool.true_and]
  | returnFeed => rw [List.all_cons, List.all_cons, hfeed, hreturn, Bool.true_and, Bool.true_and]
  | paired _ ih =>
    rw [List.all_cons, List.all_cons, List.all_cons, hfeed, hreturn, Bool.true_and, ih]
  | char _ _ ih => rw [List.all_cons, List.all_cons, ih]

/-- The scans of a text and of its trimmed form start alike. -/
theorem matches_start {cs ds : List Char} (h : Trimmed cs ds) :
    Matches ⟨cs.toArray, 0, 0, 0⟩ ⟨ds.toArray, 0, 0, 0⟩
      { cursor := ⟨cs.toArray, 0, 0, 0⟩ } { cursor := ⟨ds.toArray, 0, 0, 0⟩ } where
  full := rfl
  cut := rfl
  place := .inl ⟨h, rfl, rfl⟩
  tokens := rfl
  indent := rfl
  indents := rfl
  keyAllowed := .inl rfl
  candidate := .none
  outer := .nil

theorem tokens?_of_trimmed {cs ds : List Char} (h : Trimmed cs ds)
    (hkeep : keepsLastBreak cs = false) :
    tokens? cs = tokens? ds ∨
      (tokens? cs = none ∧ ∃ ts, tokens? ds = some ts ∧ 0 < flowDepth 0 ts) := by
  have hstart := matches_start h
  have hrun := hstart.readAll? (n := cs.toArray.size + 1) (m := ds.toArray.size + 1)
    (Nat.lt_succ_of_le (rest_le_size _)) (Nat.lt_succ_of_le (rest_le_size _)) hkeep
  unfold tokens?
  rw [← h.all_isAllowed]
  split
  · dsimp only
    rcases hrun with hsame | ⟨hx, t, hy, hflow⟩
    · rcases rel_cases hsame with ⟨hx, hy⟩ | ⟨s, t, hx, hy, htokens⟩
      · exact .inl (by rw [hx, hy])
      · exact .inl (by rw [hx, hy, Option.map_some, Option.map_some, htokens])
    · refine .inr ⟨by rw [hx]; rfl, t.tokens.toList, by rw [hy]; rfl, ?_⟩
      have hbalanced : Scan.Balanced { cursor := ⟨ds.toArray, 0, 0, 0⟩ } := rfl
      rw [hbalanced.readAll? t hy]
      refine List.length_pos_of_ne_nil fun hempty => ?_
      rw [Scan.inFlow, hempty] at hflow
      cases hflow
  · exact .inl rfl

theorem document?_of_trimmed {cs ds : List Char} (h : Trimmed cs ds)
    (hkeep : keepsLastBreak cs = false) : document? cs = document? ds := by
  rcases tokens?_of_trimmed h hkeep with hsame | ⟨hnone, ts, hts, hopen⟩
  · rw [document?, document?, hsame]
  · rw [document?_of_open hts hopen, document?, hnone]
    rfl

/-- **The last line break does not count.** A text and its trimmed form have the same data, unless
a block scalar keeps the break. -/
theorem data?_of_trimmed {cs ds : List Char} (h : Trimmed cs ds)
    (hkeep : keepsLastBreak cs = false) : data? cs = data? ds := by
  rw [data?, data?, document?_of_trimmed h hkeep]

end DocSchema.Yaml
