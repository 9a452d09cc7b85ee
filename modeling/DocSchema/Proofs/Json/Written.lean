/-
  DocSchema/Proofs/Json/Written.lean
  ==================================
  **A value is read back as it was written.**

  The reader keeps up with the writer character by character: what is written before a text is
  read and leaves the text.  Strings come back whatever is in them (`readString_writeChars`), whole
  numbers if they have 64 bits (`readNumber_toDigits`), and containers if the reader goes deep
  enough.  Where it does not, it stops with the cause `tooDeep` and no other, so that the nesting
  of the value alone decides (`read_pretty`).
-/
import DocSchema.Json.Printer
import DocSchema.Json.Reader
import DocSchema.Proofs.Json.Value
import DocSchema.Proofs.Text.Digits
import DocSchema.Schema.Evaluate

namespace DocSchema.Json

open DocSchema.Text

/-! ### Strings -/

theorem readHex_of_lt {n : Nat} (h : n < 32) (rest : List Char) :
    readHex ('0' :: '0' :: hexDigit (n / 16) :: hexDigit (n % 16) :: rest) = .ok (n, rest) := by
  have hdigits : ∀ n < 32, byteCount ['0', '0', hexDigit (n / 16), hexDigit (n % 16)] = 4 ∧
      ['0', '0', hexDigit (n / 16), hexDigit (n % 16)].mapM hexValue? =
        some [0, 0, n / 16, n % 16] := by decide
  obtain ⟨hcount, hvalues⟩ := hdigits n h
  have htake : ('0' :: '0' :: hexDigit (n / 16) :: hexDigit (n % 16) :: rest).take 4 =
      ['0', '0', hexDigit (n / 16), hexDigit (n % 16)] := rfl
  have hvalue : ((0 * 16 + 0) * 16 + n / 16) * 16 + n % 16 = n := by omega
  unfold readHex
  rw [htake, hcount, if_neg (Nat.lt_irrefl 4), hvalues]
  dsimp only
  rw [hvalue]
  rfl

/-- An escape is read as the character that it stands for. -/
theorem readEscape_escapeChar? {c : Char} {e : List Char} (h : escapeChar? c = some e) :
    ∃ e', e = '\\' :: e' ∧ ∀ rest, readEscape (e' ++ rest) = .ok (c, rest) := by
  unfold escapeChar? at h
  iterate 7
    split at h
    · cases h
      subst c
      exact ⟨_, rfl, fun _ => rfl⟩
  split at h
  · -- any other control character is written by its number
    rename_i hsmall
    cases h
    refine ⟨_, rfl, fun rest => ?_⟩
    have hlow : ¬ 0xDC00 ≤ c.toNat := by omega
    have hhigh : c.toNat < 0xD800 := by omega
    simp only [List.cons_append, List.nil_append, readEscape, readHex_of_lt hsmall]
    simp [Bind.bind, Except.bind, hlow, hhigh, Char.ofNat_toNat]
  · cases h

/-- A character without an escape is read as it is. -/
theorem plain_of_escapeChar? {c : Char} (h : escapeChar? c = none) :
    c ≠ '"' ∧ c ≠ '\\' ∧ ¬ c.toNat < 32 := by
  unfold escapeChar? at h
  split at h
  · cases h
  · rename_i hquote
    split at h
    · cases h
    · rename_i hbackslash
      refine ⟨hquote, hbackslash, fun hsmall => ?_⟩
      rw [if_pos hsmall] at h
      iterate 5
        split at h
        · cases h
      cases h

theorem length_writeChars (cs rest : List Char) : rest.length ≤ (writeChars cs rest).length := by
  induction cs with
  | nil => exact Nat.le_refl _
  | cons c cs ih =>
    unfold writeChars
    split
    · rw [List.length_append]
      omega
    · rw [List.length_cons]
      omega

theorem readChars_writeChars (cs : List Char) {fuel : Nat} {acc rest : List Char}
    (h : (writeChars cs ('"' :: rest)).length ≤ fuel) :
    readChars fuel acc (writeChars cs ('"' :: rest)) = .ok (acc.reverse ++ cs, rest) := by
  induction cs generalizing fuel acc with
  | nil =>
    obtain ⟨fuel, rfl⟩ := Nat.exists_eq_add_of_le' (Nat.lt_of_lt_of_le (Nat.succ_pos _) h)
    simp [writeChars, readChars]
  | cons c cs ih =>
    unfold writeChars at h ⊢
    cases hescape : escapeChar? c with
    | some e =>
      obtain ⟨e', rfl, hread⟩ := readEscape_escapeChar? hescape
      rw [hescape] at h
      dsimp only at h ⊢
      rw [List.cons_append, List.length_cons, List.length_append] at h
      obtain ⟨fuel, rfl⟩ := Nat.exists_eq_add_of_le' (Nat.lt_of_lt_of_le (Nat.succ_pos _) h)
      have hrest := @ih fuel (c :: acc) (by omega)
      rw [List.cons_append, readChars, if_neg (by decide), if_pos (by decide), hread]
      simpa [Bind.bind, Except.bind] using hrest
    | none =>
      obtain ⟨hquote, hbackslash, hlarge⟩ := plain_of_escapeChar? hescape
      rw [hescape] at h
      dsimp only at h ⊢
      rw [List.length_cons] at h
      obtain ⟨fuel, rfl⟩ := Nat.exists_eq_add_of_le' (Nat.lt_of_lt_of_le (Nat.succ_pos _) h)
      have hrest := @ih fuel (c :: acc) (by omega)
      rw [readChars, if_neg (by simpa using hquote), if_neg (by simpa using hbackslash),
        if_neg hlarge, hrest]
      simp

/-- A string is read back up to its closing quote. -/
theorem readString_writeChars (s : String) (rest : List Char) :
    readString (writeChars s.toList ('"' :: rest)) = .ok (s, rest) := by
  unfold readString
  rw [readChars_writeChars s.toList (Nat.le_succ _)]
  simp [Bind.bind, Except.bind, String.ofList_toList]

/-! ### Whole numbers -/

/-- What may follow a value: the end of the text, a comma or a line break. -/
def Delimited (rest : List Char) : Prop :=
  ∀ c, rest.head? = some c → c = ',' ∨ c = '\n'

variable {rest : List Char}

theorem Delimited.not_isDigit {c : Char} {cs : List Char} (h : Delimited (c :: cs)) :
    isDigit c = false := by
  rcases h c rfl with rfl | rfl <;> decide

theorem takeDigits_append {ds : List Char} {acc : Nat} (hdigits : ∀ c ∈ ds, isDigit c = true)
    (hbound : decimalFrom acc ds ≤ maxUnsigned) (hrest : Delimited rest) :
    takeDigits acc (ds ++ rest) = (decimalFrom acc ds, ds.length, rest) := by
  induction ds generalizing acc with
  | nil =>
    cases rest with
    | nil => rfl
    | cons c cs => simp [takeDigits, hrest.not_isDigit, decimalFrom]
  | cons d ds ih =>
    obtain ⟨hd, hds⟩ := List.forall_mem_cons.1 hdigits
    have hle := Nat.le_trans (le_decimalFrom (acc * 10 + digitValue d) ds) hbound
    have hrec := @ih (acc * 10 + digitValue d) hds hbound
    rw [List.cons_append, takeDigits, hd, decide_eq_true hle, if_pos (Bool.and_self _), hrec]
    rfl

/-- The number of the digits that have been read, with the sign before them. -/
theorem finish_of_delimited {n : Nat} {negative : Bool} (hrest : Delimited rest)
    (hnegative : negative = true → n ≠ 0 ∧ n ≤ twoTo 63) :
    readNumber.finish negative n rest = .ok (.int (if negative then -n else n), rest) := by
  unfold readNumber.finish
  split
  · rcases hrest '.' rfl with h | h <;> cases h
  · rcases hrest 'e' rfl with h | h <;> cases h
  · rcases hrest 'E' rfl with h | h <;> cases h
  · cases negative with
    | false => rfl
    | true =>
      obtain ⟨hne, hle⟩ := hnegative rfl
      rw [if_neg (by decide), if_neg (by simp [hne, hle])]
      rfl

theorem readNumber_toDigits {n : Nat} {negative : Bool} (hrest : Delimited rest)
    (hbound : n ≤ maxUnsigned) (hnegative : negative = true → n ≠ 0 ∧ n ≤ twoTo 63) :
    readNumber negative (Nat.toDigits 10 n ++ rest) =
      .ok (.int (if negative then -n else n), rest) := by
  have hfinish := finish_of_delimited hrest hnegative
  by_cases hzero : n = 0
  · subst hzero
    rw [Nat.toDigits_zero]
    have hdigit : isDigit '0' = true := by decide
    unfold readNumber
    simp only [List.cons_append, List.nil_append]
    cases rest with
    | nil => simpa [hdigit] using hfinish
    | cons c cs => simpa [hdigit, hrest.not_isDigit] using hfinish
  · obtain ⟨c, ds, hdigits, hc⟩ := exists_toDigits_eq_cons hzero
    have hall : ∀ d ∈ c :: ds, isDigit d = true := fun d hd =>
      isDigit_of_mem_toDigits (hdigits ▸ hd)
    have hvalue : decimalFrom (digitValue c) ds = n := by
      have hwhole := decimalFrom_toDigits n
      rw [hdigits] at hwhole
      simpa [decimalFrom] using hwhole
    obtain ⟨hfirst, hds⟩ := List.forall_mem_cons.1 hall
    have htake := takeDigits_append hds (hvalue ▸ hbound) hrest
    rw [hvalue] at htake
    rw [hdigits, List.cons_append]
    unfold readNumber
    simp only [hfirst, htake]
    cases rest with
    | nil => simpa [hc] using hfinish
    | cons d cs => simpa [hc, hrest.not_isDigit] using hfinish

/-! ### Answers -/

/-- What a reader answers that refuses nothing but nesting: the value, or that refusal. -/
inductive Answers {α : Type} (fits : Prop) (a : α) : Except Failure α → Prop
  | ok (h : fits) : Answers fits a (.ok a)
  | tooDeep (h : ¬ fits) (remaining : Nat) : Answers fits a (.error ⟨.tooDeep, remaining⟩)

section Answers

variable {α β : Type} {fits more : Prop} {a : α} {b : β} {r : Except Failure α}

theorem Answers.congr (h : Answers fits a r) (hiff : fits ↔ more) : Answers more a r := by
  cases h with
  | ok hfits => exact .ok (hiff.1 hfits)
  | tooDeep hdeep remaining => exact .tooDeep (fun hmore => hdeep (hiff.2 hmore)) remaining

theorem Answers.bind {k : α → Except Failure β} (h : Answers fits a r) (hk : Answers more b (k a)) :
    Answers (fits ∧ more) b (r >>= k) := by
  cases h with
  | ok hfits => exact hk.congr (and_iff_right hfits).symm
  | tooDeep hdeep remaining => exact .tooDeep (fun hboth => hdeep hboth.1) remaining

theorem Answers.map {f : α → β} (h : Answers fits a r) :
    Answers fits (f a) (r >>= fun a => .ok (f a)) := by
  cases h with
  | ok hfits => exact .ok hfits
  | tooDeep hdeep remaining => exact .tooDeep hdeep remaining

end Answers

/-! ### Spaces -/

theorem skipSpace_cons {c : Char} (h : c ≠ ' ' ∧ c ≠ '\n' ∧ c ≠ '\t' ∧ c ≠ '\r')
    (cs : List Char) : skipSpace (c :: cs) = c :: cs := by
  simp [skipSpace, h]

@[simp] theorem skipSpace_newLine (level : Nat) (cs : List Char) :
    skipSpace (Value.newLine level cs) = skipSpace cs := by
  have hspaces : ∀ n, skipSpace (List.replicate n ' ' ++ cs) = skipSpace cs := by
    intro n
    induction n with
    | zero => rfl
    | succ n ih => simpa [List.replicate_succ, skipSpace] using ih
  unfold Value.newLine
  simp [skipSpace, hspaces]

/-! ### Values -/

open Value

variable {level fuel depth : Nat}

theorem not_space_of_isDigit {c : Char} (hc : isDigit c = true) :
    c ≠ ' ' ∧ c ≠ '\n' ∧ c ≠ '\t' ∧ c ≠ '\r' := by
  refine ⟨?_, ?_, ?_, ?_⟩ <;> (rintro rfl; exact absurd hc (by decide))

/-- A value starts with a character that is neither a space nor closes anything. -/
theorem exists_writePretty_eq_cons {v : Value} (h : v.Exact) (level : Nat) (rest : List Char) :
    ∃ c cs, v.writePretty level rest = c :: cs ∧
      (c ≠ ' ' ∧ c ≠ '\n' ∧ c ≠ '\t' ∧ c ≠ '\r') ∧ c ≠ ']' := by
  cases h with
  | null => exact ⟨_, _, rfl, by decide, by decide⟩
  | bool b => cases b <;> exact ⟨_, _, rfl, by decide, by decide⟩
  | number h =>
    obtain ⟨-, n, rfl⟩ := h
    rw [writePretty, Number.text, intText]
    split
    · exact ⟨_, _, rfl, by decide, by decide⟩
    · unfold natDigits
      obtain ⟨c, cs, hcs⟩ := List.exists_cons_of_ne_nil (@Nat.toDigits_ne_nil n.natAbs 10)
      have hc : isDigit c = true := isDigit_of_mem_toDigits (hcs ▸ List.mem_cons_self)
      refine ⟨c, cs ++ rest, by rw [hcs]; rfl, not_space_of_isDigit hc, ?_⟩
      rintro rfl
      exact absurd hc (by decide)
  | string s => exact ⟨_, _, rfl, by decide, by decide⟩
  | @array xs h => cases xs <;> exact ⟨_, _, rfl, by decide, by decide⟩
  | @object o h => cases o <;> exact ⟨_, _, rfl, by decide, by decide⟩

theorem delimited_writePrettyItems (xs : List Value) (level : Nat) (rest : List Char) :
    Delimited (writePrettyItems xs level rest) := by
  intro c hc
  cases xs with
  | nil => exact .inr (Option.some.inj hc).symm
  | cons x xs => exact .inl (Option.some.inj hc).symm

theorem delimited_writePrettyMembers (ms : List (String × Value)) (level : Nat)
    (rest : List Char) : Delimited (writePrettyMembers ms level rest) := by
  intro c hc
  cases ms with
  | nil => exact .inr (Option.some.inj hc).symm
  | cons m ms => exact .inl (Option.some.inj hc).symm

/-- Written before a text, the value is read and leaves the text, unless it goes too deep. -/
def Reads (v : Value) : Prop :=
  ∀ (fuel depth level : Nat) (rest : List Char), 0 < depth → Delimited rest →
    3 * (v.writePretty level rest).length ≤ fuel →
      Answers (Validator.depth v < depth) (v, rest)
        (readValue fuel depth (v.writePretty level rest))

/-- There is something left for what follows a character. -/
theorem exists_fuel {c : Char} {cs : List Char} (h : 3 * (c :: cs).length ≤ fuel) :
    ∃ left, fuel = left + 1 ∧ 3 * cs.length + 2 ≤ left := by
  rw [List.length_cons] at h
  exact ⟨fuel - 1, by omega, by omega⟩

section Steps

variable {cs rest : List Char} {n : Number}

theorem readValue_minus : readValue (fuel + 1) depth ('-' :: cs) =
    (readNumber true cs >>= fun r => .ok (.number r.1, r.2)) := by
  rw [readValue, skipSpace_cons (by decide)]
  rfl

theorem readValue_quote : readValue (fuel + 1) depth ('"' :: cs) =
    (readString cs >>= fun r => .ok (.string r.1, r.2)) := by
  rw [readValue, skipSpace_cons (by decide)]
  rfl

theorem readValue_bracket (h : 1 < depth) : readValue (fuel + 1) depth ('[' :: cs) =
    (readItems fuel (depth - 1) true cs >>= fun r => .ok (.array r.1, r.2)) := by
  rw [readValue, skipSpace_cons (by decide)]
  exact if_neg (Nat.not_le.2 h)

theorem readValue_bracket_deep (h : depth ≤ 1) :
    readValue (fuel + 1) depth ('[' :: cs) = .error (.peek .tooDeep ('[' :: cs)) := by
  rw [readValue, skipSpace_cons (by decide)]
  exact if_pos h

theorem readValue_brace (h : 1 < depth) : readValue (fuel + 1) depth ('\x7b' :: cs) =
    (readMembers fuel (depth - 1) true [] cs >>= fun r => .ok (.object r.1, r.2)) := by
  rw [readValue, skipSpace_cons (by decide)]
  exact if_neg (Nat.not_le.2 h)

theorem readValue_brace_deep (h : depth ≤ 1) :
    readValue (fuel + 1) depth ('\x7b' :: cs) = .error (.peek .tooDeep ('\x7b' :: cs)) := by
  rw [readValue, skipSpace_cons (by decide)]
  exact if_pos h

theorem readValue_digit {c : Char} (hc : isDigit c = true) :
    readValue (fuel + 1) depth (c :: cs) =
      (readNumber false (c :: cs) >>= fun r => .ok (.number r.1, r.2)) := by
  rw [readValue, skipSpace_cons (not_space_of_isDigit hc)]
  split
  case h_1 heq => cases heq
  case h_9 heq =>
    cases heq
    exact if_pos hc
  all_goals
    rename_i heq
    cases heq
    exact absurd hc (by decide)

end Steps

theorem reads_number {n : Int} (h : (Number.int n).InRange) : Reads (.number (.int n)) := by
  obtain ⟨hlow, hhigh⟩ := h
  have hword : twoTo 64 = 18446744073709551616 := rfl
  have hsigned : twoTo 63 = 9223372036854775808 := rfl
  have hbound : n.natAbs ≤ maxUnsigned := by
    unfold maxUnsigned
    omega
  intro fuel depth level rest hdepth hrest hfuel
  rw [writePretty, Number.text, intText, natDigits] at hfuel ⊢
  by_cases hneg : n < 0
  · have hread := @readNumber_toDigits rest n.natAbs true hrest hbound
      fun _ => ⟨by omega, by omega⟩
    have habs : -(n.natAbs : Int) = n := by omega
    rw [if_pos rfl, habs] at hread
    rw [if_pos hneg] at hfuel ⊢
    obtain ⟨left, rfl, -⟩ := exists_fuel hfuel
    rw [List.cons_append, readValue_minus, hread]
    exact .ok hdepth
  · have hread := @readNumber_toDigits rest n.natAbs false hrest hbound nofun
    have habs : (n.natAbs : Int) = n := by omega
    rw [if_neg Bool.false_ne_true, habs] at hread
    rw [if_neg hneg] at hfuel ⊢
    obtain ⟨c, cs, hcs⟩ := List.exists_cons_of_ne_nil (@Nat.toDigits_ne_nil n.natAbs 10)
    have hc : isDigit c = true := isDigit_of_mem_toDigits (hcs ▸ List.mem_cons_self)
    rw [hcs] at hread hfuel ⊢
    obtain ⟨left, rfl, -⟩ := exists_fuel hfuel
    rw [List.cons_append] at hread ⊢
    rw [readValue_digit hc, hread]
    exact .ok hdepth

theorem reads_null : Reads .null := by
  intro fuel depth level rest hdepth hrest hfuel
  obtain ⟨left, rfl, -⟩ := exists_fuel hfuel
  have hread : readValue (left + 1) depth (Value.null.writePretty level rest) =
      .ok (.null, rest) := by
    simp [writePretty, readValue, skipSpace, readIdent, Bind.bind, Except.bind]
  rw [hread]
  exact .ok hdepth

theorem reads_bool (b : Bool) : Reads (.bool b) := by
  intro fuel depth level rest hdepth hrest hfuel
  have hread : readValue fuel depth ((Value.bool b).writePretty level rest) =
      .ok (.bool b, rest) := by
    cases b with
    | false =>
      obtain ⟨left, rfl, -⟩ := exists_fuel hfuel
      simp [writePretty, readValue, skipSpace, readIdent, Bind.bind, Except.bind]
    | true =>
      obtain ⟨left, rfl, -⟩ := exists_fuel hfuel
      simp [writePretty, readValue, skipSpace, readIdent, Bind.bind, Except.bind]
  rw [hread]
  exact .ok hdepth

theorem reads_string (s : String) : Reads (.string s) := by
  intro fuel depth level rest hdepth hrest hfuel
  obtain ⟨left, rfl, -⟩ := exists_fuel hfuel
  rw [writePretty, writeString, readValue_quote, readString_writeChars]
  exact .ok hdepth

/-! ### Lengths -/

section Lengths

theorem length_newLine (level : Nat) (cs : List Char) :
    cs.length < (newLine level cs).length := by
  unfold newLine
  simp only [List.length_cons, List.length_append]
  omega

theorem length_writeString (s : String) (rest : List Char) :
    rest.length < (writeString s rest).length := by
  have hle := length_writeChars s.toList ('"' :: rest)
  simp only [writeString, List.length_cons] at hle ⊢
  omega

mutual

/-- The text of a value stands before what follows. -/
theorem length_writePretty : ∀ (v : Value) (level : Nat) (rest : List Char),
    rest.length ≤ (v.writePretty level rest).length
  | .null, _, rest | .bool true, _, rest | .bool false, _, rest | .number _, _, rest => by
    rw [writePretty, List.length_append]
    exact Nat.le_add_left _ _
  | .string s, _, rest => Nat.le_of_lt (length_writeString s rest)
  | .array [], _, rest | .object [], _, rest => Nat.le_add_right _ 2
  | .array (x :: xs), level, rest => by
    have hitems := length_writePrettyItems xs level rest
    have hfirst := length_writePretty x (level + 1) (writePrettyItems xs level rest)
    have hline := length_newLine (level + 1)
      (x.writePretty (level + 1) (writePrettyItems xs level rest))
    rw [writePretty, List.length_cons]
    omega
  | .object ((k, x) :: ms), level, rest => by
    have hmembers := length_writePrettyMembers ms level rest
    have hfirst := length_writePretty x (level + 1) (writePrettyMembers ms level rest)
    have hkey := length_writeString k
      (':' :: ' ' :: x.writePretty (level + 1) (writePrettyMembers ms level rest))
    have hline := length_newLine (level + 1) (writeString k
      (':' :: ' ' :: x.writePretty (level + 1) (writePrettyMembers ms level rest)))
    simp only [writePretty, List.length_cons] at hkey ⊢
    omega

theorem length_writePrettyItems : ∀ (xs : List Value) (level : Nat) (rest : List Char),
    rest.length ≤ (writePrettyItems xs level rest).length
  | [], level, rest => by
    have hline := length_newLine level (']' :: rest)
    rw [List.length_cons] at hline
    rw [writePrettyItems]
    omega
  | x :: xs, level, rest => by
    have hitems := length_writePrettyItems xs level rest
    have hfirst := length_writePretty x (level + 1) (writePrettyItems xs level rest)
    have hline := length_newLine (level + 1)
      (x.writePretty (level + 1) (writePrettyItems xs level rest))
    rw [writePrettyItems, List.length_cons]
    omega

theorem length_writePrettyMembers : ∀ (ms : List (String × Value)) (level : Nat)
    (rest : List Char), rest.length ≤ (writePrettyMembers ms level rest).length
  | [], level, rest => by
    have hline := length_newLine level ('\x7d' :: rest)
    rw [List.length_cons] at hline
    rw [writePrettyMembers]
    omega
  | (k, x) :: ms, level, rest => by
    have hmembers := length_writePrettyMembers ms level rest
    have hfirst := length_writePretty x (level + 1) (writePrettyMembers ms level rest)
    have hkey := length_writeString k
      (':' :: ' ' :: x.writePretty (level + 1) (writePrettyMembers ms level rest))
    have hline := length_newLine (level + 1) (writeString k
      (':' :: ' ' :: x.writePretty (level + 1) (writePrettyMembers ms level rest)))
    simp only [writePrettyMembers, List.length_cons] at hkey ⊢
    omega

end

end Lengths

/-! ### Arrays -/

theorem readItems_newLine (first : Bool) (level : Nat) (cs : List Char) :
    readItems (fuel + 1) depth first (newLine level cs) = readItems (fuel + 1) depth first cs := by
  rw [readItems, readItems, skipSpace_newLine]

theorem readItems_close (first : Bool) (rest : List Char) :
    readItems (fuel + 1) depth first (']' :: rest) = .ok ([], rest) := by
  rw [readItems, skipSpace_cons (by decide)]
  rfl

theorem readItems_first {x : Value} (hx : x.Exact) (level : Nat) :
    readItems (fuel + 1) depth true (x.writePretty level rest) =
      item fuel depth (x.writePretty level rest) := by
  obtain ⟨c, cs, heq, hspace, hclose⟩ := exists_writePretty_eq_cons hx level rest
  rw [readItems, heq, skipSpace_cons hspace]
  split
  · rename_i h
    cases h
  · rename_i h
    cases h
    exact absurd rfl hclose
  · rename_i h
    cases h
    rfl

theorem readItems_next {x : Value} (hx : x.Exact) (level : Nat) :
    readItems (fuel + 1) depth false (',' :: newLine level (x.writePretty level rest)) =
      item fuel depth (x.writePretty level rest) := by
  obtain ⟨c, cs, heq, hspace, hclose⟩ := exists_writePretty_eq_cons hx level rest
  have hnext : skipSpace (newLine level (x.writePretty level rest)) = c :: cs := by
    rw [skipSpace_newLine, heq, skipSpace_cons hspace]
  rw [readItems, skipSpace_cons (by decide)]
  split
  · rename_i h
    cases h
  · rename_i h
    cases h
  · rename_i h
    cases h
    rw [if_neg Bool.false_ne_true, if_pos (beq_self_eq_true _), hnext, heq]
    split
    · rename_i h
      cases h
      exact absurd rfl hclose
    · rename_i h
      cases h
    · rfl

theorem item_writePretty {x : Value} {xs : List Value} (hx : Reads x) (hdepth : 0 < depth)
    (hfuel : 3 * (x.writePretty (level + 1) (writePrettyItems xs level rest)).length < fuel)
    (hxs : ∀ {left : Nat}, 3 * (writePrettyItems xs level rest).length ≤ left →
      Answers (Validator.depthOfItems xs < depth) (xs, rest)
        (readItems left depth false (writePrettyItems xs level rest))) :
    Answers (Validator.depthOfItems (x :: xs) < depth) (x :: xs, rest)
      (item fuel depth (x.writePretty (level + 1) (writePrettyItems xs level rest))) := by
  obtain ⟨left, rfl⟩ := Nat.exists_eq_add_of_le' (Nat.lt_of_le_of_lt (Nat.zero_le _) hfuel)
  -- `x` has at least one character, which pays for the fuel of this call and the next
  have hlength := length_writePretty x (level + 1) (writePrettyItems xs level rest)
  have hfirst := hx left depth (level + 1) _ hdepth (delimited_writePrettyItems xs level rest)
    (Nat.le_of_lt_succ hfuel)
  have hrest := @hxs left (by omega)
  rw [item]
  exact (hfirst.bind (hrest.map (f := fun r => (x :: r.1, r.2)))).congr Nat.max_lt.symm

theorem readItems_writePrettyItems {xs : List Value} (hdepth : 0 < depth)
    (h : ∀ x ∈ xs, x.Exact ∧ Reads x)
    (hfuel : 3 * (writePrettyItems xs level rest).length ≤ fuel) :
    Answers (Validator.depthOfItems xs < depth) (xs, rest)
      (readItems fuel depth false (writePrettyItems xs level rest)) := by
  induction xs generalizing fuel with
  | nil =>
    obtain ⟨left, rfl, -⟩ := exists_fuel hfuel
    rw [writePrettyItems, readItems_newLine, readItems_close]
    exact .ok hdepth
  | cons x xs ih =>
    obtain ⟨⟨hexact, hx⟩, hxs⟩ := List.forall_mem_cons.1 h
    rw [writePrettyItems] at hfuel ⊢
    obtain ⟨left, rfl, hleft⟩ := exists_fuel hfuel
    have hline := length_newLine (level + 1)
      (x.writePretty (level + 1) (writePrettyItems xs level rest))
    rw [readItems_next hexact]
    exact item_writePretty hx hdepth (by omega) fun hleft => ih hxs hleft

/-- A container is refused where no nesting is left. -/
theorem answers_tooDeep {α : Type} {a : α} {n : Nat} (h : depth ≤ 1) (cs : List Char) :
    Answers (n + 1 < depth) a (.error (.peek .tooDeep cs)) :=
  .tooDeep (by omega) _

theorem reads_array {xs : List Value} (h : ∀ x ∈ xs, x.Exact ∧ Reads x) : Reads (.array xs) := by
  intro fuel depth level rest hdepth hrest hfuel
  by_cases hdeep : depth ≤ 1
  · -- the bracket alone is refused, whatever comes after it
    obtain ⟨cs, heq⟩ : ∃ cs, (Value.array xs).writePretty level rest = '[' :: cs := by
      cases xs <;> exact ⟨_, rfl⟩
    rw [heq] at hfuel ⊢
    obtain ⟨left, rfl, -⟩ := exists_fuel hfuel
    rw [readValue_bracket_deep hdeep]
    exact answers_tooDeep hdeep _
  · have hinner : 0 < depth - 1 := by omega
    have hiff {n : Nat} : n < depth - 1 ↔ n + 1 < depth := by omega
    cases xs with
    | nil =>
      obtain ⟨left, rfl, hleft⟩ := exists_fuel hfuel
      obtain ⟨left, rfl, -⟩ := exists_fuel (Nat.le_trans (Nat.le_add_right _ 2) hleft)
      rw [writePretty, readValue_bracket (Nat.lt_of_not_le hdeep), readItems_close]
      exact .ok (hiff.1 hinner)
    | cons x xs =>
      obtain ⟨⟨hexact, hx⟩, hxs⟩ := List.forall_mem_cons.1 h
      have hline := length_newLine (level + 1)
        (x.writePretty (level + 1) (writePrettyItems xs level rest))
      rw [writePretty] at hfuel ⊢
      obtain ⟨left, rfl, hleft⟩ := exists_fuel hfuel
      obtain ⟨left, rfl⟩ : ∃ n, left = n + 1 := Nat.exists_eq_succ_of_ne_zero (by omega)
      rw [readValue_bracket (Nat.lt_of_not_le hdeep), readItems_newLine, readItems_first hexact]
      have hitems : Answers (Validator.depthOfItems (x :: xs) < depth - 1) (x :: xs, rest)
          (item left (depth - 1) (x.writePretty (level + 1) (writePrettyItems xs level rest))) :=
        item_writePretty hx hinner (by omega) fun hleft =>
          readItems_writePrettyItems hinner hxs hleft
      exact (hitems.map (f := fun r => (Value.array r.1, r.2))).congr hiff

/-! ### Objects -/

theorem readColon_colon (cs : List Char) : readColon (':' :: cs) = .ok ((), cs) := by
  rw [readColon, skipSpace_cons (by decide)]
  rfl

theorem readValue_space (cs : List Char) :
    readValue (fuel + 1) depth (' ' :: cs) = readValue (fuel + 1) depth cs := by
  rw [readValue, readValue]
  rfl

theorem readMembers_newLine (first : Bool) (acc : Object) (level : Nat) (cs : List Char) :
    readMembers (fuel + 1) depth first acc (newLine level cs) =
      readMembers (fuel + 1) depth first acc cs := by
  rw [readMembers, readMembers, skipSpace_newLine]

theorem readMembers_close (first : Bool) (acc : Object) (rest : List Char) :
    readMembers (fuel + 1) depth first acc ('\x7d' :: rest) = .ok (acc, rest) := by
  rw [readMembers, skipSpace_cons (by decide)]
  rfl

theorem readMembers_first (acc : Object) (k : String) (rest : List Char) :
    readMembers (fuel + 1) depth true acc (writeString k rest) =
      member fuel depth acc (writeChars k.toList ('"' :: rest)) := by
  rw [readMembers, writeString, skipSpace_cons (by decide)]
  rfl

theorem readMembers_next (acc : Object) (level : Nat) (k : String) (rest : List Char) :
    readMembers (fuel + 1) depth false acc (',' :: newLine level (writeString k rest)) =
      member fuel depth acc (writeChars k.toList ('"' :: rest)) := by
  have hnext : skipSpace (newLine level (writeString k rest)) = writeString k rest := by
    rw [skipSpace_newLine, writeString, skipSpace_cons (by decide)]
  rw [readMembers, skipSpace_cons (by decide)]
  split
  · rename_i h
    cases h
  · rename_i h
    cases h
  · rename_i h
    cases h
    rw [if_neg Bool.false_ne_true, if_pos (beq_self_eq_true _), hnext]
    rfl

theorem member_writeChars (acc : Object) (k : String) (cs : List Char) :
    member (fuel + 2) depth acc (writeChars k.toList ('"' :: ':' :: ' ' :: cs)) =
      (readValue (fuel + 1) depth cs >>= fun r =>
        readMembers (fuel + 1) depth false (acc.insert k r.1) r.2) := by
  rw [member, readString_writeChars]
  simp only [Bind.bind, Except.bind, readColon_colon, readValue_space]

theorem member_writePretty {k : String} {x : Value} {ms acc : Object} (hx : Reads x)
    (hdepth : 0 < depth) (hnew : k ∉ acc.keys)
    (hfuel : 3 * (x.writePretty (level + 1) (writePrettyMembers ms level rest)).length + 1 < fuel)
    (hms : ∀ {left : Nat}, 3 * (writePrettyMembers ms level rest).length ≤ left →
      Answers (Validator.depthOfMembers ms < depth) (acc ++ (k, x) :: ms, rest)
        (readMembers left depth false (acc ++ [(k, x)]) (writePrettyMembers ms level rest))) :
    Answers (Validator.depthOfMembers ((k, x) :: ms) < depth) (acc ++ (k, x) :: ms, rest)
      (member fuel depth acc (writeChars k.toList ('"' :: ':' :: ' ' ::
        x.writePretty (level + 1) (writePrettyMembers ms level rest)))) := by
  obtain ⟨left, rfl⟩ : ∃ n, fuel = n + 2 := ⟨fuel - 2, by omega⟩
  have hlength := length_writePretty x (level + 1) (writePrettyMembers ms level rest)
  have hfirst := hx (left + 1) depth (level + 1) _ hdepth
    (delimited_writePrettyMembers ms level rest) (by omega)
  have hrest := @hms (left + 1) (by omega)
  rw [← Object.insert_of_not_mem hnew] at hrest
  rw [member_writeChars]
  exact (hfirst.bind hrest).congr Nat.max_lt.symm

theorem not_mem_keys {k : String} {x : Value} {ms acc : Object}
    (h : (acc ++ (k, x) :: ms).keys.Nodup) : k ∉ acc.keys := by
  unfold Object.keys at h ⊢
  rw [List.map_append] at h
  exact fun hk => (List.nodup_append.1 h).2.2 k hk k List.mem_cons_self rfl

theorem readMembers_writePrettyMembers {ms acc : Object} (hdepth : 0 < depth)
    (hkeys : (acc ++ ms).keys.Nodup) (h : ∀ k x, (k, x) ∈ ms → Reads x)
    (hfuel : 3 * (writePrettyMembers ms level rest).length ≤ fuel) :
    Answers (Validator.depthOfMembers ms < depth) (acc ++ ms, rest)
      (readMembers fuel depth false acc (writePrettyMembers ms level rest)) := by
  induction ms generalizing fuel acc with
  | nil =>
    obtain ⟨left, rfl, -⟩ := exists_fuel hfuel
    rw [writePrettyMembers, readMembers_newLine, readMembers_close, List.append_nil]
    exact .ok hdepth
  | cons m ms ih =>
    obtain ⟨k, x⟩ := m
    have hassoc : acc ++ (k, x) :: ms = (acc ++ [(k, x)]) ++ ms := by simp
    have hline := length_newLine (level + 1) (writeString k
      (':' :: ' ' :: x.writePretty (level + 1) (writePrettyMembers ms level rest)))
    have hkey := length_writeString k
      (':' :: ' ' :: x.writePretty (level + 1) (writePrettyMembers ms level rest))
    simp only [List.length_cons] at hkey
    rw [writePrettyMembers] at hfuel ⊢
    obtain ⟨left, rfl, hleft⟩ := exists_fuel hfuel
    rw [readMembers_next]
    refine member_writePretty (h k x List.mem_cons_self) hdepth (not_mem_keys hkeys) (by omega)
      fun hleft => ?_
    rw [hassoc] at hkeys ⊢
    exact ih hkeys (fun k x hx => h k x (List.mem_cons_of_mem _ hx)) hleft

theorem reads_object {ms : Object} (hkeys : ms.keys.Nodup) (h : ∀ k x, (k, x) ∈ ms → Reads x) :
    Reads (.object ms) := by
  intro fuel depth level rest hdepth hrest hfuel
  by_cases hdeep : depth ≤ 1
  · obtain ⟨cs, heq⟩ : ∃ cs, (Value.object ms).writePretty level rest = '\x7b' :: cs := by
      cases ms <;> exact ⟨_, rfl⟩
    rw [heq] at hfuel ⊢
    obtain ⟨left, rfl, -⟩ := exists_fuel hfuel
    rw [readValue_brace_deep hdeep]
    exact answers_tooDeep hdeep _
  · have hinner : 0 < depth - 1 := by omega
    have hiff {n : Nat} : n < depth - 1 ↔ n + 1 < depth := by omega
    cases ms with
    | nil =>
      obtain ⟨left, rfl, hleft⟩ := exists_fuel hfuel
      obtain ⟨left, rfl, -⟩ := exists_fuel (Nat.le_trans (Nat.le_add_right _ 2) hleft)
      rw [writePretty, readValue_brace (Nat.lt_of_not_le hdeep), readMembers_close]
      exact .ok (hiff.1 hinner)
    | cons m ms =>
      obtain ⟨k, x⟩ := m
      have hline := length_newLine (level + 1) (writeString k
        (':' :: ' ' :: x.writePretty (level + 1) (writePrettyMembers ms level rest)))
      have hkey := length_writeString k
        (':' :: ' ' :: x.writePretty (level + 1) (writePrettyMembers ms level rest))
      simp only [List.length_cons] at hkey
      rw [writePretty] at hfuel ⊢
      obtain ⟨left, rfl, hleft⟩ := exists_fuel hfuel
      obtain ⟨left, rfl⟩ : ∃ n, left = n + 1 := Nat.exists_eq_succ_of_ne_zero (by omega)
      rw [readValue_brace (Nat.lt_of_not_le hdeep), readMembers_newLine, readMembers_first]
      have hmembers : Answers (Validator.depthOfMembers ((k, x) :: ms) < depth - 1)
          ([] ++ (k, x) :: ms, rest) (member left (depth - 1) [] (writeChars k.toList ('"' :: ':' ::
            ' ' :: x.writePretty (level + 1) (writePrettyMembers ms level rest)))) :=
        member_writePretty (h k x List.mem_cons_self) hinner List.not_mem_nil (by omega)
          fun hleft => @readMembers_writePrettyMembers _ _ _ _ ms [(k, x)] hinner hkeys
            (fun k x hx => h k x (List.mem_cons_of_mem _ hx)) hleft
      exact (hmembers.map (f := fun r => (Value.object r.1, r.2))).congr hiff

/-- Every value whose keys are its own and whose numbers are exact. -/
theorem reads_of_exact {v : Value} (hv : v.Proper) (hexact : v.Exact) : Reads v := by
  induction hv with
  | null => exact reads_null
  | bool b => exact reads_bool b
  | number n =>
    cases hexact with
    | number h =>
      obtain ⟨hrange, i, rfl⟩ := h
      exact reads_number hrange
  | string s => exact reads_string s
  | array h ih =>
    cases hexact with
    | array hitems => exact reads_array fun x hx => ⟨hitems x hx, ih x hx (hitems x hx)⟩
  | object hkeys h ih =>
    cases hexact with
    | object hmembers => exact reads_object hkeys fun k x hx => ih k x hx (hmembers k x hx)

/-! ### Texts -/

/-- The text of a value is read as the value, unless containers are nested too deeply in it. -/
theorem readAll_writePretty {v : Value} (hv : v.Proper) (hexact : v.Exact) :
    Answers (Validator.depth v < depthLimit) v (readAll (v.writePretty 0 [])) := by
  have hread := reads_of_exact hv hexact (3 * (v.writePretty 0 []).length + 3) depthLimit 0 []
    (by decide) (fun c hc => nomatch hc) (by omega)
  unfold readAll
  have hend : Answers True v (readEnd [] >>= fun _ => .ok v) := .ok trivial
  exact (hread.bind hend).congr (and_iff_left trivial)

theorem read_pretty {v : Value} (hv : v.Proper) (hexact : v.Exact) :
    (Validator.depth v < depthLimit → read v.pretty = .ok v) ∧
      (depthLimit ≤ Validator.depth v → ∃ e, read v.pretty = .error e ∧ e.cause = .tooDeep) := by
  have hanswers := readAll_writePretty hv hexact
  unfold read pretty
  rw [String.toList_ofList]
  cases hread : readAll (v.writePretty 0 []) with
  | ok x =>
    rw [hread] at hanswers
    cases hanswers with
    | ok h => exact ⟨fun _ => rfl, fun hdeep => absurd h (Nat.not_lt.2 hdeep)⟩
  | error f =>
    rw [hread] at hanswers
    cases hanswers with
    | tooDeep h n => exact ⟨fun hlt => absurd hlt h, fun _ => ⟨_, rfl, rfl⟩⟩

end DocSchema.Json
