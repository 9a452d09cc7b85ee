/-
  DocSchema/Proofs/Document/Header.lean
  =====================================
  **The data of a document and the lines of its header.**

  What is read as the data of a document is not quite the text between the two marks of its header:
  the last line feed is left out, and a line feed stands for every pair of a carriage return and a
  line feed (`metadata_of_unpaired`).  The data are the same, unless the text ends in a block scalar
  that keeps its last line break, or a carriage return comes before such a pair and would make
  another one with its line feed (`metadata_of_inner_lines`).
-/
import DocSchema.Proofs.Document.Exact
import DocSchema.Proofs.Markdown.Header
import DocSchema.Proofs.Yaml.TrimTokens

namespace DocSchema

open DocSchema.Json DocSchema.Markdown

/-! ### The trimmed form of lines -/

section Trimmed

variable {cs : List Char}

theorem head?_of_dropLast {ch : Char} (h : cs.dropLast.head? = some ch) : cs.head? = some ch := by
  rw [List.head?_dropLast] at h
  split at h
  · exact h
  · cases h

/-- Lines and what is left of them when the last line feed is dropped. -/
theorem trimmed_unpaired (hlast : cs.getLast? = some '\n')
    (hreturns : ¬ ['\r', '\r', '\n'] <:+: cs) :
    Yaml.Trimmed cs (unpaired cs).dropLast := by
  induction cs using unpaired.induct with
  | case1 cs ih =>
    change Yaml.Trimmed _ ('\n' :: unpaired cs).dropLast
    by_cases hcs : cs = []
    · subst hcs
      exact .returnFeed
    · rw [List.dropLast_cons_of_ne_nil (unpaired_ne_nil hcs)]
      refine (ih ?_ fun hin => hreturns ?_).paired
      · rwa [List.getLast?_cons_of_ne_nil (by simp), List.getLast?_cons_of_ne_nil hcs] at hlast
      · exact (hin.trans (List.suffix_cons _ _).isInfix).trans (List.suffix_cons _ _).isInfix
  | case2 ch cs hpair ih =>
    rw [unpaired.eq_2 ch cs hpair]
    by_cases hcs : cs = []
    · subst hcs
      cases hlast
      exact .feed
    · rw [List.dropLast_cons_of_ne_nil (unpaired_ne_nil hcs)]
      rw [List.getLast?_cons_of_ne_nil hcs] at hlast
      refine .char (fun hch => ?_)
        (ih hlast fun hin => hreturns (hin.trans (List.suffix_cons _ _).isInfix))
      have hhead : cs.head? ≠ some '\n' := by
        intro hhead
        obtain ⟨rest, rfl⟩ := List.head?_eq_some_iff.1 hhead
        exact hpair rest hch rfl
      -- a pair here would come after another carriage return
      refine ⟨hhead, fun hdropped => ?_⟩
      rcases head?_of_unpaired (head?_of_dropLast hdropped) with h | ⟨rest, rfl⟩
      · exact hhead h
      · subst hch
        exact hreturns ⟨[], rest, rfl⟩
  | case3 => cases hlast

end Trimmed

namespace Document

/-- The data of a document are those of what the events of its header carry, without the line feed
at its end. -/
theorem metadata_of_header? {text : String} {header : List Located} {size : Nat}
    (h : header? text.toList = some (header, size)) :
    (parse text).metadata =
      (parseMetadata (OpenNode.dropLineFeed (payloads header))).toOption := by
  obtain ⟨span, f, hf, heq⟩ := exact_build_of_header? h
  unfold parse ofChars
  rw [heq]
  dsimp only
  rw [hf.head?_children, Option.bind_some]
  unfold OpenNode.ofHeader OpenNode.finish Node.metadata?
  dsimp only
  rw [if_pos rfl, if_pos rfl]
  cases parseMetadata (OpenNode.dropLineFeed (payloads header)) with
  | ok data => rfl
  | error e => rfl

/-- What the events of a header carry. -/
theorem payloads_headerEvents (cs : List Char) (chunks : List Chunk) (size : Nat) :
    payloads (headerEvents cs chunks size) =
      String.ofList (chunks.flatMap (Chunk.text (Window.whole cs.toArray))) := by
  have hchunks : payloads ((chunks.map (Chunk.located (Window.whole cs.toArray))).map
      (Located.toBytes (byteOffsets cs.toArray))) =
        String.ofList (chunks.flatMap (Chunk.text (Window.whole cs.toArray))) := by
    induction chunks with
    | nil => rfl
    | cons c chunks ih =>
      rw [List.map_cons, List.map_cons, payloads_cons, ih, List.flatMap_cons, String.ofList_append]
      rfl
  rw [headerEvents, List.map_append, List.map_cons, payloads_append, payloads_cons, hchunks]
  change "" ++ _ ++ "" = _
  rw [String.append_empty, String.empty_append]

theorem dropLineFeed_ofList {cs : List Char} (h : cs.getLast? = some '\n') :
    OpenNode.dropLineFeed (String.ofList cs) = String.ofList cs.dropLast := by
  obtain ⟨cs, rfl⟩ := List.getLast?_eq_some_iff.1 h
  simp [OpenNode.dropLineFeed]

variable {text : String} {header : List Located} {size : Nat}

/-- What is read as the data of a document that opens with a header. -/
theorem metadata_of_unpaired (h : header? text.toList = some (header, size)) :
    (parse text).metadata = (parseMetadata
      (String.ofList (unpaired (innerLines (text.toList.take size))).dropLast)).toOption := by
  obtain ⟨hlast, chunks, rfl, htext⟩ := exists_chunks_of_header? h
  rw [metadata_of_header? h, payloads_headerEvents, htext,
    dropLineFeed_ofList (getLast?_unpaired hlast)]

/-- **The data of a document are those of the lines of its header**, the last line feed included,
unless it matters to a block scalar that the lines end in. -/
theorem metadata_of_inner_lines (h : header? text.toList = some (header, size))
    (hreturns : ¬ ['\r', '\r', '\n'] <:+: innerLines (text.toList.take size))
    (hkeep : Yaml.keepsLastBreak (innerLines (text.toList.take size)) = false) :
    (parse text).metadata =
      (parseMetadata (String.ofList (innerLines (text.toList.take size)))).toOption := by
  obtain ⟨hlast, -⟩ := exists_chunks_of_header? h
  have hdata := Yaml.data?_of_trimmed (trimmed_unpaired hlast hreturns) hkeep
  rw [metadata_of_unpaired h]
  unfold parseMetadata
  rw [String.toList_ofList, String.toList_ofList, hdata]

/-- A header whose block scalar is not its last entry. -/
theorem inner_lines_of_block_and_title :
    let text := "---\r\nnote: |\r\n  b\r\n\r\ntitle: T # t\r\n---\r\n# T\r\n"
    let lines := "note: |\r\n  b\r\n\r\ntitle: T # t\r\n"
    ((header? text.toList).map (·.2) = some 38 ∧ innerLines (text.toList.take 38) = lines.toList) ∧
      ¬ ['\r', '\r', '\n'] <:+: lines.toList ∧ Yaml.keepsLastBreak lines.toList = false ∧
      (parse text).metadata = (parseMetadata lines).toOption := by
  intro text lines
  have hheader : (header? text.toList).map (·.2) = some 38 := by decide +kernel
  have hlines : innerLines (text.toList.take 38) = lines.toList := by decide +kernel
  have hreturns : ¬ ['\r', '\r', '\n'] <:+: lines.toList := by decide +kernel
  have hkeep : Yaml.keepsLastBreak lines.toList = false := by decide +kernel
  obtain ⟨⟨header, size⟩, hfound, rfl⟩ := Option.map_eq_some_iff.1 hheader
  refine ⟨⟨hheader, hlines⟩, hreturns, hkeep, ?_⟩
  have hdata := metadata_of_inner_lines hfound (hlines ▸ hreturns) (hlines ▸ hkeep)
  rwa [hlines, String.ofList_toList] at hdata

/-- A block scalar that is the last entry loses its line feed. -/
theorem last_line_feed_lost :
    let text := "---\na: |\n  b\n---\n"
    (header? text.toList).map (·.2) = some 16 ∧
      innerLines (text.toList.take 16) = "a: |\n  b\n".toList ∧
      (parse text).metadata = some [("a", .string "b")] ∧
      parseMetadata "a: |\n  b\n" = .ok [("a", .string "b\n")] := by
  decide +kernel

end Document

end DocSchema
