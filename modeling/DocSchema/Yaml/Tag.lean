/-
  DocSchema/Yaml/Tag.lean
  =======================
  **The tags of YAML nodes, and how they are written.**

  A tag is a string of bytes, for the bytes of a tag may be written one by one, as `%` and two
  hexadecimal digits.  What is written so has the shape of UTF-8 (a leading byte and as many
  continuation bytes as it announces) but need not be UTF-8.  A tag ends in front of its first
  zero byte.
-/
import DocSchema.Yaml.Scalar

namespace DocSchema.Yaml

open DocSchema.Text

/-- A tag, or a part of one. -/
structure Tag where
  bytes : List UInt8
  deriving DecidableEq, Repr, Inhabited

namespace Tag

/-- The tag that a text spells. -/
def ofString (s : String) : Tag :=
  ⟨s.toUTF8.toList⟩

/-- The part of a tag that counts: what stands in front of the first zero byte. -/
def cut (t : Tag) : Tag :=
  ⟨t.bytes.takeWhile (· != 0)⟩

/-- The tag that a prefix and a suffix make. -/
def append (t suffix : Tag) : Tag :=
  ⟨t.cut.bytes ++ suffix.cut.bytes⟩

/-- Whether a tag is local: it starts with an exclamation mark and is UTF-8. -/
def isLocal (t : Tag) : Bool :=
  t.bytes.head? == some 0x21 && (String.fromUTF8? ⟨t.bytes.toArray⟩).isSome

/-- Whether a tag starts with an exclamation mark. -/
def isMarked (t : Tag) : Bool :=
  t.bytes.head? == some 0x21

end Tag

/-! ### Reading tags -/

/-- How many bytes a character has whose first byte this is; 0 if none may start so. -/
def announcedBytes (b : Nat) : Nat :=
  if b < 0x80 then 1
  else if b / 32 == 6 then 2
  else if b / 16 == 14 then 3
  else if b / 8 == 30 then 4
  else 0

def readEscapedByte? (c : Cursor) : Option (Nat × Cursor) :=
  if c.holds 0 '%' then readHex? 2 0 c.next else none

/-- Reads so many escaped continuation bytes. -/
def readContinuation? : Nat → Cursor → Option (List UInt8 × Cursor)
  | 0, c => some ([], c)
  | n + 1, c => do
    let (b, c) ← readEscapedByte? c
    if b / 64 != 2 then none
    let (bs, c) ← readContinuation? n c
    some (b.toUInt8 :: bs, c)

/-- Reads the escaped bytes of one character. -/
def readEscapedChar? (c : Cursor) : Option (List UInt8 × Cursor) := do
  let (b, c) ← readEscapedByte? c
  let size := announcedBytes b
  if size == 0 then none
  let (bs, c) ← readContinuation? (size - 1) c
  some (b.toUInt8 :: bs, c)

/-- A character that may stand in a tag; brackets and commas only in one that is set off by
angle brackets. -/
def isTagChar (delimited : Bool) (c : Char) : Bool :=
  isNameChar c || ";/?:@&=+$.!~*'()".toList.contains c ||
    (delimited && (c == ',' || c == '[' || c == ']'))

/-- Reads the bytes of a tag; `acc` holds those so far, last first. -/
def readTagBytes? (delimited : Bool) : Nat → List UInt8 → Cursor → Option (Tag × Cursor)
  | 0, acc, c => some (⟨acc.reverse⟩, c)
  | fuel + 1, acc, c =>
    match c.peek? with
    | none => some (⟨acc.reverse⟩, c)
    | some ch =>
      if ch == '%' then
        match readEscapedChar? c with
        | some (bs, c) => readTagBytes? delimited fuel (bs.reverse ++ acc) c
        | none => none
      else if isTagChar delimited ch then
        readTagBytes? delimited fuel (ch.toNat.toUInt8 :: acc) c.next
      else some (⟨acc.reverse⟩, c)

/-- Reads `!`, `!name` or `!name!`. -/
def readHandle (c : Cursor) : List Char × Cursor :=
  let (name, c) := c.next.takeWhile isNameChar
  if c.holds 0 '!' then ('!' :: name ++ ['!'], c.next) else ('!' :: name, c)

/-- A tag as it is written: a handle that stands for a prefix, or no handle; and the rest. -/
structure WrittenTag where
  handle : String
  suffix : Tag
  deriving DecidableEq, Repr

/-- Reads a tag: delimited, with a handle, or local.  A local tag with nothing after its mark is
the mark itself. -/
def readTag? (inFlow : Bool) (c : Cursor) : Option (WrittenTag × Cursor) := do
  let fuel := c.chars.size
  let (t, c) ←
    if c.holds 1 '<' then
      match readTagBytes? true fuel [] c.next.next with
      | some (uri, c) =>
        if uri.bytes.isEmpty || !c.holds 0 '>' then none else some (⟨"", uri⟩, c.next)
      | none => none
    else
      let (handle, c) := readHandle c
      match readTagBytes? false fuel [] c with
      | none => none
      | some (suffix, c) =>
        if 1 < handle.length && handle.getLast? == some '!' then
          if suffix.bytes.isEmpty then none else some (⟨String.ofList handle, suffix⟩, c)
        else
          let suffix : Tag := ⟨(Tag.ofString (String.ofList (handle.drop 1))).bytes ++ suffix.bytes⟩
          if suffix.cut.bytes.isEmpty then some (⟨"", .ofString "!"⟩, c)
          else some (⟨"!", suffix⟩, c)
  if c.blankOrEnd 0 || (inFlow && c.holds 0 ',') then some (t, c) else none

abbrev Handles := List (String × Tag)

/-- The full form of a tag; `none` if its handle is unknown. -/
def WrittenTag.resolve? (t : WrittenTag) (handles : Handles) : Option Tag :=
  if t.handle.isEmpty then some t.suffix.cut
  else (handles.lookup t.handle).map (·.append t.suffix)

/-- The prefix of the tags that YAML itself defines. -/
def commonTag : String := "tag:yaml.org,2002:"

/-- The tag handles that every document knows, unless it gives them another meaning. -/
def commonHandles : Handles :=
  [("!", .ofString "!"), ("!!", .ofString commonTag)]

end DocSchema.Yaml
