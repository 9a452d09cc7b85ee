/-
  DocSchema/Character/Break.lean
  ==============================
  **The classes of characters by which a text is cut into clusters, words and sentences.**

  Most classes follow from category, script and traits; a table lists what does not.  The names
  of classes are given in small letters without separators, in full or by their abbreviation.
  Characters of no class have no name here.
-/
import DocSchema.Character.Script
import DocSchema.Character.Trait

namespace DocSchema.Character

/-! ### Clusters -/

def carriageReturn : CharSet := .single '\r'

def lineFeed : CharSet := .single '\n'

/-- The mark that joins two characters into one picture. -/
def zeroWidthJoiner : CharSet := .point 0x200D

/-- What never stands in a cluster with another character. -/
def clusterControl : CharSet :=
  let hidden := (ofCategories ["Cn"]).intersect defaultIgnorable
  ((ofCategories ["Zl", "Zp", "Cc", "Cf"]).union hidden).difference
    (.unionAll [carriageReturn, lineFeed, zeroWidthJoiner, prependedMark, graphemeExtend])

def clusterExtend : CharSet :=
  (graphemeExtend.union emojiModifier).difference zeroWidthJoiner

/-- What belongs to the cluster after it. -/
def clusterPrepend : CharSet :=
  prependedMark.union (readRanges ["2mm 1fg3+1 el 12l 1 6w 21+5 jg cb"])

/-- Spacing marks that are no part of the cluster before them. -/
def freeSpacingMarks : CharSet :=
  readRanges ["36z+1 b 15+2 2+6 l 3+5 2 a+2 1xg 1+1 sgm 1 lgi+1"]

/-- Spacing marks that are part of the cluster before them. -/
def clusterSpacingMark : CharSet :=
  let vowels := CharSet.unionAll [.point 0xE33, .point 0xEB3]
  (((ofCategories ["Mc"]).difference graphemeExtend).union vowels).difference freeSpacingMarks

/-- Letters that begin a syllable. -/
def leadingLetters : CharSet := readRanges ["3cw+2n u0w+s"]

/-- Vowels inside a syllable. -/
def innerVowels : CharSet := readRanges ["3fk+1z 1348+m tjw 3+3"]

/-- Letters that end a syllable. -/
def trailingLetters : CharSet := readRanges ["3hk+2f 132j+1c"]

def syllables : CharSet := .range 0xAC00 0xD7A3

/-- The syllables that no letter ends: every twenty-eighth. -/
def openSyllables : CharSet :=
  ⟨(List.range 399).flatMap fun i => [0xAC00 + 28 * i, 0xAC01 + 28 * i]⟩

/-- The class of a name by which clusters are told apart. -/
def clusterClass? (name : String) : Option CharSet :=
  match name with
  | "cr" => some carriageReturn
  | "lf" => some lineFeed
  | "cn" | "control" => some clusterControl
  | "ex" | "extend" => some clusterExtend
  | "pp" | "prepend" => some clusterPrepend
  | "sm" | "spacingmark" => some clusterSpacingMark
  | "ri" | "regionalindicator" => some regionalIndicator
  | "zwj" => some zeroWidthJoiner
  | "l" => some leadingLetters
  | "v" => some innerVowels
  | "t" => some trailingLetters
  | "lv" => some openSyllables
  | "lvt" => some (syllables.difference openSyllables)
  | _ => none

/-! ### Words -/

def wordMarks : CharSet :=
  .unionAll [graphemeExtend, ofCategories ["Mc"]]

/-- Marks in front of numbers; all of the prepended marks but one, which stands before names. -/
def numberMarks : CharSet := prependedMark.difference (.point 0x70F)

def wordExtend : CharSet :=
  (wordMarks.union emojiModifier).difference zeroWidthJoiner

def wordFormat : CharSet :=
  (ofCategories ["Cf"]).difference
    (.unionAll [.range 0x200B 0x200D, prependedMark, wordExtend])

/-- What makes up words of Katakana. -/
def katakanaWord : CharSet :=
  (ofScript "Kana").union (readRanges ["9ip+4 2t+1 3 2j 14s3"])

def hebrewWord : CharSet :=
  (ofScript "Hebr").intersect (ofCategories ["Lo"])

/-- Letters of scripts that put no spaces between words. -/
def unspacedLetters : CharSet := readRanges [
    "2rl+1b 1+1 c+6 1m+1 1 1+4 1+n 1 1+9 1+1 9 2+4 1 l+3 80+16 k g+5 4+3 3 3+1 7+2 4+c c 1dd+1f z",
    "4 ab+t 2+4 b+17 4+p 2e+1g 2a sag+4 1+9 a+4 2p+m 3 3+1d 1 3+1 2+4 2 1 o+2 lcy+q 11+6"]

/-- Letters of all other words. -/
def wordLetters : CharSet :=
  let beside := readRanges [
    "54 eh+3 c+5 6+1 5+6 1 1+g gq+2 1 17 2w 7v vlk+e 9+1 2v+1 r4"]
  (alphabetic.union beside).difference
    (.unionAll
      [ideographic, katakanaWord, ofScript "Hira", unspacedLetters, wordExtend, hebrewWord])

/-- What makes up numbers, inside words or alone. -/
def wordNumeric : CharSet :=
  .unionAll [ofCategories ["Nd"], .point 0x66B, numberMarks]

/-- The class of a name by which words are told apart. -/
def wordClass? (name : String) : Option CharSet :=
  match name with
  | "cr" => some carriageReturn
  | "lf" => some lineFeed
  | "nl" | "newline" => some (readRanges ["b+1 3c 68y+1"])
  | "le" | "aletter" => some wordLetters
  | "hl" | "hebrewletter" => some hebrewWord
  | "ka" | "katakana" => some katakanaWord
  | "nu" | "numeric" => some wordNumeric
  | "ex" | "extendnumlet" => some (readRanges ["2n 6a7 f+1 j 17tq+1 o+2 6n"])
  | "extend" => some wordExtend
  | "fo" | "format" => some wordFormat
  | "ml" | "midletter" => some (readRanges ["1m 3g jz d3 44 56a 17u3 1t 5g"])
  | "mn" | "midnum" => some (readRanges ["18 e n6 ei 3m+1 2m az 4sr 17t7 3 1n 3 53 e"])
  | "mb" | "midnumlet" => some (readRanges ["1a 6ax+1 a 17vx 50 6"])
  | "dq" | "doublequote" => some (.single '"')
  | "sq" | "singlequote" => some (.single '\'')
  | "ri" | "regionalindicator" => some regionalIndicator
  | "wsegspace" => some (readRanges ["w 4f3 1vj+6 1+2 2c 334"])
  | "zwj" => some zeroWidthJoiner
  | _ => none

/-! ### Sentences -/

/-- Letters with case that do not mark the start of a sentence. -/
def caselessUse : CharSet := readRanges ["3bk+16 2+2 2a8+16 2+2"]

/-- Small letters. -/
def sentenceLower : CharSet :=
  lowercase.difference (graphemeExtend.union caselessUse)

/-- Capital letters. -/
def sentenceUpper : CharSet :=
  (uppercase.union (ofCategories ["Lt"])).difference caselessUse

/-- All other letters. -/
def sentenceLetters : CharSet :=
  (alphabetic.union (.point 0x5F3)).difference
    (.unionAll [sentenceLower, sentenceUpper, wordMarks])

/-- The points that may end a sentence or an abbreviation. -/
def sentencePoints : CharSet := readRanges ["1a 6b9 17vx 57"]

/-- Brackets and quotation marks around a sentence. -/
def sentenceClose : CharSet :=
  (ofCategories ["Ps", "Pe", "Pi", "Pf"]).union
    (readRanges ["y 4 7qr+5 1b3+1 4+2 2 2i5m+2"])

/-- The class of a name by which sentences are told apart. -/
def sentenceClass? (name : String) : Option CharSet :=
  match name with
  | "cr" => some carriageReturn
  | "lf" => some lineFeed
  | "se" | "sep" => some (readRanges ["3p 68y+1"])
  | "sp" => some (whiteSpace.difference (readRanges ["a 2 3b 68y+1"]))
  | "at" | "aterm" => some sentencePoints
  | "st" | "sterm" => some (sentenceTerminal.difference sentencePoints)
  | "sc" | "scontinue" =>
    some (readRanges [
      "18+1 c+1 n6 da 4u+1 dm 361 5 1l6+1 358 14pa+1 1+1 s+1 t+1 2+1 2 a 4o+1 c+1 20"])
  | "cl" | "close" => some sentenceClose
  | "lo" | "lower" => some sentenceLower
  | "up" | "upper" => some sentenceUpper
  | "le" | "oletter" => some sentenceLetters
  | "nu" | "numeric" => some (wordNumeric.union (.point 0x66C))
  | "ex" | "extend" => some (wordMarks.union zeroWidthJoiner)
  | "fo" | "format" =>
    some ((ofCategories ["Cf"]).difference
      (.unionAll [.range 0x200C 0x200D, numberMarks, wordMarks]))
  | _ => none

end DocSchema.Character
