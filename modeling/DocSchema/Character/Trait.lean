/-
  DocSchema/Character/Trait.lean
  ==============================
  **Traits of characters: what a character either has or has not.**

  Many traits follow from the general category; of these only the exceptions are kept, as the
  set of the characters where the rule is wrong.
-/
import DocSchema.Character.Category

namespace DocSchema.Character

/-! ### Traits of their own -/

/-- Characters that set the direction of a text. -/
def bidiControl : CharSet := readRanges ["17g 54h+1 q+4 1j+3"]

/-- Characters that are mirrored where a text runs from the right. -/
def bidiMirrored : CharSet := readRanges [
    "14+1 i 1 s 1 t 1 19 f 2v2+3 1gd+1 1wc+1 a+1 1i+1 e+1 4x 5c+3 3+5 3 3+1 3+3 1+3 1 1 4+8 5 1+h",
    "5+3 9+1 1 1+7 1+v 2+3 5 9+1 2+i 5+1 9+4 2+1 4+n 2+f 8+3 k+1 7+1 u5+d 22 2+3 1+1 1+2 5+3 5+2",
    "3+d b7+l 2+5 1+d 8 7+5 3 4+4 1+1 2+4 4 1+2 2+1 a+5 2+1 c+i 1+3 2 1 2 1+3 5+1 6+2 o+1 b+1 4+3",
    "1+1 2+1 4+16 2+7 1+13 5 1 3+4 5+2 4 3+4 1 74 eb+3 3+1 1+1 e+1 2+9 17+7 bv+9 2+7 14ql+5 5+1",
    "4i+1 i 1 s 1 t 1 1+1 1+1 16k7 1l 1l 1l 1l"]

def dash : CharSet := readRanges [
    "19 124 1f 2td sl 1l5+5 1p 13 f au 2dg 2 v+1 4 s ce j 33 14ls+1 11 a 4p 2u8 8u"]

/-- Characters that show nothing where they are not known. -/
def defaultIgnorable : CharSet := readRanges [
    "4t ip jw 282+1 18z+1 2d+4 1kr+4 q+4 1d+f 3ck 14ez+f 6n 4g 27+8 119j+3 43z+7 h405+35r"]

/-- Characters that should no longer be used. -/
def deprecated : CharSet := readRanges ["95 10p 1s3 1 1m1+1 1qd+5 jd+1 jh06"]

/-- Marks that change the meaning of another character. -/
def diacritic : CharSet := readRanges [
    "2m 1 1z 6 4 2+1 dz+4e 1+7 5+5 h+1 4 9+1 71+4 5t 1j+18 1 1+1 1+1 1 3n+7 4+1 3q+1 4+1 3+2 1v+q",
    "2j+a 1m+a y+1 3i+7 15+9 g+r 1p g 3+3 s 22 g 32 g 32 g 1b+2 1o g 7 3b 32 g 32 g 31+1 g 3g 33",
    "c+5 1 2z d+4 23+1 r 1 1 4+1 1u+2 1+1 1q 34 1+1 14+1 4+4 p+6 1 a+1 jl+2 qc+1 u 44+a 9 9n+2 84",
    "k+7 2 1c+e 2+a 2w f 12+8 1i+1 1m b+1 1u+1 1s+5 2a+o 4 6 2+2 1e+1q 1c+z 5+b 11+a cd 1+2 b+2",
    "d+2 d+2 d+1 2k0+2 8t e2+5 2x+3 2n n76 c+1 1 s+1 2a+1 e+x 2u+2 31+1 c 11 47 r+h 1l+3 10 2n c",
    "10 45+2 1t+3 1f 2s+4 9+2 3k+1 fn4 ld+f 7i 1 1b 19+1 1v l8 wv+5 1+15 1+8 hp+2 4 4l+1 fv+5 12",
    "q+4 b3+2 1y+a 1d+3 5c 15 20+1 3c+1 1q 24 9+2 2w+1 4y+1 28+1 g o+6 3+4 2h+2 1+1 d+1 2n 3 3f+1",
    "6z+1 3i 3a+1 37 7h+1 76+1 4 4c 2b i 29 bp 76 1+1 29 bt+1 n 44s+e 8ux 1xc+4 1n+6 fo+1 f6+g",
    "28+1 cn2+3 1+6 1+1 64h+19 2+m f4+2 3+5 8+7 2+6 u+3 2v6+1p 5e+6 af 1p+3 la+1 kg+6 31+2 1+2"]

def emoji : CharSet := readRanges [
    "z 6 5+9 33 4 68d c 60 m 2i+5 f+1 a7+1 c 4m p+a 4+2 5j 6f+1 a 9 1m+3 1+4 9 2 2+1 2 4 2 1+1 2",
    "3 3+1 8+2 5 1 5+b b+1 2 1+1 1 i 2+1 i+5 1 1+1 3+1 5 2+1 4+1 b+1 5+1 2 5+1 1 1+1 k+1 5+5 1+3",
    "2 4 2 2+5 1 2 1 1 6 3 6 a+1 f 2 4 1 4+2 1 b+1 1c+2 9 e e ac+1 cv+2 j+1 1f 4 yi c gp 1 2fze",
    "5m 4g+1 c+1 e 2+9 23+p 1+1 n k 2+8 l+1 4u+x 2+33 2+1 1+2 2+2a 2+2 1+7a 1+1q b+5 1+n 7+1 2+7",
    "c 2+3 2 4+1 d+1 2 8+1 9 5+2 c+2 8+2 2 1 4 6 3 6+2d 1c+1x 5+7 2+2 4+9 3 1+1 3 2+9 6b+b 4",
    "7v+1a 1+9 1+54 34+c 3+9 5+1j 7+e 2+a 6+8"]

def emojiComponent : CharSet := readRanges ["z 6 5+9 6ab 5x 17or 1c5y+p e3+4 14g+3 gw30+2n"]

def emojiModifier : CharSet := readRanges ["2qrf+4"]

def emojiModifierBase : CharSet := readRanges [
    "7j1 63 g+3 2iyf 1o+2 2 2+2 39+1 2+a l+i 3 4+2 1+2 7 1 o 5l+1 4 l 4+1 4u+2 3+4 2b g+2 9 b fz",
    "2 8+7 6 9+9 2+2 1k 1p+1 1+1 1 h+2 1+c 6d+2 16+8"]

/-- Emoji that show as pictures by themselves. -/
def emojiPresentation : CharSet := readRanges [
    "6xm+1 5p+3 3 2 eh+1 l+1 1e+b 17 j d 8+1 h+1 5+1 8 5 l 7+1 1 4 2 7 4+1 s z 1 4+2 1 1p+2 o e",
    "nv+1 1f 4 2hf2 5m 5a 2+9 23+p 1 o k 2+4 1+2 l+1 4u+w c+8 1+1x 1+l c+16 4+4 c+g 3 3+1y 1 1+56",
    "2+1q d+3 1+n i q+1 d 2e+2c 1c+1x 6 3+2 2+2 4+3 b+1 7+8 6b+b 4 7v+1a 1+9 1+54 34+c 3+9 5+1j",
    "7+e 2+a 6+8"]

/-- Pictographs, those to come included. -/
def extendedPictographic : CharSet := readRanges [
    "4p 4 68d c 60 m 2i+5 f+1 a7+1 c 2n 1y p+a 4+2 5j 6f+1 a 9 1m+3 1+5 1+b 1+35 a+39 2+a 1 1 6 3",
    "6 a+1 f 2 4 1 4+2 1 b+4 19+2 9 e e ac+1 cv+2 j+1 1f 4 yi c gp 1 2fza+73 d+2 v 1o+5 c+1 e 2+9",
    "i+1k r+e a k 2+8 1+3 9+c1 5+8t 8+7d 1c+3j 38+b 2d+16 c+3 1k+7 a+5 14+7 u+29 c+1a 1+9 1+c8",
    "74+sd"]

/-- Characters that lengthen or repeat another. -/
def extender : CharSet := readRanges [
    "53 ew+1 oe c9 hi 3t 2h kw 3j 1tv 1k gz b2 1w 3ux 17+4 2v+1 2l+2 lxy 16e qq m 3t 30 l+1 gor",
    "1lc+1 157 r 4 xz 85 38+1 du+2 y7 fxl+1 ws+1 1 me0+1 xd no+2"]

def hexDigit : CharSet := readRanges ["1c+9 7+5 q+5 1eax+9 7+5 q+5"]

def hyphen : CharSet := readRanges ["19 3j yk 3nf 1l5+1 2rp kj 14kn 4p 2f"]

/-- Operators that compose an ideograph of two. -/
def binaryDescriptor : CharSet := readRanges ["9gw+1 2+9 dt"]

/-- Operators that compose an ideograph of three. -/
def trinaryDescriptor : CharSet := readRanges ["9gy+1"]

/-- Operators that change an ideograph. -/
def unaryDescriptor : CharSet := readRanges ["9ha+1"]

/-- Mathematical signs that may start an identifier. -/
def compatMathStart : CharSet := readRanges ["6pu 4 m 2e8y p v p v p v p v p"]

/-- Mathematical signs that may stand in an identifier. -/
def compatMathContinue : CharSet := readRanges ["4y+1 5 69i 3+a 1+e ab 4 m 2e8y p v p v p v p v p"]

def ideographic : CharSet := readRanges [
    "9hi+1 p+8 e+2 qt+533 1s+g73 hkw+a5 2+2x n4a r+4qf 8+yd 15+9 76v+az f7o+wyn w+37d 6+65 2+4g1",
    "e+5rk f+h9 1wi+f1 15u+3t6 5+38f"]

/-- Marks that join or keep apart. -/
def joinControl : CharSet := readRanges ["6bw+1"]

/-- Vowels that are written in front of what they follow. -/
def logicalOrderException : CharSet := readRanges ["2tc+4 3f+4 25s+2 2 smy+1 2 1+1"]

/-- Code points that never stand for a character. -/
def noncharacter : CharSet := readRanges [
    "1e4w+v em+1 1eke+1 1eke+1 1eke+1 1eke+1 1eke+1 1eke+1 1eke+1 1eke+1 1eke+1 1eke+1 1eke+1",
    "1eke+1 1eke+1 1eke+1 1eke+1 1eke+1"]

/-- Alphabetic characters that are neither letters nor letter numbers. -/
def otherAlphabetic : CharSet := readRanges [
    "n9 t+c g0+d 1 1+1 1+1 1 20+a 1c+c 1+6 g 2t+6 4+3 2+1 4 z u+f 2u+a 2t+1 3+8 1+2 1+3 2y 1o+b",
    "3+6 6+j 1i+1 2+e 1+1 5+2 a+1 t+2 1m+6 2+1 2+1 a a+1 t+2 1m+4 4+1 2+1 4 u+1 3 b+2 1m+7 1+2",
    "1+1 l+1 m+2 4+2 1m+6 2+1 2+1 9+1 a+1 u 1n+4 3+2 1+2 a 14+4 1l+6 1+2 1+2 8+1 b+1 t+2 1m+6 1+2",
    "1+2 8+1 b+1 f c+3 1m+6 1+2 1+2 a a+1 t+2 23+5 1 1+7 i+1 1p 2+6 i 2r 2+5 1+1 g 4j+i 9+a 1+z",
    "32+b 1 2+3 n+3 4+2 1+2 2+6 3+3 d+b 1 a+3 19w+1 u+1 u+1 u+1 1u+i 58+1 y 3a+b 4+8 66+4 1l+9",
    "2+j 22+1 b+2 1d+4 1c+e 1o+2 u+8 2+1 1l+a 1e+i bg+x 1c1+1f 1rq+v nsk+7 y+1 9u 8 n+4 2g+1 1e+f",
    "1 1l 12+4 s+b 19+3 1c+b 11 1v+d c 8+1 19+2 1e 1+2 2+1 5 18+4 5 6l+7 fn7 1nb+4 1ae+2 1+1 5+3",
    "lw+3 1t 8x+1 27 77+2 1h+d 19+1 b+2 19+8 9 1p+2 10+b i+1 1l+2 1c+c e+1 2k+8 2 6 2 4d+9 n+3",
    "1m+6 2+1 2+1 a a+1 2c+8 1 2 1+3 1+1 2v+c 1+2 2y+h 6l+6 2+6 t+1 2a+e 1 2y+a 2v+d 75+c 6v+5",
    "1+1 2+1 3 1 3y+6 2+5 4 s+9 16+4 1+3 i+a 1a+d bb+7 1+6 2b+l 1+d 3e+5 3 1+1 1+2 1 3 1u+4 1+1",
    "1+3 9o+3 9+1 1 1c+6 3+2 d0d+g 2sg 1+1i 7+3 2l+1 f58 6zl+6 1+g 2+6 1+1 1+4 2s 1pz 1k8+p 6+p",
    "6+p"]

/-- Ignorable characters beyond formats and variation selectors. -/
def otherDefaultIgnorable : CharSet := readRanges [
    "nj 2rz+1 18z+1 1pr 3cu 14qj 27+8 i9dz 1+t 2o+3j 6o+2rz"]

/-- Characters that extend another and are no marks of the usual kind. -/
def otherGraphemeExtend : CharSet := readRanges [
    "1xa o 9y o 2u o 6g 1 4+1 1+1 9+1 2v o 3b f 1th u sg 5 1 5+1 2t 1z+1 t4 36p+1 nxf 30 gyl+1",
    "3kw 38 7c e 9 2o 9 2 1+2 5 68 c 6p 7a hl c 16r fxq+1 j8z+1 6+5 h419+2n"]

def otherLowercase : CharSet := readRanges [
    "4q f dx+8 7+1 u+4 2o 1g 2o1 2en+1q d y+10 j5 d g+c 5v+f nk+p 1hu+1 o4e+1 5u 3l+2 3+1 o2+3 9",
    "i6u 2+2 1+15 1+8 16r9+1p"]

/-- Mathematical characters that are no mathematical symbols. -/
def otherMath : CharSet := readRanges [
    "2m oh+2 2 q+1 2+1 5k0 r+2 b w+3 o+1 e+1 1t+c 4 3+1 4+4 i 4 2+9 1 3+4 6 3+1 2+1 1+2 1+5 3+3",
    "5+4 23+4 2+3 1+1 1+1 1 1+4 2+1 4+1 4+h 2+1 1 1+6 1 6+1 82+3 4o+1 1 o h cd+1 c+8 5+4 5+1 2+1",
    "3+4 e 1 2+5 o+1 1l 1 t+3 9+1 9i+1 v+9 b7+l 1r+3 w+1 15yb 1 4 5v 1 160x+2c 1+1y 1+1 2 2+1 2+3",
    "1+b 1 1+6 1+1s 1+3 2+7 1+6 1+r 1+3 1+4 1 3+6 1+9f 2+o 1+o 1+u 1+o 1+u 1+o 1+u 1+o 1+u 1+o",
    "1+7 2+1d 4cg+3 1+q 1+1 1 2 1+9 1+3 1 1 6 4 1 1 1+2 1+1 1 2 1 1 1 1 1+1 1 2+3 1+6 1+3 1+3 1",
    "1+9 1+g 5+2 1+4 1+g"]

def otherUppercase : CharSet := readRanges ["6lc+f na+p 2ixs+p 6+p 6+p"]

def patternSyntax : CharSet := readRanges [
    "x+e a+6 q+3 1 q+3 y+6 1 1+1 1 1+1 4 4 3 n v 654+n 8+e 2+i 1+9 8h+jz 4g+hh u+vf e8+3j ap+2",
    "4+o f 14i5+1 79+1"]

def patternWhiteSpace : CharSet := readRanges ["9+4 i 2s 688+1 o+1"]

/-- Marks that are written in front of numbers. -/
def prependedMark : CharSet := readRanges ["16o+5 5z 1d ao+1 28 1g4a f"]

def quotationMark : CharSet := readRanges ["y 4 3n f 670+7 p+1 2rr cp+3 d+2 14pt+3 59 4 2i+1"]

def radical : CharSet := readRanges ["96o+p 1+2g c+5x"]

/-- Letters that spell flags. -/
def regionalIndicator : CharSet := readRanges ["2qcm+p"]

def sentenceTerminal : CharSet := readRanges [
    "x c g 11l 43+2 50 17+2 6u 1p 1 3+1 85+1 1d0+1 ly 4+1 lh 5i+1 4d+1 19 5 8q+1 9u+3 4i+1 a+1",
    "2+1 t+2 57+1 1t+1 pw n+1 9+2 2i7+2 8i d m+1 bx n3w 7i+1 6b 3 am+1 2e+1 2n 48+1 43+2 40+1 6x",
    "g86 2+1 1n 3+1 4p c g 1t 25w+1 zh+4 18+3 59+1 39+3 3j+2 3l+1 6 g+1 2g+1 1+1 30 8a+1 39+1",
    "ad+1 5+e 2x+1 6x+2 ed 1 6z+1 2f+1 bo+1 j8+1 22+1 euh+1 3p 1t+1 b fd+1 88 feu 5wo"]

/-- Characters whose dot gives way to a mark above. -/
def softDotted : CharSet := readRanges [
    "2x+1 5g 7t u 1g k 8w 2q 1 4y1 1f d 3 3o 4d bp 5y+1 27m 2bol+1 1e+1 1e+1 1e+1 1e+1 1e+1 1e+1",
    "1e+1 1e+1 1e+1 1e+1 1e+1 1e+1 1om 8h+1 q"]

/-- Punctuation that ends a unit of text. -/
def terminalPunctuation : CharSet := readRanges [
    "x a 1 b+1 3 n2 8 e9 1l 20 e 1+2 50 17+a 1 6j+1 1i+5 1+7 v 79+1 z8+1 4s 4+5 8n+1 lx+7 lh 3g+2",
    "1z+1 4d+2 3 13+3 2+1 8q+1 9u+3 4i+1 a+1 1+2 t+2 57+4 1q+1 pw n+1 9+2 2i7+2 8i d 4 a 1+1 3+1",
    "bw+1 n3v+1 7h+2 6b+4 am+1 2e+1 2n 47+2 43+2 3j g+1 6x g86 2+1 1l+2 1+3 4p a 1 b+1 3 1t 2 u2",
    "1c w6 5j 8m+1 48+5 1w+5 2h+3 qg+4 18+3 59+6 34+3 3j+2 3l+1 6 g+1 2g+4 30 8a+1 39+2 c+1 9y+3",
    "3+e 2x+1 6x+2 ed 1 6z+1 2f+1 4+1 bi+2 19 hx+1 22+1 10r+4 dtl+1 3p 1t+2 a fd+1 87+1 feu 5wn+3"]

def unifiedIdeograph : CharSet := readRanges [
    "a9s+533 1s+g73 hse+1 1 1+1 a 1 1+1 2+2 1fpy+wyn w+37d 6+65 2+4g1 e+5rk f+h9 3he+3t6 5+38f"]

def variationSelector : CharSet := readRanges ["4qz+2 1 19f4+f i9yo+6n"]

def whiteSpace : CharSet := readRanges ["9+4 i 2s q 4bj 1vj+a t+1 5 1b 334"]

/-! ### Exceptions -/

/-- Where lowercasing differs from the uppercase and titlecase letters. -/
def lowercasingExceptions : CharSet := readRanges [
    "r6+2 5rh 4 3+2 2+2 2 3+4 6 3 3+1 2+1 1 a+1 5 q+f na+p 2d68+p q+p q+p q 1+1 2 2+1 2+3 1+7 q+p",
    "q+1 1+3 2+7 1+6 r+1 1+3 1+4 1 3+6 r+p q+p q+p q+p q+p q+p u+o x+o x+o x+o x+o x"]

/-- Where uppercasing differs from the lowercase letters. -/
def uppercasingExceptions : CharSet := readRanges [
    "8o 2c s+1 e 3 6 2 2 12 1a i+5 r 2 1 2+2 2 4 5+1 1 2+1 1+6 1+1 1 2+2 6+4 1 1+7 2+g 45 52 9v",
    "13 4mv+17 1r+c 2+2 1+f 1+b 75+1 1 6g+7 8+7 8+7 c f 1b 7h 3+1 3 r 4 4 2+1 8+3 12+f nk+p 1hj 2",
    "2+4 2w o5n+1 1r+7 l 6 p z 1 10 mt+y 1+6 5+8 1mlt+p q+6 1+h q+p q+3 1 1+6 1+a q+p q+p q+p q+p",
    "q+p q+p q+p q+p q+r s+o 1+5 q+o 1+5 q+o 1+5 q+o 1+5 q+o 1+5 1 1f8+9 1+j 6+5"]

/-- Where titlecasing differs from uppercasing. -/
def titlecasingExceptions : CharSet := readRanges [
    "ck+1 1+1 1+1 11+1 2xp+16 2+2 2vc+7 8+7 8+7 c f 1b"]

/-- Where case folding differs from lowercasing. -/
def casefoldingExceptions : CharSet := readRanges [
    "51 15 2x 1h cl 3g d+1 3+1 p+1 3 b5 2s8+2d 2+5 1oi+8 ep+1 6c+7 8+7 8+7 a+2 2 a+2 2 16+2 2",
    "rjs+27 fnk+6 c+4"]

/-- Where characters that case ignores differ from their categories. -/
def caseIgnorableExceptions : CharSet := readRanges [
    "13 6 b 3g jz d3 44 55v+1 a 2 17u3 1q 2 4x 6 b"]

/-- Where starts of identifiers differ from letters and letter numbers. -/
def startExceptions : CharSet := readRanges ["4ud+1 1ox l 2kg h7+1"]

/-- Where characters of identifiers differ from their categories. -/
def continueExceptions : CharSet := readRanges ["53 jz 34x+8 19k 181+1 3cd 14rt"]

/-- Where starts of identifiers change under normalisation. -/
def closedStartExceptions : CharSet := readRanges [
    "oq 248 3j 6p3+1 148x+5 ba+1 38 1 1 1 1 1 1 1 7z+1"]

/-- Where characters of identifiers change under normalisation. -/
def closedContinueExceptions : CharSet := readRanges ["oq 8ww+1 148x+5 ba+1 38 1 1 1 1 1 1 1"]

/-! ### Traits that follow from others -/

def lowercase : CharSet := (ofCategories ["Ll"]).union otherLowercase

def uppercase : CharSet := (ofCategories ["Lu"]).union otherUppercase

def cased : CharSet := .unionAll [lowercase, uppercase, ofCategories ["Lt"]]

def alphabetic : CharSet := .unionAll [letters, ofCategories ["Nl"], otherAlphabetic]

def alphanumeric : CharSet := alphabetic.union (ofCategories ["Nd", "Nl", "No"])

def math : CharSet := (ofCategories ["Sm"]).union otherMath

def graphemeExtend : CharSet := (ofCategories ["Mn", "Me"]).union otherGraphemeExtend

/-- Characters that others extend. -/
def graphemeBase : CharSet :=
  ((ofCategories ["Cc", "Cf", "Cs", "Co", "Cn", "Zl", "Zp"]).union graphemeExtend).complement

/-- Characters that casing passes over. -/
def caseIgnorable : CharSet :=
  (ofCategories ["Mn", "Me", "Cf", "Lm", "Sk"]).symmetricDifference caseIgnorableExceptions

def changesLowercased : CharSet :=
  (ofCategories ["Lu", "Lt"]).symmetricDifference lowercasingExceptions

def changesUppercased : CharSet :=
  (ofCategories ["Ll"]).symmetricDifference uppercasingExceptions

def changesTitlecased : CharSet :=
  changesUppercased.symmetricDifference titlecasingExceptions

/-- Characters that case folding changes. -/
def changesCasefolded : CharSet :=
  changesLowercased.symmetricDifference casefoldingExceptions

def changesCasemapped : CharSet :=
  .unionAll [changesLowercased, changesUppercased, changesTitlecased]

/-- Characters that may start an identifier. -/
def idStart : CharSet :=
  (letters.union (ofCategories ["Nl"])).symmetricDifference startExceptions

/-- Characters that may stand in an identifier. -/
def idContinue : CharSet :=
  (idStart.union (ofCategories ["Mn", "Mc", "Nd", "Pc"])).symmetricDifference continueExceptions

/-- The characters of words: letters and marks, decimal digits, connectors and joiners. -/
def wordChars : CharSet :=
  .unionAll [alphabetic, ofCategoryGroup 'M', ofCategories ["Nd", "Pc"], joinControl]

/-- Characters that do not show: all but the space that are controls, formats, separators or no
characters, and those that only extend the character before. -/
def invisible : CharSet :=
  let hidden := ofCategories ["Cc", "Cf", "Cs", "Co", "Cn", "Zl", "Zp", "Zs"]
  (hidden.union graphemeExtend).difference (.single ' ')

/-! ### Names -/

/-- The set of a trait that is named in small letters without separators, in full or by its
abbreviation. -/
def ofTrait? (name : String) : Option CharSet :=
  match name with
  | "ahex" | "asciihexdigit" => some (hexDigit.intersect (.range 0 0x7F))
  | "alpha" | "alphabetic" => some alphabetic
  | "bidic" | "bidicontrol" => some bidiControl
  | "bidim" | "bidimirrored" => some bidiMirrored
  | "ci" | "caseignorable" => some caseIgnorable
  | "cased" => some cased
  | "cwcf" | "changeswhencasefolded" => some changesCasefolded
  | "cwcm" | "changeswhencasemapped" => some changesCasemapped
  | "cwl" | "changeswhenlowercased" => some changesLowercased
  | "cwt" | "changeswhentitlecased" => some changesTitlecased
  | "cwu" | "changeswhenuppercased" => some changesUppercased
  | "dash" => some dash
  | "di" | "defaultignorablecodepoint" => some defaultIgnorable
  | "dep" | "deprecated" => some deprecated
  | "dia" | "diacritic" => some diacritic
  | "emoji" => some emoji
  | "ecomp" | "emojicomponent" => some emojiComponent
  | "emod" | "emojimodifier" => some emojiModifier
  | "ebase" | "emojimodifierbase" => some emojiModifierBase
  | "epres" | "emojipresentation" => some emojiPresentation
  | "extpict" | "extendedpictographic" => some extendedPictographic
  | "ext" | "extender" => some extender
  | "grbase" | "graphemebase" => some graphemeBase
  | "grext" | "graphemeextend" => some graphemeExtend
  | "hex" | "hexdigit" => some hexDigit
  | "hyphen" => some hyphen
  | "idsb" | "idsbinaryoperator" => some binaryDescriptor
  | "idst" | "idstrinaryoperator" => some trinaryDescriptor
  | "idsu" | "idsunaryoperator" => some unaryDescriptor
  | "idcompatmathstart" => some compatMathStart
  | "idcompatmathcontinue" => some compatMathContinue
  | "idc" | "idcontinue" => some idContinue
  | "ids" | "idstart" => some idStart
  | "ideo" | "ideographic" => some ideographic
  | "joinc" | "joincontrol" => some joinControl
  | "loe" | "logicalorderexception" => some logicalOrderException
  | "lower" | "lowercase" => some lowercase
  | "math" => some math
  | "nchar" | "noncharactercodepoint" => some noncharacter
  | "oalpha" | "otheralphabetic" => some otherAlphabetic
  | "odi" | "otherdefaultignorablecodepoint" => some otherDefaultIgnorable
  | "ogrext" | "othergraphemeextend" => some otherGraphemeExtend
  | "oidc" | "otheridcontinue" => some continueExceptions
  | "oids" | "otheridstart" =>
    some (startExceptions.difference patternSyntax)
  | "olower" | "otherlowercase" => some otherLowercase
  | "omath" | "othermath" => some otherMath
  | "oupper" | "otheruppercase" => some otherUppercase
  | "patsyn" | "patternsyntax" => some patternSyntax
  | "patws" | "patternwhitespace" => some patternWhiteSpace
  | "pcm" | "prependedconcatenationmark" => some prependedMark
  | "qmark" | "quotationmark" => some quotationMark
  | "radical" => some radical
  | "ri" | "regionalindicator" => some regionalIndicator
  | "sterm" | "sentenceterminal" => some sentenceTerminal
  | "sd" | "softdotted" => some softDotted
  | "term" | "terminalpunctuation" => some terminalPunctuation
  | "uideo" | "unifiedideograph" => some unifiedIdeograph
  | "upper" | "uppercase" => some uppercase
  | "vs" | "variationselector" => some variationSelector
  | "wspace" | "whitespace" | "space" => some whiteSpace
  | "xidc" | "xidcontinue" => some (idContinue.symmetricDifference closedContinueExceptions)
  | "xids" | "xidstart" => some (idStart.symmetricDifference closedStartExceptions)
  | _ => none

end DocSchema.Character
