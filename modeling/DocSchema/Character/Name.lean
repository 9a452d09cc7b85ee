/-
  DocSchema/Character/Name.lean
  =============================
  **Sets of characters by the names of their properties.**

  Names are compared loosely: case, spaces, underscores and hyphens do not count, nor does an
  `is` in front.  A name alone means a trait, a category or a script, in this order; a name with
  a value asks for one property.
-/
import DocSchema.Character.Age
import DocSchema.Character.Break
import DocSchema.Character.Script
import DocSchema.Character.Trait
import DocSchema.Text.Ascii

namespace DocSchema.Character

open DocSchema.Text

/-- A name in the form in which names are compared. -/
def looseName (name : List Char) : String :=
  let (hasIs, rest) :=
    match name.map lowerAscii with
    | 'i' :: 's' :: rest => (true, rest)
    | cs => (false, cs)
  let loose := rest.filter fun c => c != ' ' && c != '_' && c != '-' && c.toNat < 0x80
  -- the abbreviation `isc` is a name of its own
  if hasIs && loose == ['c'] then "isc" else String.ofList loose

/-- The codes of a category that is named in small letters, by its code or its name. -/
def categoryCodes? (name : String) : Option (List String) :=
  match name with
  | "c" | "other" => some ["Cc", "Cf", "Cn", "Co"]
  | "cc" | "control" | "cntrl" => some ["Cc"]
  | "cf" | "format" => some ["Cf"]
  | "cn" | "unassigned" => some ["Cn"]
  | "co" | "privateuse" => some ["Co"]
  | "l" | "letter" => some ["Ll", "Lm", "Lo", "Lt", "Lu"]
  | "lc" | "casedletter" => some ["Ll", "Lt", "Lu"]
  | "ll" | "lowercaseletter" => some ["Ll"]
  | "lm" | "modifierletter" => some ["Lm"]
  | "lo" | "otherletter" => some ["Lo"]
  | "lt" | "titlecaseletter" => some ["Lt"]
  | "lu" | "uppercaseletter" => some ["Lu"]
  | "m" | "mark" | "combiningmark" => some ["Mc", "Me", "Mn"]
  | "mc" | "spacingmark" => some ["Mc"]
  | "me" | "enclosingmark" => some ["Me"]
  | "mn" | "nonspacingmark" => some ["Mn"]
  | "n" | "number" => some ["Nd", "Nl", "No"]
  | "nd" | "decimalnumber" | "digit" => some ["Nd"]
  | "nl" | "letternumber" => some ["Nl"]
  | "no" | "othernumber" => some ["No"]
  | "p" | "punctuation" | "punct" => some ["Pc", "Pd", "Pe", "Pf", "Pi", "Po", "Ps"]
  | "pc" | "connectorpunctuation" => some ["Pc"]
  | "pd" | "dashpunctuation" => some ["Pd"]
  | "pe" | "closepunctuation" => some ["Pe"]
  | "pf" | "finalpunctuation" => some ["Pf"]
  | "pi" | "initialpunctuation" => some ["Pi"]
  | "po" | "otherpunctuation" => some ["Po"]
  | "ps" | "openpunctuation" => some ["Ps"]
  | "s" | "symbol" => some ["Sc", "Sk", "Sm", "So"]
  | "sc" | "currencysymbol" => some ["Sc"]
  | "sk" | "modifiersymbol" => some ["Sk"]
  | "sm" | "mathsymbol" => some ["Sm"]
  | "so" | "othersymbol" => some ["So"]
  | "z" | "separator" => some ["Zl", "Zp", "Zs"]
  | "zl" | "lineseparator" => some ["Zl"]
  | "zp" | "paragraphseparator" => some ["Zp"]
  | "zs" | "spaceseparator" => some ["Zs"]
  | _ => none

/-- The set of a category, or of one of the groups beside the categories. -/
def ofCategoryName? (name : String) : Option CharSet :=
  match name with
  | "any" => some .all
  | "assigned" => some (ofCategories ["Cn"]).complement
  | "ascii" => some (.range 0 0x7F)
  | _ => (categoryCodes? name).map ofCategories

def ofName? (name : List Char) : Option CharSet :=
  let name := looseName name
  (ofTrait? name).orElse fun _ =>
    (ofCategoryName? name).orElse fun _ => (scriptCode? name).map ofScript

def ofPropertyValue? (property value : List Char) : Option CharSet :=
  let value := looseName value
  match looseName property with
  | "gc" | "generalcategory" => ofCategoryName? value
  | "sc" | "script" => (scriptCode? value).map ofScript
  | "scx" | "scriptextensions" => (scriptCode? value).map inScript
  | "age" => ofAge? value
  | "gcb" | "graphemeclusterbreak" => clusterClass? value
  | "wb" | "wordbreak" => wordClass? value
  | "sb" | "sentencebreak" => sentenceClass? value
  | _ => none

end DocSchema.Character
