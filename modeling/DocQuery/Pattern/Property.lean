import DocQuery.Pattern.CharSet
import DocQuery.Text.Alphanumeric
import DocQuery.Text.Blank
import DocQuery.Text.Category
import DocQuery.Text.Script

/-!
# Named properties of characters

The names that a pattern may give to a set of characters: general categories by their short or long
names, groups of categories, scripts, and a few properties. Case, blanks, hyphens and underscores in
a name do not count, nor does `is` in front of it.
-/

namespace DocQuery.CharSet

open Text

def letters : CharSet :=
  unions [categoryLu, categoryLl, categoryLt, categoryLm, categoryLo]

def casedLetters : CharSet := unions [categoryLu, categoryLl, categoryLt]

def marks : CharSet := unions [categoryMn, categoryMc, categoryMe]

def numbers : CharSet := unions [categoryNd, categoryNl, categoryNo]

def punctuation : CharSet :=
  unions [categoryPc, categoryPd, categoryPs, categoryPe, categoryPi, categoryPf, categoryPo]

def symbols : CharSet := unions [categorySm, categorySc, categorySk, categorySo]

def separators : CharSet := unions [categoryZs, categoryZl, categoryZp]

/-- The code points that are assigned to a character. -/
def assigned : CharSet :=
  unions [letters, marks, numbers, punctuation, symbols, separators, categoryCc, categoryCf,
    categoryCo]

/-- Everything that is no letter, mark, number, punctuation, symbol or separator. -/
def others : CharSet :=
  complement (unions [letters, marks, numbers, punctuation, symbols, separators])

/-- The alphabetic characters: of the letters and numbers those that are no digits. -/
def alphabetic : CharSet :=
  inter assigned (difference alphanumericRanges numeralRanges)

/-- The general categories and their groups by name. -/
def categories : List (List String × CharSet) := [
  (["l", "letter"], letters), (["lc", "casedletter"], casedLetters),
  (["lu", "uppercaseletter"], categoryLu), (["ll", "lowercaseletter"], categoryLl),
  (["lt", "titlecaseletter"], categoryLt), (["lm", "modifierletter"], categoryLm),
  (["lo", "otherletter"], categoryLo), (["m", "mark", "combiningmark"], marks),
  (["mn", "nonspacingmark"], categoryMn), (["mc", "spacingmark"], categoryMc),
  (["me", "enclosingmark"], categoryMe), (["n", "number"], numbers),
  (["nd", "decimalnumber", "digit"], categoryNd),
  (["nl", "letternumber"], categoryNl),
  (["no", "othernumber"], categoryNo), (["p", "punctuation", "punct"], punctuation),
  (["pc", "connectorpunctuation"], categoryPc),
  (["pd", "dashpunctuation"], categoryPd),
  (["ps", "openpunctuation"], categoryPs), (["pe", "closepunctuation"], categoryPe),
  (["pi", "initialpunctuation"], categoryPi),
  (["pf", "finalpunctuation"], categoryPf),
  (["po", "otherpunctuation"], categoryPo), (["s", "symbol"], symbols),
  (["sm", "mathsymbol"], categorySm), (["sc", "currencysymbol"], categorySc),
  (["sk", "modifiersymbol"], categorySk), (["so", "othersymbol"], categorySo),
  (["z", "separator"], separators), (["zs", "spaceseparator"], categoryZs),
  (["zl", "lineseparator"], categoryZl), (["zp", "paragraphseparator"], categoryZp),
  (["c", "other"], others), (["cc", "control", "cntrl"], categoryCc),
  (["cf", "format"], categoryCf), (["co", "privateuse"], categoryCo),
  (["cn", "unassigned"], complement assigned), (["assigned"], assigned), (["any"], all),
  (["ascii"], range 0 127)]

/-- The scripts by name. -/
def scripts : List (List String × CharSet) := [
  (["latin", "latn"], scriptLatin), (["greek", "grek"], scriptGreek),
  (["cyrillic", "cyrl"], scriptCyrillic), (["arabic", "arab"], scriptArabic),
  (["hebrew", "hebr"], scriptHebrew), (["han", "hani"], scriptHan),
  (["hiragana", "hira"], scriptHiragana), (["katakana", "kana"], scriptKatakana),
  (["hangul", "hang"], scriptHangul), (["thai"], scriptThai),
  (["devanagari", "deva"], scriptDevanagari), (["armenian", "armn"], scriptArmenian),
  (["georgian", "geor"], scriptGeorgian)]

/-- The other properties by name. -/
def properties : List (List String × CharSet) := [
  (["alphabetic", "alpha"], alphabetic), (["whitespace", "wspace", "space"], blankRanges)]

/-- What counts of a name. What is left of `isc` without its beginning would be another name. -/
def plainName (name : List Char) : String :=
  let plain (cs : List Char) : List Char :=
    (cs.filter fun c => c.toNat < 128 && c != ' ' && c != '_' && c != '-').map Char.toLower
  let cut := match name with
    | a :: b :: rest => if a.toLower = 'i' && b.toLower = 's' then some (plain rest) else none
    | _ => none
  match cut with
  | some ['c'] => "isc"
  | some rest => String.ofList rest
  | none => String.ofList (plain name)

def find? (names : List (List String × CharSet)) (name : String) : Option CharSet :=
  (names.find? fun entry => entry.1.contains name).map Prod.snd

/-- The set of a value of the property with a name. -/
def valued? (property value : List Char) : Option CharSet :=
  match plainName property with
  | "generalcategory" => find? categories (plainName value)
  | "gc" => find? categories (plainName value)
  | "script" => find? scripts (plainName value)
  | "sc" => find? scripts (plainName value)
  | _ => none

/-- A text cut at the first place where `mark` stands. -/
def splitAtMark (mark : List Char) : List Char → Option (List Char × List Char)
  | [] => none
  | c :: rest =>
    if mark.isPrefixOf (c :: rest) then some ([], (c :: rest).drop mark.length)
    else (splitAtMark mark rest).map fun (before, behind) => (c :: before, behind)

/-- The set that a name means, and whether all other characters are meant. In front of `!=`, `:` or
`=` stands the name of a property, and a value of it behind. -/
def named? (name : List Char) : Option (CharSet × Bool) :=
  match splitAtMark ['!', '='] name with
  | some (property, value) => (valued? property value).map fun chars => (chars, true)
  | none =>
    match (splitAtMark [':'] name).or (splitAtMark ['='] name) with
    | some (property, value) => (valued? property value).map fun chars => (chars, false)
    | none =>
      (find? (properties ++ categories ++ scripts) (plainName name)).map fun chars =>
        (chars, false)

end DocQuery.CharSet
