import Taproom.Unicode.Category
import Taproom.Unicode.Fold
import Taproom.Unicode.Script

/-!
Sets of characters, as normal ranges, and the named classes that patterns use.
-/

namespace Taproom.Regex

/-- A set of characters. Its ranges ascend, with a gap between any two of them. -/
abbrev CharSet := Unicode.Ranges

namespace CharSet

def holds (s : CharSet) (n : Nat) : Bool := Unicode.Ranges.has s n

def ofRanges (l : List (Nat × Nat)) : CharSet := Unicode.Ranges.normal l

def range (lo hi : Nat) : CharSet := ofRanges [(lo, hi)]

def single (c : Char) : CharSet := [(c.toNat, c.toNat)]

def anything : CharSet := [(0, Unicode.Ranges.top)]

def compl (s : CharSet) : CharSet := Unicode.Ranges.complement s

def union (a b : CharSet) : CharSet := ofRanges (a ++ b)

def newline : CharSet := single '\n'
def notNewline : CharSet := compl newline
def digit : CharSet := [(0x30, 0x39)]
def lower : CharSet := [(0x61, 0x7a)]
def upper : CharSet := [(0x41, 0x5a)]
def alpha : CharSet := upper ++ lower
def alnum : CharSet := digit ++ alpha
def word : CharSet := [(0x30, 0x39), (0x41, 0x5a), (0x5f, 0x5f), (0x61, 0x7a)]
def space : CharSet := [(0x09, 0x0a), (0x0c, 0x0d), (0x20, 0x20)]

def posix : List (String × CharSet) :=
  [("alnum", alnum), ("alpha", alpha), ("ascii", [(0, 0x7f)]), ("blank", [(0x09, 0x09), (0x20, 0x20)]),
   ("cntrl", [(0, 0x1f), (0x7f, 0x7f)]), ("digit", digit), ("graph", [(0x21, 0x7e)]),
   ("lower", lower), ("print", [(0x20, 0x7e)]),
   ("punct", [(0x21, 0x2f), (0x3a, 0x40), (0x5b, 0x60), (0x7b, 0x7e)]),
   ("space", [(0x09, 0x0d), (0x20, 0x20)]), ("upper", upper), ("word", word),
   ("xdigit", [(0x30, 0x39), (0x41, 0x46), (0x61, 0x66)])]

/-- A name as it is looked up: the case of letters, blanks, dashes and underscores do not count. -/
def bareName (name : String) : List Char :=
  (name.toList.filter fun c => c ≠ '_' ∧ c ≠ '-' ∧ c ≠ ' ').map Char.toLower

/-- The names that the Unicode standard knows, as they are looked up. A category goes before a
script, and a script before the long name of a category. -/
def names : List (List Char × CharSet) :=
  let categories := Unicode.allCategories.map fun (name, set) => (bareName name, set)
  let scripts := Unicode.scriptTable.map fun (name, text) => (bareName name, Unicode.Ranges.ofText text)
  let long := Unicode.categoryNames.map fun (name, short) =>
    (bareName name, (Unicode.category? short).getD [])
  [("any".toList, anything), ("ascii".toList, [(0, 0x7f)]),
   ("assigned".toList, compl ((Unicode.category? "Cn").getD []))] ++ categories ++ scripts ++ long

def ofName? (name : String) : Option CharSet := names.lookup (bareName name)

def fold (folded : Bool) (s : CharSet) : CharSet := if folded then Unicode.closeCase s else s

def ofCode (folded : Bool) (n : Nat) : CharSet :=
  if folded then ofRanges ((Unicode.caseClass n).map fun m => (m, m)) else [(n, n)]

end CharSet

end Taproom.Regex
