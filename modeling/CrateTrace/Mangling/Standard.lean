import CrateTrace.Mangling
import CrateTrace.Mangling.Legacy
import CrateTrace.Mangling.Printer
import CrateTrace.Text.Split

/-!
# The demangler of the program

It reads both manglings. Types that are restricted by a pattern are not known to it.
-/

namespace CrateTrace.Mangling

/-! ## Suffixes -/

/-- A symbol without the mark that link-time optimisation puts on renamed symbols. -/
def withoutRenaming (symbol : List Char) : List Char :=
  match Text.splitAt? ".llvm.".toList symbol with
  | some (before, number) =>
    if number.all fun c => c.isDigit || ('A' ≤ c && c ≤ 'F') || c == '@' then before else symbol
  | none => symbol

/-- A suffix may be missing; else it is a dot and printable ASCII other than the blank. -/
def isSuffix (suffix : List Char) : Bool :=
  match suffix with
  | [] => true
  | c :: _ => c == '.' && suffix.all fun c => '!' ≤ c && c ≤ '~'

/-! ## Symbols -/

/-- What stands behind one of the marks. -/
def behind? (symbol : List Char) (marks : List String) : Option (List Char) :=
  marks.findSome? fun mark =>
    if mark.toList.isPrefixOf symbol then some (symbol.drop mark.length) else none

/-- The name of a symbol in either mangling, and its suffix. -/
def nameOf? (symbol : List Char) : Option (List Char × List Char) :=
  ((behind? symbol ["_ZN", "__ZN"]).bind Legacy.name?).or
    ((behind? symbol ["_R", "__R"]).bind name?)

/-- A suffix stays behind the name. -/
def standard : Demangler := fun symbol =>
  match nameOf? (withoutRenaming symbol.toList) with
  | some (name, suffix) => if isSuffix suffix then some (String.ofList (name ++ suffix)) else none
  | none => none

end CrateTrace.Mangling
