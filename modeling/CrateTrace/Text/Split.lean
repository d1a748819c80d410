/-!
# Cutting text at a separator
-/

namespace CrateTrace.Text

/-- What stands before and after the first occurrence of a separator. -/
def splitAt? (separator : List Char) (input : List Char) : Option (List Char × List Char) :=
  if separator.isPrefixOf input then some ([], input.drop separator.length)
  else
    match input with
    | [] => none
    | c :: rest => (splitAt? separator rest).map fun (before, after) => (c :: before, after)

/-- What stands before and after the last occurrence of a separator. -/
def splitAtLast? (separator : List Char) (input : List Char) : Option (List Char × List Char) :=
  (splitAt? separator.reverse input.reverse).map fun (after, before) =>
    (before.reverse, after.reverse)

def strings (parts : List Char × List Char) : String × String :=
  (String.ofList parts.1, String.ofList parts.2)

def splitFirst? (separator text : String) : Option (String × String) :=
  (splitAt? separator.toList text.toList).map strings

def splitLast? (separator text : String) : Option (String × String) :=
  (splitAtLast? separator.toList text.toList).map strings

end CrateTrace.Text
