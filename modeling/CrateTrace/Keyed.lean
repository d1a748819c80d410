/-!
# Sorted lists of keyed values

A table is a list of pairs in the order of their keys, each key once.
-/

namespace CrateTrace.Keyed

variable {κ α : Type}

/-- Puts a value under a key, in place of one that is there. -/
def insert (before : κ → κ → Bool) (key : κ) (value : α) : List (κ × α) → List (κ × α)
  | [] => [(key, value)]
  | (k, v) :: rest =>
    if before key k then (key, value) :: (k, v) :: rest
    else if before k key then (k, v) :: insert before key value rest
    else (key, value) :: rest

/-- The table of a list of pairs. Of two values under one key the later stays. -/
def ofPairs (before : κ → κ → Bool) (pairs : List (κ × α)) : List (κ × α) :=
  pairs.foldl (fun table (k, v) => insert before k v table) []

/-- Puts a value under a key only if the key is not there yet. -/
def insertNew [BEq κ] (before : κ → κ → Bool) (key : κ) (value : α) (table : List (κ × α)) :
    List (κ × α) :=
  if table.any (·.1 == key) then table else insert before key value table

def find? [BEq κ] (key : κ) (table : List (κ × α)) : Option α :=
  (table.find? (·.1 == key)).map (·.2)

/-- Text is ordered by its bytes in UTF-8, that is by its characters. -/
def textBefore (a b : String) : Bool := a < b

def wordBefore (a b : UInt64) : Bool := a < b

def natBefore (a b : Nat) : Bool := a < b

end CrateTrace.Keyed
