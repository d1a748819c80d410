import CrateTrace.Name.Declaration
import CrateTrace.Name.Lexer

/-!
# The canonical text of a declaration

A declaration is printed as lexemes with single blanks between some of them. Each printing function
puts its text in front of what follows.
-/

namespace CrateTrace.Name

inductive Piece where
  | lexeme (lexeme : Lexeme)
  | blank
deriving DecidableEq, Repr

def Lexeme.spelling : Lexeme → String
  | .pathSeparator => "::"
  | .less => "<"
  | .greater => ">"
  | .comma => ","
  | .ampersand => "&"
  | .asWord => "as"
  | .forWord => "for"
  | .implWord => "impl"
  | .lifetime name => "'" ++ String.singleton name
  | .word text => text
  | .closure none => "\x7b\x7bclosure\x7d\x7d"
  | .closure (some index) => "\x7bclosure#" ++ toString index.toNat ++ "\x7d"

def Piece.spelling : Piece → String
  | .lexeme l => l.spelling
  | .blank => " "

/-- The text of printed pieces. -/
def spell (pieces : List Piece) : String := String.join (pieces.map Piece.spelling)

/-! ## Printing -/

def printRef (byRef : Bool) (rest : List Piece) : List Piece :=
  if byRef then .lexeme .ampersand :: rest else rest

def Lifetime.print (lifetime : Lifetime) (rest : List Piece) : List Piece :=
  printRef lifetime.byRef (.lexeme (.lifetime lifetime.name) :: rest)

/-- Lifetimes behind other arguments. -/
def Lifetime.printMore (lifetimes : List Lifetime) (rest : List Piece) : List Piece :=
  lifetimes.foldr (fun l rest => .lexeme .comma :: .blank :: l.print rest) rest

mutual

def Segment.print : Segment → List Piece → List Piece
  | ⟨kind, generics⟩, rest => kind.print (Generics.printOption generics rest)

def SegmentKind.print : SegmentKind → List Piece → List Piece
  | .name text, rest => .lexeme (.word text) :: rest
  | .closure index, rest => .lexeme (.closure index) :: rest
  | .inherentImpl type, rest =>
    .lexeme .less :: .lexeme .implWord :: .blank :: type.print (.lexeme .greater :: rest)
  | .traitImpl ⟨implementedTrait, type⟩, rest =>
    .lexeme .less :: .lexeme .implWord :: .blank ::
      Segment.printPath implementedTrait
        (.blank :: .lexeme .forWord :: .blank :: type.print (.lexeme .greater :: rest))

def TypeRef.print : TypeRef → List Piece → List Piece
  | ⟨byRef, path⟩, rest => printRef byRef (Segment.printPath path rest)

def Generics.print : Generics → List Piece → List Piece
  | ⟨types, []⟩, rest =>
    .lexeme .less :: TypeArgument.printList types (.lexeme .greater :: rest)
  | ⟨types, first :: lifetimes⟩, rest =>
    .lexeme .less :: first.print (Lifetime.printMore lifetimes
      (TypeArgument.printMore types (.lexeme .greater :: rest)))

def Generics.printOption : Option Generics → List Piece → List Piece
  | none, rest => rest
  | some generics, rest => generics.print rest

def TypeArgument.print : TypeArgument → List Piece → List Piece
  | .param name byRef, rest => printRef byRef (.lexeme (.word name) :: rest)
  | .concrete type, rest => type.print rest

def TypeArgument.printList : List TypeArgument → List Piece → List Piece
  | [], rest => rest
  | first :: types, rest => first.print (TypeArgument.printMore types rest)

/-- Types behind other arguments. -/
def TypeArgument.printMore : List TypeArgument → List Piece → List Piece
  | [], rest => rest
  | type :: types, rest =>
    .lexeme .comma :: .blank :: type.print (TypeArgument.printMore types rest)

def Segment.printPath : List Segment → List Piece → List Piece
  | [], rest => rest
  | first :: path, rest => first.print (Segment.printMore path rest)

/-- Segments behind others of the same path. -/
def Segment.printMore : List Segment → List Piece → List Piece
  | [], rest => rest
  | segment :: path, rest =>
    .lexeme .pathSeparator :: segment.print (Segment.printMore path rest)

end

def Declaration.print (d : Declaration) : List Piece :=
  match d.traitClause with
  | none => Segment.printPath d.segments []
  | some ⟨implementedTrait, type⟩ =>
    .lexeme .less :: type.print (.blank :: .lexeme .asWord :: .blank ::
      Segment.printPath implementedTrait (.lexeme .greater :: Segment.printMore d.segments []))

/-- The canonical text. A trait clause is always written `<Type as Trait>`. -/
def Declaration.display (d : Declaration) : String := spell d.print

def TypeRef.display (t : TypeRef) : String := spell (t.print [])

end CrateTrace.Name
