import CrateTrace.Name.Declaration
import CrateTrace.Name.Lexer
import CrateTrace.Parsed

/-!
# The grammar of symbol names

The parser reads lexemes only and points at a fault by the number of lexemes that are left there;
where these stand in the input is looked up at the end. So blanks between lexemes can change the
place of an error, but neither its cause nor the declaration.
-/

namespace CrateTrace.Name

/-! ## Faults -/

/-- A stretch of the input, told by how many lexemes are left at its ends. -/
inductive Place where
  /-- The next lexeme, or the end of the input when none is left. -/
  | next (left : Nat)
  /-- From the next lexeme to the end of the input. -/
  | onward (left : Nat)
  /-- From the next lexeme to the one before which `upTo` are left. -/
  | between (left upTo : Nat)
deriving DecidableEq, Repr

structure Fault where
  cause : Cause
  place : Place
deriving DecidableEq, Repr

/-- What may be read at the front of `input`, or why not. -/
abbrev Reading (input : List Lexeme) (α : Type) := Except Fault (Parsed input α)

def fault {α : Type} (cause : Cause) (input : List Lexeme) : Except Fault α :=
  .error ⟨cause, .next input.length⟩

/-! ## Small rules -/

/-- One uppercase letter followed by digits only. -/
def isPlaceholder (word : String) : Bool :=
  match word.toList with
  | [] => false
  | c :: rest => c.isUpper && rest.all Char.isDigit

/-- The word before these lexemes is the start of a longer path. -/
def continuesPath : List Lexeme → Bool
  | .pathSeparator :: _ | .less :: _ => true
  | _ => false

/-- Whether a reference is read, and what stands behind its `&`. -/
def splitRef (input : List Lexeme) : Bool × Rest input :=
  match input with
  | .ampersand :: rest => (true, ⟨rest, by simp⟩)
  | input => (false, ⟨input, Nat.le_refl _⟩)

def lifetime? (input : List Lexeme) : Option (Parsed input Char) :=
  match input with
  | .lifetime name :: rest => some ⟨name, rest, by simp⟩
  | _ => none

/-- The placeholder that `input` starts with. A path that merely begins like one is none. -/
def placeholder? (input : List Lexeme) : Option (Parsed input String) :=
  match input with
  | .word word :: rest =>
    if isPlaceholder word && !continuesPath rest then some ⟨word, rest, by simp⟩ else none
  | _ => none

/-- The `>` of a `<` before which `opened` lexemes were left. -/
def close (opened : Nat) (input : List Lexeme) : Reading input Unit :=
  match input with
  | .greater :: rest => .ok ⟨(), rest, by simp⟩
  | [] => .error ⟨.unclosed, .onward opened⟩
  | input => fault .expectedClose input

/-- A type read before `for` names the trait. -/
def traitPath (type : TypeRef) (input : List Lexeme) : Except Fault (List Segment) :=
  if type.byRef then fault .referenceTrait input else .ok type.path

/-- Generic arguments after `::` belong to the segment before it, if that one has none yet. -/
def attach (generics : Generics) (before : List Segment) : Option (List Segment) :=
  match before.getLast? with
  | some ⟨kind, none⟩ => some (before.dropLast ++ [⟨kind, some generics⟩])
  | _ => none

def Generics.addLifetime (generics : Generics) (lifetime : Lifetime) : Generics :=
  { generics with lifetimes := generics.lifetimes ++ [lifetime] }

def Generics.addType (generics : Generics) (type : TypeArgument) : Generics :=
  { generics with types := generics.types ++ [type] }

/-! ## The rules -/

mutual

/-- One segment, put behind the segments that stand `before` it in the same path. -/
def segment (before : List Segment) (input : List Lexeme) : Reading input (List Segment) :=
  match input with
  | .word word :: .less :: inner =>
    match generics (inner.length + 1) ⟨[], []⟩ inner with
    | .error e => .error e
    | .ok args => .ok (args.widen (fun g => before ++ [⟨.name word, some g⟩]) (by simp; omega))
  | .word word :: rest => .ok ⟨before ++ [⟨.name word, none⟩], rest, by simp⟩
  | .closure index :: rest => .ok ⟨before ++ [⟨.closure index, none⟩], rest, by simp⟩
  | .less :: .implWord :: inner =>
    match implKind (inner.length + 2) inner with
    | .error e => .error e
    | .ok kind => .ok (kind.widen (fun k => before ++ [⟨k, none⟩]) (by simp; omega))
  | .less :: inner =>
    match generics (inner.length + 1) ⟨[], []⟩ inner with
    | .error e => .error e
    | .ok args =>
      match attach args.value before with
      | some segments => .ok (args.widen (fun _ => segments) (by simp))
      | none => .error ⟨.strayGenerics, .between (inner.length + 1) args.rest.length⟩
  | .asWord :: _ | .forWord :: _ | .implWord :: _ => fault .keyword input
  | _ => fault .expectedSegment input
termination_by 5 * input.length + 0

/-- What stands after `<impl`, up to the `>` of this `<`, before which `opened` were left. -/
def implKind (opened : Nat) (input : List Lexeme) : Reading input SegmentKind :=
  match typeRef input with
  | .error e => .error e
  | .ok ⟨first, rest, h⟩ =>
    match rest, h with
    | .forWord :: rest, h =>
      match traitPath first rest with
      | .error e => .error e
      | .ok implementedTrait =>
        match typeRef rest with
        | .error e => .error e
        | .ok ⟨type, last, h'⟩ =>
          match close opened last with
          | .error e => .error e
          | .ok closed =>
            .ok (closed.widen (fun _ => .traitImpl ⟨implementedTrait, type⟩) (by simp at h; omega))
    | rest, h =>
      match close opened rest with
      | .error e => .error e
      | .ok closed => .ok (closed.widen (fun _ => .inherentImpl first) (by omega))
termination_by 5 * input.length + 4
decreasing_by all_goals (try simp only [List.length_cons] at *); omega

/-- The segments after `before`, each behind a `::`. -/
def moreSegments (before : List Segment) (input : List Lexeme) :
    Except Fault (List Segment × Rest input) :=
  match input with
  | .pathSeparator :: rest =>
    match segment before rest with
    | .error e => .error e
    | .ok ⟨segments, rest', _⟩ =>
      match moreSegments segments rest' with
      | .error e => .error e
      | .ok (all, ⟨last, _⟩) => .ok (all, ⟨last, by simp; omega⟩)
  | input => .ok (before, ⟨input, Nat.le_refl _⟩)
termination_by 5 * input.length + 1

def path (input : List Lexeme) : Reading input (List Segment) :=
  match segment [] input with
  | .error e => .error e
  | .ok ⟨first, rest, _⟩ =>
    match moreSegments first rest with
    | .error e => .error e
    | .ok (segments, ⟨last, _⟩) => .ok ⟨segments, last, by omega⟩
termination_by 5 * input.length + 2

def typeRef (input : List Lexeme) : Reading input TypeRef :=
  match splitRef input with
  | (byRef, ⟨body, h⟩) =>
    match path body with
    | .error e => .error e
    | .ok p => .ok (p.widen (⟨byRef, ·⟩) h)
termination_by 5 * input.length + 3

/-- One generic argument, put behind the arguments already read. -/
def genericArgument (args : Generics) (input : List Lexeme) : Reading input Generics :=
  match splitRef input with
  | (byRef, ⟨body, h⟩) =>
    match lifetime? body with
    | some lifetime => .ok (lifetime.widen (fun name => args.addLifetime ⟨name, byRef⟩) h)
    | none =>
      match placeholder? body with
      | some word => .ok (word.widen (fun word => args.addType (.param word byRef)) h)
      | none =>
        match path body with
        | .error e => .error e
        | .ok path => .ok (path.widen (fun path => args.addType (.concrete ⟨byRef, path⟩)) h)
termination_by 5 * input.length + 3

/-- The arguments after a `<` before which `opened` lexemes were left, up to its `>`. -/
def generics (opened : Nat) (args : Generics) (input : List Lexeme) : Reading input Generics :=
  match input with
  | [] => .error ⟨.unclosed, .onward opened⟩
  | first :: others =>
    match genericArgument args (first :: others) with
    | .error e => .error e
    | .ok ⟨args', rest, h⟩ =>
      match rest, h with
      | .comma :: rest, h =>
        match generics opened args' rest with
        | .error e => .error e
        | .ok all => .ok (all.widen id (by simp at *; omega))
      | rest, h =>
        match close opened rest with
        | .error e => .error e
        | .ok closed => .ok (closed.widen (fun _ => args') (by omega))
termination_by 5 * input.length + 4
decreasing_by all_goals (simp only [List.length_cons] at *; omega)

end

/-- A trait clause or a type in angle brackets, after the `<` before which `opened` were left. -/
def qualifiedHead (opened : Nat) (input : List Lexeme) : Reading input Declaration :=
  match typeRef input with
  | .error e => .error e
  | .ok ⟨first, rest, h⟩ =>
    match rest, h with
    | .asWord :: rest, h =>
      match path rest with
      | .error e => .error e
      | .ok ⟨implementedTrait, last, h'⟩ =>
        match close opened last with
        | .error e => .error e
        | .ok closed =>
          .ok (closed.widen (fun _ => ⟨[], some ⟨implementedTrait, first⟩⟩) (by simp at h; omega))
    | .forWord :: rest, h =>
      match traitPath first rest with
      | .error e => .error e
      | .ok implementedTrait =>
        match typeRef rest with
        | .error e => .error e
        | .ok ⟨type, last, h'⟩ =>
          match close opened last with
          | .error e => .error e
          | .ok closed =>
            .ok (closed.widen (fun _ => ⟨[], some ⟨implementedTrait, type⟩⟩) (by simp at h; omega))
    | rest, h =>
      if first.byRef then fault .referenceHead rest
      else
        match close opened rest with
        | .error e => .error e
        | .ok closed => .ok (closed.widen (fun _ => ⟨first.path, none⟩) (by omega))

/-- A declaration without clause that so far is one segment. -/
def plainHead (input : List Lexeme) : Reading input Declaration :=
  match segment [] input with
  | .error e => .error e
  | .ok segments => .ok (segments.map (⟨·, none⟩))

/-- What a declaration starts with: its segments so far and its trait clause. -/
def head (input : List Lexeme) : Reading input Declaration :=
  match input with
  | .less :: .implWord :: inner => plainHead (.less :: .implWord :: inner)
  | .less :: inner =>
    match qualifiedHead (inner.length + 1) inner with
    | .error e => .error e
    | .ok start => .ok (start.widen id (by simp))
  | input => plainHead input

/-- The declaration that takes up the whole input. -/
def declaration (input : List Lexeme) : Except Fault Declaration :=
  match head input with
  | .error e => .error e
  | .ok ⟨start, rest, _⟩ =>
    match moreSegments start.segments rest with
    | .error e => .error e
    | .ok (segments, ⟨last, _⟩) =>
      match last with
      | [] => .ok { start with segments }
      | last => .error ⟨.trailingInput, .onward last.length⟩

/-! ## Places in the input -/

def byteLength (input : List Char) : Nat := input.foldr (fun c n => c.utf8Size + n) 0

/-- The characters that start at or after byte `start` and before byte `stop`. -/
def slice (start stop : Nat) (input : List Char) : List Char :=
  match input with
  | [] => []
  | c :: rest =>
    if stop = 0 then []
    else if start = 0 then c :: slice 0 (stop - c.utf8Size) rest
    else slice (start - c.utf8Size) (stop - c.utf8Size) rest

/-- The byte range of a place in an input with these tokens. -/
def Place.range (input : List Char) (tokens : List Token) : Place → Nat × Nat
  | .next left =>
    match tokens[tokens.length - left]? with
    | some token => (token.start, token.stop)
    | none => (byteLength input, byteLength input)
  | .onward left =>
    match tokens[tokens.length - left]? with
    | some token => (token.start, byteLength input)
    | none => (byteLength input, byteLength input)
  | .between left upTo =>
    match tokens[tokens.length - left]?, tokens[tokens.length - upTo - 1]? with
    | some first, some last => (first.start, last.stop)
    | _, _ => (byteLength input, byteLength input)

def Fault.locate (input : List Char) (tokens : List Token) (f : Fault) : ParseError :=
  let (start, stop) := f.place.range input tokens
  ⟨f.cause, String.ofList (slice start stop input), start⟩

/-! ## Names -/

/-- Reads a demangled name. There is no partial result: a name is a declaration or is refused. -/
def parse (name : String) : Except ParseError Declaration :=
  match tokens name.toList with
  | .error e => .error e
  | .ok tokens =>
    match declaration (tokens.map (·.lexeme)) with
    | .error f => .error (f.locate name.toList tokens)
    | .ok d => .ok d

end CrateTrace.Name
