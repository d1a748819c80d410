import CrateTrace.Decimal.Nearest

/-!
# YAML scalars

How a text is written so that it reads back as text. Without quotes if that is possible, else with
single quotes; with double quotes if a character needs an escape, and as a block if it has more than
one line.
-/

namespace CrateTrace.Yaml

open Decimal

/-! ## Texts that look like something else -/

/-- A zero in front of digits: a text, but one that other readers take for a number. -/
def isPadded (text : List Char) : Bool :=
  match withoutSign text with
  | '0' :: rest => (natural? rest).isSome
  | _ => false

def isNull (text : String) : Bool := ["", "~", "null", "Null", "NULL"].contains text

def isBool (text : String) : Bool :=
  ["true", "True", "TRUE", "false", "False", "FALSE"].contains text

def digitValue? (base : Nat) (c : Char) : Option Nat :=
  let value :=
    if c.isDigit then c.toNat - '0'.toNat
    else if 'a' ≤ c ∧ c ≤ 'z' then c.toNat - 'a'.toNat + 10
    else if 'A' ≤ c ∧ c ≤ 'Z' then c.toNat - 'A'.toNat + 10
    else base
  if value < base then some value else none

def number? (base : Nat) (digits : List Char) : Option Nat :=
  if digits.isEmpty then none
  else digits.foldlM (fun n d => (digitValue? base d).map (base * n + ·)) 0

/-- The magnitude of an integer with the mark of its base. -/
def marked? : List Char → Option Nat
  | '0' :: 'x' :: digits => number? 16 digits
  | '0' :: 'o' :: digits => number? 8 digits
  | '0' :: 'b' :: digits => number? 2 digits
  | digits => number? 10 digits

/-- Integers have 128 bits; a sign leaves 127 of them. -/
def isInteger (text : List Char) : Bool :=
  match text with
  | '-' :: digits => (marked? digits).any (· ≤ 1 <<< 127)
  | _ => (marked? (if text.head? = some '+' then text.drop 1 else text)).any (· < 1 <<< 128)

def isFloat (text : List Char) : Bool :=
  [".inf", ".Inf", ".INF"].contains
      (String.ofList (if text.head? = some '+' then text.drop 1 else text)) ||
    ["-.inf", "-.Inf", "-.INF", ".nan", ".NaN", ".NAN"].contains (String.ofList text) ||
    (Literal.ofText? (withoutSign text)).any Literal.isFinite

/-- Whether a text without quotes might be read as something else. -/
def isAmbiguous (text : String) : Bool :=
  isNull text || isBool text || isPadded text.toList || isInteger text.toList ||
    isFloat text.toList

/-! ## What a text allows -/

def isBreak (c : Char) : Bool :=
  c == '\n' || c == '\r' || c == '\u0085' || c == '\u2028' || c == '\u2029'

/-- Blanks, breaks and the end of the text. -/
def isGap : Option Char → Bool
  | none => true
  | some c => c == ' ' || c == '\t' || isBreak c

/-- Characters that need no escape. -/
def isPrintable (c : Char) : Bool :=
  let n := c.toNat
  n == 0x0a || (0x20 ≤ n && n ≤ 0x7e) || (0xa0 ≤ n && n != 0xfeff && n != 0xfffe && n != 0xffff)

/-- A character that would start something else at the beginning of a text. -/
def startsOther (c : Char) (next : Option Char) : Bool :=
  "#,[]{}&*!|>'\"%@`".toList.contains c || ("?:-".toList.contains c && isGap next)

/-- A character that would end a text, or start a comment in it. -/
def endsText (previous : Option Char) (c : Char) (next : Option Char) : Bool :=
  (c == ':' && isGap next) || (c == '#' && isGap previous)

def hasIndicator (previous : Option Char) : List Char → Bool
  | [] => false
  | c :: rest => endsText previous c rest.head? || hasIndicator (some c) rest

/-- A text that may not stand without quotes, because of how it starts or of what it contains. -/
def isMarked (text : List Char) : Bool :=
  match text with
  | [] => false
  | c :: rest =>
    startsOther c rest.head? || hasIndicator (some c) rest ||
      ['-', '-', '-'].isPrefixOf text || ['.', '.', '.'].isPrefixOf text

/-- Whether two characters of these kinds follow each other. -/
def hasPair (first second : Char → Bool) : List Char → Bool
  | a :: b :: rest => (first a && second b) || hasPair first second (b :: rest)
  | _ => false

def isSpace (c : Char) : Bool := c == ' '

/-- Every style but double quotes is lost if a character needs an escape or a line ends in a
space. -/
def needsEscape (text : List Char) : Bool :=
  text.any (fun c => !isPrintable c) || hasPair isSpace isBreak text

def allowsSingle (text : List Char) : Bool := !needsEscape text && !hasPair isBreak isSpace text

def allowsBlock (text : List Char) : Bool := !needsEscape text && !text.getLast?.any isSpace

def allowsPlain (text : List Char) : Bool :=
  allowsSingle text && !text.any isBreak && !text.head?.any isSpace && !text.getLast?.any isSpace &&
    !isMarked text

/-! ## Styles -/

/-- A text with `width` blanks in front of what follows a break. `fresh` tells whether the text itself
does. -/
def indented (width : Nat) : (fresh : Bool) → List Char → List Char
  | _, [] => []
  | fresh, c :: rest =>
    if isBreak c then c :: indented width true rest
    else (if fresh then List.replicate width ' ' else []) ++ c :: indented width false rest

def quoteTwice (text : List Char) : List Char :=
  text.flatMap fun c => if c = '\'' then ['\'', '\''] else [c]

/-- A text between single quotes. The closing one is indented too if it follows a break. -/
def singleQuoted (width : Nat) (text : List Char) : String :=
  String.ofList ('\'' :: indented width false (quoteTwice text ++ ['\'']))

/-- A number in upper-case hex digits of a given width. -/
def hexUpper (width n : Nat) : List Char :=
  let digits := (Nat.toDigits 16 n).map Char.toUpper
  List.replicate (width - digits.length) '0' ++ digits

def escape (c : Char) : List Char :=
  match c with
  | '\x00' => ['\\', '0']
  | '\x07' => ['\\', 'a']
  | '\x08' => ['\\', 'b']
  | '\t' => ['\\', 't']
  | '\n' => ['\\', 'n']
  | '\x0b' => ['\\', 'v']
  | '\x0c' => ['\\', 'f']
  | '\r' => ['\\', 'r']
  | '\x1b' => ['\\', 'e']
  | '"' => ['\\', '"']
  | '\\' => ['\\', '\\']
  | '\u0085' => ['\\', 'N']
  | '\u2028' => ['\\', 'L']
  | '\u2029' => ['\\', 'P']
  | c =>
    if isPrintable c then [c]
    else if c.toNat < 0x100 then '\\' :: 'x' :: hexUpper 2 c.toNat
    else '\\' :: 'u' :: hexUpper 4 c.toNat

def doubleQuoted (text : List Char) : String :=
  "\"" ++ String.ofList (text.flatMap escape) ++ "\""

/-- How a block says what becomes of the breaks at its end. -/
def chomping (text : List Char) : String :=
  match text.reverse with
  | a :: b :: _ => if !isBreak a then "-" else if isBreak b then "+" else ""
  | [a] => if isBreak a then "+" else "-"
  | [] => "-"

/-- The lines of a block, indented by `width` blanks, empty ones not. -/
def block (width : Nat) (text : List Char) : String :=
  let hint := if text.head?.any fun c => isSpace c || isBreak c then "2" else ""
  "|" ++ hint ++ chomping text ++ "\n" ++ String.ofList (indented width true text)

/-- A text as a scalar whose further lines are indented by `width` blanks. -/
def scalar (width : Nat) (text : String) : String :=
  let chars := text.toList
  if chars.contains '\n' then
    if allowsBlock chars then block width chars else doubleQuoted chars
  else if !isAmbiguous text && allowsPlain chars then text
  else if allowsSingle chars then singleQuoted width chars
  else doubleQuoted chars

end CrateTrace.Yaml
