import CertRuns.Json.Token

/-!
# Writing JSON documents

* `Token.chars` : how each token is written. In strings the quote, the backslash and control
  characters are escaped, everything else stands for itself;
* `Piece` : a token, a line break with its indentation, or a blank;
* `pieces` : the pieces of a value with one member or item a line;
* `compact` : a value without blanks; `pretty` : a value indented by two blanks a level.
-/

namespace CertRuns

def Numeral.chars (n : Numeral) : List Char :=
  (if n.negative then ['-'] else []) ++ Decimal.chars n.whole ++
    (if n.fraction = [] then [] else '.' :: n.fraction.map Decimal.Digit.char) ++
    match n.exponent with
    | none => []
    | some e => 'e' :: (if e < 0 then ['-'] else []) ++ Decimal.chars e.natAbs

namespace Json

/-! ## Tokens -/

/-- The hexadecimal digit of a number below 16, in lower case. -/
def hexChar (n : Nat) : Char := if n < 10 then Char.ofNat (48 + n) else Char.ofNat (87 + n)

def escaped (c : Char) : List Char :=
  if c = '"' then ['\\', '"']
  else if c = '\\' then ['\\', '\\']
  else if c = '\x08' then ['\\', 'b']
  else if c = '\x0c' then ['\\', 'f']
  else if c = '\n' then ['\\', 'n']
  else if c = '\r' then ['\\', 'r']
  else if c = '\t' then ['\\', 't']
  else if c.toNat < 32 then
    ['\\', 'u', '0', '0', hexChar (c.toNat / 16), hexChar (c.toNat % 16)]
  else [c]

def quotedChars (s : List Char) : List Char := '"' :: s.flatMap escaped ++ ['"']

/-- How a token is written; a string without a text is written as half a surrogate pair. -/
def Token.chars : Token → List Char
  | .openArray => ['[']
  | .closeArray => [']']
  | .openObject => ['\x7b']
  | .closeObject => ['\x7d']
  | .comma => [',']
  | .colon => [':']
  | .null => ['n', 'u', 'l', 'l']
  | .bool true => ['t', 'r', 'u', 'e']
  | .bool false => ['f', 'a', 'l', 's', 'e']
  | .number n => n.chars
  | .string (some s) => quotedChars s.toList
  | .string none => ['"', '\\', 'u', 'd', '8', '0', '0', '"']

/-! ## Layout -/

/-- A piece of a laid-out document. -/
inductive Piece where
  | token (t : Token)
  | line (depth : Nat)
  | blank
  deriving DecidableEq, Repr

mutual

def pieces (depth : Nat) : Json → List Piece
  | .null => [.token .null]
  | .bool b => [.token (.bool b)]
  | .number n => [.token (.number n)]
  | .string s => [.token (.string s)]
  | .array [] => [.token .openArray, .token .closeArray]
  | .array (v :: vs) =>
    .token .openArray :: .line (depth + 1) :: pieces (depth + 1) v ++
      itemPieces (depth + 1) vs ++ [.line depth, .token .closeArray]
  | .object [] => [.token .openObject, .token .closeObject]
  | .object ((k, v) :: ms) =>
    .token .openObject :: .line (depth + 1) :: .token (.string k) :: .token .colon :: .blank ::
      pieces (depth + 1) v ++ memberPieces (depth + 1) ms ++
      [.line depth, .token .closeObject]

/-- The pieces of further items, each behind a comma. -/
def itemPieces (depth : Nat) : List Json → List Piece
  | [] => []
  | v :: vs => .token .comma :: .line depth :: pieces depth v ++ itemPieces depth vs

/-- The pieces of further members, each behind a comma. -/
def memberPieces (depth : Nat) : List (Option String × Json) → List Piece
  | [] => []
  | (k, v) :: ms =>
    .token .comma :: .line depth :: .token (.string k) :: .token .colon :: .blank ::
      pieces depth v ++ memberPieces depth ms

end

/-- How a piece is written where blanks are left out. -/
def Piece.compactChars : Piece → List Char
  | .token t => t.chars
  | _ => []

/-- How a piece is written where a level is indented by two blanks. -/
def Piece.prettyChars : Piece → List Char
  | .token t => t.chars
  | .line depth => '\n' :: List.replicate (2 * depth) ' '
  | .blank => [' ']

def compact (v : Json) : String := String.ofList ((pieces 0 v).flatMap Piece.compactChars)

def pretty (v : Json) : String := String.ofList ((pieces 0 v).flatMap Piece.prettyChars)

end Json

end CertRuns
