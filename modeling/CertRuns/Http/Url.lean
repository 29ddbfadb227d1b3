import CertRuns.Number.Decimal

/-!
# Addresses of HTTP requests

An address is split into its parts and its path is normalised: a backslash counts as a slash, the
segments for the same and for the parent folder are carried out, and characters that may not stand
in a path are percent-encoded. Percent signs stay as they are.

* `Url`, `Url.parse?` : an address and its parts;
* `isSame`, `isParent`, `normalise` : the special segments of a path;
* `encodePath`, `encodeQuery` : percent-encoding;
* `Url.target` : what a request asks its server for.
-/

namespace CertRuns

structure Url where
  /-- Is the connection encrypted? -/
  secure : Bool
  /-- Host and port. -/
  authority : String
  /-- The encoded segments of the path. -/
  path : List String
  query : Option String
  deriving DecidableEq, Repr

namespace Url

/-! ## Percent-encoding -/

def hexDigit (n : Nat) : Char := if n < 10 then Char.ofNat (48 + n) else Char.ofNat (55 + n)

def encodeByte (b : UInt8) : List Char :=
  ['%', hexDigit (b.toNat / 16), hexDigit (b.toNat % 16)]

/-- A character, percent-encoded if it belongs to a class or is not a printing ASCII character. -/
def encodeChar (encoded : List Char) (c : Char) : List Char :=
  if c.toNat < 33 ∨ 126 < c.toNat ∨ c ∈ encoded then
    (String.singleton c).toUTF8.data.toList.flatMap encodeByte
  else [c]

/-- The characters that may not stand in a path. -/
def pathClass : List Char := ['"', '#', '<', '>', '?', '\x60', '\x7b', '\x7d']

/-- The characters that may not stand in a query. -/
def queryClass : List Char := ['"', '#', '<', '>', '\'']

def encodePath (s : List Char) : String := String.ofList (s.flatMap (encodeChar pathClass))

def encodeQuery (s : List Char) : String := String.ofList (s.flatMap (encodeChar queryClass))

/-! ## Segments -/

def plainDots : List Char → List Char
  | '%' :: '2' :: 'e' :: r => '.' :: plainDots r
  | '%' :: '2' :: 'E' :: r => '.' :: plainDots r
  | c :: r => c :: plainDots r
  | [] => []

def isSame (s : List Char) : Bool := plainDots s == ['.']

def isParent (s : List Char) : Bool := plainDots s == ['.', '.']

/-- The segments of a path, cut at slashes and backslashes. -/
def segments : List Char → List (List Char)
  | [] => [[]]
  | c :: r =>
    if c = '/' ∨ c = '\\' then [] :: segments r
    else
      match segments r with
      | s :: ss => (c :: s) :: ss
      | [] => [[c]]

/-- Carry out the special segments, behind the segments so far, the last one first. -/
def normaliseFrom (before : List String) : List (List Char) → List String
  | [] => before.reverse
  | [s] =>
    if isParent s then ("" :: before.tail).reverse
    else if isSame s then ("" :: before).reverse
    else (encodePath s :: before).reverse
  | s :: ss =>
    if isParent s then normaliseFrom before.tail ss
    else if isSame s then normaliseFrom before ss
    else normaliseFrom (encodePath s :: before) ss

def normalise (path : List Char) : List String :=
  let body := match path with
    | '/' :: r => r
    | '\\' :: r => r
    | s => s
  normaliseFrom [] (segments body)

/-! ## Parts -/

/-- The text without blanks and control characters at both ends, and without tabs and line
breaks. -/
def clean (s : List Char) : List Char :=
  let isOuter (c : Char) : Bool := c.toNat ≤ 32
  let s := (s.dropWhile isOuter).reverse.dropWhile isOuter
  s.reverse.filter fun c => c != '\t' && c != '\n' && c != '\r'

def isForbidden (c : Char) : Bool :=
  c.toNat ≤ 32 || c.toNat == 127 || "#/<>?@\\^|%\"".toList.contains c

/-- The host and the port of an authority, if both are in order. -/
def authority? (s : List Char) : Option String :=
  let s := (s.reverse.takeWhile (· != '@')).reverse
  let (host, port) := match s with
    | '[' :: r => ('[' :: r.takeWhile (· != ']') ++ [']'], (r.dropWhile (· != ']')).drop 1)
    | _ => (s.takeWhile (· != ':'), s.dropWhile (· != ':'))
  if host = [] ∨ host.any isForbidden then none
  else
    match port with
    | [] => some (String.ofList host)
    | [':'] => some (String.ofList host)
    | ':' :: digits =>
      if ((Decimal.natural? digits).filter (· < 65536)).isSome then
        some (String.ofList (host ++ port))
      else none
    | _ => none

/-- What follows the scheme of an address, and whether the connection is encrypted. -/
def scheme? (s : List Char) : Option (Bool × List Char) :=
  let name := String.ofList ((s.takeWhile (· != ':')).map Char.toLower)
  let rest := (s.dropWhile (· != ':')).drop 1
  if name = "http" then some (false, rest) else if name = "https" then some (true, rest) else none

def parse? (s : String) : Option Url := do
  let (secure, r) ← scheme? (clean s.toList)
  let r := r.dropWhile fun c => c == '/' || c == '\\'
  let r := r.takeWhile (· != '#')
  let isEnd (c : Char) : Bool := c == '/' || c == '\\' || c == '?'
  let authority ← authority? (r.takeWhile fun c => !isEnd c)
  let r := r.dropWhile fun c => !isEnd c
  let path := normalise (r.takeWhile (· != '?'))
  let query := match r.dropWhile (· != '?') with
    | '?' :: q => some (encodeQuery q)
    | _ => none
  return { secure, authority, path, query }

def target (u : Url) : String :=
  "/" ++ "/".intercalate u.path ++ (u.query.map ("?" ++ ·)).getD ""

end Url

end CertRuns
