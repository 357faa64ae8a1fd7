import Kurtar.PercentEncoding

/-!
# Paths and queries of requests

The client fills the placeholders of a path template with percent-encoded
parameters, and writes a query as the pairs of a form. The server takes the
path apart again at its route, after the path segments of one or two dots have
been resolved, and reads the pairs back.
-/

namespace Kurtar.PathUtils

open PercentEncoding

section Paths

/-- A path parameter; numbers are whole. -/
inductive PathParam where
  | string (s : String)
  | number (n : ℤ)
  deriving DecidableEq

/-- `String(value)` -/
def PathParam.text : PathParam → String
  | .string s => s
  | .number n => toString n

/-- The characters that `encodeURIComponent` leaves alone. -/
def unreserved (c : Char) : Bool :=
  c.isAlphanum || decide (c ∈ ['-', '_', '.', '!', '~', '*', '\'', '(', ')'])

def encodeURIComponent (text : String) : List Char := encode unreserved text.toList

/-- What stands for a placeholder. -/
def substitute (template : String) (params : String → Option PathParam) (key : String) :
    Except String (List Char) :=
  match params key with
  | none => .error s!"Missing required path parameter \"{key}\" for \"{template}\"."
  | some value => .ok (encodeURIComponent value.text)

/-- `replace` with the pattern `\{([^}]+)\}`: with the characters since an
opening brace, if there is one. -/
def replace (value : String → Except String (List Char)) :
    Option (List Char) → List Char → Except String (List Char)
  | none, [] => .ok []
  | some key, [] => .ok ('{' :: key)
  | none, c :: rest =>
    if c = '{' then replace value (some []) rest else (replace value none rest).map (c :: ·)
  | some key, c :: rest =>
    if c = '}' then
      if key = [] then (replace value none rest).map ('{' :: '}' :: ·)
      else
        match value (String.ofList key) with
        | .error e => .error e
        | .ok text => (replace value none rest).map (text ++ ·)
    else replace value (some (key ++ [c])) rest

def buildPath (template : String) (params : Option (String → Option PathParam)) :
    Except String (List Char) :=
  match params with
  | none => .ok template.toList
  | some params => replace (substitute template params) none template.toList

end Paths

section Queries

inductive QueryItem where
  | string (s : String)
  | number (n : ℤ)
  | boolean (b : Bool)
  deriving DecidableEq

/-- `String(value)` -/
def QueryItem.text : QueryItem → String
  | .string s => s
  | .number n => toString n
  | .boolean b => if b then "true" else "false"

inductive QueryValue where
  | undefined
  | null
  | item (i : QueryItem)
  /-- An item that is undefined or null is none. -/
  | array (items : List (Option QueryItem))
  deriving DecidableEq

/-- What is appended for an entry. -/
def appended (key : String) : QueryValue → List (String × String)
  | .undefined | .null => []
  | .item i => [(key, i.text)]
  | .array items => (items.filterMap id).map fun i => (key, i.text)

/-- The characters that a form leaves alone; a space becomes a plus. -/
def formKept (c : Char) : Bool := c.isAlphanum || decide (c ∈ ['*', '-', '.', '_', ' '])

def formEncode (text : String) : List Char :=
  (encode formKept text.toList).map fun c => if c = ' ' then '+' else c

/-- `URLSearchParams.toString` -/
def serialize (pairs : List (String × String)) : List Char :=
  ['&'].intercalate (pairs.map fun pair => formEncode pair.1 ++ '=' :: formEncode pair.2)

def queryPairs (query : List (String × QueryValue)) : List (String × String) :=
  query.flatMap fun entry => appended entry.1 entry.2

def buildQuery (query : Option (List (String × QueryValue))) : List Char :=
  match query with
  | none => []
  | some query =>
    let serialized := serialize (queryPairs query)
    if serialized.length > 0 then '?' :: serialized else []

end Queries

section Server

/-- A segment of a route: a fixed text or the place of a parameter. -/
inductive RouteSegment where
  | literal (text : String)
  | parameter (name : String)
  deriving DecidableEq

/-- The ways a dot is written in a path. -/
def dots : List (List Char) := [['.'], ['%', '2', 'e'], ['%', '2', 'E']]

def isSingleDot (segment : List Char) : Bool := decide (segment ∈ dots)

def isDoubleDot (segment : List Char) : Bool :=
  decide (segment ∈ dots.flatMap fun a => dots.map fun b => a ++ b)

/-- The segments that are left when those of dots are resolved. -/
def resolve : List (List Char) → List (List Char) → List (List Char)
  | kept, [] => kept
  | kept, segment :: rest =>
    let kept :=
      if isDoubleDot segment then kept.dropLast ++ if rest = [] then [[]] else []
      else if isSingleDot segment then kept ++ if rest = [] then [[]] else []
      else kept ++ [segment]
    resolve kept rest

/-- The parameters that a route reads from the segments of a path; an empty
segment is no parameter. -/
def readSegments : List RouteSegment → List (List Char) → Option (List (String × List Char))
  | [], [] => some []
  | .literal text :: route, segment :: rest =>
    if segment = text.toList then readSegments route rest else none
  | .parameter name :: route, segment :: rest =>
    if segment = [] then none
    else
      match decode segment with
      | none => none
      | some value => (readSegments route rest).map ((name, value) :: ·)
  | _, _ => none

/-- What the server's route reads from a path. -/
def receive (route : List RouteSegment) : List Char → Option (List (String × List Char))
  | '/' :: rest => readSegments route (resolve [] (rest.splitOn '/'))
  | _ => none

/-- A value of a form read back. -/
def formDecode (text : List Char) : Option (List Char) :=
  decode (text.map fun c => if c = '+' then ' ' else c)

/-- A pair, cut at its first equals sign. -/
def parsePair (text : List Char) : Option (List Char × List Char) :=
  match formDecode (text.takeWhile (· ≠ '=')),
    formDecode ((text.dropWhile (· ≠ '=')).drop 1) with
  | some name, some value => some (name, value)
  | _, _ => none

/-- The pairs of a query; the empty ones are skipped. -/
def parseQuery (text : List Char) : Option (List (List Char × List Char)) :=
  ((text.splitOn '&').filter (· ≠ [])).mapM parsePair

end Server

end Kurtar.PathUtils
