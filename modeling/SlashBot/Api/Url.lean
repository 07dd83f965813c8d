import SlashBot.Fault
import SlashBot.Number.Integer
import SlashBot.Text.Percent

/-!
# URLs

The service is addressed by a base URL, to whose path the paths of the requests
are appended. A URL is kept in the form in which it is sent: without dot segments
and fragment, and with everything percent-encoded that may not stand as it is.
-/

namespace SlashBot

open SlashBot.Number
open SlashBot.Text

/-- A URL as it is sent. Scheme and authority are empty in a relative one. -/
structure Url where
  scheme : List Char
  authority : List Char
  path : List Char
  query : Option (List Char)
  deriving DecidableEq, Repr

namespace Url

/-- The most characters that a URL or one of its parts may have. -/
def maxLength : Nat := 65536

/-- A control character of ASCII, which makes a URL invalid. -/
def isControl (c : Char) : Bool :=
  c.toNat < 32 || c.toNat == 127

/-- A visible character of ASCII that is none of the excluded ones. -/
def isVisibleExcept (excluded : List Nat) (c : Char) : Bool :=
  33 ≤ c.toNat && c.toNat ≤ 126 && !excluded.contains c.toNat

/-- The characters that stand for themselves in a path: all visible ones but quotes,
number sign, angle brackets, question mark, grave accent and braces. -/
def isPathChar (c : Char) : Bool :=
  isVisibleExcept [0x22, 0x23, 0x3c, 0x3e, 0x3f, 0x60, 0x7b, 0x7d] c

/-- The characters that stand for themselves in a query: all visible ones but quotes,
number sign and angle brackets. -/
def isQueryChar (c : Char) : Bool :=
  isVisibleExcept [0x22, 0x23, 0x3c, 0x3e] c

/-- Goes through the segments of a path with those kept so far in reverse. A point
stands for nothing, and two points take the last segment away, except for the empty
one in front of the first slash. -/
def settleSegments (kept : List (List Char)) : (segments : List (List Char)) → List (List Char)
  | [] => kept.reverse
  | segment :: rest =>
      if segment == ['.'] then settleSegments kept rest
      else if segment == ['.', '.'] then
        settleSegments (if kept == [[]] then kept else kept.tail) rest
      else settleSegments (segment :: kept) rest

/-- The path without dot segments. -/
def withoutDots (path : List Char) : List Char :=
  ['/'].intercalate (settleSegments [] (splitWhere (· == '/') path))

/-- A relative path must not begin like a scheme or like an authority. -/
def isMisplaced (path : List Char) : Bool :=
  path.head? == some ':' || ['/', '/'].isPrefixOf path

/-- The URL with a given path and query, brought to the form in which it is sent. -/
def make (scheme authority path : List Char) (query : Option (List Char)) : Except Fault Url :=
  if scheme.isEmpty && authority.isEmpty && isMisplaced path then .error .invalidUrl
  else
    .ok
      { scheme := scheme
        authority := authority
        path := percentEncode isPathChar (withoutDots path)
        query := query.map (percentEncode isQueryChar) }

/-- Takes a scheme with its colon off the front of a text, if it has one. -/
def takeScheme (text : List Char) : List Char × List Char :=
  let (letters, rest) := text.span fun c =>
    isAsciiAlphanumeric c || c == '+' || c == '.' || c == '-'
  match rest with
  | ':' :: rest =>
      if (letters.head?.map Char.isAlpha).getD true then (letters, rest) else ([], text)
  | _ => ([], text)

/-- Takes an authority with the two slashes before it off the front of a text, if it
has one. -/
def takeAuthority : (text : List Char) → List Char × List Char
  | '/' :: '/' :: rest => rest.span fun c => !(c == '/' || c == '?' || c == '#')
  | text => ([], text)

/-- The port that a scheme implies. -/
def impliedPort? (scheme : String) : Option Int :=
  match scheme with
  | "http" | "ws" => some 80
  | "https" | "wss" => some 443
  | "ftp" => some 21
  | _ => none

/-- The host of an authority and the text after the colon that follows it. The host
may be an address in brackets, which has colons of its own. -/
def splitHost (authority : List Char) : List Char × List Char :=
  let (inBrackets, afterBrackets) :=
    match authority with
    | '[' :: _ =>
        let after := (authority.reverse.takeWhile (· != ']')).reverse
        (authority.take (authority.length - after.length), after)
    | _ => ([], authority)
  let (host, port) := afterBrackets.span (· != ':')
  (inBrackets ++ host, port.drop 1)

/-- The authority as it is sent: without the name of a user, in lower case, and with
its port only where the scheme does not imply it. -/
def settleAuthority (scheme authority : List Char) : Except Fault (List Char) :=
  let afterUser := (authority.reverse.takeWhile (· != '@')).reverse
  let (host, port) := splitHost afterUser
  let host := host.map Char.toLower
  if port.isEmpty then .ok host
  else
    match readInteger? 10 port with
    | none => .error .invalidUrl
    | some number =>
        if impliedPort? (String.ofList scheme) == some number then .ok host
        else .ok (host ++ ':' :: (toString number).toList)

/-- Cuts a text at its first question mark. -/
def splitQuery (text : List Char) : List Char × Option (List Char) :=
  match text.span (· != '?') with
  | (path, _ :: query) => (path, some query)
  | (path, []) => (path, none)

/-- The URL that a text denotes. Its fragment is dropped. -/
def ofText (text : List Char) : Except Fault Url := do
  if text.length > maxLength || text.any isControl then throw .invalidUrl
  let (scheme, afterScheme) := takeScheme text
  let (authority, afterAuthority) := takeAuthority afterScheme
  let (path, query) := splitQuery (afterAuthority.takeWhile (· != '#'))
  make (scheme.map Char.toLower) (← settleAuthority scheme authority) path query

/-- A URL that needs no base. -/
def isAbsolute (url : Url) : Bool :=
  !url.scheme.isEmpty && !url.authority.isEmpty

/-- Scheme and authority, as a text. -/
def origin (url : Url) : String :=
  String.ofList (url.scheme ++ "://".toList ++ url.authority)

/-- Path and query, as they are sent. An empty path is sent as a slash. -/
def target (url : Url) : List Char :=
  (if url.path.isEmpty then ['/'] else url.path) ++
    (match url.query with
    | some query => '?' :: query
    | none => [])

/-- The target of a base URL, ready for a path to be appended to it. -/
def front (base : Url) : List Char :=
  if base.target.getLast? == some '/' then base.target else base.target ++ ['/']

/-- The URL that stands relative to a base: its target is appended to that of the
base. -/
def join (base relative : Url) : Except Fault Url :=
  let (path, query) := splitQuery (base.front ++ relative.target.dropWhile (· == '/'))
  if path.length > maxLength || (query.getD []).length > maxLength then .error .invalidUrl
  else make base.scheme base.authority path query

/-- The URL itself if it is absolute, and otherwise the one it denotes relative to a
base. -/
def resolve (base url : Url) : Except Fault Url :=
  if url.isAbsolute then .ok url else base.join url

end Url

end SlashBot
