import Satoidc.Foundation.Text

/-! `urllib.parse.urlsplit` and `quote` as CPython 3.11.4 to 3.11.11 define them, over
lists of code points. Unicode normalization is a parameter. -/

namespace Foundation

def isAsciiDigit (c : Char) : Bool := '0' ≤ c && c ≤ '9'

def isAsciiAlpha (c : Char) : Bool := ('a' ≤ c && c ≤ 'z') || ('A' ≤ c && c ≤ 'Z')

def isHexDigit (c : Char) : Bool := isAsciiDigit c || ('a' ≤ c && c ≤ 'f') || ('A' ≤ c && c ≤ 'F')

/-- `ipaddress.IPv4Address._parse_octet` accepts the text. -/
def isOctet (text : List Char) : Bool :=
  text ≠ [] && text.all isAsciiDigit && text.length ≤ 3 && (text = ['0'] || text.head? ≠ some '0') &&
    text.foldl (fun value c => value * 10 + (c.toNat - '0'.toNat)) 0 ≤ 255

def isIPv4 (text : List Char) : Bool :=
  let octets := text.splitOn '.'
  octets.length = 4 && octets.all isOctet

/-- `ipaddress.IPv6Address._parse_hextet` accepts the text. -/
def isHextet (text : List Char) : Bool := text ≠ [] && text.all isHexDigit && text.length ≤ 4

/-- The parts on one side of a `::`. An empty outermost part is accepted only next to it. -/
def hextetsBeside (outermost : Option (List Char)) (parts : List (List Char)) : Option Nat :=
  if outermost = some [] then if parts.length = 1 then some 0 else none
  else if parts.all isHextet then some parts.length else none

/-- `ipaddress.IPv6Address._ip_int_from_string`, once an IPv4 suffix is two hextets. -/
def isIPv6Parts (parts : List (List Char)) : Bool :=
  3 ≤ parts.length && parts.length ≤ 9 &&
    match (parts.tail.dropLast).findIdx? (· = []) with
    | none => parts.length = 8 && parts.all isHextet
    | some index =>
      let high := parts.take (index + 1)
      let low := parts.drop (index + 2)
      low.dropLast.all (· ≠ []) &&
        match hextetsBeside parts.head? high, hextetsBeside parts.getLast? low with
        | some above, some below => above + below ≤ 7
        | _, _ => false

/-- `ipaddress.IPv6Address` accepts the text. -/
def isIPv6 (text : List Char) : Bool :=
  let address := text.takeWhile (· ≠ '%')
  let scope := text.drop address.length
  let parts := address.splitOn ':'
  let suffix := parts.getLast?.getD []
  (scope = [] || (scope.length ≥ 2 && '%' ∉ scope.tail)) && 3 ≤ parts.length &&
    if '.' ∈ suffix then isIPv4 suffix && isIPv6Parts (parts.dropLast ++ [['0'], ['0']]) else isIPv6Parts parts

/-- `_check_bracketed_host` accepts the host: an IPvFuture or an IPv6 address. -/
def isBracketedHost (host : List Char) : Bool :=
  match host with
  | 'v' :: rest =>
    let version := rest.takeWhile isHexDigit
    match rest.drop version.length with
    | '.' :: address => version ≠ [] && address ≠ [] && '\n' ∉ address
    | _ => false
  | _ => isIPv6 host

structure SplitResult where
  scheme : String
  netloc : String
  path : String
  query : String
  fragment : String
  deriving DecidableEq, Repr

def isTabOrNewline (c : Char) : Bool := c = '\t' || c = '\r' || c = '\n'

def dropTabsAndNewlines (url : List Char) : List Char := url.filter fun c => !isTabOrNewline c

theorem dropTabsAndNewlines_cons {c : Char} (kept : isTabOrNewline c = false) (rest : List Char) :
    dropTabsAndNewlines (c :: rest) = c :: dropTabsAndNewlines rest := by
  simp [dropTabsAndNewlines, kept]

def isC0ControlOrSpace (c : Char) : Bool := c.toNat ≤ 0x20

def isSchemeChar (c : Char) : Bool :=
  isAsciiAlpha c || isAsciiDigit c || c = '+' || c = '-' || c = '.'

/-- The scheme in front of the first colon, lowercased, and what follows it. -/
def splitScheme (url : List Char) : List Char × List Char :=
  let before := url.takeWhile (· ≠ ':')
  match before, url.drop before.length with
  | first :: _, ':' :: after =>
    if isAsciiAlpha first && before.all isSchemeChar then (before.map Char.toLower, after) else ([], url)
  | _, _ => ([], url)

def endsNetloc (c : Char) : Bool := c = '/' || c = '?' || c = '#'

/-- `_splitnetloc`, applied behind the two slashes. -/
def splitNetloc : List Char → List Char × List Char
  | '/' :: '/' :: rest =>
    let netloc := rest.takeWhile fun c => !endsNetloc c
    (netloc, rest.drop netloc.length)
  | url => ([], url)

/-- The bracket checks of `urlsplit` on a netloc, as CPython 3.11.4 to 3.11.11 make them.
Later releases also look at what stands around the brackets. -/
def bracketsValid (netloc : List Char) : Bool :=
  if '[' ∈ netloc then
    ']' ∈ netloc && isBracketedHost (((netloc.dropWhile (· ≠ '[')).tail).takeWhile (· ≠ ']'))
  else ']' ∉ netloc

/-- `_checknetloc` accepts the netloc: normalizing it brings in no delimiter. -/
def netlocValid (nfkc : String → String) (netloc : List Char) : Bool :=
  netloc.all (fun c => c.toNat < 128) ||
    let plain := String.ofList (netloc.filter fun c => !(c = '@' || c = ':' || c = '#' || c = '?'))
    nfkc plain = plain || (nfkc plain).toList.all fun c => !(c = '/' || c = '?' || c = '#' || c = '@' || c = ':')

/-- `url.split(mark, 1)`, with an empty second part if there is no mark. -/
def cutAt (mark : Char) (url : List Char) : List Char × List Char :=
  let before := url.takeWhile (· ≠ mark)
  (before, (url.drop before.length).tail)

/-- `urlsplit`, or nothing where it raises a `ValueError`. -/
def urlsplit (nfkc : String → String) (url : String) : Option SplitResult :=
  let cleaned := dropTabsAndNewlines (url.toList.dropWhile isC0ControlOrSpace)
  let (scheme, rest) := splitScheme cleaned
  let (netloc, rest) := splitNetloc rest
  if bracketsValid netloc && netlocValid nfkc netloc then
    let (rest, fragment) := cutAt '#' rest
    let (path, query) := cutAt '?' rest
    some
      { scheme := String.ofList scheme, netloc := String.ofList netloc, path := String.ofList path
        query := String.ofList query, fragment := String.ofList fragment }
  else none

/-- The characters that `quote` never escapes. -/
def isUnreserved (c : Char) : Bool :=
  isAsciiAlpha c || isAsciiDigit c || c = '_' || c = '.' || c = '-' || c = '~'

def hexDigitUpper (n : Nat) : Char := Char.ofNat (if n < 10 then 0x30 + n else 0x37 + n)

def percentEncodeByte (byte : UInt8) : List Char :=
  ['%', hexDigitUpper (byte.toNat / 16), hexDigitUpper (byte.toNat % 16)]

/-- `quote(text, safe='')`. -/
def quote (text : String) : String :=
  String.ofList (text.toList.flatMap fun c =>
    if isUnreserved c then [c] else (String.utf8EncodeChar c).flatMap percentEncodeByte)

end Foundation
