import ApiTypes.Web.HostName
import ApiTypes.Web.Ip

/-!
Addresses on the web, and what can be wrong with one before anything is fetched.
-/

namespace ApiTypes.Web

open Text

inductive AddressFault where
  /-- It does not follow the rules of an address. -/
  | invalid
  /-- Its host has the form of a name in ASCII, but writes none. -/
  | unreadable
  deriving DecidableEq, Repr

def authority (address : List Char) : List Char :=
  ((address.dropWhile (· != '/')).drop 2).takeWhile fun c => c != '/' && c != '?' && c != '#'

/-- What follows the last at sign, or the whole if there is none. -/
def afterUser (cs : List Char) : List Char :=
  (cs.reverse.takeWhile (· != '@')).reverse

/-- The host of an authority in brackets, and what follows it. -/
def bracketed? : List Char → Option (List Char × List Char)
  | '[' :: cs =>
    match cs.reverse.span (· != ']') with
    | (after, _ :: host) => some (host.reverse, after.reverse)
    | (_, []) => none
  | _ => none

/-- What is wrong with a host that is not in brackets. There may be none at all. -/
def hostFault? (host : List Char) : Option AddressFault :=
  if host.isEmpty then none
  else if looksLikeIp4 host then if isIp4 host then none else some .invalid
  else if host.all Punycode.isBasic then
    if labelMark.isPrefixOf (lower host) && !isReadable (lower host) then some .unreadable else none
  else if isHostName (lower host) then none
  else some .invalid

def bracketedFault? (host : List Char) : Option AddressFault :=
  if !isZonedIp6 host then some .invalid
  else if host.all Punycode.isBasic then none
  else some .unreadable

/-- Whether what follows a host, less a colon, is a port or nothing. -/
def endsInPort (cs : List Char) : Bool :=
  let port := if cs.head? = some ':' then cs.drop 1 else cs
  port.isEmpty || isInteger port

def authorityFault? (authority : List Char) : Option AddressFault :=
  let cs := afterUser authority
  let (fault, rest) :=
    match bracketed? cs with
    | some (host, rest) => (bracketedFault? host, rest)
    | none => (hostFault? (cs.takeWhile (· != ':')), cs.dropWhile (· != ':'))
  if endsInPort rest then fault else some .invalid

def longestAddress : Nat := 65536

def isAsciiControl (c : Char) : Bool :=
  c < ' ' || c == '\x7f'

def addressFault? (address : String) : Option AddressFault :=
  let cs := address.toList
  if longestAddress < cs.length || cs.any isAsciiControl then some .invalid
  else authorityFault? (authority cs)

end ApiTypes.Web
