import Taproom.Text.Cut
import Taproom.Text.Number
import Taproom.Text.Quoted
import Taproom.Url.Address

/-!
Addresses of things on the network and on the disk.
-/

namespace Taproom

namespace Url

structure User where
  name : List Char
  password : Option (List Char) := none
  deriving DecidableEq, Repr

end Url

/-- The parts of an address. The path is decoded; `written` keeps it as it stood. -/
structure Url where
  scheme : String := ""
  rootless : String := ""
  user : Option Url.User := none
  host : String := ""
  path : String := ""
  written : String := ""
  query : String := ""
  asksNothing : Bool := false
  fragment : String := ""
  omitsHost : Bool := false
  deriving DecidableEq, Repr, Inhabited

namespace Url

inductive Problem where
  | controlCharacter
  | missingScheme
  | colonInSegment
  | badEscape (bytes : List UInt8)
  | badHostCharacter (c : Char)
  | badPort (text : String)
  | missingBracket
  | badAddress (f : Address.Fault)
  | shortAddress
  | badUser
  deriving DecidableEq, Repr

def Problem.message : Problem → String
  | controlCharacter => "net/url: invalid control character in URL"
  | missingScheme => "missing protocol scheme"
  | colonInSegment => "first path segment in URL cannot contain colon"
  | badEscape bytes => s!"invalid URL escape {quotedBytes bytes}"
  | badHostCharacter c => s!"invalid character {quoted (String.singleton c)} in host name"
  | badPort text => s!"invalid port {quoted text} after host"
  | missingBracket => "missing ']' in host"
  | badAddress f => s!"invalid host: {f.message}"
  | shortAddress => "invalid IP-literal"
  | badUser => "net/url: invalid userinfo"

structure Fault where
  text : String
  problem : Problem
  deriving DecidableEq, Repr

def Fault.message (f : Fault) : String := s!"parse {quoted f.text}: {f.problem.message}"

def isLetter (c : Char) : Bool := ('a' ≤ c && c ≤ 'z') || ('A' ≤ c && c ≤ 'Z')

def toLower (c : Char) : Char :=
  if 'A' ≤ c && c ≤ 'Z' then Char.ofNat (c.toNat + 32) else c

def splitScheme (s : List Char) : Except Problem (List Char × List Char) :=
  let name := s.takeWhile fun c => isLetter c || Text.isDigit c || c = '+' || c = '-' || c = '.'
  match name, s.drop name.length with
  | [], ':' :: _ => .error .missingScheme
  | c :: _, ':' :: rest => if isLetter c then .ok (name.map toLower, rest) else .ok ([], s)
  | _, _ => .ok ([], s)

def hexValue? (c : Char) : Option Nat :=
  if Text.isDigit c then some (c.toNat - 0x30)
  else if 'a' ≤ c && c ≤ 'f' then some (c.toNat - 0x61 + 10)
  else if 'A' ≤ c && c ≤ 'F' then some (c.toNat - 0x41 + 10)
  else none

def escapeHere (s : List Char) : List UInt8 := (Utf8.encode (s.take 3)).take 3

def decodeBytes : List Char → Except Problem (List UInt8)
  | [] => .ok []
  | '%' :: a :: b :: rest =>
    match hexValue? a, hexValue? b with
    | some x, some y => (decodeBytes rest).map fun bs => (16 * x + y).toUInt8 :: bs
    | _, _ => .error (.badEscape (escapeHere ['%', a, b]))
  | '%' :: rest => .error (.badEscape (escapeHere ('%' :: rest)))
  | c :: rest => (decodeBytes rest).map fun bs => Utf8.encode [c] ++ bs

def decode (s : List Char) : Except Problem String := (decodeBytes s).map Utf8.text

def isHostChar (c : Char) : Bool :=
  isLetter c || Text.isDigit c || "-_.~!$&'()*+,;=:[]<>\"".toList.contains c

def isPort : List Char → Bool
  | [] => true
  | ':' :: ds => ds.all Text.isDigit
  | _ => false

/-- Checks a part of a host. Escapes may only stand for percent signs and characters beyond ASCII;
in the name of a zone also for what may stand there as it is, and for a blank. -/
def checkHost (zone : Bool) : List Char → Except Problem Unit
  | [] => .ok ()
  | '%' :: a :: b :: rest =>
    match hexValue? a, hexValue? b with
    | some x, some y =>
      let code := 16 * x + y
      let fits :=
        if zone then code = 0x25 || code = 0x20 || (code < 0x80 && isHostChar (Char.ofNat code))
        else 8 ≤ x || code = 0x25
      if fits then checkHost zone rest else .error (.badEscape (escapeHere ['%', a, b]))
    | _, _ => .error (.badEscape (escapeHere ['%', a, b]))
  | '%' :: rest => .error (.badEscape (escapeHere ('%' :: rest)))
  | c :: rest =>
    if 0x80 ≤ c.toNat || isHostChar c then checkHost zone rest else .error (.badHostCharacter c)

def readHostPart (zone : Bool) (s : List Char) : Except Problem String := do
  checkHost zone s
  decode s

def readHost (s : List Char) : Except Problem String := do
  if s.tail.contains '[' then throw .shortAddress
  match s with
  | '[' :: inner =>
    match Text.cutLast? [']'] inner with
    | none => throw .missingBracket
    | some (name, port) =>
      if !isPort port then throw (.badPort (String.ofList port))
      let (address, zone) := match Text.cut? ['%', '2', '5'] name with
        | some (address, zone) => (address, ['%', '2', '5'] ++ zone)
        | none => (name, [])
      let name := (← readHostPart false address) ++ (← readHostPart true zone)
      match Address.parse name with
      | .error f => throw (.badAddress f)
      | .ok .short => throw .shortAddress
      | .ok .long => return "[" ++ name ++ "]" ++ String.ofList port
  | _ =>
    match Text.cutLast? [':'] s with
    | none => pure ()
    | some (_, port) => if !isPort (':' :: port) then throw (.badPort (String.ofList (':' :: port)))
    readHostPart false s

def isUserChar (c : Char) : Bool :=
  isLetter c || Text.isDigit c || "-._:~!$&'()*+,;=%@".toList.contains c

def readAuthority (s : List Char) : Except Problem (Option User × String) := do
  match Text.cutLast? ['@'] s with
  | none => return (none, ← readHost s)
  | some (user, host) =>
    let host ← readHost host
    if !user.all isUserChar then throw .badUser
    match Text.cut? [':'] user with
    | some (name, password) =>
      let _ ← decode name
      let _ ← decode password
      return (some ⟨name, some password⟩, host)
    | none =>
      let _ ← decode user
      return (some ⟨user, none⟩, host)

def readBody (s : List Char) : Except Problem Url := do
  if s.any fun c => c.toNat < 0x20 || c.toNat = 0x7f then throw .controlCharacter
  if s = ['*'] then return { path := "*", written := "*" }
  let (scheme, rest) ← splitScheme s
  let scheme := String.ofList scheme
  let asksNothing := rest.getLast? = some '?' && rest.count '?' = 1
  let (rest, query) := (Text.cut? ['?'] rest).getD (rest, [])
  let query := String.ofList query
  match rest with
  | '/' :: '/' :: authority =>
    if scheme = "" && authority.head? = some '/' then
      return { query, asksNothing, path := ← decode rest, written := String.ofList rest }
    let host := authority.takeWhile (· ≠ '/')
    let path := authority.dropWhile (· ≠ '/')
    let (user, host) ← readAuthority host
    return { scheme, user, host, query, asksNothing, path := ← decode path,
             written := String.ofList path }
  | '/' :: _ =>
    return { scheme, query, asksNothing, path := ← decode rest, written := String.ofList rest,
             omitsHost := scheme ≠ "" }
  | _ =>
    if scheme ≠ "" then return { scheme, query, asksNothing, rootless := String.ofList rest }
    if (rest.takeWhile (· ≠ '/')).contains ':' then throw .colonInSegment
    return { query, asksNothing, path := ← decode rest, written := String.ofList rest }

def parse (s : String) : Except Fault Url :=
  let (body, fragment) := (Text.cut? ['#'] s.toList).getD (s.toList, [])
  match readBody body with
  | .error p => .error ⟨String.ofList body, p⟩
  | .ok u =>
    match decodeBytes fragment with
    | .error p => .error ⟨s, p⟩
    | .ok _ => .ok { u with fragment := String.ofList fragment }

def isPathChar (c : Char) : Bool :=
  isLetter c || Text.isDigit c || "-_.~$&+,/:;=@".toList.contains c

def isFragmentChar (c : Char) : Bool := isPathChar c || "?!()*".toList.contains c

def encodeByte (stays : Char → Bool) (b : UInt8) : List Char :=
  let c := Char.ofNat b.toNat
  if b < 0x80 && stays c then [c]
  else
    let digit (n : Nat) : Char := "0123456789ABCDEF".toList.getD n '0'
    ['%', digit (b.toNat / 16), digit (b.toNat % 16)]

def encodePath (p : String) : String :=
  String.ofList (p.toUTF8.data.toList.flatMap (encodeByte isPathChar))

def encodeQuery (s : String) : String :=
  let stays (c : Char) : Bool := isLetter c || Text.isDigit c || "-_.~".toList.contains c
  String.ofList (s.toUTF8.data.toList.flatMap fun b => if b = 32 then ['+'] else encodeByte stays b)

def sent (stays : Char → Bool) (written : String) : String :=
  if written.toList.all fun c => stays c || "!$&'()*+,;=:@[]%".toList.contains c then written
  else
    match decodeBytes written.toList with
    | .ok bytes => String.ofList (bytes.flatMap (encodeByte stays))
    | .error _ => written

def encodedPath (u : Url) : String := if u.path = "*" then "*" else sent isPathChar u.written

def User.text (u : User) : String :=
  let stays (c : Char) : Bool := isLetter c || Text.isDigit c || "-_.~$&+,;=".toList.contains c
  let bytes := (decodeBytes u.name).toOption.getD []
  match u.password with
  | some _ => Utf8.text bytes ++ ":***@"
  | none => String.ofList (bytes.flatMap (encodeByte stays)) ++ "@"

def text (u : Url) : String :=
  let query := if u.query = "" && !u.asksNothing then "" else "?" ++ u.query
  let fragment := if u.fragment = "" then "" else "#" ++ sent isFragmentChar u.fragment
  let scheme := if u.scheme = "" then "" else u.scheme ++ ":"
  if u.rootless ≠ "" then scheme ++ u.rootless ++ query ++ fragment
  else
    let bare := u.host = "" && u.user.isNone
    let host :=
      if bare && (u.scheme = "" || u.omitsHost || u.path = "") then ""
      else "//" ++ (u.user.elim "" User.text) ++
        String.ofList (u.host.toUTF8.data.toList.flatMap (encodeByte isHostChar))
    let path := u.encodedPath
    let dot := if scheme = "" && host = "" && (path.toList.takeWhile (· ≠ '/')).contains ':'
      then "./" else ""
    scheme ++ host ++ dot ++ path ++ query ++ fragment

def withoutEmptyPort (u : Url) : Url :=
  match Text.cutLast? [':'] u.host.toList with
  | some (host, []) => { u with host := String.ofList host }
  | _ => u

end Url

end Taproom
