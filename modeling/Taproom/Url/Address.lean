import Taproom.Text.Cut
import Taproom.Text.Number
import Taproom.Text.Quoted

/-!
Numeric addresses of machines: four decimal numbers, or eight hexadecimal ones of which a row of
zeros may be left out.
-/

namespace Taproom.Url.Address

/-- Why a text is no address. `place` is where the trouble starts, if it has a place. -/
structure Fault where
  text : String
  reason : String
  place : String := ""
  deriving DecidableEq, Repr

namespace Fault

def message (f : Fault) : String :=
  s!"ParseAddr({quoted f.text}): {f.reason}" ++
    (if f.place = "" then "" else s!" (at {quoted f.place})")

end Fault

inductive Kind where
  | short
  | long
  deriving DecidableEq, Repr

/-- Reads four numbers below 256 with points between them. `before` is the character in front of
the rest, `value` the digits of a number so far, `points` how many points have passed. -/
def readShort (text : String) (before : Option Char) (value : List Char) (points : Nat) :
    List Char → Except Fault Unit
  | [] => if points < 3 then .error ⟨text, "IPv4 address too short", ""⟩ else .ok ()
  | c :: rest =>
    if Text.isDigit c then
      if value = ['0'] then .error ⟨text, "IPv4 field has octet with leading zero", ""⟩
      else
        let value := value ++ [c]
        if Text.digitsValue value > 255 then .error ⟨text, "IPv4 field has value >255", ""⟩
        else readShort text (some c) value points rest
    else if c = '.' then
      if before.isNone || rest.isEmpty || before = some '.' then
        .error ⟨text, "IPv4 field must have at least one digit", String.ofList (c :: rest)⟩
      else if points = 3 then .error ⟨text, "IPv4 address too long", ""⟩
      else readShort text (some c) [] (points + 1) rest
    else .error ⟨text, "unexpected character", String.ofList (c :: rest)⟩

def isHexDigit (c : Char) : Bool :=
  Text.isDigit c || ('a' ≤ c && c ≤ 'f') || ('A' ≤ c && c ≤ 'F')

/-- Reads numbers of up to four digits with colons between them. `parts` counts those that have
passed, `gap` tells whether zeros have been left out. The last two may be written as four decimal
numbers. -/
def readLong (fuel : Nat) (text : String) (parts : Nat) (gap : Bool) (s : List Char) :
    Except Fault Unit :=
  let bad (reason : String) (place : List Char) : Except Fault Unit :=
    .error ⟨text, reason, String.ofList place⟩
  let finish (parts : Nat) (gap : Bool) (s : List Char) : Except Fault Unit :=
    if !s.isEmpty then bad "trailing garbage after address" s
    else if parts < 8 then (if gap then .ok () else bad "address string too short" [])
    else if gap then bad "the :: must expand to at least one field of zeros" []
    else .ok ()
  match fuel with
  | 0 => finish parts gap s
  | fuel + 1 =>
    if parts ≥ 8 then finish parts gap s
    else
      let digits := s.takeWhile isHexDigit
      let rest := s.dropWhile isHexDigit
      if digits.length > 4 then bad "each group must have 4 or less digits" s
      else if digits.isEmpty then bad "each colon-separated field must have at least one digit" s
      else
        match rest with
        | [] => finish (parts + 1) gap []
        | '.' :: _ =>
          if !gap && parts ≠ 6 then
            bad "embedded IPv4 address must replace the final 2 fields of the address" s
          else if parts + 2 > 8 then
            bad "too many hex fields to fit an embedded IPv4 at the end of the address" s
          else
            match readShort text none [] 0 s with
            | .ok () => finish (parts + 2) gap []
            | .error f => .error f
        | ':' :: ':' :: more =>
          if gap then bad "multiple :: in address" (':' :: more)
          else if more.isEmpty then finish (parts + 1) true []
          else readLong fuel text (parts + 1) true more
        | [':'] => bad "colon must be followed by more characters" rest
        | ':' :: more => readLong fuel text (parts + 1) gap more
        | _ => bad "unexpected character, want colon" rest

def parse (text : String) : Except Fault Kind :=
  let s := text.toList
  match s.find? fun c => c = '.' || c = ':' || c = '%' with
  | some '.' => (readShort text none [] 0 s).map fun _ => .short
  | some ':' =>
    let (address, zone) := (Text.cut? ['%'] s).getD (s, ['-'])
    if zone.isEmpty then .error ⟨text, "zone must be a non-empty string", ""⟩
    else
      let read : Except Fault Unit := match address with
        | [':', ':'] => .ok ()
        | ':' :: ':' :: rest => readLong 9 text 0 true rest
        | rest => readLong 9 text 0 false rest
      read.map fun _ => .long
  | some _ => .error ⟨text, "missing IPv6 address", ""⟩
  | none => .error ⟨text, "unable to parse IP", ""⟩

end Taproom.Url.Address
