import Taproom.Text.Cut

/-!
Patterns for paths. In a part of a path a star stands for any characters, a question mark for one
and brackets for one of a set; two stars that are a part of their own stand for any number of parts.
Braces hold alternatives, which may span parts. A backslash takes the next character as it is.
-/

namespace Taproom.PathPattern

/-- What follows the set that was opened, should it be closed and hold something. -/
def afterSet? : List Char → Option (List Char)
  | [] => none
  | c :: rest =>
    let body := if c = '^' || c = '!' then rest else c :: rest
    if body.head? = some ']' then none else close? body
where
  close? : List Char → Option (List Char)
    | [] => none
    | ['\\'] => none
    | '\\' :: _ :: rest => close? rest
    | ']' :: rest => some rest
    | _ :: rest => close? rest

def isValid (fuel : Nat) (depth : Nat) (s : List Char) : Bool :=
  match fuel with
  | 0 => false
  | fuel + 1 =>
    match s with
    | [] => depth = 0
    | ['\\'] => false
    | '\\' :: _ :: rest => isValid fuel depth rest
    | '[' :: rest =>
      match afterSet? rest with
      | some rest => isValid fuel depth rest
      | none => false
    | '\x7b' :: rest => isValid fuel (depth + 1) rest
    | '\x7d' :: rest => if depth = 0 then false else isValid fuel (depth - 1) rest
    | _ :: rest => isValid fuel depth rest

/-- Looks for a character in a set. `last` is the character before, from which a range may start.
The result tells whether it is there, and what had not been looked at. -/
def inSet (fuel : Nat) (c : Char) (last : Option Char) (s : List Char) : Bool × List Char :=
  match fuel with
  | 0 => (false, s)
  | fuel + 1 =>
    let single (r : Char) (rest : List Char) : Bool × List Char :=
      let (r, rest) := if r = '\\' then (rest.headD '�', rest.tail) else (r, rest)
      if r = c then (true, rest) else inSet fuel c (some r) rest
    match s with
    | [] => (false, [])
    | ']' :: rest => (false, ']' :: rest)
    | '-' :: next :: rest =>
      match last with
      | some low =>
        if next = ']' then single '-' (next :: rest)
        else
          let (high, rest) := if next = '\\' then (rest.headD '�', rest.tail) else (next, rest)
          if low ≤ c && c ≤ high then (true, rest) else inSet fuel c none rest
      | none => single '-' (next :: rest)
    | r :: rest => single r rest

/-- Whether a set that was opened takes a character, and what follows the set. None when the set is
malformed. -/
def takes? (c : Char) (s : List Char) : Option (Bool × List Char) :=
  let (negated, body) := match s with
    | '^' :: rest => (true, rest)
    | '!' :: rest => (true, rest)
    | rest => (false, rest)
  if body.isEmpty || body.head? = some ']' then none
  else
    let (found, rest) := inSet (body.length + 1) c none body
    if found = negated then (if rest.isEmpty then none else some (false, rest))
    else (afterSet?.close? rest).map fun rest => (true, rest)

/-- Lets a star take nothing, or one character and go on; `after` tells of what it leaves. -/
def matchStar (after : List Char → Option Bool) : List Char → Option Bool
  | [] => after []
  | c :: s =>
    match after (c :: s) with
    | some false => matchStar after s
    | answer => answer

/-- Whether a name is an instance of one part of a pattern. None when the part is malformed and that
had to be noticed. -/
def matches? (fuel : Nat) (p s : List Char) : Option Bool :=
  match fuel with
  | 0 => some false
  | fuel + 1 =>
    match p, s with
    | p, [] => some (p = [] || p = ['*'] || p = ['*', '*'])
    | [], _ :: _ => some false
    | '*' :: '*' :: p, s => matchStar (matches? fuel p) s
    | '*' :: p, s => matchStar (matches? fuel p) s
    | '?' :: p, _ :: s => matches? fuel p s
    | '[' :: p, c :: s =>
      match takes? c p with
      | some (true, p) => matches? fuel p s
      | some (false, _) => some false
      | none => none
    | '\x7b' :: _, _ => none
    | ['\\'], _ => none
    | '\\' :: q :: p, c :: s => if q = c then matches? fuel p s else some false
    | q :: p, c :: s => if q = c then matches? fuel p s else some false

def holds? (p s : List Char) : Option Bool := matches? (p.length + 1) p s

def firstMeta? (place : Nat) : List Char → Option Nat
  | [] => none
  | '\\' :: _ :: rest => firstMeta? (place + 2) rest
  | c :: rest =>
    if c = '*' || c = '?' || c = '[' || c = '\x7b' then some place else firstMeta? (place + 1) rest

def literal : List Char → List Char
  | '\\' :: c :: rest =>
    if ['*', '?', '[', ']', '\x7b', '\x7d'].contains c then c :: literal rest
    else '\\' :: literal (c :: rest)
  | c :: rest => c :: literal rest
  | [] => []

def lastPlace? (among : Char → Bool) (s : List Char) : Option Nat :=
  go none false 0 s
where
  go (found : Option Nat) (escaped : Bool) (place : Nat) : List Char → Option Nat
    | [] => found
    | c :: rest =>
      go (if among c && !escaped then some place else found) (c = '\\') (place + 1) rest

/-- The place of the brace that a closing brace behind `s` belongs to. `s` is given backwards, with
the number of its characters, and `depth` braces are to be opened. -/
def opening? (depth : Nat) (count : Nat) : List Char → Option Nat
  | [] => none
  | c :: rest =>
    let escaped := rest.head? = some '\\'
    if c = '\x7d' && !escaped then opening? (depth + 1) (count - 1) rest
    else if c = '\x7b' && !escaped then
      if depth = 1 then some (count - 1) else opening? (depth - 1) (count - 1) rest
    else opening? depth (count - 1) rest

def alternatives (depth : Nat) (current : List Char) : List Char → List (List Char)
  | [] => if current.isEmpty then [] else [current.reverse]
  | '\\' :: c :: rest => alternatives depth (c :: '\\' :: current) rest
  | c :: rest =>
    if c = ',' && depth = 0 then current.reverse :: alternatives depth [] rest
    else
      let depth := if c = '\x7b' then depth + 1 else if c = '\x7d' then depth - 1 else depth
      alternatives depth (c :: current) rest

end Taproom.PathPattern
