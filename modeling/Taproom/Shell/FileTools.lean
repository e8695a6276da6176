import Taproom.Shell.Session

/-!
Programs that work on files and directories.
-/

namespace Taproom.Shell

open Session Archive

/-- Runs a program's work on each operand; the status is the last one that is not zero. -/
def onEach (operands : List String) (work : String → StateM Session Nat) : StateM Session Nat :=
  operands.foldlM (fun status p => return (max status (← work p))) 0

def settle {α : Type} (r : Except Fault α) (complaint : String) : StateM Session Nat :=
  match r with
  | .ok _ => return 0
  | .error f => refuse (complaint ++ ": " ++ reasonOf f)

def quote (s : String) : String := "'" ++ s ++ "'"

def mkdir : Tool := fun args => do
  let (flags, operands) := options args
  onEach operands fun p => do
    let r ← act (if flags.contains 'p' then Act.makeDirAll p 0o777 else Act.makeDir p 0o777)
    settle r s!"mkdir: cannot create directory {quote p}"

def rmdir : Tool := fun args => do
  onEach (options args).2 fun p => do
    if (← entryAt? false p).isSome && !(← isDir p) then
      refuse s!"rmdir: failed to remove {quote p}: Not a directory"
    else settle (← act (Act.remove p)) s!"rmdir: failed to remove {quote p}"

def rm : Tool := fun args => do
  let (flags, operands) := options args
  let recursive := flags.contains 'r' || flags.contains 'R'
  onEach operands fun p => do
    match ← entryAt? false p with
    | none =>
      if flags.contains 'f' then return 0
      else refuse s!"rm: cannot remove {quote p}: No such file or directory"
    | some (.dir _) =>
      if recursive then settle (← act (Act.removeAll p)) s!"rm: cannot remove {quote p}"
      else refuse s!"rm: cannot remove {quote p}: Is a directory"
    | some _ => settle (← act (Act.remove p)) s!"rm: cannot remove {quote p}"

def touch : Tool := fun args =>
  onEach (options args).2 fun p => do
    if (← entryAt? true p).isSome then return 0
    settle (← act (Act.putFile p .empty 0o666)) s!"touch: cannot touch {quote p}"

/-- Where an operand goes: into a directory under its own name, or to the target itself. -/
def placeFor (target source : String) : StateM Session String := do
  if ← isDir target then return Act.inside target (Path.base source) else return target

def copyFile (source target : String) : StateM Session Nat := do
  match ← act (Act.contentOf source) with
  | .error f => refuse s!"cp: cannot open {quote source} for reading: {reasonOf f}"
  | .ok content =>
    let mode ← modeAt source
    if endsWith target "/" then refuse s!"cp: cannot create regular file {quote target}: Not a directory"
    else settle (← act (Act.putFile target content mode)) s!"cp: cannot create regular file {quote target}"

def copyDir (source target : String) : StateM Session Nat := do
  let mode ← modeAt source
  let d := (← get).disk
  let made ← act (if d.isDirectory target then pure () else Act.makeDir target mode)
  match made, d.find true source with
  | .error f, _ => refuse s!"cp: cannot create directory {quote target}: {reasonOf f}"
  | .ok (), .error _ => return 1
  | .ok (), .ok (place, _) =>
    (d.below place).foldlM (fun status (rel, e) => do
      let name := "/".intercalate rel
      let goal := Act.inside target name
      match e with
      | .dir m =>
        let _ ← act (Act.makeDir goal m)
        return status
      | .link t =>
        let _ ← act (Act.symlink t goal)
        return status
      | .file _ => return (max status (← copyFile (Act.inside source name) goal))) 0

def cp : Tool := fun args => do
  let (flags, operands) := options args
  let recursive := flags.any fun c => c = 'r' || c = 'R' || c = 'a'
  match operands.reverse with
  | [] => refuse "cp: missing file operand\nTry 'cp --help' for more information."
  | [p] => refuse s!"cp: missing destination file operand after {quote p}\nTry 'cp --help' for more information."
  | target :: sources =>
    if sources.length > 1 && !(← isDir target) then
      refuse s!"cp: target {quote target}: No such file or directory"
    else
      onEach sources.reverse fun source => do
        match ← entryAt? (!recursive) source with
        | none => refuse s!"cp: cannot stat {quote source}: No such file or directory"
        | some (.dir _) =>
          if recursive then copyDir source (← placeFor target source)
          else refuse s!"cp: -r not specified; omitting directory {quote source}"
        | some (.link t) =>
          let goal ← placeFor target source
          settle (← act (Act.symlink t goal)) s!"cp: cannot create symbolic link {quote goal}"
        | some (.file _) => copyFile source (← placeFor target source)

def mv : Tool := fun args => do
  match (options args).2.reverse with
  | [] => refuse "mv: missing file operand\nTry 'mv --help' for more information."
  | [p] => refuse s!"mv: missing destination file operand after {quote p}\nTry 'mv --help' for more information."
  | target :: sources =>
    onEach sources.reverse fun source => do
      if (← entryAt? false source).isNone then
        refuse s!"mv: cannot stat {quote source}: No such file or directory"
      else
        let goal ← placeFor target source
        settle (← act (Act.rename source goal)) s!"mv: cannot move {quote source} to {quote goal}"

def ln : Tool := fun args => do
  let (flags, operands) := options args
  match operands.reverse with
  | [] => refuse "ln: missing file operand\nTry 'ln --help' for more information."
  | [p] => link flags p "."
  | target :: sources => onEach sources.reverse fun source => link flags source target
where
  link (flags : List Char) (source target : String) : StateM Session Nat := do
    let goal ← placeFor target source
    if flags.contains 'f' then
      let _ ← act (Act.remove goal)
    if flags.contains 's' then
      settle (← act (Act.symlink source goal)) s!"ln: failed to create symbolic link {quote goal}"
    else settle (← act (Act.hardLink source goal)) s!"ln: failed to create hard link {quote goal}"

def permissionBits (letters : List Char) (old : Nat) : Nat :=
  letters.foldl (fun bits c =>
    bits ||| (match c with
      | 'r' => 4
      | 'w' => 2
      | 'x' => 1
      | 'X' => if old &&& 0o111 ≠ 0 || old ≥ 0o40000 then 1 else 0
      | _ => 0)) 0

def changeMode (change : List Char) (old : Nat) : Option Nat :=
  let (who, rest) := change.span fun c => "ugoa".toList.contains c
  match rest with
  | op :: letters =>
    let bits := permissionBits letters old
    let all := who.isEmpty || who.contains 'a'
    let spread (c : Char) (shift : Nat) : Nat := if all || who.contains c then bits <<< shift else 0
    let wanted := spread 'u' 6 ||| spread 'g' 3 ||| spread 'o' 0
    let wanted := if who.isEmpty then Disk.masked wanted else wanted
    let scope := (if all || who.contains 'u' then 0o700 else 0) |||
      (if all || who.contains 'g' then 0o070 else 0) ||| (if all || who.contains 'o' then 0o007 else 0)
    match op with
    | '+' => some (old ||| wanted)
    | '-' => some (old &&& (0o7777 ^^^ wanted))
    | '=' => some ((old &&& (0o7777 ^^^ scope)) ||| wanted)
    | _ => none
  | [] => none

def octal (s : List Char) : Nat := s.foldl (fun n c => 8 * n + (c.toNat - 48)) 0

def isOctalDigit (c : Char) : Bool := '0' ≤ c && c ≤ '7'

def newMode (text : String) (old : Nat) : Option Nat :=
  let s := text.toList
  if !s.isEmpty && s.all isOctalDigit then some (octal s)
  else (Text.splitAt ',' s).foldlM (fun m c => changeMode c m) old

def chmod : Tool := fun args => do
  let operands := args.filter fun a => a ≠ "-R" && a ≠ "-v" && a ≠ "-f"
  match operands with
  | [] => refuse "chmod: missing operand\nTry 'chmod --help' for more information."
  | [m] => refuse s!"chmod: missing operand after {quote m}\nTry 'chmod --help' for more information."
  | m :: paths =>
    onEach paths fun p => do
      if (← entryAt? true p).isNone then refuse s!"chmod: cannot access {quote p}: No such file or directory"
      else
        match newMode m (← modeAt p) with
        | none => refuse s!"chmod: invalid mode: {quote m}\nTry 'chmod --help' for more information."
        | some mode => settle (← act (Act.chmod p mode)) s!"chmod: changing permissions of {quote p}"

def listed (flags : List Char) (p : String) : StateM Session (List String) := do
  match ← act (Act.listDir p) with
  | .error _ => return []
  | .ok entries =>
    let names := sortNames (entries.map (·.1))
    if flags.contains 'a' then return sortNames ("." :: ".." :: names)
    else if flags.contains 'A' then return names
    else return names.filter fun n => !startsWith n "."

def sayLines (lines : List String) : StateM Session Unit :=
  say (String.join (lines.map (· ++ "\n")))

def ls : Tool := fun args => do
  let (flags, operands) := options args
  let operands := if operands.isEmpty then ["."] else sortNames operands
  let present ← operands.filterM fun p => return (← entryAt? false p).isSome
  let missing := operands.filter fun p => !present.contains p
  for p in missing do
    complain s!"ls: cannot access {quote p}: No such file or directory"
  let dirs ← if flags.contains 'd' then pure [] else present.filterM fun p => isDir p
  let files := present.filter fun p => !dirs.contains p
  sayLines files
  let mut first := files.isEmpty
  for p in dirs do
    if operands.length > 1 then
      say ((if first then "" else "\n") ++ p ++ ":\n")
    first := false
    sayLines (← listed flags p)
  return if missing.isEmpty then 0 else 2

def install : Tool := fun args => go args [] 0o755 false false
where
  go : List String → List String → Nat → Bool → Bool → StateM Session Nat
    | "-d" :: rest, ps, mode, _, leading => go rest ps mode true leading
    | "-D" :: rest, ps, mode, dirs, _ => go rest ps mode dirs true
    | "-c" :: rest, ps, mode, dirs, leading => go rest ps mode dirs leading
    | "-m" :: m :: rest, ps, _, dirs, leading => go rest ps ((newMode m 0).getD 0o755) dirs leading
    | p :: rest, ps, mode, dirs, leading =>
      if startsWith p "-m" then go rest ps ((newMode (trimPrefix p "-m") 0).getD 0o755) dirs leading
      else go rest (p :: ps) mode dirs leading
    | [], ps, mode, true, _ =>
      onEach ps.reverse fun p => do
        settle (← act (Act.makeDirAll p mode)) s!"install: cannot create directory {quote p}"
    | [], target :: sources, mode, false, leading =>
      onEach sources.reverse fun source => do
        if leading then
          let _ ← act (Act.makeDirAll (Path.dir target) 0o755)
        match ← act (Act.contentOf source) with
        | .error f => refuse s!"install: cannot stat {quote source}: {reasonOf f}"
        | .ok content =>
          let goal ← placeFor target source
          let _ ← act (Act.remove goal)
          let r ← act (do Act.putFile goal content mode; Act.chmod goal mode)
          settle r s!"install: cannot create regular file {quote goal}"
    | [], [], _, _, _ => refuse "install: missing file operand\nTry 'install --help' for more information."

def readlink : Tool := fun args =>
  onEach (options args).2 fun p => do
    match ← entryAt? false p with
    | some (.link t) =>
      say (t ++ "\n")
      return 0
    | _ => return 1

end Taproom.Shell
