import Taproom.Formula.Basic
import Taproom.Plist
import Taproom.Text.Substitute

/-!
The descriptors of services: a property list for macOS, a unit file elsewhere.
-/

namespace Taproom.Service

def label (name : String) : String := "nbrew.mxcl." ++ name

def fileName (f : Formula) (p : Platform) : String :=
  if p.isMacOS then label f.name ++ ".plist" else "nbrew." ++ f.name ++ ".service"

def marks (keg : List Char) : List (List Char × List Char) :=
  [("$\x7bprefix\x7d".toList, keg),
   ("$\x7bbin\x7d".toList, keg ++ "/bin".toList),
   ("$\x7bsbin\x7d".toList, keg ++ "/sbin".toList),
   ("$\x7betc\x7d".toList, keg ++ "/etc".toList),
   ("$\x7bvar\x7d".toList, keg ++ "/var".toList),
   ("$\x7bshare\x7d".toList, keg ++ "/share".toList)]

def expand (keg s : String) : String :=
  String.ofList (Text.replaceMarks (marks keg.toList) s.toList)

/-- The entries of the property list; those without a value are left out. -/
def properties (f : Formula) (s : ServiceSpec) (keg : String) : Dict String Plist :=
  let text (key value : String) : List (String × Plist) :=
    if expand keg value = "" then [] else [(key, .text (expand keg value))]
  let flag (key : String) (on : Bool) : List (String × Plist) :=
    if on then [(key, .boolean true)] else []
  .ofList
    ([("Label", .text (label f.name)),
      ("ProgramArguments", .array (s.run.map fun a => .text (expand keg a)))] ++
     flag "RunAtLoad" s.runAtLoad ++ flag "KeepAlive" s.keepAlive ++
     text "WorkingDirectory" s.workingDir ++
     text "StandardOutPath" s.logPath ++
     text "StandardErrorPath" s.errorLogPath ++
     (if s.environment.isEmpty then []
      else [("EnvironmentVariables",
        .dict (s.environment.toList.map fun (k, v) => (k, .text (expand keg v))))]))

def propertyList (f : Formula) (s : ServiceSpec) (keg : String) : String :=
  Plist.render (.dict (properties f s keg).toList)

/-- Quotes an argument that holds blanks, tabs or quotes. -/
def quoteArgument (s : String) : String :=
  if s.toList.any fun c => c = ' ' || c = '\t' || c = '"' then
    String.ofList (['"'] ++ (s.toList.flatMap fun c => if c = '"' then ['\\', '"'] else [c]) ++
      ['"'])
  else s

def unit (f : Formula) (s : ServiceSpec) (keg : String) : String :=
  let line (key value : String) : String :=
    if value = "" then "" else key ++ expand keg value ++ "\n"
  "[Unit]\nDescription=nbrew generated unit for " ++ f.name ++ "\n\n[Service]\nType=simple\n" ++
  "ExecStart=" ++ " ".intercalate (s.run.map fun a => quoteArgument (expand keg a)) ++ "\n" ++
  (if s.keepAlive then "Restart=always\n" else "") ++
  line "WorkingDirectory=" s.workingDir ++
  line "StandardOutput=append:" s.logPath ++
  line "StandardError=append:" s.errorLogPath ++
  String.join (s.environment.toList.map fun (k, v) =>
    "Environment=\"" ++ k ++ "=" ++ expand keg v ++ "\"\n") ++
  if s.runAtLoad then "\n[Install]\nWantedBy=default.target\n" else ""

def render? (f : Formula) (keg : String) (p : Platform) : Option String :=
  f.service.map fun s => if p.isMacOS then propertyList f s keg else unit f s keg

end Taproom.Service
