import Taproom.Formula.Basic
import Taproom.Yaml.Shape

/-!
Formulae as YAML texts.
-/

namespace Taproom

open Yaml (Shape)
open Yaml.Shape (field list dict optional record)

def GitRef.shape : Shape GitRef :=
  record "types.GitRef"
    [field "url" .text (·.url) fun r v => { r with url := v },
     field "tag" .text (·.tag) fun r v => { r with tag := v },
     field "revision" .text (·.revision) fun r v => { r with revision := v },
     field "branch" .text (·.branch) fun r v => { r with branch := v }]

def Source.fields {σ : Type} (get : σ → Source) (put : σ → Source → σ) :
    List (Shape.Field σ) :=
  [field "url" .text (fun s => (get s).url) fun s v => put s { get s with url := v },
   field "mirrors" (list .text "") (fun s => (get s).mirrors)
     fun s v => put s { get s with mirrors := v },
   field "sha256" .text (fun s => (get s).sha256) fun s v => put s { get s with sha256 := v },
   field "git" (optional GitRef.shape {}) (fun s => (get s).git)
     fun s v => put s { get s with git := v }]

def Source.shape : Shape Source := record "types.Source" (Source.fields id fun _ v => v)

def Dependency.shape : Shape Dependency :=
  record "types.Dependency"
    [field "name" .text (·.name) fun r v => { r with name := v },
     field "type" .text (·.type) fun r v => { r with type := v },
     field "on" (list .text "") (·.on) fun r v => { r with on := v },
     field "arch" .text (·.arch) fun r v => { r with arch := v }]

def Resource.shape : Shape Resource :=
  record "types.Resource"
    (field "name" .text (·.name) (fun r v => { r with name := v }) ::
      Source.fields (·.source) fun r v => { r with source := v })

def BottleSpec.shape : Shape BottleSpec :=
  record "types.Bottle"
    [field "root_url" .text (·.rootUrl) fun r v => { r with rootUrl := v },
     field "cellar" .text (·.cellar) fun r v => { r with cellar := v },
     field "rebuild" .int (·.rebuild) fun r v => { r with rebuild := v },
     field "files" (dict .text "") (·.files) fun r v => { r with files := v }]

def Step.shape : Shape Step :=
  record "types.Step"
    [field "run" (list .text "") (·.run) fun r v => { r with run := v },
     field "dir" .text (·.dir) fun r v => { r with dir := v },
     field "env" (dict .text "") (·.env) fun r v => { r with env := v },
     field "on" (list .text "") (·.on) fun r v => { r with on := v }]

def TestStep.shape : Shape TestStep :=
  record "types.TestStep"
    [field "run" (list .text "") (·.run) fun r v => { r with run := v },
     field "input" .text (·.input) fun r v => { r with input := v },
     field "expect" .text (·.expect) fun r v => { r with expect := v },
     field "exit_code" .int (·.exitCode) fun r v => { r with exitCode := v }]

def ServiceSpec.shape : Shape ServiceSpec :=
  record "types.Service"
    [field "run" (list .text "") (·.run) fun r v => { r with run := v },
     field "keep_alive" .bool (·.keepAlive) fun r v => { r with keepAlive := v },
     field "run_at_load" .bool (·.runAtLoad) fun r v => { r with runAtLoad := v },
     field "working_dir" .text (·.workingDir) fun r v => { r with workingDir := v },
     field "log_path" .text (·.logPath) fun r v => { r with logPath := v },
     field "error_log_path" .text (·.errorLogPath) fun r v => { r with errorLogPath := v },
     field "environment" (dict .text "") (·.environment) fun r v => { r with environment := v }]

def Lifecycle.shape : Shape Lifecycle :=
  record "types.Lifecycle"
    [field "date" .text (·.date) fun r v => { r with date := v },
     field "because" .text (·.because) fun r v => { r with because := v }]

def Formula.shape : Shape Formula :=
  record "types.Formula"
    ([field "name" .text (·.name) fun r v => { r with name := v },
      field "desc" .text (·.desc) fun r v => { r with desc := v },
      field "homepage" .text (·.homepage) fun r v => { r with homepage := v },
      field "license" .text (·.license) fun r v => { r with license := v },
      field "version" .text (·.version) fun r v => { r with version := v },
      field "revision" .int (·.revision) fun r v => { r with revision := v }] ++
     Source.fields (·.source) (fun r v => { r with source := v }) ++
     [field "head" (optional Source.shape {}) (·.head) fun r v => { r with head := v },
      field "keg_only" .text (·.kegOnly) fun r v => { r with kegOnly := v },
      field "conflicts_with" (list .text "") (·.conflictsWith)
        fun r v => { r with conflictsWith := v },
      field "depends_on" (list Dependency.shape {}) (·.dependsOn)
        fun r v => { r with dependsOn := v },
      field "uses_from_macos" (list Dependency.shape {}) (·.usesFromMacOS)
        fun r v => { r with usesFromMacOS := v },
      field "resources" (list Resource.shape {}) (·.resources)
        fun r v => { r with resources := v },
      field "bottle" (optional BottleSpec.shape {}) (·.bottle) fun r v => { r with bottle := v },
      field "install" (list Step.shape {}) (·.install) fun r v => { r with install := v },
      field "post_install" (list Step.shape {}) (·.postInstall)
        fun r v => { r with postInstall := v },
      field "test" (list TestStep.shape {}) (·.test) fun r v => { r with test := v },
      field "service" (optional ServiceSpec.shape {}) (·.service)
        fun r v => { r with service := v },
      field "caveats" .text (·.caveats) fun r v => { r with caveats := v },
      field "deprecated" (optional Lifecycle.shape {}) (·.deprecated)
        fun r v => { r with deprecated := v },
      field "disabled" (optional Lifecycle.shape {}) (·.disabled)
        fun r v => { r with disabled := v }])

/-- Reads a formula. Unknown keys are complained about, so that a slip is not lost. -/
def Formula.parse (text : String) : Except Yaml.Fault Formula :=
  Yaml.readInto Formula.shape {} text

end Taproom
