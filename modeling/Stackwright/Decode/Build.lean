import Stackwright.Decode.Record
import Stackwright.Decode.Shapes
import Stackwright.Model.Build

/-!
# Reading image builds
-/

namespace Stackwright
namespace Decode

/-- The fields of a secret. -/
def secretFields : List (Field Secret) :=
  [ field "source" .text fun r v => { r with source := v },
    field "target" (.optional .text) fun r v => { r with target := v },
    field "uid" .optText fun r v => { r with uid := v },
    field "gid" .optText fun r v => { r with gid := v },
    field "mode" .optFileMode fun r v => { r with mode := v } ]

/-- Reads secrets, each given by its name or as a record. -/
def secrets : Reader (List Secret) :=
  .entriesOf [.map (fun source => { source }) .text, record secretFields {}]

/-- The two bounds of a limit. -/
def boundFields : List (Field Ulimit) :=
  [ field "soft" (.optional .int64) fun r v => { r with soft := v },
    field "hard" (.optional .int64) fun r v => { r with hard := v } ]

/-- Reads the two bounds of a limit, which are always a mapping. -/
def boundPair : Reader Ulimit := fun place t =>
  match t with
  | .mapping _ => record boundFields {} place t
  | _ => .error .shape

/-- Reads a resource limit: one value, or its two bounds. -/
def ulimit : Reader Ulimit :=
  .oneOf [.map (fun value => { single := some value }) .int64, boundPair]

/-- Reads forwarded keys, as a list of tokens or as a mapping from ids to paths, which are put in the order of
their ids. -/
def sshKeys : Reader (List SshKey) :=
  .map (·.getD []) (.optional (.oneOf
    [ .map (List.map fun id => { id }) (.list .text),
      .map (fun keys => sortBy SshKey.id (keys.entries.map fun e => { id := e.1, path := e.2.getD "" }))
        (.dict (.optional .text)) ]))

/-- The fields of an image build. -/
def buildFields : List (Field Build) :=
  [ field "context" (.optional .text) fun r v => { r with context := v },
    field "dockerfile" (.optional .text) fun r v => { r with dockerfile := v },
    field "dockerfile_inline" (.optional .text) fun r v => { r with dockerfileInline := v },
    field "target" (.optional .text) fun r v => { r with target := v },
    field "args" .settings fun r v => { r with args := v },
    field "cache_from" .texts fun r v => { r with cacheFrom := v },
    field "cache_to" .texts fun r v => { r with cacheTo := v },
    field "no_cache" .bool fun r v => { r with noCache := v },
    field "ssh" sshKeys fun r v => { r with ssh := v },
    field "labels" .labels fun r v => { r with labels := v },
    field "network" (.optional .text) fun r v => { r with network := v },
    field "isolation" (.optional .text) fun r v => { r with isolation := v },
    field "pull" .bool fun r v => { r with pull := v },
    field "secrets" secrets fun r v => { r with secrets := v },
    field "tags" .texts fun r v => { r with tags := v },
    field "ulimits" (.dict ulimit) fun r v => { r with ulimits := v },
    field "platforms" .texts fun r v => { r with platforms := v },
    field "privileged" .bool fun r v => { r with privileged := v },
    field "extra_hosts" .hosts fun r v => { r with extraHosts := v },
    field "additional_contexts" .labels fun r v => { r with additionalContexts := v } ]

/-- Reads an image build: its context alone, or a record. -/
def build : Reader (Option Build) :=
  .optional (.oneOf [.map (fun context => { context := some context }) .text, record buildFields {}])

end Decode
end Stackwright
