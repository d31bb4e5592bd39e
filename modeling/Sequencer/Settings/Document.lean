import Sequencer.Settings.Basic
import Sequencer.Yaml.Document
import Sequencer.Yaml.Writing

/-!
# Settings as a document

Every field may be missing, and keys that name no field are passed over. A field that stands twice,
or holds what does not fit it, spoils the document.
-/

namespace Sequencer.Settings

open Yaml

inductive Field where
  | defaultBpm
  | defaultWaveform
  | defaultVolume
  | maxDepth
  | maxInvocations
  | logLevel
  deriving DecidableEq, Repr

namespace Field

def ofKey? : String → Option Field
  | "default_bpm" => some .defaultBpm
  | "default_waveform" => some .defaultWaveform
  | "default_volume" => some .defaultVolume
  | "max_depth" => some .maxDepth
  | "max_invocations" => some .maxInvocations
  | "log_level" => some .logLevel
  | _ => none

end Field

/-- Changes one field to what a scalar holds, if it fits. -/
def put? (settings : Settings) (scalar : Scalar) : Field → Option Settings
  | .defaultBpm => scalar.double?.map fun defaultBpm => { settings with defaultBpm }
  | .defaultWaveform =>
    (scalar.choice?.bind Waveform.ofName?).map fun defaultWaveform =>
      { settings with defaultWaveform }
  | .defaultVolume => scalar.double?.map fun defaultVolume => { settings with defaultVolume }
  | .maxDepth => scalar.word?.map fun maxDepth => { settings with maxDepth }
  | .maxInvocations => scalar.word?.map fun maxInvocations => { settings with maxInvocations }
  | .logLevel => some { settings with logLevel := scalar.text }

/-- The entries that name a field. -/
def fieldsOf (entries : List (String × Option Scalar)) : List (Field × Option Scalar) :=
  entries.filterMap fun (key, scalar) => (Field.ofKey? key).map fun field => (field, scalar)

def hasRepeats : List Field → Bool
  | [] => false
  | field :: rest => rest.contains field || hasRepeats rest

/-- No field can hold a collection. -/
def ofEntries? (entries : List (String × Option Scalar)) : Option Settings :=
  let fields := fieldsOf entries
  if hasRepeats (fields.map Prod.fst) then none
  else fields.foldlM
    (fun settings (field, scalar) => scalar.bind fun scalar => settings.put? scalar field) standard

def read? (text : String) : Option Settings :=
  (Document.read? text).bind fun document => document.entries?.bind ofEntries?

/-- One line for each field. -/
def print (settings : Settings) : String :=
  joinLines
    [entry 0 "default_bpm" (number settings.defaultBpm),
     entry 0 "default_waveform" settings.defaultWaveform.name,
     entry 0 "default_volume" (number settings.defaultVolume),
     entry 0 "max_depth" (toString settings.maxDepth),
     entry 0 "max_invocations" (toString settings.maxInvocations),
     entry 0 "log_level" (scalar 2 settings.logLevel)]

end Sequencer.Settings
