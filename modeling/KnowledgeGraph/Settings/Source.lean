import KnowledgeGraph.Settings.CommandLine
import KnowledgeGraph.Settings.Environment
/-!
# Where settings come from

A setting has the value that the command line sets, else the one that a
program gives, else the one in the environment. The environment is read
once: later readings return the settings first read
(`SettingsSource.read_after_read`).
-/

namespace KnowledgeGraph

namespace Settings

/-- The name that is meant, in either case. -/
def lowerName (name : String) : String := String.ofList (Text.lower name.toList)

/-- What was given, by the names that are meant. Of several spellings of
one name the first counts. -/
def givenRecord (given : Record) : Record := given.map fun (name, raw) => (lowerName name, raw)

/-- Whether sources of settings are given ready made. There have to be two
parts, of which the first holds the sources, and no plain value is one. -/
def readyMade (raw : Raw) : Except Fault Unit :=
  match raw.parts? with
  | some [sources, _] => if sources.isVoid then .ok () else .error .wrongArguments
  | some parts => .error (.notTwo parts.length)
  | none => .error .wrongArguments

/-- The settings' own place among the arguments; nothing may be given
under its name. -/
def receiver : String := "__pydantic_self__"

/-- Settings from all that they may come from. Beside ready made sources
nothing else counts. -/
def ofSources (given : Record) (machine : Machine) : Except Fault Settings := do
  if given.any (·.1 = receiver) then .error .wrongArguments
  match argument? given "_build_sources" with
  | some raw =>
    readyMade raw
    (ofRecord []).orFault .settings
  | none =>
    let rules ← EnvironmentRules.ofGiven machine given
    let commanded ← CommandLine.ofGiven given
    let inherited ← rules.record machine.environment
    checkDirectories machine given
    (ofRecord (commanded ++ givenRecord given ++ inherited)).orFault .settings

end Settings

/-- The settings that were read from the environment, once they were. -/
structure SettingsSource where
  kept : Option Settings

namespace SettingsSource

def unread : SettingsSource := ⟨none⟩

/-- The settings, read from the environment if they never were. What
could not be read is not kept. -/
def read (source : SettingsSource) (machine : Settings.Machine) :
    Except Fault (Settings × SettingsSource) :=
  match source.kept with
  | some settings => .ok (settings, source)
  | none => (Settings.ofSources [] machine).map fun settings => (settings, ⟨some settings⟩)

/-- Once read, settings stay as they are in any environment. -/
theorem read_after_read {source after : SettingsSource} {settings : Settings}
    {machine : Settings.Machine} (h : source.read machine = .ok (settings, after))
    (later : Settings.Machine) : after.read later = .ok (settings, after) := by
  unfold read at h
  split at h
  · rename_i kept
    cases h
    rw [read, kept]
  · cases hs : Settings.ofSources [] machine <;> rw [hs] at h <;> cases h
    rfl

end SettingsSource

end KnowledgeGraph
