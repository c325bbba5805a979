import SchemaLayout.Command.FileAccess
import SchemaLayout.Format.ConfigCodec
import SchemaLayout.Format.JsonPrinter
import SchemaLayout.Format.JsonReader
import SchemaLayout.Format.TomlReader
import SchemaLayout.Format.TreeCodec
import SchemaLayout.Text.Quoted

/-!
# Runs on files

A run reads a configuration and a set of definitions from files, generates the output and writes it
out as JSON. The steps work with any `FileAccess`.
-/
namespace SchemaLayout

/-! ## Documents -/

/-- The configuration of a TOML text. -/
def Config.ofToml (text : String) : Except SchemaError Config :=
  match (Toml.read text).bind (Config.decode .toml) with
  | some config => .ok config
  | none => .error .invalidConfig

/-- The definitions of a JSON text; `none` if it is not the text of a set. That no name is there
twice is checked before the text behind the set, which has to be empty. -/
def DefinitionSet.ofJson? (text : String) : Option (Except SchemaError DefinitionSet) := do
  let (value, rest) ← Json.readFirst text
  match ← DefinitionSet.decode .json value with
  | .error cause => some (.error cause)
  | .ok set => if rest = [] then some (.ok set) else none

/-- The JSON text of a run's output. -/
def Generated.toJson (generated : Generated) : String := Json.pretty generated.encode

/-! ## Failures -/

/-- Why a run on files ends without a result. -/
inductive RunError where
  | config (path : String)
  | readDefinitions (path : String)
  | parseDefinitions (path : String)
  | refusedDefinitions (path : String) (cause : SchemaError)
  | generation (path : String) (cause : OutputError)
  | makeDirectory (path : String)
  | writeOutput (path : String)

namespace RunError

/-- What was being done to which file. -/
def context : RunError → String
  | .config path => s!"Failed to load config: {Text.quoted path}"
  | .readDefinitions path => s!"Failed to read definitions: {Text.quoted path}"
  | .parseDefinitions path | .refusedDefinitions path _ =>
    s!"Failed to parse definitions JSON: {Text.quoted path}"
  | .generation path _ => s!"Generation failed for {Text.quoted path}"
  | .makeDirectory path => s!"Failed to create output directory: {Text.quoted path}"
  | .writeOutput path => s!"Failed to write output: {Text.quoted path}"

/-- What went wrong with it. -/
def message : RunError → String
  | .config _ => SchemaError.invalidConfig.message
  | .readDefinitions _ => "the file cannot be read"
  | .parseDefinitions _ => "the file does not hold a set of definitions"
  | .refusedDefinitions _ cause => cause.message
  | .generation _ cause => cause.message
  | .makeDirectory _ => "the directory cannot be made"
  | .writeOutput _ => "the file cannot be written"

end RunError

/-! ## Steps -/

/-- The name of a configuration file that is looked for beside the definitions. -/
def configFile : String := "typeforge.toml"

namespace FileAccess

variable {m : Type → Type} [Monad m] (files : FileAccess m)

/-- The path of the configuration: the given one, or else a file beside the definitions. -/
def resolveConfig (input : String) : (given? : Option String) → m (Option String)
  | some path => return some path
  | none => do
    match (FilePath.parent? input).map (FilePath.join · configFile) with
    | some path => return if ← files.isFile path then some path else none
    | none => return none

/-- The configuration in a file, or the default one. -/
def loadConfig : (path? : Option String) → ExceptT RunError m Config
  | some path => do
    match (← files.read path).map Config.ofToml with
    | some (.ok config) => return config
    | _ => throw (.config path)
  | none => return .default

/-- The definitions in a file. -/
def loadDefinitions (path : String) : ExceptT RunError m DefinitionSet := do
  match ← files.read path with
  | none => throw (.readDefinitions path)
  | some text =>
    match DefinitionSet.ofJson? text with
    | none => throw (.parseDefinitions path)
    | some (.error cause) => throw (.refusedDefinitions path cause)
    | some (.ok set) => return set

/-- Generates from a file of definitions. The configuration is loaded before them. -/
def generate (input : String) (given? : Option String) : ExceptT RunError m Generated := do
  let config ← files.loadConfig (← files.resolveConfig input given?)
  let set ← files.loadDefinitions input
  match config.generate set with
  | .error cause => throw (.generation input cause)
  | .ok generated => return generated

/-- Writes the output to a file, whose directory is made, or gives it back if there is no file for
it. -/
def writeOutput (generated : Generated) :
    (output? : Option String) → ExceptT RunError m (Option String)
  | none => return some generated.toJson
  | some path => do
    match (FilePath.parent? path).filter (· != "") with
    | some directory =>
      if !(← files.makeDirectories directory) then throw (.makeDirectory directory)
    | none => pure ()
    if !(← files.write path generated.toJson) then throw (.writeOutput path)
    return none

end FileAccess

end SchemaLayout
