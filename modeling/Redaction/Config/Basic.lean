import Redaction.Rule.Basic
import Redaction.Text.Blank

/-!
# Configuration

Which groups a redaction has when its caller names none, and which methods are switched off. A
configuration is valid when no name in it is blank and none is listed twice, whatever its case.
-/

namespace Redaction

structure Config where
  defaultGroups : List String
  disabledMethods : List String
  deriving DecidableEq, Repr

namespace Config

/-- The configuration that holds where nothing is said. -/
def standard : Config := ⟨[noGroup], []⟩

inductive Entry where
  | defaultGroups
  | disabledMethods
  deriving DecidableEq, Repr

def Entry.key : Entry → String
  | defaultGroups => "default_groups"
  | disabledMethods => "disabled_methods"

inductive Fault where
  | blankName (list : Entry)
  | repeatedName (list : Entry) (name : String)
  deriving DecidableEq, Repr

def Fault.message : Fault → String
  | blankName list => "`" ++ list.key ++ "` contains an empty name."
  | repeatedName list name => "Duplicate name in `" ++ list.key ++ "`: '" ++ name ++ "'."

/-- The faults of names that follow others, of which the lowercase forms are `seen`. -/
def faultsAfter (list : Entry) (seen : List String) : List String → List Fault
  | [] => []
  | name :: rest =>
      if Text.isBlank name then .blankName list :: faultsAfter list seen rest
      else if Text.lower name ∈ seen then
        .repeatedName list name :: faultsAfter list seen rest
      else faultsAfter list (Text.lower name :: seen) rest

def faults (c : Config) : List Fault :=
  faultsAfter .defaultGroups [] c.defaultGroups ++ faultsAfter .disabledMethods [] c.disabledMethods

end Config

inductive ConfigError where
  | notYaml
  | notYamlFile (path : String)
  | unreadable (path : String)
  | invalid (faults : List Config.Fault)
  deriving DecidableEq, Repr

def ConfigError.message : ConfigError → String
  | notYaml => "Failed to parse redactor configuration"
  | notYamlFile path => "Failed to parse config file " ++ path
  | unreadable path => "Failed to read config file " ++ path
  | invalid faults =>
      "Configuration validation failed:\n" ++ "\n".intercalate (faults.map (·.message))

def Config.validate (c : Config) : Except ConfigError Config :=
  if c.faults.isEmpty then .ok c else .error (.invalid c.faults)

end Redaction
