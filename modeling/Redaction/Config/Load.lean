import Redaction.Config.Basic
import Redaction.Text.Utf8
import Redaction.Yaml.Tree

/-!
# Loading a configuration

A configuration is a mapping with two known keys, each of a list of names; other keys play no part.
A list with nothing written for it is empty, and one that is not named at all has its standard
value.
-/

namespace Redaction

open Redaction.Yaml

namespace Config

def isUnwritten : Tree → Bool
  | .scalar .plain text => text.isEmpty
  | _ => false

def scalarText? : Tree → Option String
  | .scalar _ text => some text
  | _ => none

def names? (t : Tree) : Option (List String) :=
  match t with
  | .sequence items => items.mapM scalarText?
  | _ => if isUnwritten t then some [] else none

structure Partial where
  defaultGroups : Option (List String)
  disabledMethods : Option (List String)

/-- The lists with one more entry of the mapping. No list may be named twice. -/
def Partial.add (p : Partial) (entry : Tree × Tree) : Option Partial := do
  let key ← scalarText? entry.1
  if key = Entry.defaultGroups.key then
    if p.defaultGroups.isSome then none
    else pure { p with defaultGroups := some (← names? entry.2) }
  else if key = Entry.disabledMethods.key then
    if p.disabledMethods.isSome then none
    else pure { p with disabledMethods := some (← names? entry.2) }
  else pure p

/-- The configuration with its standard values where a list is not named. -/
def Partial.complete (p : Partial) : Config :=
  ⟨p.defaultGroups.getD standard.defaultGroups, p.disabledMethods.getD standard.disabledMethods⟩

def ofTree? (t : Tree) : Option Config :=
  match t with
  | .mapping entries => (entries.foldlM Partial.add ⟨none, none⟩).map (·.complete)
  | _ => if isUnwritten t then some standard else none

def ofYaml (text : String) : Except ConfigError Config :=
  match (Tree.ofText? text).bind ofTree? with
  | some c => c.validate
  | none => .error .notYaml

/-- The configuration of a file, given its octets if it could be read. -/
def ofFile (path : String) (octets : Option (List UInt8)) : Except ConfigError Config :=
  match octets.bind Text.Utf8.decode? with
  | none => .error (.unreadable path)
  | some text =>
      match (Tree.ofText? text).bind ofTree? with
      | some c => c.validate
      | none => .error (.notYamlFile path)

end Config

end Redaction
