import HstoreKit.Settings.DotEnv
import HstoreKit.Settings.Document

/-!
# Loading settings

Where settings come from: a file that is named, or else the file that a variable names, or else the
file of the default name. Before the variable is looked up the nearest `.env` file is read, in the
working directory or above it. All that is consulted is given as `Surroundings`.
-/

namespace HstoreKit

/-- A place in a tree of files: the names from the root to it. -/
abbrev Place := List String

/-- Files with their contents, and directories without. -/
structure FileTree where
  entries : List (Place × Option String)

namespace FileTree

/-- The place that a path from the root names. -/
def place (path : String) : Place :=
  (path.splitOn "/").filter fun name => name ≠ "" ∧ name ≠ "."

/-- The tree of written paths. -/
def ofPaths (entries : List (String × Option String)) : FileTree :=
  ⟨entries.map fun e => (place e.1, e.2)⟩

/-- The content of a file. -/
def content? (t : FileTree) (place : Place) : Option String :=
  (t.entries.lookup place).join

/-- Directories are the root, the places that are given as such, and what lies above any place. -/
def isDirectory (t : FileTree) (place : Place) : Bool :=
  place.isEmpty || t.entries.any fun e =>
    if e.1 = place then e.2.isNone else place.isPrefixOf e.1

def contains (t : FileTree) (place : Place) : Bool :=
  t.isDirectory place || (t.content? place).isSome

/-- One name of a path, from a directory on. No path leads above the root. -/
def step? (t : FileTree) (place : Place) (name : String) : Option Place :=
  if !t.isDirectory place then none
  else if name = "" ∨ name = "." then some place
  else if name = ".." then if place.isEmpty then none else some place.dropLast
  else if t.contains (place ++ [name]) then some (place ++ [name])
  else none

/-- The place that a path leads to from a directory, if something is there. -/
def resolve? (t : FileTree) (place : Place) (path : String) : Option Place :=
  if path = "" ∨ path.startsWith "/" then none
  else (path.splitOn "/").foldlM t.step? place

end FileTree

/-- What loading settings depends on. -/
structure Surroundings where
  files : FileTree
  env : DotEnv.Environment
  directory : Place

namespace Surroundings

/-- The text of the nearest environment file, from so many names below the root upwards. -/
def environmentFile? (w : Surroundings) : Nat → Option String
  | 0 => w.files.content? [".env"]
  | n + 1 =>
    match w.files.content? (w.directory.take (n + 1) ++ [".env"]) with
    | some text => some text
    | none => w.environmentFile? n

end Surroundings

namespace Settings

/-- The settings in a file. -/
def ofFile (w : Surroundings) (path : String) : Except SettingsError Settings :=
  match (w.files.resolve? w.directory path).bind w.files.content? with
  | some text => ofToml text
  | none => .error .unreadableFile

/-- The settings in the file that the variables name, or in the default file. -/
def ofEnvironment (w : Surroundings) (env : DotEnv.Environment) : Except SettingsError Settings :=
  match env.lookup pathVariable with
  | some path => ofFile w path
  | none =>
    if (w.files.resolve? w.directory defaultPath).isSome then ofFile w defaultPath
    else .error (.invalid .noPath)

/-- The settings of the surroundings. -/
def load (w : Surroundings) : Except SettingsError Settings :=
  match w.environmentFile? w.directory.length with
  | none => ofEnvironment w w.env
  | some text =>
    match DotEnv.load? w.env text with
    | some env => ofEnvironment w env
    | none => .error .malformedEnvironment

end Settings

end HstoreKit
