import TypeScriptComposer.Folder
import TypeScriptComposer.Page

/-!
# Source files

A source file is a list of members that are written one after the other, with an empty line between
two of them, and share their imports.
-/

set_option autoImplicit false

namespace TypeScriptComposer

structure SourceFile where
  name : String
  settings : Settings
  members : List Template

inductive SaveError where
  | render (e : Error)
  | createDirectory (path : String)
  | writeFile (path : String)
  deriving DecidableEq

def SaveError.message : SaveError → String
  | .render e => e.message
  | .createDirectory path => "failed to create " ++ path
  | .writeFile path => "failed to write " ++ path

namespace SourceFile

def named (name : String) : SourceFile := ⟨name, .typeScript, []⟩

def isEmpty (f : SourceFile) : Bool := f.members.isEmpty

def joinMembers : List Template → Template
  | [] => []
  | [m] => [.nested m]
  | m :: ms => .nested m :: .text "\n\n" :: joinMembers ms

def template (f : SourceFile) : Template := joinMembers f.members

def render (outputs : Outputs) (f : SourceFile) : Except Error String :=
  f.template.file outputs f.settings

def fileName (f : SourceFile) : String := f.name ++ ".ts"

def path (f : SourceFile) (directory : String) : String := Path.join directory f.fileName

/-- Renders a file and puts it into the folder that is at the path `directory`, with the
directories that it needs. The answer has the path of the file. -/
def save (outputs : Outputs) (f : SourceFile) (directory : String) (folder : Folder) :
    Except SaveError (String × Folder) := do
  let path := f.path directory
  let parent := Path.parent path
  let content ← (f.render outputs).mapError .render
  match if Path.fits parent then folder.makeParents f.fileName else none with
  | none => .error (.createDirectory parent)
  | some (place, folder) =>
    match if Path.fits path then folder.putFile place f.fileName content.toUTF8 else none with
    | none => .error (.writeFile path)
    | some folder => .ok (path, folder)

end SourceFile

end TypeScriptComposer
