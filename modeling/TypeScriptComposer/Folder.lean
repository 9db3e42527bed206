import TypeScriptComposer.Path

/-!
# Folders

A folder is a directory with everything below it, as a value: the places of its directories and
its files with their contents. Paths into a folder are followed component by component; empty
components and single dots stay where they are, and two dots go up, but never out of the folder.
-/

set_option autoImplicit false

namespace TypeScriptComposer

abbrev Place := List String

structure Folder where
  directories : List Place
  files : List (Place × ByteArray)

namespace Folder

def empty : Folder := ⟨[], []⟩

def isDirectory (f : Folder) (p : Place) : Bool := p.isEmpty || f.directories.contains p

def isFile (f : Folder) (p : Place) : Bool := f.files.any (·.1 == p)

/-- Names are not empty, hold no zero character and take at most 255 bytes. -/
def admitsName (name : String) : Bool :=
  !name.isEmpty && name.utf8ByteSize ≤ 255 && !name.toList.contains '\x00'

/-- The directory that is reached from a directory by some components, made where it is missing.
There is none when a file or a bad name is in the way. -/
def makeDirectories (f : Folder) (p : Place) : List String → Option (Place × Folder)
  | [] => some (p, f)
  | ".." :: rest => f.makeDirectories p.dropLast rest
  | name :: rest =>
    let q := p ++ [name]
    if f.isFile q then none
    else if f.isDirectory q then f.makeDirectories q rest
    else if admitsName name then
      { f with directories := f.directories ++ [q] }.makeDirectories q rest
    else none

def addDirectory? (f : Folder) (path : String) : Option Folder :=
  (f.makeDirectories [] (Path.components path)).map (·.2)

/-- Makes the directories on the way to the file at a path, and gives the place of the last one. -/
def makeParents (f : Folder) (path : String) : Option (Place × Folder) :=
  f.makeDirectories [] (Path.components path).dropLast

/-- Puts the file of a path into a directory, in place of the one that is there. -/
def putFile (f : Folder) (p : Place) (path : String) (content : ByteArray) : Option Folder :=
  let name := (Path.components path).getLast?.getD ""
  let q := p ++ [name]
  if f.isDirectory q || !admitsName name then none
  else some { f with files := f.files.filter (·.1 != q) ++ [(q, content)] }

def addFile? (f : Folder) (path : String) (content : ByteArray) : Option Folder :=
  (f.makeParents path).bind fun (p, f) => f.putFile p path content

def follow? (f : Folder) (p : Place) : List String → Option Place
  | [] => some p
  | ".." :: rest => if f.isDirectory p then f.follow? p.dropLast rest else none
  | name :: rest =>
    let q := p ++ [name]
    if f.isDirectory p && (f.isDirectory q || f.isFile q) then f.follow? q rest else none

def read? (f : Folder) (path : String) : Option ByteArray :=
  (f.follow? [] (Path.components path)).bind fun p => f.files.lookup p

def readText? (f : Folder) (path : String) : Option String :=
  (f.read? path).bind String.fromUTF8?

end Folder

end TypeScriptComposer
