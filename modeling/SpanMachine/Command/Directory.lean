import SpanMachine.Command.FileSystem

/-!
# A directory in memory

A directory holds files under plain names, and nothing else. A path leads into it only
if it is such a name: not empty, without a slash, and not one of the two names that
stand for directories. All its files can be read and written, and all plain names can
be given to new ones.
-/

namespace SpanMachine

/-- The files of a directory, each under its name. -/
structure Directory where
  files : List (Bytes × Bytes) := []
  deriving DecidableEq

namespace Directory

/-- The names that stand for directories. -/
def reserved : List Bytes :=
  [ascii ".", ascii ".."]

/-- A name that a file of the directory may have. -/
def isFileName (name : Bytes) : Bool :=
  !name.isEmpty && !name.contains Byte.slash && !reserved.contains name

/-- The content of a file, or nothing if it is absent. -/
def content (directory : Directory) (name : Bytes) : Bytes :=
  (directory.files.lookup name).getD []

/-- Puts a file in the place of the one of the same name. -/
def put (directory : Directory) (name content : Bytes) : Directory :=
  ⟨(name, content) :: directory.files.filter fun file => file.1 != name⟩

/-- The file that a path leads to. -/
def find? (directory : Directory) (path : Bytes) : Option Bytes :=
  if isFileName path && (directory.files.lookup path).isSome then some path else none

/-- A file system with nothing but one directory. -/
def fileSystem : FileSystem where
  Files := Directory
  File := Bytes
  find? := find?
  content := content
  readable _ _ := true
  create? directory path := if isFileName path then some (path, directory.put path []) else none
  append directory name text := directory.put name (directory.content name ++ text)

end Directory

end SpanMachine
