import SpanMachine.Bytes.Basic

/-!
# File systems

Which file a path leads to, whether it can be opened, and what becomes of its content
is up to the system that the program runs on. A file is more than its path, since
several paths may lead to one file. Opening a file for writing creates or empties it,
and what is written afterwards is put at its end.

Of an ordinary file one expects that it holds what is written to it, and that writing
to it leaves all other files alone. These expectations are the laws of a plain file.
They are no part of a file system, because not every path leads to such a file.
-/

namespace SpanMachine

/-- The files of a system, and what the program can do with them. -/
structure FileSystem where
  /-- The state of all files. -/
  Files : Type
  /-- A file, whatever paths lead to it. -/
  File : Type
  /-- The file that a path leads to. -/
  find? : Files → Bytes → Option File
  /-- The bytes that a file holds. -/
  content : Files → File → Bytes
  /-- The file at a path may be opened for reading. -/
  readable : Files → Bytes → Bool
  /-- Opens the file at a path for writing, unless that is impossible. -/
  create? : Files → Bytes → Option (File × Files)
  /-- Writes to the end of a file. -/
  append : Files → File → Bytes → Files

namespace FileSystem

variable (fileSystem : FileSystem)

/-- What is read at a path, if it can be opened for reading. -/
def read? (files : fileSystem.Files) (path : Bytes) : Option Bytes :=
  if fileSystem.readable files path then
    (fileSystem.find? files path).map (fileSystem.content files)
  else
    none

/-- No file but the given one has changed, and no other paths lead to other files than before. -/
structure SameExcept (file : fileSystem.File) (before after : fileSystem.Files) : Prop where
  content : ∀ other ≠ file, fileSystem.content after other = fileSystem.content before other
  paths : ∀ path, fileSystem.find? after path ≠ some file →
    fileSystem.find? after path = fileSystem.find? before path

/-- A file that holds what is written to it, while all other files are left alone. -/
structure Plain (file : fileSystem.File) : Prop where
  opened_at : ∀ {files opened path}, fileSystem.create? files path = some (file, opened) →
    fileSystem.find? opened path = some file
  opened_empty : ∀ {files opened path}, fileSystem.create? files path = some (file, opened) →
    fileSystem.content opened file = []
  opening_keeps : ∀ {files opened path}, fileSystem.create? files path = some (file, opened) →
    fileSystem.SameExcept file files opened
  stays_at : ∀ {files path} text, fileSystem.find? files path = some file →
    fileSystem.find? (fileSystem.append files file text) path = some file
  appended : ∀ files text, fileSystem.content (fileSystem.append files file text) file =
    fileSystem.content files file ++ text
  appending_keeps : ∀ files text,
    fileSystem.SameExcept file files (fileSystem.append files file text)

end FileSystem

end SpanMachine
