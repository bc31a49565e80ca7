import SpanMachine.Command.Directory

/-!
# Writing a file

A file that is opened for writing and then written to holds what was written, if it is plain: it
was emptied first, and the text was put at its end. The two steps leave all other files alone,
and so does the one after the other.

In a directory in memory all files are plain.
-/

namespace SpanMachine

namespace FileSystem

variable {fileSystem : FileSystem} {file : fileSystem.File}

theorem SameExcept.trans {before between after : fileSystem.Files}
    (first : fileSystem.SameExcept file before between)
    (second : fileSystem.SameExcept file between after) :
    fileSystem.SameExcept file before after := by
  constructor
  · intro other other_ne
    rw [second.content other other_ne, first.content other other_ne]
  · intro path elsewhere
    have same_after := second.paths path elsewhere
    rw [same_after] at elsewhere
    rw [same_after, first.paths path elsewhere]

/-- A plain file is created or replaced with exactly the text that is written to it. -/
theorem Plain.written (plain : fileSystem.Plain file) {files opened : fileSystem.Files}
    {path : Bytes} (created : fileSystem.create? files path = some (file, opened)) (text : Bytes) :
    let after := fileSystem.append opened file text
    fileSystem.find? after path = some file ∧ fileSystem.content after file = text ∧
      fileSystem.SameExcept file files after := by
  refine ⟨plain.stays_at text (plain.opened_at created), ?_, ?_⟩
  · rw [plain.appended, plain.opened_empty created, List.nil_append]
  · exact (plain.opening_keeps created).trans (plain.appending_keeps opened text)

end FileSystem

namespace Directory

theorem lookup_put_self (directory : Directory) (name content : Bytes) :
    (directory.put name content).files.lookup name = some content :=
  List.lookup_cons_self

theorem lookup_put_of_ne (directory : Directory) {name other : Bytes} (other_ne : other ≠ name)
    (content : Bytes) :
    (directory.put name content).files.lookup other = directory.files.lookup other := by
  rw [put, List.lookup_cons, beq_false_of_ne other_ne]
  simp only
  induction directory.files with
  | nil => rfl
  | cons file rest ih =>
      rcases file with ⟨first, kept⟩
      by_cases replaced : first = name
      · subst replaced
        simp [List.lookup_cons, beq_false_of_ne other_ne, ih]
      · simp [List.lookup_cons, replaced, ih]

theorem find?_put_self {name : Bytes} (is_name : isFileName name = true) (directory : Directory)
    (content : Bytes) : (directory.put name content).find? name = some name := by
  simp [find?, is_name, lookup_put_self]

theorem sameExcept_put (directory : Directory) (name content : Bytes) :
    fileSystem.SameExcept name directory (directory.put name content) := by
  constructor
  · intro other other_ne
    exact congrArg (Option.getD · []) (directory.lookup_put_of_ne other_ne content)
  · intro path elsewhere
    change (directory.put name content).find? path = directory.find? path
    change (directory.put name content).find? path ≠ some name at elsewhere
    by_cases is_name : isFileName path = true
    · have path_ne : path ≠ name := by
        rintro rfl
        exact elsewhere (find?_put_self is_name directory content)
      simp only [find?, directory.lookup_put_of_ne path_ne content]
    · simp [find?, is_name]

theorem create?_eq_some_iff {directory opened : Directory} {path name : Bytes} :
    fileSystem.create? directory path = some (name, opened) ↔
      isFileName name = true ∧ path = name ∧ directory.put name [] = opened := by
  change (if isFileName path then some (path, directory.put path []) else none) = _ ↔ _
  rw [Option.ite_none_right_eq_some, Option.some.injEq, Prod.mk.injEq]
  constructor
  · rintro ⟨is_name, rfl, same⟩
    exact ⟨is_name, rfl, same⟩
  · rintro ⟨is_name, rfl, same⟩
    exact ⟨is_name, rfl, same⟩

theorem content_put_self (directory : Directory) (name content : Bytes) :
    (directory.put name content).content name = content :=
  congrArg (Option.getD · []) (directory.lookup_put_self name content)

/-- All files of a directory are plain. -/
theorem plain (name : Bytes) : fileSystem.Plain name where
  opened_at created := by
    rcases create?_eq_some_iff.mp created with ⟨is_name, rfl, rfl⟩
    exact find?_put_self is_name _ []
  opened_empty created := by
    rcases create?_eq_some_iff.mp created with ⟨-, -, rfl⟩
    exact content_put_self _ name []
  opening_keeps created := by
    rcases create?_eq_some_iff.mp created with ⟨-, -, rfl⟩
    exact sameExcept_put _ name []
  stays_at text found := by
    rcases Option.ite_none_right_eq_some.mp found with ⟨present, same⟩
    cases same
    exact find?_put_self (Bool.and_eq_true_iff.mp present).1 _ _
  appended directory text := content_put_self directory name _
  appending_keeps directory text := sameExcept_put directory name _

end Directory

end SpanMachine
