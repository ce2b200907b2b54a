import Calculator.Command.Directory
import Calculator.Proofs.Command.Tables

/-!
# Files of a directory

A name without slashes leads to the file that has it, and a path that goes on behind the name of a
file leads nowhere.  So the table command finds exactly the files of the directory in which it runs
under their names.
-/

namespace Calculator

/-- A name that a file can be found under: a whole component of a path without a meaning of its
own. -/
structure IsFileName (name : String) : Prop where
  noSlash : '/' ∉ name.toList
  nonempty : name ≠ ""
  notHere : name ≠ "."
  notAbove : name ≠ ".."

namespace Directory

variable {directory : Directory} {name : String} {content : ByteArray}

theorem components_name (named : IsFileName name) : components name = [name] := by
  rw [components, List.splitOn_eq_singleton named.noSlash, List.map_singleton,
    String.ofList_toList]

theorem components_below (named : IsFileName name) (path : String) :
    components (name ++ "/" ++ path) = name :: components path := by
  have split : (name ++ "/" ++ path).toList = name.toList ++ '/' :: path.toList := by simp
  rw [components, split, List.splitOn_append_cons_self_of_not_mem named.noSlash, List.map_cons,
    String.ofList_toList]
  rfl

theorem origin_of_prefix (named : IsFileName name) {path : String}
    (starts : name.toList <+: path.toList) : origin path = .here := by
  obtain ⟨rest, whole⟩ := starts
  refine if_neg fun slash => ?_
  cases characters : name.toList with
  | nil => exact named.nonempty (String.toList_injective characters)
  | cons first others =>
      rw [← whole, characters] at slash
      obtain rfl := Option.some.inj slash
      exact named.noSlash (characters ▸ List.mem_cons_self)

theorem step_name (named : IsFileName name) :
    directory.step .here name =
      (directory.files.lookup name).elim (.error .missing) fun content => .ok (.file content) := by
  rw [step, if_neg (by simp [named.nonempty, named.notHere]), if_neg named.notAbove]
  cases directory.files.lookup name <;> rfl

theorem read_name (named : IsFileName name) :
    directory.read name = (directory.files.lookup name).elim (.error .missing) .ok := by
  rw [read, components_name named, origin_of_prefix named (List.prefix_refl _), List.foldlM_cons,
    step_name named]
  cases directory.files.lookup name <;> rfl

/-- A file has nothing below it, not even behind a slash at the end. -/
theorem read_below (named : IsFileName name) (found : directory.files.lookup name = some content)
    (path : String) : directory.read (name ++ "/" ++ path) = .error .notDirectory := by
  have starts : name.toList <+: (name ++ "/" ++ path).toList := by simp
  obtain ⟨first, later, split⟩ : ∃ first later, components path = first :: later := by
    refine List.exists_cons_of_ne_nil fun none_left => ?_
    exact List.splitOn_ne_nil '/' path.toList (List.map_eq_nil_iff.mp none_left)
  rw [read, components_below named, origin_of_prefix named starts, List.foldlM_cons,
    step_name named, found, split]
  rfl

theorem load_name (named : IsFileName name) (input : ByteArray) :
    (Source.file name).load (directory.surroundings input) =
      (directory.files.lookup name).elim (.error .missing) decodeText := by
  rw [Source.load, file_surroundings, read_name named]
  cases directory.files.lookup name <;> rfl

theorem load_below (named : IsFileName name) (found : directory.files.lookup name = some content)
    (path : String) (input : ByteArray) :
    (Source.file (name ++ "/" ++ path)).load (directory.surroundings input) =
      .error .notDirectory := by
  rw [Source.load, file_surroundings, read_below named found]
  rfl

end Directory

/-- In a directory the name of a file leads to the table of its text, or to an error if the bytes of
the file are no text.  Other names, and paths behind the name of a file, lead to errors of their
own; with any of them nothing is printed but the error. -/
theorem table_report_in_directory (directory : Directory) (input : ByteArray) {name : String}
    (named : IsFileName name) :
    (∀ content, directory.files.lookup name = some content →
      (∀ text : String, text.toUTF8 = content →
        (Command.tokens (.file name)).report (directory.surroundings input) =
          .ofTokens name.toList (tokenize text)) ∧
      ((∀ text : String, text.toUTF8 ≠ content) →
        (Command.tokens (.file name)).report (directory.surroundings input) =
          ⟨[], [.unreadable name.toList .notText], false⟩) ∧
      ∀ path, (Command.tokens (.file (name ++ "/" ++ path))).report
          (directory.surroundings input) =
        ⟨[], [.unreadable (name ++ "/" ++ path).toList .notDirectory], false⟩) ∧
    (directory.files.lookup name = none →
      (Command.tokens (.file name)).report (directory.surroundings input) =
        ⟨[], [.unreadable name.toList .missing], false⟩) := by
  refine ⟨fun content found => ⟨fun text encodes => ?_, fun noText => ?_, fun path => ?_⟩,
    fun missing => ?_⟩
  · rw [Command.report, Directory.load_name named, found, Option.elim,
      decodeText_eq_ok_iff.mpr encodes]
    rfl
  · rw [Command.report, Directory.load_name named, found, Option.elim,
      decodeText_of_forall_ne noText]
    rfl
  · rw [Command.report, Directory.load_below named found]
    rfl
  · rw [Command.report, Directory.load_name named, missing]
    rfl

end Calculator
