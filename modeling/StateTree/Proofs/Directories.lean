/-
Module: StateTree.Proofs.Directories
Purpose: What a directory of files holds after a change. Each file has a number that no other one
  has, so that a file put under one name, or written to where it is open, leaves the others alone.
-/
import StateTree.Log.Directory
import StateTree.Proofs.Containers

namespace StateTree.Directory

/-- The file of a name, by its number and its octets. -/
def file? (directory : Directory) (name : String) : Option (Nat × Bytes) :=
  match directory.entries.lookup name with
  | some (.file number backward) => some (number, backward.reverse)
  | _ => none

/-- A directory that is there and holds nothing but files, each with a number of its own. -/
structure Sound (directory : Directory) : Prop where
  present : directory.isPresent = true
  files : ∀ name, directory.entries.lookup name ≠ some .folder
  older : ∀ name file, directory.file? name = some file → file.1 < directory.next
  apart : ∀ name other file found, directory.file? name = some file →
    directory.file? other = some found → file.1 = found.1 → name = other

variable {directory : Directory} {name other : String} {number : Nat} {bytes : Bytes}

/-! ### Single steps -/

/-- An empty directory is sound once it is made. -/
theorem sound_make (empty : directory.entries = []) : directory.make.Sound := by
  have none (name : String) : directory.make.entries.lookup name = none := by
    rw [make, empty]
    rfl
  have noFile (name : String) : directory.make.file? name = .none := by
    rw [file?, none]
  refine ⟨rfl, ?_, ?_, ?_⟩
  · intro name folder
    rw [none] at folder
    cases folder
  · intro name file found
    rw [noFile] at found
    cases found
  · intro name other file again found
    rw [noFile] at found
    cases found

/-- A file that is created is found under its name. -/
theorem file?_create_self (directory : Directory) (name : String) (bytes : Bytes) :
    (directory.create name bytes).file? name = some (directory.next, bytes) := by
  simp [file?, create]

theorem file?_create_of_ne (different : other ≠ name) (directory : Directory) (bytes : Bytes) :
    (directory.create name bytes).file? other = directory.file? other := by
  simp [file?, create, Keyed.lookup_putSorted_of_ne different]

/-- A new file has a number that none has had. -/
theorem Sound.create (sound : directory.Sound) (name : String) (bytes : Bytes) :
    (directory.create name bytes).Sound := by
  obtain ⟨present, files, older, apart⟩ := sound
  refine ⟨present, ?_, ?_, ?_⟩
  · intro other folder
    by_cases same : other = name
    · subst same
      simp [Directory.create] at folder
    · rw [Directory.create, Keyed.lookup_putSorted_of_ne same] at folder
      exact files other folder
  · intro other file found
    by_cases same : other = name
    · subst same
      rw [file?_create_self] at found
      cases found
      exact Nat.lt_succ_self _
    · rw [file?_create_of_ne same] at found
      exact Nat.lt_succ_of_lt (older other file found)
  · intro one two file found first second equal
    by_cases here : one = name <;> by_cases there : two = name
    · rw [here, there]
    · subst here
      rw [file?_create_self] at first
      rw [file?_create_of_ne there] at second
      cases first
      exact absurd equal (Nat.ne_of_gt (older two found second))
    · subst there
      rw [file?_create_self] at second
      rw [file?_create_of_ne here] at first
      cases second
      exact absurd equal (Nat.ne_of_lt (older one file first))
    · rw [file?_create_of_ne here] at first
      rw [file?_create_of_ne there] at second
      exact apart one two file found first second equal

/-- What is changed of the file of a number is found under whichever name the file has. -/
theorem lookup_changeBackward (directory : Directory) (number : Nat) (change : Bytes → Bytes)
    (name : String) : (directory.changeBackward number change).entries.lookup name =
      (directory.entries.lookup name).map fun
        | .file found backward => .file found (if found = number then change backward else backward)
        | .folder => .folder := by
  unfold changeBackward
  induction directory.entries with
  | nil => rfl
  | cons entry rest ih =>
      obtain ⟨key, held⟩ := entry
      cases held with
      | folder =>
          by_cases same : name = key
          · subst same
            simp
          · simpa [List.lookup_cons, beq_false_of_ne same] using ih
      | file found backward =>
          by_cases same : name = key
          · subst same
            by_cases isOpen : found = number <;> simp [isOpen]
          · by_cases isOpen : found = number <;>
              simpa [List.lookup_cons, beq_false_of_ne same, isOpen] using ih

/-- A change of an open file is seen in that file. -/
theorem file?_changeOpen (directory : Directory) (number : Nat) (change : Bytes → Bytes)
    (name : String) : (directory.changeOpen number change).file? name =
      (directory.file? name).map fun file =>
        (file.1, if file.1 = number then change file.2 else file.2) := by
  rw [file?, changeOpen, lookup_changeBackward, file?]
  cases directory.entries.lookup name with
  | none => rfl
  | some held =>
      cases held with
      | folder => rfl
      | file found backward => by_cases isOpen : found = number <;> simp [isOpen]

theorem file?_changeOpen_self (found : directory.file? name = some (number, bytes))
    (change : Bytes → Bytes) :
    (directory.changeOpen number change).file? name = some (number, change bytes) := by
  rw [file?_changeOpen, found]
  simp

/-- The files of other names are left alone. -/
theorem Sound.file?_changeOpen_of_ne (sound : directory.Sound)
    (found : directory.file? name = some (number, bytes)) (different : other ≠ name)
    (change : Bytes → Bytes) :
    (directory.changeOpen number change).file? other = directory.file? other := by
  rw [file?_changeOpen]
  cases held : directory.file? other with
  | none => rfl
  | some file =>
      have apart : file.1 ≠ number := fun same =>
        different (sound.apart other name file (number, bytes) held found same)
      simp [apart]

theorem append_eq (directory : Directory) (number : Nat) (bytes : Bytes) :
    directory.append number bytes = directory.changeOpen number (· ++ bytes) := by
  simp [append, changeOpen]

/-- To write through an open file keeps a directory sound. -/
theorem Sound.changeOpen (sound : directory.Sound) (number : Nat) (change : Bytes → Bytes) :
    (directory.changeOpen number change).Sound := by
  obtain ⟨present, files, older, apart⟩ := sound
  have before {name : String} {file : Nat × Bytes}
      (found : (directory.changeOpen number change).file? name = some file) :
      ∃ old, directory.file? name = some old ∧ old.1 = file.1 := by
    rw [file?_changeOpen] at found
    obtain ⟨old, held, rfl⟩ := Option.map_eq_some_iff.mp found
    exact ⟨old, held, rfl⟩
  refine ⟨present, ?_, ?_, ?_⟩
  · intro name folder
    rw [Directory.changeOpen, lookup_changeBackward] at folder
    obtain ⟨held, found, same⟩ := Option.map_eq_some_iff.mp folder
    cases held with
    | folder => exact files name found
    | file other backward => cases same
  · intro name file found
    obtain ⟨old, held, same⟩ := before found
    exact same ▸ older name old held
  · intro name other file found first second equal
    obtain ⟨one, here, same⟩ := before first
    obtain ⟨two, there, alike⟩ := before second
    exact apart name other one two here there (by rw [same, alike, equal])

/-! ### Reading and replacing -/

/-- What is read under a name. -/
theorem Sound.read_eq (sound : directory.Sound) (name : String) :
    directory.read name = .ok ((directory.file? name).map Prod.snd) := by
  have noFolder := sound.files name
  unfold read file?
  cases held : directory.entries.lookup name with
  | none => rfl
  | some entry =>
      cases entry with
      | file number backward => rfl
      | folder => exact absurd held noFolder

theorem Sound.contents_eq (sound : directory.Sound) {file : Nat × Bytes}
    (found : directory.file? name = some file) : directory.contents name = .ok file.2 := by
  rw [contents, sound.read_eq, found]
  rfl

/-- In a sound directory a file can be replaced. -/
theorem Sound.replace_eq (sound : directory.Sound) (name : String) (bytes : Bytes) :
    directory.replace name bytes = .ok (directory.create name bytes) := by
  have noFolder := sound.files name
  unfold replace
  rw [sound.present]
  cases held : directory.entries.lookup name with
  | none => rfl
  | some entry =>
      cases entry with
      | file number backward => rfl
      | folder => exact absurd held noFolder

theorem Sound.openFile_eq (sound : directory.Sound) {file : Nat × Bytes}
    (found : directory.file? name = some file) :
    directory.openFile name = .ok (file.1, directory) := by
  unfold file? at found
  unfold openFile
  rw [sound.present]
  cases held : directory.entries.lookup name with
  | none =>
      rw [held] at found
      cases found
  | some entry =>
      rw [held] at found
      cases entry with
      | file number backward =>
          cases found
          rfl
      | folder => cases found

theorem change_eq {file : Nat × Bytes} (found : directory.file? name = some file)
    (change : Bytes → Bytes) :
    directory.change name change = .ok (directory.changeOpen file.1 change) := by
  unfold file? at found
  unfold Directory.change
  cases held : directory.entries.lookup name with
  | none =>
      rw [held] at found
      cases found
  | some entry =>
      rw [held] at found
      cases entry with
      | file number backward =>
          cases found
          rfl
      | folder => cases found

/-- A file that is not there is created when it is opened. -/
theorem Sound.openFile_new (sound : directory.Sound) (none : directory.file? name = none) :
    directory.openFile name = .ok (directory.next, directory.create name []) := by
  have noFolder := sound.files name
  unfold file? at none
  unfold openFile
  rw [sound.present]
  cases held : directory.entries.lookup name with
  | none => rfl
  | some entry =>
      rw [held] at none
      cases entry with
      | file number backward => cases none
      | folder => exact absurd held noFolder

end StateTree.Directory
