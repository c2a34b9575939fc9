import Mathlib.Data.List.Nodup

/-! A directory of files, each under its own name. Replacing a file by a rename is one step, as is
removing one. -/
namespace Directory

abbrev Files (ν γ : Type) := List (ν × γ)

variable {ν γ : Type} [DecidableEq ν]

def read : Files ν γ → ν → Option γ
  | [], _ => none
  | file :: rest, name => if file.1 = name then some file.2 else read rest name

def unlink (files : Files ν γ) (name : ν) : Files ν γ := files.filter fun file => file.1 ≠ name

def replace (files : Files ν γ) (name : ν) (content : γ) : Files ν γ := (name, content) :: unlink files name

section Laws
variable {files : Files ν γ} {name other : ν} {content : γ}

@[simp] theorem readReplaced : read (replace files name content) name = some content := by
  simp [read, replace]

theorem readUnlinkedOther (apart : other ≠ name) : read (unlink files name) other = read files other := by
  induction files with
  | nil => rfl
  | cons file rest ih =>
      rw [unlink] at ih ⊢
      by_cases gone : file.1 = name
      · have past : file.1 ≠ other := fun same => apart (same.symm.trans gone)
        rw [List.filter_cons_of_neg (by simpa using gone), ih, read, if_neg past]
      · rw [List.filter_cons_of_pos (by simpa using gone), read, read, ih]

theorem readReplacedOther (apart : other ≠ name) : read (replace files name content) other = read files other := by
  rw [replace, read, if_neg apart.symm, readUnlinkedOther apart]

theorem readNone : read files name = none ↔ name ∉ files.map Prod.fst := by
  induction files with
  | nil => simp [read]
  | cons file rest ih =>
      rw [read, List.map_cons, List.mem_cons, not_or, ← ih]
      by_cases same : file.1 = name
      · simp [same]
      · simp [same, Ne.symm same]

@[simp] theorem readUnlinked : read (unlink files name) name = none := by
  rw [readNone]
  simp [unlink]

theorem readSome (there : read files name = some content) : (name, content) ∈ files := by
  induction files with
  | nil => cases there
  | cons file rest ih =>
      rw [read] at there
      split at there
      · rename_i same
        cases there
        exact same ▸ List.mem_cons_self
      · exact List.mem_cons_of_mem _ (ih there)

end Laws
end Directory
