import Mathlib.Data.List.Sort
import Mathlib.Data.String.Basic

namespace neuriplo.repository

/-- What a directory listing can hold. The contents of a directory nested in
this one are of their own type. -/
inductive Entry (α : Type) where
  | file
  | directory (contents : α)
deriving DecidableEq, Repr

def Entry.isDirectory {α : Type} : Entry α → Bool
  | .file => false
  | .directory _ => true

/-- A name the file system can give to an entry. -/
def ValidName (name : String) : Prop :=
  name ≠ "" ∧ name ≠ "." ∧ name ≠ ".." ∧ '/' ∉ name.toList

instance (name : String) : Decidable (ValidName name) := by
  unfold ValidName
  infer_instance

/-- A directory lists every name once, in an order of its own. -/
structure Directory (α : Type) where
  entries : List (String × Entry α)
  nodup : (entries.map Prod.fst).Nodup
  validName : ∀ entry ∈ entries, ValidName entry.1

namespace Directory

variable {α : Type} (dir : Directory α)

def lookup (name : String) : Option (Entry α) := dir.entries.lookup name

/-- The directory `name` of this one. -/
def directory? (name : String) : Option α :=
  match dir.lookup name with
  | some (.directory contents) => some contents
  | _ => none

/-- The names of the entries that are, or are not, directories. -/
def names (directories : Bool) : List String :=
  (dir.entries.filter (fun entry => entry.2.isDirectory == directories)).map Prod.fst

/-- The names of a directory differ. -/
theorem names_nodup (directories : Bool) : (dir.names directories).Nodup :=
  dir.nodup.sublist (List.filter_sublist.map Prod.fst)

/-- The names of a directory are names of files. -/
theorem validName_of_mem {directories : Bool} {name : String} (hname : name ∈ dir.names directories) :
    ValidName name := by
  simp only [names, List.mem_map, List.mem_filter] at hname
  obtain ⟨entry, ⟨hentry, -⟩, rfl⟩ := hname
  exact dir.validName entry hentry

/-- An entry is found under its name. -/
theorem lookup_of_mem {name : String} {entry : Entry α} (hentry : (name, entry) ∈ dir.entries) :
    dir.lookup name = some entry := by
  obtain ⟨entries, hnodup, hvalid⟩ := dir
  simp only [lookup] at hentry ⊢
  clear hvalid
  induction entries with
  | nil => simp at hentry
  | cons first rest ih =>
    obtain ⟨firstName, firstEntry⟩ := first
    simp only [List.map_cons, List.nodup_cons] at hnodup
    obtain heq | hrest := List.mem_cons.mp hentry
    · simp only [Prod.mk.injEq] at heq
      simp [heq.1, heq.2]
    · have hne : name ≠ firstName := by
        rintro rfl
        exact hnodup.1 (List.mem_map.mpr ⟨_, hrest, rfl⟩)
      rw [List.lookup_cons, beq_false_of_ne hne]
      exact ih hnodup.2 hrest

/-- What is found is an entry. -/
theorem mem_of_lookup {name : String} {entry : Entry α} (hentry : dir.lookup name = some entry) :
    (name, entry) ∈ dir.entries := by
  simp only [lookup, List.lookup_eq_some_iff] at hentry
  obtain ⟨before, after, hentries, -⟩ := hentry
  simp [hentries]

/-- The listing holds exactly the directories that can be opened. -/
theorem mem_names_iff (name : String) :
    name ∈ dir.names true ↔ ∃ contents, dir.directory? name = some contents := by
  constructor
  · intro hname
    simp only [names, List.mem_map, List.mem_filter, beq_true] at hname
    obtain ⟨⟨entryName, entry⟩, ⟨hentry, hdirectory⟩, rfl⟩ := hname
    cases entry with
    | file => simp [Entry.isDirectory] at hdirectory
    | directory contents => exact ⟨contents, by simp [directory?, dir.lookup_of_mem hentry]⟩
  · rintro ⟨contents, hcontents⟩
    simp only [directory?] at hcontents
    split at hcontents
    next _ found hfound =>
      simp only [names, List.mem_map, List.mem_filter, beq_true]
      exact ⟨_, ⟨dir.mem_of_lookup hfound, rfl⟩, rfl⟩
    next => simp at hcontents

end Directory

/-- A version directory: the scan only reads the names of its files. -/
abbrev VersionDirectory := Directory Unit

abbrev ModelDirectory := Directory VersionDirectory

abbrev Repository := Directory ModelDirectory

/-- `parent / name` of `std::filesystem::path`. -/
def joinPath (parent name : String) : String :=
  if name.toList.head? = some '/' then name
  else if parent = "" ∨ parent.toList.getLast? = some '/' then parent ++ name
  else parent ++ "/" ++ name

theorem joinPath_ne_empty {name : String} (parent : String) (hname : name ≠ "") :
    joinPath parent name ≠ "" := by
  have hlist : name.toList ≠ [] := by simpa using hname
  intro hjoin
  have hempty := congrArg String.toList hjoin
  simp only [joinPath] at hempty
  split_ifs at hempty <;> simp_all

/-- A listing that cannot be read is empty, and so is that of a directory that
does not exist. -/
def sortedEntries {α : Type} (dir : Option (Directory α)) (directories : Bool) : List String :=
  match dir with
  | none => []
  | some dir => (dir.names directories).insertionSort (· ≤ ·)

section

variable {α : Type} (dir : Directory α) (directories : Bool)

/-- Sorting keeps the names. -/
@[simp] theorem mem_sortedEntries (name : String) :
    name ∈ sortedEntries (some dir) directories ↔ name ∈ dir.names directories :=
  List.mem_insertionSort _

theorem sortedEntries_nodup : (sortedEntries (some dir) directories).Nodup :=
  (List.perm_insertionSort (· ≤ ·) _).nodup_iff.mpr (dir.names_nodup directories)

/-- Sorted names are in order. -/
theorem sortedEntries_sorted : (sortedEntries (some dir) directories).Pairwise (· ≤ ·) :=
  List.pairwise_insertionSort (· ≤ ·) _

end

end neuriplo.repository
