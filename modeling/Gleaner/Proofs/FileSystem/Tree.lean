import Mathlib.Data.List.Nodup
import Gleaner.FileSystem.Basic
import Gleaner.Proofs.Path.Below

/-!
# Trees of files

A place is the list of the names that lead to it from the root, without links. What is at a place is
told in two parts, since most questions need only the first: its kind, which for a link includes the
target, and for a file its bytes. Two directories are of the same kind whatever is in them; what is in
them is told by the places below.

A tree is well formed if the names in each directory are names and differ from one another. A file
system has no other trees.

## Main definitions

* `Entry.WellFormed`: a tree as a file system can have it
* `Entry.at?`: what is at a place
* `FileSystem.view`, `FileSystem.bytesAt?`: the kind of what is at a place, and the bytes of a file

## Main results

* `Entry.WellFormed.directory_induction`: a directory is looked at after the directories in it
* `Entries.Named.get?_eq_some_iff`: an entry is found by its name
-/

namespace Gleaner

open Gleaner.Utf8 (Bytes)

/-! ## Trees -/

/-- The names in a directory are names, and no two entries have the same one. -/
structure Entries.Named (entries : Entries) : Prop where
  names : ∀ x ∈ entries, Path.IsName x.1
  distinct : (entries.map Prod.fst).Nodup

/-- **A tree as a file system can have it**, with its names in order at every level. -/
inductive Entry.WellFormed : Entry → Prop
  | file (bytes : Bytes) : Entry.WellFormed (.file bytes)
  | link (target : Text) : Entry.WellFormed (.link target)
  | directory {entries : Entries} (named : entries.Named)
      (inner : ∀ x ∈ entries, Entry.WellFormed x.2) : Entry.WellFormed (.directory entries)

/-- The tree of a file system is well formed. -/
def FileSystem.WellFormed (fs : FileSystem) : Prop :=
  (Entry.directory fs.entries).WellFormed

theorem Entry.WellFormed.named {entries : Entries} (h : (Entry.directory entries).WellFormed) :
    entries.Named := by
  cases h with
  | directory named inner => exact named

theorem Entry.WellFormed.inner {entries : Entries} (h : (Entry.directory entries).WellFormed)
    {x : Text × Entry} (hx : x ∈ entries) : x.2.WellFormed := by
  cases h with
  | directory named inner => exact inner x hx

/-- A directory is looked at after the directories in it. -/
@[elab_as_elim]
theorem Entry.WellFormed.directory_induction {motive : Entries → Prop} {entries : Entries}
    (h : (Entry.directory entries).WellFormed)
    (step : ∀ entries : Entries, (Entry.directory entries).WellFormed →
      (∀ name inner, (name, Entry.directory inner) ∈ entries → motive inner) → motive entries) :
    motive entries := by
  suffices hall : ∀ entry : Entry, entry.WellFormed → ∀ es, entry = .directory es → motive es from
    hall _ h _ rfl
  intro entry hentry
  induction hentry with
  | file bytes =>
    intro es hes
    cases hes
  | link target =>
    intro es hes
    cases hes
  | directory named inner ih =>
    intro es hes
    cases hes
    refine step _ (.directory named inner) fun name below hmem => ?_
    exact ih (name, .directory below) hmem below rfl

theorem Entries.mem_of_get?_eq_some {entries : Entries} {name : Text} {entry : Entry}
    (h : entries.get? name = some entry) : (name, entry) ∈ entries := by
  obtain ⟨x, hfind, rfl⟩ := Option.map_eq_some_iff.mp h
  obtain rfl : x.1 = name := by simpa using List.find?_some hfind
  exact List.mem_of_find?_eq_some hfind

/-- Where names are distinct, an entry is found by its name. -/
theorem Entries.Named.get?_eq_some_iff {entries : Entries} (h : entries.Named) {name : Text}
    {entry : Entry} : entries.get? name = some entry ↔ (name, entry) ∈ entries := by
  refine ⟨Entries.mem_of_get?_eq_some, fun hmem => ?_⟩
  have hfound : (List.find? (fun x => x.1 = name) entries).isSome := by
    rw [List.find?_isSome]
    exact ⟨(name, entry), hmem, by simp⟩
  obtain ⟨x, hx⟩ := Option.isSome_iff_exists.mp hfound
  have hname : x.1 = name := by simpa using List.find?_some hx
  have hsame : x = (name, entry) :=
    List.inj_on_of_nodup_map h.distinct (List.mem_of_find?_eq_some hx) hmem hname
  rw [Entries.get?, hx, hsame, Option.map_some]

/-- What is at a place below an entry. No link is followed. -/
def Entry.at? : Entry → List Text → Option Entry
  | entry, [] => some entry
  | .directory entries, name :: rest => (Entries.get? entries name).bind fun entry => entry.at? rest
  | .file _, _ :: _ => none
  | .link _, _ :: _ => none

@[simp] theorem Entry.at?_nil (entry : Entry) : entry.at? [] = some entry := by
  cases entry <;> rfl

theorem Entry.at?_append (entry : Entry) (place more : List Text) :
    entry.at? (place ++ more) = (entry.at? place).bind (·.at? more) := by
  induction place generalizing entry with
  | nil => rw [List.nil_append, Entry.at?_nil, Option.bind_some]
  | cons name place ih =>
    cases entry with
    | file bytes => rfl
    | link target => rfl
    | directory entries =>
      rw [List.cons_append, Entry.at?, Entry.at?, Option.bind_assoc]
      exact Option.bind_congr fun entry _ => ih entry

/-- One name after a place where a directory is. -/
theorem Entry.at?_concat {root : Entry} {place : List Text} {entries : Entries}
    (h : root.at? place = some (.directory entries)) (name : Text) :
    root.at? (place ++ [name]) = entries.get? name := by
  rw [Entry.at?_append, h, Option.bind_some, Entry.at?]
  cases entries.get? name with
  | none => rfl
  | some entry => rw [Option.bind_some, Entry.at?_nil]

theorem Entry.WellFormed.at? {root entry : Entry} (h : root.WellFormed) {place : List Text}
    (hplace : root.at? place = some entry) : entry.WellFormed := by
  induction place generalizing root with
  | nil =>
    rw [Entry.at?_nil] at hplace
    exact Option.some.inj hplace ▸ h
  | cons name place ih =>
    cases root with
    | file bytes => cases hplace
    | link target => cases hplace
    | directory entries =>
      obtain ⟨next, hnext, hrest⟩ := Option.bind_eq_some_iff.mp hplace
      exact ih (h.inner (Entries.mem_of_get?_eq_some hnext)) hrest

/-! ## Views -/

/-- What something is, the bytes of a file and the entries of a directory left out. -/
inductive Kind where
  | file
  | link (target : Text)
  | directory
deriving DecidableEq

/-- The kind of an entry. -/
def Entry.kind : Entry → Kind
  | .file _ => .file
  | .link target => .link target
  | .directory _ => .directory

/-- The bytes of an entry that is a file. -/
def Entry.bytes? : Entry → Option Bytes
  | .file bytes => some bytes
  | _ => none

/-- What kind of thing is at each place. -/
abbrev View := List Text → Option Kind

namespace FileSystem

variable (fs : FileSystem)

/-- The whole tree, as one directory. -/
def tree : Entry :=
  .directory fs.entries

/-- The kind of what is at a place. -/
def view : View := fun place =>
  (fs.tree.at? place).map Entry.kind

/-- The bytes of the file at a place. -/
def bytesAt? (place : List Text) : Option Bytes :=
  (fs.tree.at? place).bind Entry.bytes?

variable {fs}

theorem view_eq_directory_iff {place : List Text} :
    fs.view place = some .directory ↔ ∃ entries, fs.tree.at? place = some (.directory entries) := by
  unfold view
  cases fs.tree.at? place with
  | none => simp
  | some entry => cases entry <;> simp [Entry.kind]

/-- In a tree that is one directory, all places but the root are in it. -/
theorem at?_of_single {name : Text} {entries : Entries}
    (h : fs.entries = [(name, .directory entries)]) (first : Text) (rest : List Text) :
    fs.tree.at? (first :: rest) =
      if first = name then (Entry.directory entries).at? rest else none := by
  by_cases hfirst : first = name <;> simp [tree, h, Entry.at?, Entries.get?, hfirst, eq_comm]

/-- What is at a place is in the directory right above. -/
theorem view_eq_directory_of_concat {place : List Text} {name : Text} {kind : Kind}
    (h : fs.view (place ++ [name]) = some kind) : fs.view place = some .directory := by
  unfold view at h ⊢
  rw [Entry.at?_append] at h
  cases hat : fs.tree.at? place with
  | none => simp [hat] at h
  | some entry =>
    rw [hat] at h
    cases entry with
    | file bytes => cases h
    | link target => cases h
    | directory entries => rfl

theorem isSome_bytesAt?_iff {place : List Text} :
    (fs.bytesAt? place).isSome ↔ fs.view place = some .file := by
  unfold bytesAt? view
  cases fs.tree.at? place with
  | none => simp
  | some entry => cases entry <;> simp [Entry.kind, Entry.bytes?]

end FileSystem

end Gleaner
