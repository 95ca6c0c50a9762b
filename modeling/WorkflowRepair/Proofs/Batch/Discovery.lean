import WorkflowRepair.Proofs.Batch.Run
import WorkflowRepair.Proofs.Files.Name
import WorkflowRepair.Proofs.Glob.Star

/-!
# Finding documents

Which documents a run finds depends on the entries of the directory and on nothing else: not on the
order in which they are listed, nor on the rest of the files. The names that the pattern stands for are
sorted, so two listings of the same entries give the same list (`selectNames_perm`), and where the names
of the entries are distinct it is strictly increasing (`pairwise_selectNames`).
-/

namespace WorkflowRepair.Batch

open Files (Path Fault FileAccess DirectoryEntry Ensures IsEntryName Machine Tree)
open Files (ensures_pure gives_list)
open Workflow (Failure)

/-! ## The order of names -/

section

variable {glob : Glob.Pattern} {entries entries' : List DirectoryEntry}

theorem sorted_selectNames (glob : Glob.Pattern) (entries : List DirectoryEntry) :
    (selectNames glob entries).Pairwise (· ≤ ·) := by
  have htrans : ∀ a b c : List UInt8,
      decide (a ≤ b) = true → decide (b ≤ c) = true → decide (a ≤ c) = true := by
    intro a b c hab hbc
    exact decide_eq_true (List.le_trans (of_decide_eq_true hab) (of_decide_eq_true hbc))
  have htotal : ∀ a b : List UInt8, (decide (a ≤ b) || decide (b ≤ a)) = true := by
    intro a b
    rw [Bool.or_eq_true, decide_eq_true_iff, decide_eq_true_iff]
    exact List.le_total a b
  exact (List.pairwise_mergeSort htrans htotal _).imp of_decide_eq_true

/-- There is only one way to sort the names that a pattern stands for. -/
theorem selectNames_eq {names : List (List UInt8)}
    (hperm : ((entries.filter fun entry => entry.isFile && Glob.accepts glob entry.name).map
      (·.name)).Perm names)
    (hsorted : names.Pairwise (· ≤ ·)) : selectNames glob entries = names := by
  have hselected : (selectNames glob entries).Perm names := (List.mergeSort_perm _ _).trans hperm
  refine hselected.eq_of_pairwise ?_ (sorted_selectNames glob entries) hsorted
  intro a b _ _ hab hba
  exact List.le_antisymm hab hba

/-- The order in which a directory is listed makes no difference. -/
theorem selectNames_perm (hperm : entries'.Perm entries) :
    selectNames glob entries' = selectNames glob entries := by
  refine selectNames_eq ?_ (sorted_selectNames glob entries)
  exact ((hperm.filter _).map _).trans (List.mergeSort_perm _ _).symm

theorem nodup_selectNames (hdistinct : (entries.map (·.name)).Nodup) :
    (selectNames glob entries).Nodup := by
  refine (List.mergeSort_perm _ _).nodup_iff.2 ?_
  exact hdistinct.sublist (List.filter_sublist.map _)

/-- Distinct names come in strictly increasing order. -/
theorem pairwise_selectNames (hdistinct : (entries.map (·.name)).Nodup) :
    (selectNames glob entries).Pairwise (· < ·) := by
  refine ((sorted_selectNames glob entries).and (nodup_selectNames hdistinct)).imp ?_
  rintro a b ⟨hle, hne⟩
  exact (List.le_iff_lt_or_eq.1 hle).resolve_right hne

end

/-! ## Looking for documents -/

section

variable {F σ : Type} [FileAccess (StateT F (StateM σ))] {directory : Path} {pattern : String}
  {glob : Glob.Pattern}

/-- What is found comes of what the directory lists. -/
theorem ensures_discover_of_list (hglob : Glob.read pattern = .ok glob)
    {listed : List DirectoryEntry} {files : F}
    (hlist : Ensures (FileAccess.list directory :
      StateT F (StateM σ) (Except Fault (List DirectoryEntry))) files
        fun answer _ => answer = .ok listed) :
    Ensures (discover directory pattern : StateT F (StateM σ) (Except Failure (List Path))) files
      fun result _ =>
        result = .ok ((selectNames glob listed).map fun name => directory.join ⟨name⟩) := by
  rw [discover, hglob]
  refine hlist.bind ?_
  rintro answer files' rfl
  exact ensures_pure rfl

/-- Whatever else the files are like, looking for documents in a directory with given entries finds
the regular files whose names the pattern stands for, each of them once and in increasing order of
their names, in whatever order the directory lists its entries. These names are what the paths end
in. The default pattern stands for the names that begin with its letter and end with its ending. -/
theorem discover_exact (directory : Path) (hglob : Glob.read pattern = .ok glob)
    {entries : List DirectoryEntry} (hdistinct : (entries.map (·.name)).Nodup) :
    ∃ names : List (List UInt8), names.Pairwise (· < ·) ∧
      (∀ name, name ∈ names ↔
        ∃ e ∈ entries, e.isFile = true ∧ Glob.accepts glob e.name = true ∧ e.name = name) ∧
      (∀ listed files, listed.Perm entries →
        Ensures (FileAccess.list directory :
          StateT F (StateM σ) (Except Fault (List DirectoryEntry))) files
            (fun answer _ => answer = .ok listed) →
          Ensures (discover directory pattern : StateT F (StateM σ) (Except Failure (List Path)))
            files fun result _ => result = .ok (names.map fun name => directory.join ⟨name⟩)) ∧
      ((∀ e ∈ entries, IsEntryName e.name) →
        ∀ name ∈ names, (directory.join ⟨name⟩).fileName? = some name) ∧
      (pattern = ({} : Settings).batch.pattern → ∀ name, Glob.accepts glob name = true ↔
        Text.encode "W" <+: name ∧ Text.encode ".json" <:+ name) := by
  refine ⟨selectNames glob entries, pairwise_selectNames hdistinct, fun name => mem_selectNames,
    ?_, ?_, ?_⟩
  · intro listed files hperm hlist
    rw [← selectNames_perm hperm]
    exact ensures_discover_of_list hglob hlist
  · intro hnames name hname
    obtain ⟨e, he, -, -, rfl⟩ := mem_selectNames.1 hname
    exact Path.fileName?_join directory (hnames e he)
  · rintro rfl name
    rw [Glob.read_default] at hglob
    cases hglob
    exact Glob.accepts_default_iff

end

/-- A directory with names that are no text or span two lines, with one that the default pattern does
not stand for, and with a directory that it does stand for. -/
def oddShelf : List DirectoryEntry :=
  [⟨Text.encode "W2_A.json", true⟩, ⟨[87, 255, 46, 106, 115, 111, 110], true⟩,
    ⟨Text.encode "notes.json", true⟩, ⟨Text.encode "W9_dir.json", false⟩,
    ⟨Text.encode "W\n.json", true⟩, ⟨Text.encode "W10_B.json", true⟩]

/-- A tree with these entries. -/
def oddTree (shelf : List DirectoryEntry) : Tree where
  entries := ([Text.encode "corpus"], .directory) :: shelf.map fun e =>
    ([Text.encode "corpus", e.name], if e.isFile then .file .empty else .directory)

/-- Listed forwards or backwards, the directory gives the same four documents. -/
theorem discover_exact_oddShelf :
    let directory : Path := .ofString "corpus"
    let found (shelf : List DirectoryEntry) : Except Failure (List Path) :=
      ((discover directory "W*.json" : Machine Unit (Except Failure (List Path)))
        (oddTree shelf) ()).1.1
    Glob.read "W*.json" = .ok Glob.defaultGlob ∧ (oddShelf.map (·.name)).Nodup ∧
      (oddTree oddShelf).list directory = .ok oddShelf ∧
      (oddTree oddShelf.reverse).list directory = .ok oddShelf.reverse ∧
      found oddShelf.reverse = found oddShelf ∧
      found oddShelf = .ok [.ofString "corpus/W\n.json", .ofString "corpus/W10_B.json",
        .ofString "corpus/W2_A.json", ⟨Text.encode "corpus/W" ++ 255 :: Text.encode ".json"⟩] := by
  intro directory found
  let documents := [Text.encode "W\n.json", Text.encode "W10_B.json", Text.encode "W2_A.json",
    [87, 255, 46, 106, 115, 111, 110]]
  have hdistinct : (oddShelf.map (·.name)).Nodup := by decide +kernel
  have hforwards : (oddTree oddShelf).list directory = .ok oddShelf := by decide +kernel
  have hbackwards : (oddTree oddShelf.reverse).list directory = .ok oddShelf.reverse := by
    decide +kernel
  obtain ⟨names, -, -, hfound, -⟩ := discover_exact (F := Tree) (σ := Unit) directory
    Glob.read_default hdistinct
  have hlists : ∀ shelf, (oddTree shelf).list directory = .ok shelf → shelf.Perm oddShelf →
      found shelf = .ok (names.map fun name => directory.join ⟨name⟩) := by
    intro shelf hlist hperm
    refine hfound shelf (oddTree shelf) hperm ?_ ()
    exact (gives_list directory).mono fun answer _ hanswer => hanswer.1.trans hlist
  have hsame : found oddShelf.reverse = found oddShelf := by
    rw [hlists oddShelf hforwards (.refl _), hlists _ hbackwards (List.reverse_perm _)]
  have hselected : selectNames Glob.defaultGlob oddShelf = documents :=
    selectNames_eq (by decide +kernel) (by decide +kernel)
  have hpaths : found oddShelf = .ok (documents.map fun name => directory.join ⟨name⟩) := by
    rw [← hselected]
    refine ensures_discover_of_list Glob.read_default ?_ ()
    exact (gives_list directory).mono fun answer _ hanswer => hanswer.1.trans hforwards
  exact ⟨Glob.read_default, hdistinct, hforwards, hbackwards, hsame,
    hpaths.trans (by decide +kernel)⟩

end WorkflowRepair.Batch
