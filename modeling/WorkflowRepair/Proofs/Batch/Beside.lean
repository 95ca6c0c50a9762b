import WorkflowRepair.Proofs.Batch.Rehearsal
import WorkflowRepair.Proofs.Files.Refill

/-!
# Runs beside a file that is no document

A run may come across a file that is no document: then it says why, and leaves the file alone. So
with other bytes in this file it does the same, as long as it would say the same of them
(`passesBy_patchFile`, `passesBy_runFilesFrom`, `passesBy_runDirectory`).
-/

namespace WorkflowRepair.Batch

open Files (Path Tree Location Fault Machine Ensures Gives PassesBy Blind FileAccess)
open Files (ensures_true ensures_pure gives_pure gives_read blind_pure blind_list blind_read)
open Files (passesBy_pure passesBy_save)
open Repair (RuleSet)
open Workflow (Document Failure)
open Workflow.Document (Encodes ofBytes_eq_ok_iff)

variable {σ : Type} {place : Location} {bytes old : ByteArray} {tree tree' : Tree} {path : Path}

/-- The file at a place is no document. -/
structure NoDocument (place : Location) (old : ByteArray) (tree : Tree) : Prop where
  stored : tree.get? place = some (.file old)
  refused : ∀ root, ¬ Encodes root old

theorem NoDocument.spares (h : NoDocument place old tree) (hspares : tree.Spares place tree') :
    NoDocument place old tree' where
  stored := hspares.stored.trans h.stored
  refused := h.refused

/-- What can be read as a document stands elsewhere. -/
theorem NoDocument.exists_resolve (h : NoDocument place old tree) {stored : ByteArray}
    {root : Json.Members} (hread : tree.read path = .ok stored) (hroot : Encodes root stored) :
    ∃ location, tree.resolve path = .ok (.entry location (.file stored)) ∧ location ≠ place := by
  obtain ⟨location, hresolve⟩ := Tree.read_eq_ok_iff.1 hread
  refine ⟨location, hresolve, ?_⟩
  rintro rfl
  have hstored := h.stored.symm.trans (Tree.get?_of_resolve hresolve)
  simp only [Option.some.injEq, Files.Entry.file.injEq] at hstored
  rw [← hstored] at hroot
  exact h.refused root hroot

/-- If a path leads to the file at a place, other bytes would be read there as those of the file
are. -/
def ReadsAlike (place : Location) (bytes : ByteArray) (tree : Tree) (path : Path) : Prop :=
  ∀ old, tree.resolve path = .ok (.entry place (.file old)) →
    Document.ofBytes path bytes = Document.ofBytes path old

theorem ReadsAlike.spares (h : ReadsAlike place bytes tree path)
    (hspares : tree.Spares place tree') : ReadsAlike place bytes tree' path :=
  fun old hresolve => h old (hspares.resolve hresolve)

theorem blind_load (h : ReadsAlike place bytes tree path) :
    Blind place bytes (load path : Machine σ (Except Failure Document)) tree := by
  intro state
  have hload : ∀ {tree : Tree} {bytes : ByteArray}, tree.read path = .ok bytes →
      (load path : Machine σ (Except Failure Document)) tree state =
        ((Document.ofBytes path bytes, tree), state) := by
    intro tree bytes hread
    have hgiven : (FileAccess.read path : Machine σ (Except Fault ByteArray)) tree state =
        ((.ok bytes, tree), state) := congrArg (fun result => ((result, tree), state)) hread
    rw [load, Files.bind_apply, hgiven]
    rfl
  -- at the place itself other bytes are read, but the same comes of them
  by_cases hplace : ∃ old, tree.resolve path = .ok (.entry place (.file old))
  · obtain ⟨old, hresolve⟩ := hplace
    rw [hload (Tree.read_refill_self hresolve), hload (Tree.read_eq_ok_iff.2 ⟨_, hresolve⟩),
      h old hresolve]
  · have hread : Blind place bytes
        (FileAccess.read path : Machine σ (Except Fault ByteArray)) tree :=
      blind_read fun old hresolve => hplace ⟨old, hresolve⟩
    refine hread.bind (ensures_true _ _) (fun result tree' _ => ?_) state
    cases result <;> exact blind_pure _

theorem passesBy_load (h : ReadsAlike place bytes tree path) :
    PassesBy place bytes (load path : Machine σ (Except Failure Document)) tree := by
  obtain ⟨result, hgives⟩ := exists_gives_load (σ := σ) tree path
  exact (blind_load h).passesBy hgives

section

variable {tell : Event → Machine σ Unit} (htell : Quiet tell)
  (hblind : ∀ event tree, Blind place bytes (tell event) tree) (rules : RuleSet) (mode : Mode)

include htell hblind

theorem passesBy_tellChanges (path : Path) (changes : List Repair.Change) (tree : Tree) :
    PassesBy place bytes (tellChanges tell path changes) tree := by
  induction changes generalizing tree with
  | nil => exact passesBy_pure ()
  | cons change changes ih =>
    exact ((hblind _ tree).passesBy (htell _ tree)).bind (ensures_true _ _) fun _ tree' _ _ =>
      ih tree'

/-- One document is taken alike. -/
theorem passesBy_patchFile (hno : NoDocument place old tree)
    (halike : ReadsAlike place bytes tree path) :
    PassesBy place bytes (patchFile rules mode tell path) tree := by
  unfold patchFile
  cases hread : tree.read path with
  | error fault =>
    refine (passesBy_load halike).bind (gives_load_error hread) ?_
    rintro _ _ ⟨rfl, rfl⟩ -
    exact passesBy_pure _
  | ok stored =>
    refine (passesBy_load halike).bind (gives_load hread) ?_
    rintro _ _ ⟨rfl, rfl⟩ -
    cases hdocument : Document.ofBytes path stored with
    | error failure => exact passesBy_pure _
    | ok document =>
      obtain ⟨hroot, rfl⟩ := ofBytes_eq_ok_iff.1 hdocument
      obtain ⟨location, hresolve, hne⟩ := hno.exists_resolve hread hroot
      dsimp only
      refine (passesBy_tellChanges htell hblind document.path _ _).bind
        (gives_tellChanges htell document.path _ _) ?_
      rintro _ tree ⟨-, rfl⟩ -
      split
      case isTrue =>
        have hresolve' : tree.resolve (rules.patch document).1.path =
            .ok (.entry location (.file stored)) := by rw [path_patch, hresolve]
        exact (passesBy_save hno.stored hresolve' hne _).bind (ensures_true _ _)
          fun _ _ _ _ => passesBy_pure _
      case isFalse => exact passesBy_pure _

theorem passesBy_runFile (hno : NoDocument place old tree)
    (halike : ReadsAlike place bytes tree path) :
    PassesBy place bytes (runFile rules mode tell path) tree := by
  refine ((hblind _ tree).passesBy (htell _ tree)).bind (htell _ tree) ?_
  rintro _ _ ⟨-, rfl⟩ -
  refine (passesBy_patchFile htell hblind rules mode hno halike).bind (ensures_true _ _) ?_
  intro outcome tree' _ _
  refine ((hblind _ tree').passesBy (htell _ tree')).bind (ensures_true _ _) ?_
  exact fun _ _ _ _ => passesBy_pure outcome

/-- Documents in a row are taken alike. -/
theorem passesBy_runFilesFrom (hno : NoDocument place old tree) (summary : Summary)
    {paths : List Path} (halike : ∀ path ∈ paths, ReadsAlike place bytes tree path) :
    PassesBy place bytes (runFilesFrom rules mode tell summary paths) tree := by
  induction paths generalizing summary tree with
  | nil => exact passesBy_pure summary
  | cons path paths ih =>
    rw [List.forall_mem_cons] at halike
    -- the first document leaves the file and the ways to it, so the others are read alike, too
    refine (passesBy_runFile htell hblind rules mode hno halike.1).bind (ensures_true _ _) ?_
    intro outcome tree' _ hspares
    exact ih (hno.spares hspares) _ fun path hpath => (halike.2 path hpath).spares hspares

omit htell hblind in
theorem passesBy_discover (directory : Path) (pattern : String) (tree : Tree) :
    PassesBy place bytes
      (discover directory pattern : Machine σ (Except Failure (List Path))) tree := by
  obtain ⟨result, hgives⟩ := exists_gives_discover (σ := σ) tree directory pattern
  refine Blind.passesBy ?_ hgives
  unfold discover
  cases Glob.read pattern with
  | error fault => exact blind_pure _
  | ok glob =>
    refine (blind_list directory).bind (ensures_true _ _) fun result tree' _ => ?_
    cases result <;> exact blind_pure _

/-- A whole directory is taken alike. -/
theorem passesBy_runDirectory (hno : NoDocument place old tree) {directory : Path}
    {pattern : String}
    (halike : ∀ path, Matched tree directory pattern path → ReadsAlike place bytes tree path) :
    PassesBy place bytes (runDirectory rules mode tell directory pattern) tree := by
  refine (passesBy_discover directory pattern tree).bind (ensures_discover tree directory pattern)
    fun result tree' hfound _ => ?_
  obtain ⟨rfl, -, hpaths⟩ := hfound
  cases result with
  | error failure => exact passesBy_pure _
  | ok paths =>
    have hfiles := passesBy_runFilesFrom htell hblind rules mode hno { dryRun := mode = .dryRun }
      fun path hpath => halike path (((hpaths paths rfl).2 path).1 hpath)
    refine PassesBy.bind ?_ (ensures_true _ _) fun _ _ _ _ => passesBy_pure _
    refine hfiles.bind (ensures_true _ _) fun summary tree'' _ _ => ?_
    exact ((hblind _ tree'').passesBy (htell _ tree'')).bind (ensures_true _ _)
      fun _ _ _ _ => passesBy_pure summary

end

end WorkflowRepair.Batch
