import WorkflowRepair.Batch.Run
import WorkflowRepair.Proofs.Files.Change
import WorkflowRepair.Proofs.Rules.Idempotence
import WorkflowRepair.Proofs.Rules.Rewriting
import WorkflowRepair.Proofs.Workflow.Codec

/-!
# Trees on the way to being repaired

A run that stores documents only ever replaces a document by a final one, on which no rule fires and
none fails. `Advances` says so of the trees before and after: it is what one document and a whole run
preserve, and everything that is final stays final.

* `Advances.view` — what is no document stays as it is;
* `Advances.exists_list` — a directory goes on listing what it listed;
* `final_of_patch`, `final_toText` — when a document is final, before and after the rules.
-/

namespace WorkflowRepair.Batch

open Files (Path Tree Location Entry Fault DirectoryEntry)
open Json (Value Members)
open Repair (RuleSet FinalCorrections Record)
open Workflow (Document)
open Workflow.Document (Encodes)

/-- Bytes of a document in which no rule finds anything to repair or to complain about. -/
def Final (rules : RuleSet) (bytes : ByteArray) : Prop :=
  ∃ root, Encodes root bytes ∧ ∀ path, (rules.patch ⟨path, root⟩).2 = {}

/-- Each file of the first tree is in the second as it was, unless it held a document: then it may be
final there. Nothing is added, and relative paths start where they started. -/
structure Advances (rules : RuleSet) (tree tree' : Tree) : Prop where
  workingDirectory : tree'.workingDirectory = tree.workingDirectory
  stored : ∀ location, tree'.get? location = tree.get? location ∨
    ∃ root old bytes, tree.get? location = some (.file old) ∧ Encodes root old ∧
      tree'.get? location = some (.file bytes) ∧ Final rules bytes
  listed : ∀ e ∈ tree'.entries, ∃ e' ∈ tree.entries, e'.1 = e.1 ∧ e'.2.isFile = e.2.isFile

/-- The file under a path is final. -/
def FinalAt (rules : RuleSet) (tree : Tree) (path : Path) : Prop :=
  ∃ bytes, tree.read path = .ok bytes ∧ Final rules bytes

/-- Every document under a path holds only numbers that stand for integers. -/
def WholeAt (tree : Tree) (path : Path) : Prop :=
  ∀ bytes root, tree.read path = .ok bytes → Encodes root bytes → (Value.object root).AllWhole

variable {rules : RuleSet} {tree tree' tree'' : Tree}

theorem Advances.refl (rules : RuleSet) (tree : Tree) : Advances rules tree tree where
  workingDirectory := rfl
  stored _ := .inl rfl
  listed e he := ⟨e, he, rfl, rfl⟩

theorem Advances.trans (h : Advances rules tree tree') (h' : Advances rules tree' tree'') :
    Advances rules tree tree'' where
  workingDirectory := h'.workingDirectory.trans h.workingDirectory
  stored location := by
    rcases h'.stored location with hsame' | ⟨root', old', bytes', hold', hroot', hbytes', hfinal'⟩
    · rw [hsame']
      exact h.stored location
    · rcases h.stored location with hsame | ⟨root, old, bytes, hold, hroot, -, -⟩
      · exact .inr ⟨root', old', bytes', hsame.symm.trans hold', hroot', hbytes', hfinal'⟩
      · exact .inr ⟨root, old, bytes', hold, hroot, hbytes', hfinal'⟩
  listed e he := by
    rcases h'.listed e he with ⟨e', he', hlocation', hfile'⟩
    rcases h.listed e' he' with ⟨e'', he'', hlocation, hfile⟩
    exact ⟨e'', he'', hlocation.trans hlocation', hfile.trans hfile'⟩

theorem Advances.persists (h : Advances rules tree tree') : tree.Persists tree' where
  workingDirectory := h.workingDirectory
  exists_entry location entry hget := by
    rcases h.stored location with hsame | ⟨_, old, bytes, hold, _, hbytes, _⟩
    · exact ⟨entry, hsame.trans hget, rfl⟩
    · rw [hget, Option.some.injEq] at hold
      rw [hold]
      exact ⟨.file bytes, hbytes, rfl⟩

theorem Advances.persists_back (h : Advances rules tree tree') : tree'.Persists tree where
  workingDirectory := h.workingDirectory.symm
  exists_entry location entry hget := by
    rcases h.stored location with hsame | ⟨_, old, bytes, hold, _, hbytes, _⟩
    · exact ⟨entry, hsame.symm.trans hget, rfl⟩
    · rw [hget, Option.some.injEq] at hbytes
      rw [hbytes]
      exact ⟨.file old, hold, rfl⟩

/-- What is read afterwards was read before, or is final. -/
theorem Advances.read {path : Path} {bytes : ByteArray} (h : Advances rules tree tree')
    (hread : tree'.read path = .ok bytes) : tree.read path = .ok bytes ∨ Final rules bytes := by
  rcases Tree.read_eq_ok_iff.1 hread with ⟨location, hresolve⟩
  have hget := Tree.get?_of_resolve hresolve
  rcases h.stored location with hsame | ⟨_, old, bytes', hold, _, hbytes', hfinal⟩
  · refine .inl (Tree.read_eq_ok_iff.2 ⟨location, ?_⟩)
    rw [Tree.resolve_of_persists h.persists_back hresolve rfl, Files.Target.seenIn,
      hsame.symm.trans hget]
    rfl
  · rw [hget] at hbytes'
    cases hbytes'
    exact .inr hfinal

theorem Advances.finalAt {path : Path} (h : Advances rules tree tree')
    (hfinal : FinalAt rules tree path) : FinalAt rules tree' path := by
  rcases hfinal with ⟨bytes, hread, hfinal⟩
  rcases Tree.read_eq_ok_iff.1 hread with ⟨location, hresolve⟩
  have hresolve' := Tree.resolve_of_persists h.persists hresolve rfl
  rcases h.stored location with hsame | ⟨_, _, bytes', _, _, hbytes', hfinal'⟩
  · rw [Files.Target.seenIn, hsame, Tree.get?_of_resolve hresolve] at hresolve'
    exact ⟨bytes, Tree.read_eq_ok_iff.2 ⟨location, hresolve'⟩, hfinal⟩
  · rw [Files.Target.seenIn, hbytes'] at hresolve'
    exact ⟨bytes', Tree.read_eq_ok_iff.2 ⟨location, hresolve'⟩, hfinal'⟩

theorem Advances.wholeAt_or_finalAt {path : Path} (h : Advances rules tree tree')
    (hwhole : WholeAt tree path ∨ FinalAt rules tree path) :
    WholeAt tree' path ∨ FinalAt rules tree' path := by
  rcases hwhole with hwhole | hfinal
  · by_cases hfinal : FinalAt rules tree' path
    · exact .inr hfinal
    · refine .inl fun bytes root hread hroot => ?_
      rcases h.read hread with hread' | hbytes
      · exact hwhole bytes root hread' hroot
      · exact absurd ⟨bytes, hread, hbytes⟩ hfinal
  · exact .inr (h.finalAt hfinal)

/-- What is no document is seen afterwards as it was. -/
theorem Advances.view {path : Path} (h : Advances rules tree tree')
    (hnot : ∀ bytes root, tree.read path = .ok bytes → ¬ Encodes root bytes) :
    tree'.view path = tree.view path := by
  unfold Tree.view
  by_cases hcontains : tree.contains path = true
  · rw [if_pos hcontains, if_pos (Tree.contains_of_persists h.persists hcontains)]
    refine congrArg some (Tree.read_of_persists h.persists hcontains fun location bytes hresolve => ?_)
    have hget := Tree.get?_of_resolve hresolve
    rcases h.stored location with hsame | ⟨root, old, _, hold, hroot, _, _⟩
    · exact hsame.trans hget
    · rw [hget] at hold
      cases hold
      exact absurd hroot (hnot bytes root (Tree.read_eq_ok_iff.2 ⟨location, hresolve⟩))
  · have hcontains' : ¬ tree'.contains path = true :=
      fun hfound => hcontains (Tree.contains_of_persists h.persists_back hfound)
    rw [if_neg hcontains, if_neg hcontains']

theorem Advances.mem_entriesAt {location : Location} {e : DirectoryEntry}
    (h : Advances rules tree tree') (he : e ∈ tree'.entriesAt location) :
    e ∈ tree.entriesAt location := by
  rcases Tree.mem_entriesAt.1 he with ⟨found, hmem, hname, hdirectory, hfile⟩
  rcases h.listed found hmem with ⟨found', hmem', hlocation, hfile'⟩
  rw [← hlocation] at hname hdirectory
  exact Tree.mem_entriesAt.2 ⟨found', hmem', hname, hdirectory, hfile'.trans hfile⟩

/-- A directory that is listed goes on being listed, with nothing new in it. -/
theorem Advances.exists_list {path : Path} {entries : List DirectoryEntry}
    (h : Advances rules tree tree') (hlist : tree.list path = .ok entries) :
    ∃ entries', tree'.list path = .ok entries' ∧ ∀ e ∈ entries', e ∈ entries := by
  unfold Tree.list at hlist ⊢
  split at hlist
  case h_1 => cases hlist
  case h_2 location hresolve =>
    cases hlist
    rcases h.persists.exists_entry _ _ (Tree.get?_of_resolve hresolve) with ⟨entry', hget', hfile⟩
    rw [Tree.resolve_of_persists h.persists hresolve rfl, Files.Target.seenIn, hget',
      Files.Entry.eq_directory_of_isFile hfile]
    exact ⟨_, rfl, fun e he => h.mem_entriesAt he⟩
  case h_3 location hresolve =>
    cases hlist
    rw [Tree.resolve_of_persists h.persists hresolve rfl]
    exact ⟨_, rfl, fun e he => h.mem_entriesAt he⟩
  case h_4 => cases hlist
  case h_5 => cases hlist

/-- Replacing a document by a final one is a step on the way. -/
theorem advances_of_replaced {location : Location} {root : Members} {old bytes : ByteArray}
    (h : tree.Replaced location bytes tree') (hold : tree.get? location = some (.file old))
    (hroot : Encodes root old) (hfinal : Final rules bytes) : Advances rules tree tree' where
  workingDirectory := h.workingDirectory
  stored other := by
    by_cases heq : other = location
    · rw [heq]
      exact .inr ⟨root, old, bytes, hold, hroot, h.here, hfinal⟩
    · exact .inl (h.elsewhere other heq)
  listed := h.listed

/-! ## Final documents -/

/-- Where nothing fails, what a run reports does not depend on the path of the document. -/
theorem patch_at (rules : RuleSet) {document : Document}
    (h : (rules.patch document).2.failures = []) (path : Path) :
    (rules.patch ⟨path, document.root⟩).2 = (rules.patch document).2 := by
  cases hnodes : Members.get? "nodes" document.root with
  | none => simp [RuleSet.patch, hnodes]
  | some v =>
    cases v with
    | array entries => simp [RuleSet.patch, hnodes]
    | _ => simp [RuleSet.patch, hnodes] at h

/-- A document on which nothing happens is final. -/
theorem final_of_patch {document : Document} {bytes : ByteArray}
    (hroot : Encodes document.root bytes) (h : (rules.patch document).2 = {}) :
    Final rules bytes :=
  ⟨document.root, hroot, fun path => (patch_at rules (by rw [h]) path).trans h⟩

theorem patch_patched {settings : Settings} (hfinal : FinalCorrections settings)
    (document : Document) :
    ((RuleSet.all settings).patch ((RuleSet.all settings).patch document).1).2 =
      ((RuleSet.all settings).patch document).2.failuresOnly := by
  cases hnodes : Members.get? "nodes" document.root with
  | none => simp [RuleSet.patch, hnodes, Record.failuresOnly]
  | some v =>
    cases v with
    | array entries =>
      have hagain := Repair.patchEntries_patchEntries hfinal 0 entries
      simp only [RuleSet.patch, hnodes, Members.get?_insert_self, hagain]
    | _ => simp [RuleSet.patch, hnodes, Record.failuresOnly]

/-- The text of a patched document is final, if nothing failed and its numbers stand for integers. -/
theorem final_toText {settings : Settings} (hfinal : FinalCorrections settings)
    {document : Document} {bytes : ByteArray} (hroot : Encodes document.root bytes)
    (hwhole : (Value.object document.root).AllWhole)
    (h : ((RuleSet.all settings).patch document).2.failures = []) :
    Final (RuleSet.all settings) ((RuleSet.all settings).patch document).1.toText.toUTF8 := by
  have hstored : (Value.object document.root).Within Json.Number.StoredWhole (122 + 5) :=
    Json.within_of_allNumbers _ hroot.stored hwhole
  have hpatched := Document.encodes_toText (Repair.within_patch (.all settings) hstored)
  refine final_of_patch hpatched ?_
  rw [patch_patched hfinal, Record.failuresOnly, h]

end WorkflowRepair.Batch
