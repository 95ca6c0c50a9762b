import WorkflowRepair.Proofs.Batch.Final

/-!
# What a run leaves behind

One document and a whole run have the same two properties. If storing them ends without an error, the
tree has advanced and every document of the run is final (`ensures_patchFile`, `ensures_runFilesFrom`,
`ensures_runDirectory`). And where every document is final, a run in either mode changes nothing and
reports nothing (`gives_patchFile_of_finalAt`, `ensures_runFilesFrom_of_finalAt`,
`ensures_runDirectory_of_finalAt`).
-/

namespace WorkflowRepair.Batch

open Files (Path Tree Fault DirectoryEntry Machine Ensures Gives FileAccess)
open Files (ensures_true ensures_pure gives_pure gives_read gives_list ensures_save)
open Json (Value Members)
open Repair (RuleSet FinalCorrections Record)
open Workflow (Document Failure)
open Workflow.Document (Encodes ofBytes_eq_ok_iff)

variable {F σ : Type}

/-- Passing on events changes no file. -/
def Quiet (tell : Event → StateT F (StateM σ) Unit) : Prop :=
  ∀ event files, Gives (tell event) files () files

theorem gives_tellChanges [FileAccess (StateT F (StateM σ))]
    {tell : Event → StateT F (StateM σ) Unit} (htell : Quiet tell) (path : Path)
    (changes : List Repair.Change) (files : F) :
    Gives (tellChanges tell path changes) files () files := by
  induction changes with
  | nil => exact gives_pure ()
  | cons change changes ih => exact (htell _ files).bind ih

/-- What is ensured of one document is ensured with the events around it. -/
theorem ensures_runFile [FileAccess (StateT F (StateM σ))] {tell : Event → StateT F (StateM σ) Unit}
    (htell : Quiet tell) {rules : RuleSet} {mode : Mode} {path : Path} {files : F}
    {post : Outcome → F → Prop} (h : Ensures (patchFile rules mode tell path) files post) :
    Ensures (runFile rules mode tell path) files post := by
  refine (htell _ files).bind (h.bind fun outcome files' hpost => ?_)
  exact (htell _ files').bind (ensures_pure hpost)

section

variable {tree : Tree} {path : Path}

theorem gives_load {bytes : ByteArray} (h : tree.read path = .ok bytes) :
    Gives (load path : Machine σ (Except Failure Document)) tree (Document.ofBytes path bytes)
      tree := by
  refine (gives_read path).bind ?_
  rw [h]
  exact gives_pure _

theorem gives_load_error {fault : Fault} (h : tree.read path = .error fault) :
    Gives (load path : Machine σ (Except Failure Document)) tree
      (.error (.load path (.file fault))) tree := by
  refine (gives_read path).bind ?_
  rw [h]
  exact gives_pure _

end

theorem path_patch (rules : RuleSet) (document : Document) :
    (rules.patch document).1.path = document.path := by
  unfold RuleSet.patch
  split <;> rfl

theorem record_of_finalAt {rules : RuleSet} {tree : Tree} {document : Document} {bytes : ByteArray}
    (h : FinalAt rules tree document.path) (hread : tree.read document.path = .ok bytes)
    (hroot : Encodes document.root bytes) : (rules.patch document).2 = {} := by
  rcases h with ⟨bytes', hread', root', hroot', hnothing⟩
  rw [hread] at hread'
  cases hread'
  rw [hroot'.unique hroot] at hnothing
  exact hnothing document.path

theorem errors_ofRecord (path : Path) {record : Record} :
    (Outcome.ofRecord path record).errors = [] ↔ record.failures = [] :=
  List.map_eq_nil_iff

/-- A run in which nothing was changed and nothing failed. -/
structure Idle (summary : Summary) : Prop where
  errors : summary.errors = []
  filesChanged : summary.filesChanged = 0
  changes : ∀ outcome ∈ summary.outcomes, outcome.changes = []

theorem idle_new (dryRun : Bool) : Idle { dryRun } where
  errors := rfl
  filesChanged := rfl
  changes _ hmem := absurd hmem List.not_mem_nil

theorem Idle.record {summary : Summary} (h : Idle summary) (path : Path) :
    Idle (summary.record (.ofRecord path {})) where
  errors := (List.append_nil _).trans h.errors
  filesChanged := h.filesChanged
  changes outcome hmem := by
    rcases List.mem_append.1 hmem with hmem | hmem
    · exact h.changes outcome hmem
    · rw [List.mem_singleton.1 hmem]
      rfl

/-! ## Storing -/

/-- A patched document that is stored is final, if nothing failed. -/
theorem ensures_store {settings : Settings} (hfinal : FinalCorrections settings) {tree : Tree}
    {document : Document} {bytes : ByteArray} (hread : tree.read document.path = .ok bytes)
    (hroot : Encodes document.root bytes) (hwhole : (Value.object document.root).AllWhole) :
    Ensures (store ((RuleSet.all settings).patch document).1 : Machine σ (Except Fault Unit)) tree
      fun result tree' => result = .ok () →
        ((RuleSet.all settings).patch document).2.failures = [] →
          Advances (.all settings) tree tree' ∧ FinalAt (.all settings) tree' document.path := by
  rcases Tree.read_eq_ok_iff.1 hread with ⟨location, hresolve⟩
  have hresolve' : tree.resolve ((RuleSet.all settings).patch document).1.path =
      .ok (.entry location (.file bytes)) := by rw [path_patch, hresolve]
  refine (ensures_save hresolve' _).mono fun result tree' hsaved hresult hfailures => ?_
  have hreplaced := hsaved hresult
  have hbytes := final_toText hfinal hroot hwhole hfailures
  have hadvances := advances_of_replaced hreplaced (Tree.get?_of_resolve hresolve) hroot hbytes
  refine ⟨hadvances, _, Tree.read_eq_ok_iff.2 ⟨location, ?_⟩, hbytes⟩
  rw [Tree.resolve_of_persists hadvances.persists hresolve rfl, Files.Target.seenIn, hreplaced.here]
  rfl

section

variable {settings : Settings} {tell : Event → Machine σ Unit} (htell : Quiet tell)

include htell

/-- A document that is taken without an error is final afterwards. -/
theorem ensures_patchFile (hfinal : FinalCorrections settings) {tree : Tree} {path : Path}
    (hwhole : WholeAt tree path ∨ FinalAt (.all settings) tree path) :
    Ensures (patchFile (.all settings) .write tell path) tree fun outcome tree' =>
      outcome.errors = [] →
        Advances (.all settings) tree tree' ∧ FinalAt (.all settings) tree' path := by
  unfold patchFile
  cases hread : tree.read path with
  | error fault => exact (gives_load_error hread).bind (ensures_pure fun h => nomatch h)
  | ok bytes =>
    refine (gives_load hread).bind ?_
    cases hdocument : Document.ofBytes path bytes with
    | error failure => exact ensures_pure fun h => nomatch h
    | ok document =>
      rcases ofBytes_eq_ok_iff.1 hdocument with ⟨hroot, rfl⟩
      dsimp only
      refine (gives_tellChanges htell document.path _ tree).bind ?_
      split
      case isTrue hchanged =>
        have hwholeRoot : (Value.object document.root).AllWhole := by
          refine hwhole.elim (fun h => h bytes document.root hread hroot) fun hfinalAt => ?_
          -- a final document is not changed, so it is not stored
          rw [record_of_finalAt hfinalAt hread hroot] at hchanged
          cases hchanged.1
        refine (ensures_store hfinal hread hroot hwholeRoot).bind fun result tree' hstored => ?_
        refine ensures_pure fun herrors => ?_
        cases result with
        | error fault => simp [Outcome.stored] at herrors
        | ok _ => exact hstored rfl ((errors_ofRecord document.path).1 herrors)
      case isFalse hchanged =>
        refine ensures_pure fun herrors => ⟨.refl _ tree, bytes, hread, final_of_patch hroot ?_⟩
        have hchanges : ((RuleSet.all settings).patch document).2.changes = [] := by
          simpa [Record.changed] using hchanged
        have hfailures := (errors_ofRecord document.path).1 herrors
        rw [Record.mk.injEq]
        exact ⟨hchanges, hfailures⟩

/-- A document that is final is left as it is, without anything to report. -/
theorem gives_patchFile_of_finalAt (mode : Mode) {tree : Tree} {path : Path}
    (h : FinalAt (.all settings) tree path) :
    Gives (patchFile (.all settings) mode tell path) tree (.ofRecord path {}) tree := by
  rcases h with ⟨bytes, hread, root, hroot, hnothing⟩
  have hdocument : Document.ofBytes path bytes = .ok ⟨path, root⟩ :=
    ofBytes_eq_ok_iff.2 ⟨hroot, rfl⟩
  refine (gives_load hread).bind ?_
  rw [hdocument]
  dsimp only
  rw [hnothing path]
  refine (gives_tellChanges htell path [] tree).bind ?_
  exact gives_pure _

/-! ## Runs -/

omit htell in
/-- Errors of documents are never taken back. -/
theorem ensures_runFilesFrom_errors (rules : RuleSet) (mode : Mode) (tell : Event → Machine σ Unit)
    (summary : Summary) (paths : List Path) (tree : Tree) :
    Ensures (runFilesFrom rules mode tell summary paths) tree fun summary' _ =>
      summary'.errors = [] → summary.errors = [] := by
  induction paths generalizing summary tree with
  | nil => exact ensures_pure fun h => h
  | cons path paths ih =>
    refine (ensures_true _ tree).bind fun outcome tree' _ => ?_
    refine (ih _ tree').mono fun summary' _ herrors h => ?_
    exact (List.append_eq_nil_iff.1 (herrors h)).1

/-- Documents that are taken without an error are all final afterwards. -/
theorem ensures_runFilesFrom (hfinal : FinalCorrections settings) (summary : Summary)
    {paths : List Path} {tree : Tree}
    (hwhole : ∀ path ∈ paths, WholeAt tree path ∨ FinalAt (.all settings) tree path) :
    Ensures (runFilesFrom (.all settings) .write tell summary paths) tree fun summary' tree' =>
      summary'.errors = [] → Advances (.all settings) tree tree' ∧
        ∀ path ∈ paths, FinalAt (.all settings) tree' path := by
  induction paths generalizing summary tree with
  | nil => exact ensures_pure fun _ => ⟨.refl _ tree, fun _ hpath => absurd hpath List.not_mem_nil⟩
  | cons path paths ih =>
    have hfirst := ensures_patchFile htell hfinal (hwhole path List.mem_cons_self)
    refine (ensures_runFile htell hfirst).bind fun outcome tree' houtcome => ?_
    by_cases herrors : outcome.errors = []
    · rcases houtcome herrors with ⟨hadvances, hfinalAt⟩
      have hwhole' : ∀ path' ∈ paths, WholeAt tree' path' ∨ FinalAt (.all settings) tree' path' :=
        fun path' hpath' => hadvances.wholeAt_or_finalAt (hwhole path' (List.mem_cons_of_mem _ hpath'))
      refine (ih _ hwhole').mono fun summary' tree'' hrest h => ?_
      rcases hrest h with ⟨hadvances', hfinalAt'⟩
      exact ⟨hadvances.trans hadvances',
        List.forall_mem_cons.2 ⟨hadvances'.finalAt hfinalAt, hfinalAt'⟩⟩
    · refine (ensures_runFilesFrom_errors _ _ _ _ _ tree').mono fun summary' tree'' hrest h => ?_
      have hnone := (List.append_eq_nil_iff.1 (hrest h)).2
      exact absurd (List.map_eq_nil_iff.1 hnone) herrors

/-- Documents that are final are left as they are, without anything to report. -/
theorem ensures_runFilesFrom_of_finalAt (mode : Mode) {summary : Summary} (hidle : Idle summary)
    {paths : List Path} {tree : Tree} (h : ∀ path ∈ paths, FinalAt (.all settings) tree path) :
    Ensures (runFilesFrom (.all settings) mode tell summary paths) tree fun summary' tree' =>
      tree' = tree ∧ Idle summary' := by
  induction paths generalizing summary with
  | nil => exact ensures_pure ⟨rfl, hidle⟩
  | cons path paths ih =>
    rw [List.forall_mem_cons] at h
    refine Gives.bind (ensures_runFile htell (gives_patchFile_of_finalAt htell mode h.1)) ?_
    exact ih (hidle.record path) h.2

end

/-! ## Directories -/

/-- A document that a run over a directory finds. -/
def Matched (tree : Tree) (directory : Path) (pattern : String) (path : Path) : Prop :=
  ∃ glob entries, Glob.read pattern = .ok glob ∧ tree.list directory = .ok entries ∧
    ∃ e ∈ entries, e.isFile = true ∧ Glob.accepts glob e.name = true ∧ path = directory.join ⟨e.name⟩

/-- The documents of a directory can be found at all. -/
def Listed (tree : Tree) (directory : Path) (pattern : String) : Prop :=
  ∃ glob entries, Glob.read pattern = .ok glob ∧ tree.list directory = .ok entries

section

variable {tree tree' : Tree} {directory : Path} {pattern : String}

theorem mem_selectNames {glob : Glob.Pattern} {entries : List DirectoryEntry} {name : List UInt8} :
    name ∈ selectNames glob entries ↔
      ∃ e ∈ entries, e.isFile = true ∧ Glob.accepts glob e.name = true ∧ e.name = name := by
  simp only [selectNames, List.mem_mergeSort, List.mem_map, List.mem_filter, Bool.and_eq_true,
    and_assoc]

/-- The documents that are found are those that match. -/
theorem ensures_discover (tree : Tree) (directory : Path) (pattern : String) :
    Ensures (discover directory pattern : Machine σ (Except Failure (List Path))) tree
      fun result tree' => tree' = tree ∧ (Listed tree directory pattern → ∃ paths, result = .ok paths) ∧
        ∀ paths, result = .ok paths → Listed tree directory pattern ∧
          ∀ path, path ∈ paths ↔ Matched tree directory pattern path := by
  unfold discover
  cases hglob : Glob.read pattern with
  | error fault =>
    refine ensures_pure ⟨rfl, ?_, fun paths h => nomatch h⟩
    rintro ⟨glob, entries, hglob', -⟩
    rw [hglob] at hglob'
    cases hglob'
  | ok glob =>
    refine (gives_list directory).bind ?_
    cases hlist : tree.list directory with
    | error fault =>
      refine ensures_pure ⟨rfl, ?_, fun paths h => nomatch h⟩
      rintro ⟨glob', entries, -, hlist'⟩
      rw [hlist] at hlist'
      cases hlist'
    | ok entries =>
      refine ensures_pure ⟨rfl, fun _ => ⟨_, rfl⟩, fun paths h => ?_⟩
      cases h
      refine ⟨⟨glob, entries, hglob, hlist⟩, fun path => ?_⟩
      simp only [List.mem_map, mem_selectNames, Matched, hglob, hlist]
      constructor
      · rintro ⟨name, ⟨e, he, hfile, haccepts, rfl⟩, rfl⟩
        exact ⟨glob, entries, rfl, rfl, e, he, hfile, haccepts, rfl⟩
      · rintro ⟨_, _, hglob', hlist', e, he, hfile, haccepts, rfl⟩
        cases hglob'
        cases hlist'
        exact ⟨e.name, ⟨e, he, hfile, haccepts, rfl⟩, rfl⟩

theorem Advances.listed_directory {rules : RuleSet} (h : Advances rules tree tree')
    (hlisted : Listed tree directory pattern) : Listed tree' directory pattern := by
  rcases hlisted with ⟨glob, entries, hglob, hlist⟩
  rcases h.exists_list hlist with ⟨entries', hlist', -⟩
  exact ⟨glob, entries', hglob, hlist'⟩

/-- No new documents match. -/
theorem Advances.matched {rules : RuleSet} {path : Path} (h : Advances rules tree tree')
    (hlisted : Listed tree directory pattern) (hmatched : Matched tree' directory pattern path) :
    Matched tree directory pattern path := by
  rcases hlisted with ⟨glob, entries, hglob, hlist⟩
  rcases hmatched with ⟨glob', entries', hglob', hlist', e, he, hfound⟩
  rcases h.exists_list hlist with ⟨entries'', hlist'', hsub⟩
  rw [hlist'] at hlist''
  cases hlist''
  exact ⟨glob', entries, hglob', hlist, e, hsub e he, hfound⟩

end

section

variable {settings : Settings} {tell : Event → Machine σ Unit} (htell : Quiet tell)

include htell

/-- After a run without errors all the documents of the directory are final. -/
theorem ensures_runDirectory (hfinal : FinalCorrections settings) {tree : Tree} {directory : Path}
    {pattern : String} (hwhole : ∀ path, Matched tree directory pattern path → WholeAt tree path) :
    Ensures (runDirectory (.all settings) .write tell directory pattern) tree fun result tree' =>
      ∀ summary, result = .ok summary → summary.errors = [] →
        Advances (.all settings) tree tree' ∧ Listed tree directory pattern ∧
          ∀ path, Matched tree directory pattern path → FinalAt (.all settings) tree' path := by
  refine (ensures_discover tree directory pattern).bind fun result tree' hfound => ?_
  rcases hfound with ⟨rfl, -, hpaths⟩
  cases result with
  | error failure => exact ensures_pure fun summary h => nomatch h
  | ok paths =>
    rcases hpaths paths rfl with ⟨hlisted, hmatched⟩
    have hfiles := ensures_runFilesFrom htell hfinal { dryRun := false } fun path hpath =>
      .inl (hwhole path ((hmatched path).1 hpath))
    refine Ensures.bind (hfiles.bind fun summary tree'' hrun =>
      (htell _ tree'').bind (ensures_pure hrun)) fun summary tree'' hrun => ?_
    refine ensures_pure fun summary' h herrors => ?_
    cases h
    rcases hrun herrors with ⟨hadvances, hfinalAt⟩
    exact ⟨hadvances, hlisted, fun path hpath => hfinalAt path ((hmatched path).2 hpath)⟩

/-- Where all the documents of a directory are final, a run changes and reports nothing. -/
theorem ensures_runDirectory_of_finalAt (mode : Mode) {tree : Tree} {directory : Path}
    {pattern : String} (hlisted : Listed tree directory pattern)
    (h : ∀ path, Matched tree directory pattern path → FinalAt (.all settings) tree path) :
    Ensures (runDirectory (.all settings) mode tell directory pattern) tree fun result tree' =>
      tree' = tree ∧ ∃ summary, result = .ok summary ∧ Idle summary := by
  refine (ensures_discover tree directory pattern).bind fun result tree' hfound => ?_
  rcases hfound with ⟨rfl, hexists, hpaths⟩
  rcases hexists hlisted with ⟨paths, rfl⟩
  have hmatched := (hpaths paths rfl).2
  have hfiles := ensures_runFilesFrom_of_finalAt htell mode (idle_new (mode = .dryRun))
    fun path hpath => h path ((hmatched path).1 hpath)
  refine Ensures.bind (hfiles.bind fun summary tree'' hrun =>
    (htell _ tree'').bind (ensures_pure hrun)) fun summary tree'' hrun => ?_
  exact ensures_pure ⟨hrun.1, summary, rfl, hrun.2⟩

end

end WorkflowRepair.Batch
