import Mathlib.Tactic.Choose
import WorkflowRepair.Proofs.Files.Tree

/-!
# Actions on files

What an action does to a file system is stated by `Ensures`: whatever the rest of the state is, the
result and the file system that the action leaves satisfy a condition. `Ensures.bind` takes actions
apart, and `Gives` is for actions of which the result and the file system left are known.

On trees, an action that only looks at the file under one path (`LooksAt`) gives the same in every
tree that has the same file there.
-/

namespace WorkflowRepair.Files

/-- Actions on a tree and on more state, in which there are no files. -/
abbrev Machine (σ : Type) := StateT Tree (StateM σ)

variable {F σ α β : Type}

/-- The result of an action on a file system and the file system that it leaves satisfy a
condition. -/
def Ensures (action : StateT F (StateM σ) α) (files : F) (post : α → F → Prop) : Prop :=
  ∀ state : σ, post (action files state).1.1 (action files state).1.2

/-- An action on a file system has a result and leaves a file system. -/
abbrev Gives (action : StateT F (StateM σ) α) (files : F) (result : α) (left : F) : Prop :=
  Ensures action files fun a files' => a = result ∧ files' = left

section

variable {action : StateT F (StateM σ) α} {files files' : F} {post : α → F → Prop}

theorem Ensures.mono {post' : α → F → Prop} (h : Ensures action files post)
    (himp : ∀ a files', post a files' → post' a files') : Ensures action files post' :=
  fun state => himp _ _ (h state)

theorem Ensures.and {post' : α → F → Prop} (h : Ensures action files post)
    (h' : Ensures action files post') :
    Ensures action files fun a files' => post a files' ∧ post' a files' :=
  fun state => ⟨h state, h' state⟩

theorem ensures_true (action : StateT F (StateM σ) α) (files : F) :
    Ensures action files fun _ _ => True :=
  fun _ => trivial

theorem ensures_pure {a : α} (h : post a files) :
    Ensures (pure a : StateT F (StateM σ) α) files post :=
  fun _ => h

theorem gives_pure (a : α) {files : F} : Gives (pure a : StateT F (StateM σ) α) files a files :=
  ensures_pure ⟨rfl, rfl⟩

theorem Ensures.bind {next : α → StateT F (StateM σ) β} {post' : β → F → Prop}
    (h : Ensures action files post)
    (hnext : ∀ a files', post a files' → Ensures (next a) files' post') :
    Ensures (action >>= next) files post' :=
  fun state => hnext _ _ (h state) (action files state).2

theorem Gives.bind {a : α} {next : α → StateT F (StateM σ) β} {post : β → F → Prop}
    (h : Gives action files a files') (hnext : Ensures (next a) files' post) :
    Ensures (action >>= next) files post := by
  refine Ensures.bind h fun b files'' heq => ?_
  rw [heq.1, heq.2]
  exact hnext

/-- What is ensured holds of what is given. -/
theorem Gives.elim {a : α} (hgives : Gives action files a files') (h : Ensures action files post)
    (state : σ) : post a files' := by
  have hpost := h state
  rwa [(hgives state).1, (hgives state).2] at hpost

end

/-! ## Operations -/

section

variable {tree : Tree}

theorem gives_exists (path : Path) :
    Gives (FileAccess.exists? path : Machine σ Bool) tree (tree.contains path) tree :=
  fun _ => ⟨rfl, rfl⟩

theorem gives_isDirectory (path : Path) :
    Gives (FileAccess.isDirectory path : Machine σ Bool) tree (tree.isDirectory path) tree :=
  fun _ => ⟨rfl, rfl⟩

theorem gives_read (path : Path) :
    Gives (FileAccess.read path : Machine σ (Except Fault ByteArray)) tree (tree.read path) tree :=
  fun _ => ⟨rfl, rfl⟩

theorem gives_list (path : Path) :
    Gives (FileAccess.list path : Machine σ (Except Fault (List DirectoryEntry))) tree
      (tree.list path) tree :=
  fun _ => ⟨rfl, rfl⟩

/-- An operation changes the tree, or fails and leaves it as it is. -/
theorem ensures_run {operation : Tree → Except Fault Tree} {post : Except Fault Unit → Tree → Prop}
    (hok : ∀ tree', operation tree = .ok tree' → post (.ok ()) tree')
    (herror : ∀ fault, operation tree = .error fault → post (.error fault) tree) :
    Ensures (Tree.run operation : Machine σ (Except Fault Unit)) tree post := by
  intro state
  unfold Tree.run
  cases h : operation tree with
  | ok tree' => exact hok tree' h
  | error fault => exact herror fault h

theorem gives_run_ok {operation : Tree → Except Fault Tree} {tree' : Tree}
    (h : operation tree = .ok tree') :
    Gives (Tree.run operation : Machine σ (Except Fault Unit)) tree (.ok ()) tree' := by
  refine ensures_run (fun tree'' h' => ?_) (fun fault h' => ?_)
  · rw [h] at h'
    cases h'
    exact ⟨rfl, rfl⟩
  · rw [h] at h'
    cases h'

theorem gives_run_error {operation : Tree → Except Fault Tree} {fault : Fault}
    (h : operation tree = .error fault) :
    Gives (Tree.run operation : Machine σ (Except Fault Unit)) tree (.error fault) tree := by
  refine ensures_run (fun tree'' h' => ?_) (fun fault' h' => ?_)
  · rw [h] at h'
    cases h'
  · rw [h] at h'
    cases h'
    exact ⟨rfl, rfl⟩

end

/-! ## Looking at one file -/

/-- What there is to see under a path, none if it leads to nothing. -/
def Tree.view (tree : Tree) (path : Path) : Option (Except Fault ByteArray) :=
  if tree.contains path then some (tree.read path) else none

theorem Tree.read_of_view {tree tree' : Tree} {path : Path} {bytes : ByteArray}
    (hview : tree'.view path = tree.view path) (h : tree.read path = .ok bytes) :
    tree'.read path = .ok bytes := by
  have hseen : tree.view path = some (.ok bytes) := by
    rw [Tree.view, if_pos (Tree.contains_of_read h), h]
  rw [← hview, Tree.view] at hseen
  split at hseen
  case isTrue => exact Option.some.inj hseen
  case isFalse => cases hseen

/-- An action that changes no tree, and whose result depends only on what there is to see under one
path. -/
def LooksAt (path : Path) (action : Machine σ α) : Prop :=
  ∃ result : Option (Except Fault ByteArray) → α,
    ∀ tree : Tree, Gives action tree (result (tree.view path)) tree

section

variable {path : Path} {action : Machine σ α}

theorem looksAt_pure (path : Path) (a : α) : LooksAt path (pure a : Machine σ α) :=
  ⟨fun _ => a, fun _ => gives_pure a⟩

theorem LooksAt.bind {next : α → Machine σ β} (h : LooksAt path action)
    (hnext : ∀ a, LooksAt path (next a)) : LooksAt path (action >>= next) := by
  rcases h with ⟨result, hresult⟩
  choose results hresults using hnext
  exact ⟨fun view => results (result view) view,
    fun tree => (hresult tree).bind (hresults _ tree)⟩

/-- An action that looks at one file gives the same in trees that have the same file. -/
theorem LooksAt.gives {tree tree' : Tree} {a : α} {left : Tree} (h : LooksAt path action)
    (hview : tree'.view path = tree.view path) (hgives : Gives action tree a left) :
    Gives action tree' a tree' := by
  intro state
  rcases h with ⟨result, hresult⟩
  have ha := (hgives.elim (hresult tree) state).1
  rw [ha, ← hview]
  exact hresult tree' state

/-- An action that looks at one file changes nothing, and does the same when it is run again. -/
theorem LooksAt.ensures_gives (h : LooksAt path action) (tree : Tree) :
    Ensures action tree fun a tree' => tree' = tree ∧ Gives action tree a tree := by
  rcases h with ⟨result, hresult⟩
  refine (hresult tree).mono fun a tree' heq => ?_
  rw [heq.1]
  exact ⟨heq.2, hresult tree⟩

end

/-- The text of a file, given its bytes. -/
def textOf : Except Fault ByteArray → Except Fault String
  | .error fault => .error fault
  | .ok bytes =>
    match String.fromUTF8? bytes with
    | some text => .ok text
    | none => .error .notText

theorem gives_readText (tree : Tree) (path : Path) :
    Gives (readText path : Machine σ (Except Fault String)) tree (textOf (tree.read path)) tree := by
  refine (gives_read path).bind ?_
  cases tree.read path with
  | error fault => exact gives_pure _
  | ok bytes =>
    unfold textOf
    dsimp only
    cases String.fromUTF8? bytes with
    | none => exact gives_pure _
    | some text => exact gives_pure _

theorem textOf_eq_ok_iff {read : Except Fault ByteArray} {text : String} :
    textOf read = .ok text ↔ ∃ bytes, read = .ok bytes ∧ String.fromUTF8? bytes = some text := by
  unfold textOf
  cases read with
  | error fault => simp
  | ok bytes =>
    dsimp only
    split
    case h_1 text' h => simp [h]
    case h_2 h => simp [h]

/-- An action that goes on from the text of a file, if the file exists, looks at this file only. -/
theorem looksAt_text {path : Path} {next : Except Fault String → Machine σ α}
    {missing : Machine σ α} (hnext : ∀ text, ∃ a, ∀ tree : Tree, Gives (next text) tree a tree)
    (hmissing : ∃ a, ∀ tree : Tree, Gives missing tree a tree) :
    LooksAt path (do
      if ← FileAccess.exists? path then next (← readText path) else missing) := by
  choose result hresult using hnext
  rcases hmissing with ⟨otherwise, hotherwise⟩
  refine ⟨fun view => view.elim otherwise fun read => result (textOf read), fun tree =>
    (gives_exists path).bind ?_⟩
  unfold Tree.view
  split
  case isTrue => exact (gives_readText tree path).bind (hresult _ tree)
  case isFalse => exact hotherwise tree

end WorkflowRepair.Files
