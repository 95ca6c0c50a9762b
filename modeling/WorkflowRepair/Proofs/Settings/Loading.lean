import WorkflowRepair.Proofs.Files.Machine
import WorkflowRepair.Settings.Layers

/-!
# Loading settings

The settings of a run depend on its settings file and on nothing else of the tree (`looksAt_load`),
and settings that are loaded have been checked (`ensures_load`).
-/

namespace WorkflowRepair.Settings

open Files (Path Tree Machine Ensures LooksAt FileAccess)
open Files (ensures_true ensures_pure gives_pure looksAt_pure looksAt_text)

variable {σ : Type}

theorem looksAt_readFile (path : Path) :
    LooksAt path (readFile path : Machine σ (Except Fault (Option Settings))) := by
  refine looksAt_text (fun text => ?_) ⟨_, fun tree => gives_pure _⟩
  cases text with
  | error cause => exact ⟨_, fun tree => gives_pure _⟩
  | ok text =>
    dsimp only
    split <;> exact ⟨_, fun tree => gives_pure _⟩

theorem looksAt_readBase (asked : Option Path) (directory : Path) :
    LooksAt (asked.getD (defaultFile directory))
      (readBase asked directory : Machine σ (Except Fault Settings)) := by
  refine (looksAt_readFile _).bind fun result => ?_
  cases result with
  | error fault => exact looksAt_pure _ _
  | ok settings =>
    cases settings with
    | some settings => exact looksAt_pure _ _
    | none => cases asked <;> exact looksAt_pure _ _

/-- Loading settings looks at the settings file only. -/
theorem looksAt_load (asked : Option Path) (directory : Path) (environment : Environment) :
    LooksAt (asked.getD (defaultFile directory))
      (load asked directory environment : Machine σ (Except Fault Settings)) := by
  refine (looksAt_readBase asked directory).bind fun base => ?_
  cases base <;> exact looksAt_pure _ _

/-- Settings that are loaded have passed the check. -/
theorem ensures_load (asked : Option Path) (directory : Path) (environment : Environment)
    (tree : Tree) :
    Ensures (load asked directory environment : Machine σ (Except Fault Settings)) tree
      fun result _ => ∀ settings, result = .ok settings → validate settings = .ok () := by
  refine (ensures_true _ tree).bind fun base tree' _ => ?_
  cases base with
  | error fault => exact ensures_pure fun settings h => nomatch h
  | ok base =>
    refine ensures_pure fun settings h => ?_
    cases hvalid : validate (applyOverrides environment base) with
    | error fault =>
      simp only [finish, hvalid] at h
      cases h
    | ok _ =>
      simp only [finish, hvalid] at h
      cases h
      exact hvalid

end WorkflowRepair.Settings
