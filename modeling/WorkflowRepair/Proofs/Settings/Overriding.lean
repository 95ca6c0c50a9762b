import WorkflowRepair.Proofs.Settings.Loading
import WorkflowRepair.Proofs.Workflow.Codec

/-!
# Values that are overridden

An override takes the place of a setting, so the value that the setting had in the layers below is
gone. Two settings that become the same by it differ in nothing else (`AlikeBut`).

* `rel_ofText?` — two texts that differ at most in the text of one setting give settings that do, or
  both are refused;
* `exists_gives_load` — so they load alike if the environment gives the setting, since it is put in
  its place before the settings are checked;
* `validate_congr` — settings that differ in the pattern are judged alike if both patterns are
  usable.
-/

namespace WorkflowRepair.Settings

open Files (Path Tree Machine Gives FileAccess)
open Files (gives_pure gives_exists gives_readText textOf)
open Toml (Section Table)

/-! ## Places of settings -/

/-- The section of a setting that the environment can give. -/
def Override.group : Override → String
  | .credentialId => "credentials"
  | .credentialName => "credentials"
  | .pattern => "batch"

/-- The key of the setting in its section. -/
def Override.key : Override → String
  | .credentialId => "id"
  | .credentialName => "name"
  | .pattern => "pattern"

/-- The position of the setting in a section that is written as an array. -/
def Override.position : Override → Nat
  | .credentialId => 1
  | .credentialName => 2
  | .pattern => 0

/-- A section has a text for a setting, or nothing. -/
def HasText (override : Override) (group : Section) : Prop :=
  ∃ text, group.text? override.key override.position "" = some text

/-- Two sections differ at most in the text of one setting. -/
structure SameSectionBut (override : Override) (group group' : Section) : Prop where
  text : HasText override group
  text' : HasText override group'
  others : ∀ key position, key ≠ override.key → position ≠ override.position →
    group'.get? key position = group.get? key position

/-- Two tables differ at most in the text of one setting. -/
structure SameTableBut (override : Override) (table table' : Table) : Prop where
  group : ∃ group group', Section.ofTable? override.group table = some group ∧
    Section.ofTable? override.group table' = some group' ∧ SameSectionBut override group group'
  others : ∀ key ≠ override.group, table'.get? key = table.get? key

/-- Two texts differ at most in the text of one setting. -/
def SameTextBut (override : Override) (text text' : String) : Prop :=
  ∃ table table', Toml.read text = some table ∧ Toml.read text' = some table' ∧
    SameTableBut override table table'

/-- Two settings differ at most in one: with the same value for it they are the same. -/
def AlikeBut (override : Override) (settings settings' : Settings) : Prop :=
  ∀ value, Override.put value settings' override = Override.put value settings override

theorem alikeBut_refl (override : Override) (settings : Settings) :
    AlikeBut override settings settings :=
  fun _ => rfl

theorem AlikeBut.trans {override : Override} {settings settings' settings'' : Settings}
    (h : AlikeBut override settings settings') (h' : AlikeBut override settings' settings'') :
    AlikeBut override settings settings'' :=
  fun value => (h' value).trans (h value)

/-! ## Reading -/

theorem rel_self {α : Type} {r : α → α → Prop} (hr : ∀ a, r a a) (x : Option α) :
    Option.Rel r x x := by
  cases x with
  | some a => exact .some (hr a)
  | none => exact .none

theorem rel_bind {α β α' β' : Type} {r : α → α' → Prop} {s : β → β' → Prop} {x : Option α}
    {y : Option α'} {f : α → Option β} {g : α' → Option β'} (hxy : Option.Rel r x y)
    (hfg : ∀ a b, r a b → Option.Rel s (f a) (g b)) : Option.Rel s (x.bind f) (y.bind g) := by
  cases hxy with
  | some hab => exact hfg _ _ hab
  | none => exact .none

section

variable {override : Override} {group group' : Section}

theorem HasText.text? (h : HasText override group) (default : String) :
    ∃ text, group.text? override.key override.position default = some text := by
  obtain ⟨text, htext⟩ := h
  unfold Section.text? at htext ⊢
  split at htext
  case h_1 => exact ⟨_, rfl⟩
  case h_2 => exact ⟨_, rfl⟩
  case h_3 => cases htext

/-- The texts of two such sections are the same, but for the one setting. -/
theorem SameSectionBut.rel_text? (h : SameSectionBut override group group') {key : String}
    {position : Nat} (hplace : key = override.key ∧ position = override.position ∨
      key ≠ override.key ∧ position ≠ override.position) (default : String) :
    Option.Rel (fun text text' => key ≠ override.key → text' = text)
      (group.text? key position default) (group'.text? key position default) := by
  rcases hplace with ⟨rfl, rfl⟩ | ⟨hkey, hposition⟩
  · obtain ⟨text, htext⟩ := h.text.text? default
    obtain ⟨text', htext'⟩ := h.text'.text? default
    rw [htext, htext']
    exact .some fun hne => absurd rfl hne
  · rw [Section.text?, Section.text?, h.others key position hkey hposition]
    exact rel_self (fun _ _ => rfl) _

/-- Credentials that make settings which differ at most in one. -/
def AlikeCredentials (override : Override) (credential credential' : Credential) : Prop :=
  ∀ settings : Settings,
    AlikeBut override { settings with credential } { settings with credential := credential' }

theorem SameSectionBut.rel_credentialOf (h : SameSectionBut override group group')
    (hoverride : override ≠ .pattern) :
    Option.Rel (AlikeCredentials override) (credentialOf group) (credentialOf group') := by
  have hplaces : ∀ place ∈ [("key", 0), ("id", 1), ("name", 2)],
      place.1 = override.key ∧ place.2 = override.position ∨
        place.1 ≠ override.key ∧ place.2 ≠ override.position := by
    cases override <;> first | exact absurd rfl hoverride | decide
  refine rel_bind (h.rel_text? (hplaces ("key", 0) (by simp)) _) fun key key' hkey => ?_
  refine rel_bind (h.rel_text? (hplaces ("id", 1) (by simp)) _) fun id id' hid => ?_
  refine rel_bind (h.rel_text? (hplaces ("name", 2) (by simp)) _) fun name name' hname => ?_
  refine .some fun settings value => ?_
  cases override with
  | pattern => exact absurd rfl hoverride
  | credentialId => rw [hkey (by decide), hname (by decide)]; rfl
  | credentialName => rw [hkey (by decide), hid (by decide)]; rfl

/-- Batch settings that make settings which differ at most in one. -/
def AlikeBatches (override : Override) (batch batch' : BatchSettings) : Prop :=
  ∀ settings : Settings,
    AlikeBut override { settings with batch } { settings with batch := batch' }

theorem SameSectionBut.rel_batchOf (h : SameSectionBut .pattern group group') :
    Option.Rel (AlikeBatches .pattern) (batchOf group) (batchOf group') :=
  rel_bind (h.rel_text? (.inl ⟨rfl, rfl⟩) _) fun _ _ _ => .some fun _ _ => rfl

end

section

variable {override : Override} {table table' : Table} (h : SameTableBut override table table')

include h

theorem SameTableBut.section_eq {key : String} (hkey : key ≠ override.group) :
    Section.ofTable? key table' = Section.ofTable? key table := by
  rw [Section.ofTable?, Section.ofTable?, h.others key hkey]

theorem SameTableBut.rel_credential :
    Option.Rel (AlikeCredentials override)
      ((Section.ofTable? "credentials" table).bind credentialOf)
      ((Section.ofTable? "credentials" table').bind credentialOf) := by
  have hsame : override ≠ .pattern → override.group = "credentials" := by
    cases override <;> decide
  by_cases hoverride : override = .pattern
  · rw [h.section_eq (by rw [hoverride]; decide)]
    exact rel_self (fun _ _ => alikeBut_refl _ _) _
  · obtain ⟨group, group', hgroup, hgroup', hsections⟩ := h.group
    rw [hsame hoverride] at hgroup hgroup'
    rw [hgroup, hgroup']
    exact hsections.rel_credentialOf hoverride

theorem SameTableBut.rel_batch :
    Option.Rel (AlikeBatches override) ((Section.ofTable? "batch" table).bind batchOf)
      ((Section.ofTable? "batch" table').bind batchOf) := by
  by_cases hoverride : override = .pattern
  · subst hoverride
    obtain ⟨group, group', hgroup, hgroup', hsections⟩ := h.group
    rw [Override.group] at hgroup hgroup'
    rw [hgroup, hgroup']
    exact hsections.rel_batchOf
  · rw [h.section_eq (by cases override <;> first | exact absurd rfl hoverride | decide)]
    exact rel_self (fun _ _ => alikeBut_refl _ _) _

/-- Two such tables give settings that differ at most in the one, or both are refused. -/
theorem SameTableBut.rel_ofTable? :
    Option.Rel (AlikeBut override) (ofTable? table) (ofTable? table') := by
  have hsections : ∀ table, ofTable? table =
      ((Section.ofTable? "node_types" table).bind nodeTypesOf).bind fun nodeTypes =>
      ((Section.ofTable? "credentials" table).bind credentialOf).bind fun credential =>
      ((Section.ofTable? "expression" table).bind expressionOf).bind fun expression =>
      ((Section.ofTable? "declaration" table).bind declarationOf).bind fun declaration =>
      ((Section.ofTable? "batch" table).bind batchOf).bind fun batch =>
        some { nodeTypes, credential, expression, declaration, batch } := by
    intro table
    simp only [ofTable?, Option.bind_assoc, Option.bind_eq_bind, Option.pure_def]
  have hgroups : ∀ key ∈ ["node_types", "expression", "declaration"], key ≠ override.group := by
    cases override <;> decide
  rw [hsections, hsections, h.section_eq (hgroups "node_types" (by simp)),
    h.section_eq (hgroups "expression" (by simp)), h.section_eq (hgroups "declaration" (by simp))]
  refine rel_bind (rel_self (r := Eq) (fun _ => rfl) _) fun nodeTypes _ heq => ?_
  subst heq
  refine rel_bind h.rel_credential fun credential credential' hcredential => ?_
  refine rel_bind (rel_self (r := Eq) (fun _ => rfl) _) fun expression _ heq => ?_
  subst heq
  refine rel_bind (rel_self (r := Eq) (fun _ => rfl) _) fun declaration _ heq => ?_
  subst heq
  refine rel_bind h.rel_batch fun batch batch' hbatch => ?_
  let settings : Settings := { nodeTypes, credential, expression, declaration, batch }
  exact .some ((hcredential settings).trans (hbatch { settings with credential := credential' }))

end

theorem SameTextBut.rel_ofText? {override : Override} {text text' : String}
    (h : SameTextBut override text text') :
    Option.Rel (AlikeBut override) (ofText? text) (ofText? text') := by
  obtain ⟨table, table', htable, htable', hsame⟩ := h
  rw [ofText?, ofText?, htable, htable']
  exact hsame.rel_ofTable?

/-! ## Layers -/

/-- Two results are the same fault, or settings that differ at most in one. -/
inductive AlikeResults (override : Override) : Except Fault Settings → Except Fault Settings → Prop
  | error (fault : Fault) : AlikeResults override (.error fault) (.error fault)
  | ok {settings settings' : Settings} (h : AlikeBut override settings settings') :
      AlikeResults override (.ok settings) (.ok settings')

theorem AlikeResults.refl (override : Override) (result : Except Fault Settings) :
    AlikeResults override result result := by
  cases result with
  | error fault => exact .error fault
  | ok settings => exact .ok (alikeBut_refl override settings)

/-- The settings that a text gives before the environment. -/
def baseOf (path : Path) (text : String) : Except Fault Settings :=
  match ofText? text with
  | none => .error (.malformed path)
  | some settings => .ok settings

theorem SameTextBut.alikeResults {override : Override} {text text' : String}
    (h : SameTextBut override text text') (path : Path) :
    AlikeResults override (baseOf path text) (baseOf path text') := by
  have hrel := h.rel_ofText?
  unfold baseOf
  generalize ofText? text = settings, ofText? text' = settings' at hrel
  cases hrel with
  | some halike => exact .ok halike
  | none => exact .error _

section

variable {σ : Type} {tree : Tree} {asked : Option Path} {directory : Path}

theorem gives_readBase_text {text : String}
    (hread : tree.read (asked.getD (defaultFile directory)) = .ok text.toUTF8) :
    Gives (readBase asked directory : Machine σ (Except Fault Settings)) tree
      (baseOf (asked.getD (defaultFile directory)) text) tree := by
  have htext : textOf (tree.read (asked.getD (defaultFile directory))) = .ok text :=
    Files.textOf_eq_ok_iff.2 ⟨_, hread, Workflow.Document.fromUTF8?_toUTF8 text⟩
  have hfile : Gives (readFile (asked.getD (defaultFile directory)) :
      Machine σ (Except Fault (Option Settings))) tree
      ((baseOf (asked.getD (defaultFile directory)) text).map some) tree := by
    refine (gives_exists _).bind ?_
    rw [if_pos (Tree.contains_of_read hread)]
    refine (gives_readText tree _).bind ?_
    rw [htext, baseOf]
    dsimp only
    cases ofText? text with
    | none => exact gives_pure _
    | some settings => exact gives_pure _
  refine hfile.bind ?_
  cases baseOf (asked.getD (defaultFile directory)) text with
  | error fault => exact gives_pure _
  | ok settings => exact gives_pure _

theorem gives_load_of_base {base : Except Fault Settings}
    (h : Gives (readBase asked directory : Machine σ (Except Fault Settings)) tree base tree)
    (environment : Environment) :
    Gives (load asked directory environment : Machine σ (Except Fault Settings)) tree
      (base.bind (finish environment)) tree := by
  refine h.bind ?_
  cases base with
  | error fault => exact gives_pure _
  | ok settings => exact gives_pure _

end

/-! ## Settings that the environment gives -/

section

variable {override : Override} {environment : Environment} {value : String}
  (hgiven : given? environment override = some value)

include hgiven

/-- What the environment gives takes the place of whatever was there. -/
theorem applyOverrides_put (settings : Settings) :
    applyOverrides environment (Override.put value settings override) =
      applyOverrides environment settings := by
  simp only [applyOverrides, Override.all, List.foldl_cons, List.foldl_nil]
  -- the overrides in front of this one are put into both settings alike
  cases override with
  | credentialId =>
    rw [hgiven]
    rfl
  | credentialName =>
    rw [hgiven]
    cases given? environment .credentialId <;> rfl
  | pattern =>
    rw [hgiven]
    cases given? environment .credentialId <;> cases given? environment .credentialName <;> rfl

theorem AlikeResults.bind_finish {base base' : Except Fault Settings}
    (h : AlikeResults override base base') :
    base'.bind (finish environment) = base.bind (finish environment) := by
  cases h with
  | error fault => rfl
  | @ok settings settings' halike =>
    have hsame : applyOverrides environment settings' = applyOverrides environment settings := by
      rw [← applyOverrides_put hgiven settings', halike value, applyOverrides_put hgiven]
    simp only [Except.bind, finish, hsame]

end

/-- Two texts that differ at most in the text of one setting load alike if the environment gives the
setting. -/
theorem exists_gives_load {σ : Type} {override : Override} {environment : Environment}
    {value : String} (hgiven : given? environment override = some value) {asked : Option Path}
    {directory : Path} {tree tree' : Tree} {text text' : String}
    (hread : tree.read (asked.getD (defaultFile directory)) = .ok text.toUTF8)
    (hread' : tree'.read (asked.getD (defaultFile directory)) = .ok text'.toUTF8)
    (hsame : SameTextBut override text text') :
    ∃ result, Gives (load asked directory environment : Machine σ (Except Fault Settings)) tree
        result tree ∧
      Gives (load asked directory environment : Machine σ (Except Fault Settings)) tree' result
        tree' := by
  have hload := gives_load_of_base (σ := σ) (gives_readBase_text hread) environment
  have hload' := gives_load_of_base (σ := σ) (gives_readBase_text hread') environment
  rw [(hsame.alikeResults _).bind_finish hgiven] at hload'
  exact ⟨_, hload, hload'⟩

/-! ## A pattern that is given later -/

/-- What comes of settings, without the settings. -/
def verdict (result : Except Fault Settings) : Except Fault Unit := result.map fun _ => ()

/-- A pattern that is not refused. -/
def Usable (pattern : String) : Prop :=
  Text.isBlankText pattern = false ∧ ∃ glob, Glob.read pattern = .ok glob

section

variable {settings settings' : Settings} (h : AlikeBut .pattern settings settings')

include h

/-- Settings that differ in the pattern are otherwise the same. -/
theorem AlikeBut.eq_put : settings' = Override.put settings'.batch.pattern settings .pattern :=
  h settings'.batch.pattern

/-- The environment makes no other difference, if it makes none itself. -/
theorem AlikeBut.applyOverrides {environment environment' : Environment}
    (henvironment : ∀ override ≠ .pattern, environment' override = environment override) :
    AlikeBut .pattern (applyOverrides environment settings)
      (applyOverrides environment' settings') := by
  have hid : given? environment' .credentialId = given? environment .credentialId := by
    rw [given?, given?, henvironment .credentialId (by decide)]
  have hname : given? environment' .credentialName = given? environment .credentialName := by
    rw [given?, given?, henvironment .credentialName (by decide)]
  intro value
  rw [h.eq_put]
  simp only [Settings.applyOverrides, Override.all, List.foldl_cons, List.foldl_nil, hid, hname]
  cases given? environment .credentialId <;> cases given? environment .credentialName <;>
    cases given? environment .pattern <;> cases given? environment' .pattern <;> rfl

/-- Settings that differ in the pattern are judged alike if both patterns are usable. -/
theorem validate_congr (husable : Usable settings.batch.pattern)
    (husable' : Usable settings'.batch.pattern) : validate settings' = validate settings := by
  obtain ⟨hblank, glob, hglob⟩ := husable
  obtain ⟨hblank', glob', hglob'⟩ := husable'
  have hfields : ∀ field : Field, Text.isBlankText (field.value settings') =
      Text.isBlankText (field.value settings) := by
    intro field
    by_cases hfield : field = .pattern
    · rw [hfield]
      exact hblank'.trans hblank.symm
    · rw [h.eq_put]
      cases field <;> first | exact absurd rfl hfield | rfl
  have hfirst : firstBlank? settings' = firstBlank? settings := by
    rw [firstBlank?, firstBlank?, funext hfields]
  have htypes : settings'.nodeTypes = settings.nodeTypes := by rw [h.eq_put]; rfl
  have hexpression : settings'.expression = settings.expression := by rw [h.eq_put]; rfl
  have hdeclaration : settings'.declaration = settings.declaration := by rw [h.eq_put]; rfl
  simp only [validate, hfirst, htypes, hexpression, hdeclaration, hglob, hglob']

end

section

variable {environment environment' : Environment}
  (henvironment : ∀ override ≠ .pattern, environment' override = environment override)
  {base base' : Except Fault Settings} (h : AlikeResults .pattern base base')

include henvironment h

/-- If they are judged alike, what is loaded differs at most in the pattern. -/
theorem AlikeResults.finish
    (hverdict : verdict (base'.bind (finish environment')) =
      verdict (base.bind (finish environment))) :
    AlikeResults .pattern (base.bind (finish environment)) (base'.bind (finish environment')) := by
  cases h with
  | error fault => exact .error fault
  | @ok settings settings' halike =>
    have halike' := halike.applyOverrides henvironment
    simp only [Except.bind, Settings.finish] at hverdict ⊢
    cases hvalid : validate (applyOverrides environment settings) with
    | error fault =>
      cases hvalid' : validate (applyOverrides environment' settings') with
      | error fault' =>
        rw [hvalid, hvalid'] at hverdict
        cases hverdict
        exact .error fault
      | ok _ =>
        rw [hvalid, hvalid'] at hverdict
        cases hverdict
    | ok _ =>
      cases hvalid' : validate (applyOverrides environment' settings') with
      | error fault' =>
        rw [hvalid, hvalid'] at hverdict
        cases hverdict
      | ok _ => exact .ok halike'

/-- They are judged alike if both patterns are usable. -/
theorem AlikeResults.verdict_eq
    (husable : ∀ settings, base = .ok settings →
      Usable (applyOverrides environment settings).batch.pattern)
    (husable' : ∀ settings', base' = .ok settings' →
      Usable (applyOverrides environment' settings').batch.pattern) :
    verdict (base'.bind (Settings.finish environment')) =
      verdict (base.bind (Settings.finish environment)) := by
  cases h with
  | error fault => rfl
  | @ok settings settings' halike =>
    have hvalidate := validate_congr (halike.applyOverrides henvironment) (husable settings rfl)
      (husable' settings' rfl)
    simp only [Except.bind, Settings.finish, hvalidate]
    cases validate (applyOverrides environment settings) <;> rfl

end

end WorkflowRepair.Settings
