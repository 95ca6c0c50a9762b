import WorkflowRepair.Repair.Script
import WorkflowRepair.Settings.Basic
import WorkflowRepair.Settings.Fault
import WorkflowRepair.Text.Blank

/-!
# Checking settings

Settings that a run could not work with are refused before its first document. The checks stand in
a fixed order, and the first that fails is reported.
-/

namespace WorkflowRepair.Settings

/-- The value of a setting that may not be blank. -/
def Field.value (settings : Settings) : Field → String
  | .databaseType => settings.nodeTypes.database
  | .subWorkflowType => settings.nodeTypes.subWorkflow
  | .scriptType => settings.nodeTypes.script
  | .credentialKey => settings.credential.key
  | .credentialId => settings.credential.id
  | .credentialName => settings.credential.name
  | .expressionParameter => settings.expression.parameter
  | .barePrefix => settings.expression.barePrefix
  | .scriptParameter => settings.declaration.parameter
  | .marker => settings.declaration.marker
  | .pattern => settings.batch.pattern

/-- The settings that may not be blank, in the order in which they are checked. -/
def Field.all : List Field :=
  [.databaseType, .subWorkflowType, .scriptType, .credentialKey, .credentialId, .credentialName,
    .expressionParameter, .barePrefix, .scriptParameter, .marker, .pattern]

/-- The first setting that is blank though it may not be. -/
def firstBlank? (settings : Settings) : Option Field :=
  Field.all.find? fun field => Text.isBlankText (field.value settings)

/-- Whether the type tags differ from each other, so that none hides another. -/
def distinctTypes (types : NodeTypes) : Bool :=
  types.database != types.subWorkflow && types.database != types.script &&
    types.subWorkflow != types.script

/-- Whether a text is an identifier that can be searched for as a whole word at its beginning: a
leading `$` is no part of a word, so it is refused. -/
def isIdentifier : List Char → Bool
  | [] => false
  | first :: rest =>
    (first.isAlpha || first == '_') && rest.all fun c => c.isAlphanum || c == '_' || c == '$'

/-- Whether the marker reads as a check or a declaration itself. -/
def markerMentions (declaration : DeclarationSettings) : Bool :=
  Repair.mentions declaration.variableName.toList declaration.marker.toList

/-- Check settings. -/
def validate (settings : Settings) : Except Fault Unit :=
  match firstBlank? settings with
  | some field => .error (.blank field)
  | none =>
    if !distinctTypes settings.nodeTypes then .error .sharedNodeType
    else if settings.expression.barePrefix.toList.head? == some '=' then .error .prefixedByEquals
    else if !isIdentifier settings.declaration.variableName.toList then
      .error (.notIdentifier settings.declaration.variableName)
    else if markerMentions settings.declaration then .error .markerMentions
    else match Glob.read settings.batch.pattern with
      | .error fault => .error (.badPattern fault)
      | .ok _ => .ok ()

end WorkflowRepair.Settings
