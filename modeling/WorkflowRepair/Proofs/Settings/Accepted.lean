import WorkflowRepair.Settings.Validation

/-!
# Accepted settings

What the check of the settings promises to every run that follows it. `validate_eq_ok_iff` reads
all of its conditions off at once, so that no other proof has to follow the check itself.
-/

namespace WorkflowRepair.Settings

/-- The conditions under which settings are accepted. -/
structure Accepted (settings : Settings) : Prop where
  not_blank : ∀ field : Field, Text.isBlankText (field.value settings) = false
  distinct_types : distinctTypes settings.nodeTypes = true
  not_prefixed : settings.expression.barePrefix.toList.head? ≠ some '='
  identifier : isIdentifier settings.declaration.variableName.toList = true
  not_mentions : markerMentions settings.declaration = false
  pattern : ∃ glob, Glob.read settings.batch.pattern = .ok glob

theorem mem_all (field : Field) : field ∈ Field.all := by
  cases field <;> decide

theorem firstBlank?_eq_none_iff {settings : Settings} :
    firstBlank? settings = none ↔
      ∀ field : Field, Text.isBlankText (field.value settings) = false := by
  simp only [firstBlank?, List.find?_eq_none, Bool.not_eq_true]
  exact ⟨fun h field => h field (mem_all field), fun h field _ => h field⟩

theorem validate_eq_ok_iff {settings : Settings} :
    validate settings = .ok () ↔ Accepted settings := by
  constructor
  · intro h
    -- one stage of the validation after the other, each left by the way that goes on
    unfold validate at h
    split at h
    case h_1 => simp at h
    case h_2 hblank =>
      split at h
      case isTrue => simp at h
      case isFalse hdistinct =>
        split at h
        case isTrue => simp at h
        case isFalse hknown =>
          split at h
          case isTrue => simp at h
          case isFalse hname =>
            split at h
            case isTrue => simp at h
            case isFalse hmarker =>
              split at h
              case h_1 => simp at h
              case h_2 glob hglob =>
                exact ⟨firstBlank?_eq_none_iff.1 hblank, by simpa using hdistinct,
                  by simpa using hknown, by simpa using hname, by simpa using hmarker, glob, hglob⟩
  · rintro ⟨hblank, hdistinct, hknown, hname, hmarker, glob, hglob⟩
    simp [validate, firstBlank?_eq_none_iff.2 hblank, hdistinct, hknown, hname, hmarker, hglob]

end WorkflowRepair.Settings
