import WorkflowRepair.Command.Arguments

/-!
# Help

The help texts: a short form with one line for each argument, and a long form with the arguments
spread over lines.
-/

namespace WorkflowRepair.Command

/-- An argument in a help text: how it is written, what it does, and remarks. -/
structure HelpEntry where
  label : String
  text : String
  remarks : List String := []

/-- Entries under a title. -/
structure HelpGroup where
  title : String
  entries : List HelpEntry

/-- A help text: what stands above the usage in either form, the usage, and what stands below. -/
structure HelpPage where
  summary : String
  details : String
  usage : String
  groups : List HelpGroup
  example_ : Option String

/-- Blanks. -/
def blanks (n : Nat) : String := String.ofList (List.replicate n ' ')

/-- An entry on one line, with its label filled up to a width. -/
def HelpEntry.short (width : Nat) (entry : HelpEntry) : String :=
  "  " ++ entry.label ++ blanks (width - entry.label.length) ++ "  " ++
    " ".intercalate (entry.text :: entry.remarks) ++ "\n"

/-- An entry on several lines. -/
def HelpEntry.long (entry : HelpEntry) : String :=
  "  " ++ entry.label ++ "\n" ++ blanks 10 ++ entry.text ++ "\n" ++
    (if entry.remarks.isEmpty then "" else blanks 10 ++ "\n") ++
    String.join (entry.remarks.map fun remark => blanks 10 ++ remark ++ "\n")

/-- Entries, with empty lines between those of several lines. -/
def helpEntries (long : Bool) (entries : List HelpEntry) : String :=
  if long then "\n".intercalate (entries.map HelpEntry.long)
  else
    let width := (entries.map (·.label.length)).foldl max 0
    String.join (entries.map (HelpEntry.short width))

/-- The text of a page. -/
def HelpPage.render (long : Bool) (page : HelpPage) : String :=
  (if long then page.details else page.summary) ++ "\n\nUsage: " ++ page.usage ++ "\n" ++
    String.join (page.groups.map fun group =>
      "\n" ++ group.title ++ ":\n" ++ helpEntries long group.entries) ++
    match page.example_ with
    | some line => "\nExample:\n    " ++ line ++ "\n"
    | none => ""

/-! ## Entries -/

/-- The entry of the flag for more log lines. -/
def verboseEntry : HelpEntry := ⟨"-v, --verbose", "Log rule activity to stderr", []⟩

/-- The entry of the flag for help. -/
def helpEntry (long : Bool) : HelpEntry :=
  ⟨"-h, --help", if long then "Print help (see a summary with '-h')"
    else "Print help (see more with '--help')", []⟩

/-- The entry of the directory. -/
def directoryEntry : HelpEntry := ⟨"<DIR>", "Directory containing the workflow documents", []⟩

/-- The entry of the pattern. -/
def patternEntry : HelpEntry :=
  ⟨"    --pattern <GLOB>",
    "File name glob selecting documents (default: batch.pattern, then W*.json)", []⟩

/-- The groups for the settings file and the form of the report. -/
def corpusGroups : List HelpGroup :=
  [⟨"Configuration",
      [⟨"    --config <FILE>", "Path to config file (default: \x7bDIR\x7d/flowpatch.toml)", []⟩]⟩,
    ⟨"Output Options",
      [⟨"    --format <FORMAT>", "Report format written to stdout",
        ["[default: text]", "[possible values: text, json]"]⟩]⟩]

/-! ## Pages -/

/-- The page of the command that repairs. -/
def patchPage (long : Bool) : HelpPage :=
  { summary := "Patch every matching document in place"
    details :=
      "Patch loads each matching document, applies the credential, expression and " ++
        "use-before-declaration rules, and rewrites only the documents that changed."
    usage := "flowpatch patch [OPTIONS] <DIR>"
    groups :=
      [⟨"Arguments", [directoryEntry]⟩,
        ⟨"Options",
          [patternEntry, verboseEntry,
            ⟨"    --dry-run", "Report what would change without writing any file", []⟩,
            helpEntry long]⟩] ++ corpusGroups
    example_ := some "flowpatch patch ./workflows --pattern 'W*.json'" }

/-- The page of the command that only looks. -/
def checkPage (long : Bool) : HelpPage :=
  { summary := "Report pending fixes without writing"
    details :=
      "Check runs the same rules as patch but never writes. It exits with status 1 when any " ++
        "document would change or could not be processed."
    usage := "flowpatch check [OPTIONS] <DIR>"
    groups :=
      [⟨"Arguments", [directoryEntry]⟩,
        ⟨"Options", [patternEntry, verboseEntry, helpEntry long]⟩] ++ corpusGroups
    example_ := some "flowpatch check ./workflows --format json" }

/-- The page of the command that validates. -/
def validateContractPage (long : Bool) : HelpPage :=
  { summary := "Validate payloads against a JSON Schema contract"
    details :=
      "Validate-contract checks each payload file against a Draft 2020-12 JSON Schema with " ++
        "format assertions and lists every violation."
    usage := "flowpatch validate-contract [OPTIONS] --schema <FILE> <PAYLOAD>..."
    groups :=
      [⟨"Arguments", [⟨"<PAYLOAD>...", "Payload files to validate", []⟩]⟩,
        ⟨"Options",
          [⟨"    --schema <FILE>", "JSON Schema the payloads must satisfy", []⟩, verboseEntry,
            helpEntry long]⟩]
    example_ :=
      some ("flowpatch validate-contract --schema schemas/inbound/v1.json " ++
        "tests/contracts/valid_v1.json") }

/-- The page of the command for help. -/
def helpPage : HelpPage :=
  { summary := "Print this message or the help of the given subcommand(s)"
    details := "Print this message or the help of the given subcommand(s)"
    usage := "flowpatch help [COMMAND]..."
    groups := [⟨"Arguments", [⟨"[COMMAND]...", "Print help for the subcommand(s)", []⟩]⟩]
    example_ := none }

/-- The name and the version of the program. -/
def versionText : String := "flowpatch 0.1.0\n"

/-- The commands, one to a line. -/
def commandList : String :=
  helpEntries false
    [⟨"patch", (patchPage false).summary, []⟩, ⟨"check", (checkPage false).summary, []⟩,
      ⟨"validate-contract", (validateContractPage false).summary, []⟩,
      ⟨"help", helpPage.summary, []⟩]

/-- The help text of the program. -/
def programText (long : Bool) : String :=
  versionText ++ "Repair known defects in workflow definition documents\n\n" ++
    "USAGE:\n    flowpatch [OPTIONS] <COMMAND>\n\nOPTIONS:\n" ++
    helpEntries long
      [verboseEntry, helpEntry long, ⟨"-V, --version", "Print version", []⟩] ++
    "COMMANDS:\n" ++ commandList

/-- The help text of a topic. -/
def Topic.text (long : Bool) : Topic → String
  | .program => programText long
  | .patch => (patchPage long).render long
  | .check => (checkPage long).render long
  | .validateContract => (validateContractPage long).render long
  | .help => helpPage.render long

end WorkflowRepair.Command
