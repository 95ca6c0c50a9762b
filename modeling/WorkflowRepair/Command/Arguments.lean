import WorkflowRepair.Files.Path

/-!
# Arguments

What the program is asked to do. Arguments are bytes; options may stand before and behind operands,
two hyphens end the options, and an option takes the next argument as its value or what stands
behind an equals sign. An option is settled only when the next known argument is met, so an unknown
one is refused before a bad value in front of it.
-/

namespace WorkflowRepair.Command

open Files (Path)

/-! ## Requests -/

/-- The form of a report. -/
inductive ReportForm where
  | text
  | json
deriving DecidableEq, Repr

/-- The documents of a run and the form of its report. -/
structure Corpus where
  directory : Path
  pattern : Option String := none
  config : Option Path := none
  form : ReportForm := .text
deriving DecidableEq, Repr

/-- What to do. -/
inductive Action where
  | patch (corpus : Corpus) (dryRun : Bool)
  | check (corpus : Corpus)
  | validateContract (schema : Path) (payloads : List Path)
deriving DecidableEq, Repr

/-- An action, and whether more is logged. -/
structure Request where
  verbose : Bool
  action : Action
deriving DecidableEq, Repr

/-- The parts of the program that have a help text. -/
inductive Topic where
  | program
  | patch
  | check
  | validateContract
  | help
deriving DecidableEq, Repr

/-- Why arguments are refused. -/
inductive Refusal where
  | unknownArgument
  | unknownCommand
  | missingArgument
  | badValue
  /-- A value for an option that takes none. -/
  | unwantedValue
  | repeated
  | notText
  | noCommand
  /-- No argument at all. -/
  | nothing
deriving DecidableEq, Repr

/-- The wording of a refusal. -/
def Refusal.message : Refusal → String
  | .unknownArgument => "unknown argument"
  | .unknownCommand => "unknown command"
  | .missingArgument => "a required argument is missing"
  | .badValue => "an argument has no valid value"
  | .unwantedValue => "a value for an option that takes none"
  | .repeated => "an option is given more than once"
  | .notText => "an argument is not valid UTF-8"
  | .noCommand => "no command is given"
  | .nothing => "no arguments; try '--help'"

/-- What arguments come to. -/
inductive Answer where
  | request (request : Request)
  | help (topic : Topic) (long : Bool)
  | version
  | refuse (refusal : Refusal)
deriving DecidableEq, Repr

/-! ## Commands and their options -/

/-- A command that acts. -/
inductive Verb where
  | patch
  | check
  | validateContract
deriving DecidableEq, Repr

/-- The help text of a command. -/
def Verb.topic : Verb → Topic
  | .patch => .patch
  | .check => .check
  | .validateContract => .validateContract

/-- The command of a name. -/
def Verb.ofName? : String → Option Verb
  | "patch" => some .patch
  | "check" => some .check
  | "validate-contract" => some .validateContract
  | _ => none

/-- An option without a value. -/
inductive Flag where
  | verbose
  | dryRun
  | help
  | version
deriving DecidableEq, Repr

/-- An option with a value. -/
inductive Setting where
  | pattern
  | config
  | form
  | schema
deriving DecidableEq, Repr

/-- An option. -/
inductive Opt where
  | flag (flag : Flag)
  | setting (setting : Setting)
deriving DecidableEq, Repr

/-- The options of the program itself, if no command is given, and of each command. -/
def optionOf? (verb : Option Verb) (name : String) : Option Opt :=
  match verb, name with
  | _, "verbose" => some (.flag .verbose)
  | _, "help" => some (.flag .help)
  | none, "version" => some (.flag .version)
  | some .patch, "dry-run" => some (.flag .dryRun)
  | some .validateContract, "schema" => some (.setting .schema)
  | some .patch, "pattern" => some (.setting .pattern)
  | some .patch, "config" => some (.setting .config)
  | some .patch, "format" => some (.setting .form)
  | some .check, "pattern" => some (.setting .pattern)
  | some .check, "config" => some (.setting .config)
  | some .check, "format" => some (.setting .form)
  | _, _ => none

/-- The options with a letter. -/
def flagOf? (verb : Option Verb) (letter : UInt8) : Option Flag :=
  if letter = 118 then some .verbose
  else if letter = 104 then some .help
  else if letter = 86 ∧ verb = none then some .version
  else none

/-- The byte of a hyphen. -/
def hyphen : UInt8 := 45

/-- The byte of an equals sign. -/
def equals : UInt8 := 61

/-! ## Parts of arguments -/

/-- A part of the arguments. -/
inductive Part where
  /-- A flag, and whether its name is written out. -/
  | flag (flag : Flag) (long : Bool)
  /-- An option with the value behind its equals sign. -/
  | attached (setting : Setting) (value : List UInt8)
  /-- An option with the argument behind it, none if that is no value. -/
  | separate (setting : Setting) (value : Option (List UInt8))
  | operand (value : List UInt8)
  | unknown
  /-- A flag with a value. -/
  | overfull
deriving DecidableEq, Repr

/-- Whether an argument is an option or ends the options. A lone hyphen is an operand. -/
def isOption : List UInt8 → Bool
  | first :: _ :: _ => first == hyphen
  | _ => false

/-- The parts of an argument of one hyphen and letters. Nothing behind an unknown letter counts. -/
def letterParts (verb : Option Verb) : List UInt8 → List Part
  | [] => []
  | letter :: rest =>
    match flagOf? verb letter with
    | some flag => .flag flag false :: letterParts verb rest
    | none => [.unknown]

/-- Cut bytes at the first equals sign. -/
def splitEquals (bytes : List UInt8) : List UInt8 × Option (List UInt8) :=
  (bytes.takeWhile (· != equals),
    match bytes.dropWhile (· != equals) with
    | _ :: value => some value
    | [] => none)

/-- The parts of an option, and the option that waits for the next argument. -/
def optionParts (verb : Option Verb) (argument : List UInt8) : List Part × Option Setting :=
  if (argument.drop 1).head? = some hyphen then
    let (name, value) := splitEquals (argument.drop 2)
    match (Text.decode? name).bind (optionOf? verb), value with
    | none, _ => ([.unknown], none)
    | some (.flag flag), none => ([.flag flag true], none)
    | some (.flag _), some _ => ([.overfull], none)
    | some (.setting setting), some value => ([.attached setting value], none)
    | some (.setting setting), none => ([], some setting)
  else (letterParts verb (argument.drop 1), none)

/-- The parts of a list of arguments; `waiting` is an option that waits for its value. -/
def parts (verb : Option Verb) : (waiting : Option Setting) → List (List UInt8) → List Part
  | waiting, [] => waiting.toList.map (.separate · none)
  | waiting, argument :: rest =>
    if isOption argument then
      waiting.toList.map (.separate · none) ++
        if argument = [hyphen, hyphen] then rest.map .operand
        else
          let (found, waiting) := optionParts verb argument
          found ++ parts verb waiting rest
    else match waiting with
      | some setting => .separate setting (some argument) :: parts verb none rest
      | none => .operand argument :: parts verb none rest

/-! ## Settling -/

/-- What is known so far. -/
structure Settled where
  verbose : Bool := false
  dryRun : Bool := false
  pattern : Option String := none
  config : Option Path := none
  form : Option ReportForm := none
  schema : Option Path := none
  operands : List Path := []
deriving DecidableEq, Repr

/-- An option or operand that is not settled yet. -/
inductive Pending where
  | setting (setting : Setting) (value : Option (List UInt8))
  | operands (values : List (List UInt8))
deriving DecidableEq, Repr

/-- A path, which may not be empty. -/
def pathOf (bytes : List UInt8) : Except Refusal Path :=
  if bytes.isEmpty then .error .badValue else .ok ⟨bytes⟩

/-- A text. -/
def textOf (bytes : List UInt8) : Except Refusal String :=
  match Text.decode? bytes with
  | some text => .ok text
  | none => .error .notText

/-- The form of a report by its name. -/
def formOf (bytes : List UInt8) : Except Refusal ReportForm :=
  match Text.decode? bytes with
  | some "text" => .ok .text
  | some "json" => .ok .json
  | _ => .error .badValue

/-- Settle the value of an option, which may be given once. -/
def Settled.set (settled : Settled) (value : List UInt8) : Setting → Except Refusal Settled
  | .pattern =>
    if settled.pattern.isSome then .error .repeated
    else (textOf value).map fun pattern => { settled with pattern := some pattern }
  | .config =>
    if settled.config.isSome then .error .repeated
    else (pathOf value).map fun config => { settled with config := some config }
  | .form =>
    if settled.form.isSome then .error .repeated
    else (formOf value).map fun form => { settled with form := some form }
  | .schema =>
    if settled.schema.isSome then .error .repeated
    else (pathOf value).map fun schema => { settled with schema := some schema }

/-- Settle what is pending. -/
def Settled.settle (settled : Settled) : Option Pending → Except Refusal Settled
  | none => .ok settled
  | some (.setting _ none) => .error .badValue
  | some (.setting setting (some value)) => settled.set value setting
  | some (.operands values) =>
    (values.mapM pathOf).map fun paths => { settled with operands := settled.operands ++ paths }

/-- Why reading of parts ends. -/
inductive Stop where
  | refuse (refusal : Refusal)
  | help (long : Bool)
  | version
deriving DecidableEq, Repr

/-- Settle a flag. -/
def Settled.raise (settled : Settled) (long : Bool) : Flag → Except Stop Settled
  | .verbose =>
    if settled.verbose then .error (.refuse .repeated) else .ok { settled with verbose := true }
  | .dryRun =>
    if settled.dryRun then .error (.refuse .repeated) else .ok { settled with dryRun := true }
  | .help => .error (.help long)
  | .version => .error .version

/-- Take parts one by one. `several` says whether there may be more than one operand, and `met`
whether there has been one. -/
def settleParts (several : Bool) : (met : Bool) → Settled → Option Pending → List Part →
    Except Stop Settled
  | _, settled, pending, [] => (settled.settle pending).mapError .refuse
  | _, _, _, .unknown :: _ => .error (.refuse .unknownArgument)
  | _, _, _, .overfull :: _ => .error (.refuse .unwantedValue)
  | met, settled, pending, .flag flag long :: rest =>
    match settled.settle pending with
    | .error refusal => .error (.refuse refusal)
    | .ok settled =>
      match settled.raise long flag with
      | .error stop => .error stop
      | .ok settled => settleParts several met settled none rest
  | met, settled, pending, .attached setting value :: rest =>
    match (settled.settle pending).bind (·.set value setting) with
    | .error refusal => .error (.refuse refusal)
    | .ok settled => settleParts several met settled none rest
  | met, settled, pending, .separate setting value :: rest =>
    match settled.settle pending with
    | .error refusal => .error (.refuse refusal)
    | .ok settled => settleParts several met settled (some (.setting setting value)) rest
  | met, settled, pending, .operand value :: rest =>
    if met && !several then .error (.refuse .unknownArgument)
    else match pending with
      | some (.operands values) =>
        settleParts several true settled (some (.operands (values ++ [value]))) rest
      | pending =>
        match settled.settle pending with
        | .error refusal => .error (.refuse refusal)
        | .ok settled => settleParts several true settled (some (.operands [value])) rest

/-- The documents of a run, none if no directory is given. -/
def Settled.corpus? (settled : Settled) : Option Corpus :=
  settled.operands.head?.map fun directory =>
    { directory
      pattern := settled.pattern
      config := settled.config
      form := settled.form.getD .text }

/-- The action of a command, none if an argument is missing. -/
def Settled.action? (settled : Settled) : Verb → Option Action
  | .patch => settled.corpus?.map (.patch · settled.dryRun)
  | .check => settled.corpus?.map .check
  | .validateContract =>
    match settled.schema, settled.operands with
    | some schema, _ :: _ => some (.validateContract schema settled.operands)
    | _, _ => none

/-- Read the arguments of a command. -/
def readCommand (verbose : Bool) (verb : Verb) (arguments : List (List UInt8)) : Answer :=
  let given := parts (some verb) none arguments
  match settleParts (verb == .validateContract) false {} none given with
  | .error (.refuse refusal) => .refuse refusal
  | .error (.help long) => .help verb.topic long
  | .error .version => .version
  | .ok settled =>
    match settled.action? verb with
    | none => .refuse .missingArgument
    | some action => .request ⟨verbose || settled.verbose, action⟩

/-- The help text that the words behind `help` ask for. -/
def readHelp : List (List UInt8) → Answer
  | [] => .help .program true
  | word :: rest =>
    let topic := match Text.decode? word with
      | some "help" => some Topic.help
      | some name => (Verb.ofName? name).map Verb.topic
      | none => none
    match topic, rest with
    | some topic, [] => .help topic true
    | _, _ => .refuse .unknownCommand

/-- Settle the flags that one argument before the command gives. -/
def settleFlags (settled : Settled) (arguments : List Part) : Except Stop Settled :=
  settleParts false false settled none arguments

/-- Read all arguments. -/
def readFrom (settled : Settled) : List (List UInt8) → Answer
  | [] => .refuse (if settled.verbose then .noCommand else .nothing)
  | argument :: rest =>
    if isOption argument then
      if argument = [hyphen, hyphen] then
        match rest with
        | [] => .refuse (if settled.verbose then .noCommand else .nothing)
        | word :: _ =>
          let known := (Text.decode? word).any fun name =>
            name == "help" || (Verb.ofName? name).isSome
          .refuse (if known then .unknownArgument else .unknownCommand)
      else match settleFlags settled (parts none none [argument]) with
        | .error (.refuse refusal) => .refuse refusal
        | .error (.help long) => .help .program long
        | .error .version => .version
        | .ok settled => readFrom settled rest
    else match Text.decode? argument with
      | some "help" => readHelp rest
      | some name =>
        match Verb.ofName? name with
        | some verb => readCommand settled.verbose verb rest
        | none => .refuse .unknownCommand
      | none => .refuse .unknownCommand

/-- Read arguments. -/
def read (arguments : List (List UInt8)) : Answer := readFrom {} arguments

end WorkflowRepair.Command
