/-!
# Consoles

Where the program prints: its reports on one side, complaints on the other.
-/

namespace WorkflowRepair.Command

/-- A console. -/
class Console (m : Type → Type) where
  /-- Print a text of a report. -/
  print : String → m Unit
  /-- Print a complaint. -/
  complain : String → m Unit

/-- What has been printed. -/
structure Screen where
  reports : String := ""
  complaints : String := ""
deriving DecidableEq, Repr

/-- A screen is a console. -/
instance : Console (StateM Screen) where
  print text := modify fun screen => { screen with reports := screen.reports ++ text }
  complain text := modify fun screen => { screen with complaints := screen.complaints ++ text }

/-- With more state, the console stays. -/
instance {σ : Type} {m : Type → Type} [Monad m] [Console m] : Console (StateT σ m) where
  print text := StateT.lift (Console.print text)
  complain text := StateT.lift (Console.complain text)

end WorkflowRepair.Command
