import WorkflowRepair.Text.Word

/-!
# Regular expressions

The expressions that schemas may use, and where in a text they match. A place in a text is a
cursor; `ends` lists the cursors at which a match from a given cursor may end, the preferred one
first. Only whether there is a match somewhere is ever asked.
-/

namespace WorkflowRepair.Regex

/-- A set of characters. -/
inductive CharSet where
  /-- The characters from `first` to `last`. -/
  | range (first last : Char)
  | union (sets : List CharSet)
  | intersection (a b : CharSet)
  | complement (set : CharSet)

/-- Whether a character is in a set. -/
def CharSet.contains (c : Char) : CharSet → Bool
  | .range first last => decide (first.toNat ≤ c.toNat) && decide (c.toNat ≤ last.toNat)
  | .union sets => anyContains sets
  | .intersection a b => a.contains c && b.contains c
  | .complement set => !set.contains c
where
  /-- Whether a character is in some of the sets. -/
  anyContains : List CharSet → Bool
    | [] => false
    | set :: rest => set.contains c || anyContains rest

/-- A condition on a place in a text, which takes no characters. -/
inductive Anchor where
  /-- The beginning of the text. -/
  | start
  /-- The end of the text. -/
  | finish
  /-- A place between a word character and another, or the negation. -/
  | boundary (holds : Bool)
deriving DecidableEq, Repr

/-- An expression. -/
inductive Expression where
  | empty
  | character (set : CharSet)
  | anchor (condition : Anchor)
  | sequence (a b : Expression)
  | choice (a b : Expression)
  /-- From `least` to `most` times, as few as possible if lazy. -/
  | repetition (inner : Expression) (least : Nat) (most : Option Nat) (greedy : Bool)
  /-- What stands ahead, or does not. -/
  | ahead (inner : Expression) (holds : Bool)
  /-- What stands behind, or does not. -/
  | behind (inner : Expression) (holds : Bool)
  /-- Only the preferred match. -/
  | atomic (inner : Expression)

/-- A place in a text: the characters before it, last one first, and those after it. -/
structure Cursor where
  before : List Char
  after : List Char
deriving DecidableEq, Repr

namespace Cursor

/-- The cursor one character further. -/
def advance : Cursor → List Cursor
  | ⟨before, c :: after⟩ => [⟨c :: before, after⟩]
  | ⟨_, []⟩ => []

/-- The cursors from this one back to the beginning. -/
def back : List Char → List Char → List Cursor
  | [], after => [⟨[], after⟩]
  | c :: before, after => ⟨c :: before, after⟩ :: back before (c :: after)

/-- Cursors without repetitions, each at its first place. -/
def dedupe (cursors : List Cursor) : List Cursor :=
  cursors.foldl (fun kept c =>
    if kept.any fun k => k.after.length == c.after.length then kept else kept ++ [c]) []

end Cursor

/-- Whether the condition holds at a cursor. -/
def Anchor.holdsAt (cursor : Cursor) : Anchor → Bool
  | .start => cursor.before.isEmpty
  | .finish => cursor.after.isEmpty
  | .boundary holds =>
    Text.isBoundary cursor.before.head? cursor.after.head? == holds

/-- Where repetitions may end: after up to `fuel` further rounds of `step`, none of which may stand
still. -/
def repeatEnds (step : Cursor → List Cursor) (greedy : Bool) : (fuel : Nat) → Cursor → List Cursor
  | 0, cursor => [cursor]
  | fuel + 1, cursor =>
    let further := ((step cursor).filter fun c => c.after.length != cursor.after.length).flatMap
      (repeatEnds step greedy fuel)
    Cursor.dedupe (if greedy then further ++ [cursor] else cursor :: further)

/-- Where a given number of rounds may end. -/
def timesEnds (step : Cursor → List Cursor) : Nat → Cursor → List Cursor
  | 0, cursor => [cursor]
  | n + 1, cursor => Cursor.dedupe ((step cursor).flatMap (timesEnds step n))

/-- Where a match from a cursor may end. -/
def Expression.ends : Expression → Cursor → List Cursor
  | .empty, cursor => [cursor]
  | .character set, cursor =>
    if cursor.after.head?.any fun c => set.contains c then cursor.advance else []
  | .anchor condition, cursor => if condition.holdsAt cursor then [cursor] else []
  | .sequence a b, cursor => Cursor.dedupe ((a.ends cursor).flatMap b.ends)
  | .choice a b, cursor => Cursor.dedupe (a.ends cursor ++ b.ends cursor)
  | .repetition inner least most greedy, cursor =>
    let rounds (cursor : Cursor) : Nat := match most with
      | some most => min (most - least) cursor.after.length
      | none => cursor.after.length
    Cursor.dedupe ((timesEnds inner.ends least cursor).flatMap fun cursor =>
      repeatEnds inner.ends greedy (rounds cursor) cursor)
  | .ahead inner holds, cursor => if (inner.ends cursor).isEmpty != holds then [cursor] else []
  | .behind inner holds, cursor =>
    let found := (Cursor.back cursor.before cursor.after).any fun start =>
      (inner.ends start).any fun e => e.after.length == cursor.after.length
    if found == holds then [cursor] else []
  | .atomic inner, cursor => (inner.ends cursor).take 1

/-- Whether the expression matches somewhere from a cursor on. -/
def Expression.matchesFrom (e : Expression) : (before : List Char) → List Char → Bool
  | before, [] => !(e.ends ⟨before, []⟩).isEmpty
  | before, c :: rest => !(e.ends ⟨before, c :: rest⟩).isEmpty || e.matchesFrom (c :: before) rest

/-- Whether the expression matches somewhere in a text. -/
def Expression.accepts (e : Expression) (text : String) : Bool := e.matchesFrom [] text.toList

end WorkflowRepair.Regex
