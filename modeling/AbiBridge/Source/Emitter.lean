import AbiBridge.Text.Quoted
import AbiBridge.Wrapper.Signature

/-!
Scoped source text.

An `Emitter` is the list of lines written so far with the stack of the scopes that are open.
Opening a scope writes its header and indents everything up to its end; closing it writes its
trailer. A scope is a function, or a match whose arms were declared when it was opened and are
then written one after the other. Lines are only ever appended.

Each operation is an `Emission`: it changes the emitter or fails with a `ScopeFault`, and the
state in which it failed is part of its answer.
-/

namespace AbiBridge

open Text

/-! ### Scopes -/

/-- A match that is being written. -/
structure MatchScope where
  /-- The expression that is matched. -/
  scrutinee : String
  /-- The declared patterns, in order. -/
  patterns : List String
  /-- The name bound to the value of the match. -/
  binding : Option String
  /-- How many arms were written. -/
  emitted : Nat := 0
  /-- Whether the last arm is a block that is still open. -/
  inBlock : Bool := false
  deriving DecidableEq, Repr

/-- An open scope. -/
inductive Scope where
  /-- The body of a function. -/
  | function (signature : Signature)
  /-- A match over declared patterns. -/
  | arms (state : MatchScope)
  deriving DecidableEq, Repr

/-- The kind of a scope. -/
inductive ScopeKind where
  | function
  | arms
  deriving DecidableEq, Repr

namespace ScopeKind

/-- The kind as messages name it. -/
def text : ScopeKind → String
  | function => "FunctionContext"
  | arms => "MatchContext"

end ScopeKind

namespace MatchScope

/-- Whether the value of the match is bound; an empty name counts as none. -/
def isBound (m : MatchScope) : Bool :=
  match m.binding with
  | none => false
  | some name => name != ""

/-- The line that opens the match. -/
def header (m : MatchScope) : String :=
  match m.binding with
  | some name => if name = "" then "match " ++ m.scrutinee ++ " \x7b"
      else "let " ++ name ++ " = match " ++ m.scrutinee ++ " \x7b"
  | none => "match " ++ m.scrutinee ++ " \x7b"

/-- The line that closes the match. -/
def trailer (m : MatchScope) : String := if m.isBound then "\x7d;" else "\x7d"

end MatchScope

namespace Scope

/-- The kind of the scope. -/
def kind : Scope → ScopeKind
  | function _ => .function
  | arms _ => .arms

/-- The lines that open the scope. -/
def header : Scope → List String
  | function signature => signature.header
  | arms m => [m.header]

/-- The line that closes the scope. -/
def trailer : Scope → String
  | function _ => "\x7d"
  | arms m => m.trailer

/-- By how many levels the scope indents what is written into it. -/
def levels : Scope → Nat
  | function _ => 1
  | arms m => if m.inBlock then 2 else 1

end Scope

/-- Why an operation on scopes failed. -/
inductive ScopeFault where
  /-- A match was opened outside of every function. -/
  | matchOutsideFunction (scrutinee : String)
  /-- An arm was begun while the block of the one before was open. -/
  | armOpen (pattern : String)
  /-- All the declared arms were written. -/
  | armsExhausted (count : Nat) (scrutinee : String)
  /-- A match was closed while the block of its last arm was open. -/
  | closedInArm (scrutinee : String)
  /-- A match was closed before all its arms were written. -/
  | armsMissing (scrutinee : String) (missing : List String)
  /-- There is no scope to close. -/
  | nothingOpen
  /-- The guard was used before. -/
  | guardClosed
  /-- The guarded scope is not the innermost one. -/
  | guardOrder
  /-- An arm was written outside of a match. -/
  | notInMatch
  /-- The block of an arm was ended and none is open. -/
  | noArmOpen
  /-- The text was asked for while these scopes were open, the outermost first. -/
  | scopesOpen (kinds : List ScopeKind)
  deriving DecidableEq, Repr

namespace ScopeFault

/-- The wording of a fault. -/
def message : ScopeFault → String
  | matchOutsideFunction scrutinee => s!"'match {scrutinee}' must be nested inside a function"
  | armOpen pattern => s!"Arm '{pattern}' is still open"
  | armsExhausted count scrutinee =>
      s!"All {count} arms of 'match {scrutinee}' already emitted"
  | closedInArm scrutinee => s!"Cannot close 'match {scrutinee}' with an open arm"
  | armsMissing scrutinee missing =>
      let shown := quotedList missing
      s!"Non-exhaustive 'match {scrutinee}': missing arms {shown}"
  | nothingOpen => "No open scope to pop"
  | guardClosed => "Scope already closed"
  | guardOrder => "Scopes must be closed in reverse order of opening"
  | notInMatch => "Match arms can only be emitted inside a match scope"
  | noArmOpen => "No open match arm to close"
  | scopesOpen kinds =>
      let shown := quotedList (kinds.map ScopeKind.text)
      s!"Cannot flush with open scopes: {shown}"

end ScopeFault

/-! ### The emitter -/

/-- An open scope with the number it got when it was opened. -/
structure Frame where
  /-- How many scopes had been opened before this one. -/
  serial : Nat
  /-- The scope. -/
  scope : Scope
  deriving DecidableEq, Repr

/-- The lines written so far and the scopes that are open. -/
structure Emitter where
  /-- The lines in the order they were written. -/
  lines : List String := []
  /-- The open scopes, the innermost first. -/
  frames : List Frame := []
  /-- How many scopes have been opened. -/
  opened : Nat := 0
  deriving DecidableEq, Repr

/-- The handle of a scope that was opened. -/
structure Guard where
  /-- The number of the guarded scope. -/
  serial : Nat
  /-- Whether the scope was closed through the guard. -/
  closed : Bool := false
  deriving DecidableEq, Repr

/-- An operation on an emitter, which may fail. -/
abbrev Emission := EStateM ScopeFault Emitter

namespace Emitter

/-- One level of indentation. -/
def indentUnit : String := "    "

/-- The text in front of a line at the given level. -/
def indentation : (level : Nat) → String
  | 0 => ""
  | level + 1 => indentUnit ++ indentation level

/-- The level at which the next line is written; an open arm counts as a level of its own. -/
def depth (e : Emitter) : Nat := e.frames.foldr (fun f n => f.scope.levels + n) 0

/-- The innermost scope. -/
def top? (e : Emitter) : Option Scope := e.frames.head?.map Frame.scope

/-- A line at the current level; an empty one stays empty. -/
def write (e : Emitter) (text : String) : Emitter :=
  let line := if text = "" then "" else indentation e.depth ++ text
  { e with lines := e.lines ++ [line] }

/-- The emitter with another innermost scope. -/
def setTop (e : Emitter) (scope : Scope) : Emitter :=
  match e.frames with
  | [] => e
  | f :: fs => { e with frames := { f with scope := scope } :: fs }

/-- The text of the lines, ending in exactly one line feed unless it is empty. -/
def source (e : Emitter) : String :=
  let text := ("\n".intercalate e.lines).toList
  let body := (text.reverse.dropWhile (· = '\n')).reverse
  if body.isEmpty then "" else String.ofList body ++ "\n"

end Emitter

namespace Emission

/-- Writes a line. -/
def line (text : String) : Emission Unit := modify (·.write text)

/-- Opens a scope. -/
def openScope (scope : Scope) : Emission Guard := do
  let e ← get
  if let .arms m := scope then
    if e.frames.isEmpty then throw (.matchOutsideFunction m.scrutinee)
  let e := scope.header.foldl Emitter.write e
  set { e with frames := ⟨e.opened, scope⟩ :: e.frames, opened := e.opened + 1 }
  return ⟨e.opened, false⟩

/-- What has to be written before a scope is closed, if it may be closed. -/
def closing : Scope → Except ScopeFault (List String)
  | .function signature => pure (if signature.fallible then [successSentinel] else [])
  | .arms m =>
      if m.inBlock then throw (.closedInArm m.scrutinee)
      else if m.emitted != m.patterns.length then
        throw (.armsMissing m.scrutinee (m.patterns.drop m.emitted))
      else pure []

/-- Closes the innermost scope. An empty line follows a function that was in no other scope. -/
def closeScope : Emission Unit := do
  let e ← get
  match e.frames with
  | [] => throw .nothingOpen
  | frame :: outer =>
      match closing frame.scope with
      | .error fault => throw fault
      | .ok last =>
          let e := last.foldl Emitter.write e
          let e := { e with frames := outer }.write frame.scope.trailer
          set (if outer.isEmpty && frame.scope.kind == .function then e.write "" else e)

/-- Closes the scope of a guard, which has to be the innermost one. -/
def close (guard : Guard) : Emission Guard := do
  if guard.closed then throw .guardClosed
  let e ← get
  if e.frames.head?.map Frame.serial != some guard.serial then throw .guardOrder
  closeScope
  return { guard with closed := true }

/-- Leaves the block that a guard was made for: the scope is closed unless it was before, or the
block failed. -/
def leave (guard : Guard) (failed : Bool) : Emission Guard :=
  if failed || guard.closed then pure guard else close guard

/-- The innermost scope, which has to be a match. -/
def currentMatch : Emission MatchScope := do
  match (← get).top? with
  | some (.arms m) => return m
  | _ => throw .notInMatch

/-- The next pattern of the innermost match, counted as written. -/
def nextPattern : Emission String := do
  let m ← currentMatch
  if m.inBlock then throw (.armOpen (m.patterns.getD (m.emitted - 1) ""))
  match m.patterns[m.emitted]? with
  | none => throw (.armsExhausted m.patterns.length m.scrutinee)
  | some pattern =>
      modify (·.setTop (.arms { m with emitted := m.emitted + 1 }))
      return pattern

/-- Writes the next arm with an expression as its body. -/
def arm (body : String) : Emission Unit := do
  let pattern ← nextPattern
  line (pattern ++ " => " ++ body ++ ",")

/-- Opens the next arm as a block. -/
def beginArm : Emission Unit := do
  let pattern ← nextPattern
  line (pattern ++ " => \x7b")
  let m ← currentMatch
  modify (·.setTop (.arms { m with inBlock := true }))

/-- Closes the block of an arm. -/
def endArm : Emission Unit := do
  let m ← currentMatch
  if !m.inBlock then throw .noArmOpen
  modify (·.setTop (.arms { m with inBlock := false }))
  line "\x7d"

/-- The text, which may be taken when no scope is open. -/
def finish : Emission String := do
  let e ← get
  if e.frames.isEmpty then return e.source
  else throw (.scopesOpen (e.frames.reverse.map fun f => f.scope.kind))

end Emission

end AbiBridge
