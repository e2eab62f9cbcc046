import Mathlib.Data.List.Basic

/-!
# Cutting the framework part out of a stack trace

`cutoffStackTrace` of `packages/common/src/converter/failure-converter.ts`.  Its patterns are
matched by derivatives: reading a character turns a pattern into what is left to match.
-/

namespace TemporalSdk.Failures

/-- The regular expressions the patterns of the failure converter are written in. -/
inductive Pattern where
  | never
  | empty
  | char (accepts : Char → Bool)
  | seq (first second : Pattern)
  | alt (left right : Pattern)
  | star (body : Pattern)

namespace Pattern

def nullable : Pattern → Bool
  | never => false
  | empty => true
  | char _ => false
  | seq first second => first.nullable && second.nullable
  | alt left right => left.nullable || right.nullable
  | star _ => true

-- `seq` and `alt` with the trivial patterns simplified away, so that derivatives stay small
def andThen : Pattern → Pattern → Pattern
  | never, _ => never
  | empty, second => second
  | first, second => seq first second

def orElse : Pattern → Pattern → Pattern
  | never, right => right
  | left, never => left
  | left, right => alt left right

def derivative (c : Char) : Pattern → Pattern
  | never => never
  | empty => never
  | char accepts => if accepts c then empty else never
  | seq first second =>
    let consumed := andThen (first.derivative c) second
    if first.nullable then orElse consumed (second.derivative c) else consumed
  | alt left right => orElse (left.derivative c) (right.derivative c)
  | star body => andThen (body.derivative c) (star body)

/-- Some prefix of the text matches. -/
def matchesPrefix : Pattern → List Char → Bool
  | never, _ => false
  | pattern, [] => pattern.nullable
  | pattern, c :: rest => pattern.nullable || matchesPrefix (pattern.derivative c) rest

/-- `RegExp.prototype.test` without anchors: some part of the text matches. -/
def test (pattern : Pattern) : List Char → Bool
  | [] => pattern.nullable
  | c :: rest => pattern.matchesPrefix (c :: rest) || pattern.test rest

def lit (text : String) : Pattern :=
  text.toList.foldr (fun c rest => andThen (char (· == c)) rest) empty

def oneOf (chars : List Char) : Pattern := char chars.contains

def concat (parts : List Pattern) : Pattern := parts.foldr andThen empty

def anyOf (choices : List Pattern) : Pattern := choices.foldr orElse never

def optional (body : Pattern) : Pattern := alt body empty

def plus (body : Pattern) : Pattern := seq body (star body)

end Pattern

open Pattern

/-- `\s` -/
def isSpace (c : Char) : Bool :=
  [0x09, 0x0a, 0x0b, 0x0c, 0x0d, 0x20, 0xa0, 0x1680, 0x2028, 0x2029, 0x202f, 0x205f, 0x3000,
    0xfeff].contains c.toNat || (0x2000 ≤ c.toNat && c.toNat ≤ 0x200a)

/-- `.`: anything but a line terminator -/
def isDot (c : Char) : Bool := !([0x0a, 0x0d, 0x2028, 0x2029].contains c.toNat)

/-- `\s+at ` -/
def atFrame : Pattern := .concat [.plus (.char isSpace), .lit "at "]

/-- `[\\/]` -/
def slash : Pattern := .oneOf ['\\', '/']

/-- `\(.*` followed by the directories of a file, each after a slash -/
def inFile (path : List Pattern) : Pattern :=
  .concat [.lit "(", .star (.char isDot), .concat (path.map fun part => .concat [slash, part])]

/-- `(?:src|lib)` -/
def srcOrLib : Pattern := .anyOf [.lit "src", .lit "lib"]

/-- `\.[jt]s` -/
def scriptFile : Pattern := .concat [.lit ".", .oneOf ['j', 't'], .lit "s"]

/-- `:\d+:\d+` -/
def lineAndColumn : Pattern :=
  .concat [.lit ":", .plus (.char Char.isDigit), .lit ":", .plus (.char Char.isDigit)]

def CUTOFF_STACK_PATTERNS : Pattern := .anyOf [
  -- activity execution
  .concat [atFrame, .optional (.lit "Activity."), .lit "execute ",
    inFile [.lit "worker", srcOrLib, .concat [.lit "activity", scriptFile]], lineAndColumn, .lit ")"],
  -- Nexus execution
  .concat [.plus (.char isSpace), .lit "at", .optional (.lit " async"), .lit " ",
    .optional (.lit "NexusHandler."), .lit "invokeUserCode ",
    inFile [.lit "worker", srcOrLib, .lit "nexus", .concat [.lit "index", scriptFile]],
    lineAndColumn, .lit ")"],
  -- workflow activation
  .concat [.plus (.char isSpace), .lit "at", .optional (.lit " async"), .lit " ",
    .optional (.lit "Activator."),
    .anyOf [.lit "startWorkflow", .lit "queryWorkflow", .lit "signalWorkflow", .lit "update",
      .lit "validateUpdate"],
    .lit "NextHandler (", .star (.char isDot), scriptFile, lineAndColumn, .lit ")"],
  -- run in context; in the source the alternatives are not grouped, so they split the whole pattern
  .concat [atFrame, .optional (.lit "Script."), .lit "runInContext (native"],
  .lit "unknown",
  .concat [.anyOf [.lit "node:vm", .lit "vm.js"], lineAndColumn, .lit ")"]]

def DROPPED_STACK_FRAMES_PATTERNS : Pattern := .anyOf [
  .concat [atFrame, .optional (.lit "null."), .lit "next ",
    inFile [.lit "common", srcOrLib, .concat [.lit "interceptors", scriptFile]], lineAndColumn,
    .lit ")"],
  .concat [atFrame, .optional (.lit "null."), .lit "executeNextHandler ",
    inFile [.lit "worker", srcOrLib, .concat [.lit "activity", scriptFile]], lineAndColumn,
    .lit ")"]]

/-- `split(/\r?\n/)` -/
def splitLines : List Char → List (List Char)
  | [] => [[]]
  | '\r' :: '\n' :: rest => [] :: splitLines rest
  | '\n' :: rest => [] :: splitLines rest
  | c :: rest =>
    match splitLines rest with
    | [] => [[c]]
    | line :: lines => (c :: line) :: lines

/-- The loop of `cutoffStackTrace`. -/
def keepLines : List (List Char) → List (List Char)
  | [] => []
  | line :: lines =>
    if CUTOFF_STACK_PATTERNS.test line then []
    else if DROPPED_STACK_FRAMES_PATTERNS.test line then keepLines lines
    else line :: keepLines lines

def cutoffStackTrace (stack : Option String) : String :=
  let lines := splitLines (stack.getD "").toList
  String.ofList (['\n'].intercalate (keepLines lines))

/-! ## Stacks of user code -/

end TemporalSdk.Failures
