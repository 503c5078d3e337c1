import MidiPatch.Log.Entry
import MidiPatch.Text.Space

/-!
# Log filters

A filter is a list of directives, each for all targets or for those that begin in a certain way. An
entry is judged by the directive that fits its target and says most about it, and is let through if
it is grave enough for that one.
-/

namespace MidiPatch.Log

open Text

structure Directive where
  /-- How the targets begin that it is about; none for all targets. -/
  target : Option String
  /-- The highest rank that is let through. -/
  most : Nat
  deriving DecidableEq, Repr

/-- Why a text is no directive. -/
inductive DirectiveError
  | malformed
  | unknownLevel
  deriving DecidableEq, Repr

def DirectiveError.message : DirectiveError → String
  | .malformed => "invalid filter directive"
  | .unknownLevel =>
    "error parsing level filter: " ++
      "expected one of \"off\", \"error\", \"warn\", \"info\", \"debug\", " ++
      "\"trace\", or a number 0-5"

abbrev Filter := List Directive

/-! ### Reading -/

/-- The names of ranks. Capital and small letters count as the same. -/
def rankOfName? (name : String) : Option Nat :=
  match String.ofList (name.toList.map Char.toLower) with
  | "off" => some 0
  | "error" => some 1
  | "warn" => some 2
  | "info" => some 3
  | "debug" => some 4
  | "trace" => some 5
  | _ => none

/-- A rank by its name or number. -/
def rank? (s : String) : Option Nat :=
  match rankOfName? s with
  | some n => some n
  | none =>
    if s.isEmpty || !s.toList.all Char.isDigit then none
    else
      let n := s.toList.foldl (fun n d => n * 10 + (d.toNat - '0'.toNat)) 0
      if n ≤ 5 then some n else none

/-- A rank, a target, or a target with a rank. A target alone lets everything through. -/
def directive (s : String) : Except DirectiveError Directive :=
  let cs := trim s.toList
  match cs with
  | [] => .error .malformed
  | c :: _ =>
    if !(c.isAlphanum || c = '-' || c = ':' || c = '_' || c.toNat > 0x7F) then .error .malformed
    else
      let target := String.ofList (cs.takeWhile (· ≠ '='))
      match cs.dropWhile (· ≠ '=') with
      | [] =>
        match rank? target with
        | some most => .ok { target := none, most }
        | none => .ok { target := some target, most := 5 }
      | _ :: level =>
        if level.isEmpty then .ok { target := some target, most := 5 }
        else
          match rank? (String.ofList level) with
          | some most => .ok { target := some target, most }
          | none => .error .unknownLevel

def parts (s : String) : List String := (s.splitOn ",").filter (!·.isEmpty)

def filter? (s : String) : Option Filter := ((parts s).mapM directive).toOption

/-- The sound directives of a filter text; without any, only errors are let through. -/
def soundFilter (s : String) : Filter :=
  match (parts s).filterMap fun part => (directive part).toOption with
  | [] => [{ target := none, most := 1 }]
  | ds => ds

/-- What is said about the directives of a filter text that are not sound. -/
def complaints (s : String) : List String :=
  (parts s).filterMap fun part =>
    match directive part with
    | .ok _ => none
    | .error e => some s!"ignoring `{part}`: {e.message}"

/-! ### Use -/

/-- How much a directive says about a target; none if it is not about it. -/
def Directive.fit? (d : Directive) (target : String) : Option Nat :=
  match d.target with
  | none => some 0
  | some start =>
    if start.toList.isPrefixOf target.toList then some (start.utf8ByteSize + 1) else none

/-- The better of two directives: the one that says more, or the later one. -/
def better (target : String) (best : Option Directive) (d : Directive) : Option Directive :=
  match d.fit? target with
  | none => best
  | some n => if (best.bind (·.fit? target)).all (· ≤ n) then some d else best

def admits (f : Filter) (e : Entry) : Bool :=
  (f.foldl (better e.target) none).any (e.level.rank ≤ ·.most)

end MidiPatch.Log
