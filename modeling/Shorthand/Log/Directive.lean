import Shorthand.Log.Event
import Shorthand.Log.Pattern
import Shorthand.Text.Alphanumeric
import Shorthand.Text.Classes

/-!
# Directives

A directive limits events: those whose target begins with the directive's target, and those that
have the field that it names. A directive for the events inside a span, or for those with a certain
value in a field, limits none, because events are told outside spans and have a message only.

    info                           all targets, up to info
    query_symbols=debug            one target, up to debug
    query_symbols                  everything of one target
    query_symbols=                 the same
    query_symbols[{message}]=warn  events of one target that have a message
    query_symbols[load]            events of one target inside a span
-/

namespace Shorthand.Log

/-! ## Limits -/

/-- The least important level that is shown; `none` shows nothing. -/
abbrev Limit := Option Level

def Limit.shows (limit : Limit) (level : Level) : Bool :=
  limit.any fun l => level.rank ≤ l.rank

/-- The number that a text writes in decimal digits, which may follow a plus sign. -/
def number? (cs : List Char) : Option Nat :=
  let digits := match cs with
    | '+' :: rest => rest
    | _ => cs
  if digits.isEmpty || !digits.all Char.isDigit then none
  else some (digits.foldl (fun n c => 10 * n + (c.toNat - '0'.toNat)) 0)

def Limit.ofNumber? (n : Nat) : Option Limit :=
  if n = 0 then some none else (Level.all.find? fun l => l.rank = n).map some

/-- The limit with a name, in any case. -/
def Limit.ofName? (cs : List Char) : Option Limit :=
  let name := String.ofList (cs.map Char.toUpper)
  if name == "OFF" then some none else (Level.all.find? fun l => l.name == name).map some

/-- The limit that a number or a name denotes. -/
def Limit.ofText? (cs : List Char) : Option Limit :=
  ((number? cs).bind Limit.ofNumber?).or (Limit.ofName? cs)

/-! ## Directives -/

/-- A test on a field of an event: that there is one, or that its value fits a pattern. -/
structure FieldTest where
  name : List Char
  pattern : Option (List Char)
  deriving DecidableEq, Repr

/-- Which events a directive is for. -/
structure Scope where
  /-- What a target begins with; `none` for all targets. -/
  target : Option (List Char)
  /-- The span in which the event is told. -/
  span : Option (List Char)
  field : Option FieldTest
  deriving DecidableEq, Repr

/-- A limit for some events. -/
structure Directive where
  scope : Scope
  limit : Limit
  deriving DecidableEq, Repr

def Directive.forAll (limit : Limit) : Directive := ⟨⟨none, none, none⟩, limit⟩

/-- The name of the one field that events have. -/
def messageField : List Char := "message".toList

/-- Whether an event has what a test asks for. -/
def FieldTest.holds (t : FieldTest) : Bool := t.pattern.isNone && t.name == messageField

/-- Whether a scope takes in the events with a target. -/
def Scope.covers (s : Scope) (target : String) : Bool :=
  s.span.isNone && s.field.all (·.holds) && s.target.all fun t => t.isPrefixOf target.toList

/-- How much a scope says: first about targets, then about fields. -/
def Scope.weight (s : Scope) : Nat :=
  2 * s.target.elim 0 (fun t => t.length + 1) + if s.field.isSome then 1 else 0

/-! ## Texts of directives -/

/-- Why a text is no directive. -/
inductive Misdirection where
  | malformed
  | unknownLimit
  | unreadablePattern
  deriving DecidableEq, Repr

def Misdirection.message : Misdirection → String
  | .malformed => "invalid filter directive"
  | .unknownLimit =>
    "error parsing level filter: expected one of \"off\", \"error\", \"warn\", \"info\", " ++
      "\"debug\", \"trace\", or a number 0-5"
  | .unreadablePattern => "invalid field filter: error building NFA"

/-- What the target of a directive may begin with, blanks apart. -/
def opensTarget (c : Char) : Bool := c == '-' || c == ':' || c == '_' || Text.isAlphanumeric c

/-- A directive while it is read. Blanks around it are not there when its marks are counted out, and
are there when its parts are taken by that count. -/
structure Draft where
  /-- The text. -/
  text : List Char
  deriving DecidableEq, Repr

namespace Draft

/-- The text in which the marks are counted out. -/
def marks (d : Draft) : List Char := Text.trim d.text

/-- The place of the first mark of a kind, from the place `i` on. -/
def find? (d : Draft) (i : Nat) (isMark : Char → Bool) : Option Nat :=
  ((d.marks.drop i).findIdx? isMark).map (i + ·)

/-- The part from the place `i` up to the place `j`. -/
def part (d : Draft) (i j : Nat) : List Char := (d.text.take j).drop i

/-- Reads the limit that begins at the place `i`. -/
def limited (d : Draft) (scope : Scope) (i : Nat) : Except Misdirection Directive :=
  match d.text.drop i with
  | [] => .ok ⟨scope, some .trace⟩
  | name =>
    match Limit.ofText? name with
    | some limit => .ok ⟨scope, limit⟩
    | none => .error .unknownLimit

/-- Reads what follows the brackets: nothing, or an equals sign and a limit. -/
def closed (d : Draft) (scope : Scope) (i : Nat) : Except Misdirection Directive :=
  match d.marks.drop i with
  | [] => .ok ⟨scope, some .trace⟩
  | '=' :: _ => d.limited scope (i + 1)
  | _ => .error .malformed

def fieldTest (cs : List Char) : Except Misdirection FieldTest :=
  match cs, cs.dropWhile (· ≠ '=') with
  | [], _ => .error .malformed
  | _, [] => .ok ⟨cs, none⟩
  | _, _ :: rest =>
    let pattern := rest.takeWhile (· ≠ '=')
    if (number? pattern).isSome || Pattern.readable pattern then
      .ok ⟨cs.takeWhile (· ≠ '='), some pattern⟩
    else .error .unreadablePattern

/-- Reads the field whose opening brace stands before the place `i`. -/
def field (d : Draft) (scope : Scope) (i : Nat) : Except Misdirection Directive :=
  match d.find? i (· = '\x7d') with
  | none => .error .malformed
  | some j => do
    let test ← fieldTest (d.part i j)
    match d.marks.drop (j + 1) with
    | ']' :: _ => d.closed { scope with field := some test } (j + 2)
    | _ => .error .malformed

/-- Reads the span whose opening bracket stands before the place `i`. A span without a name is one
only where no field follows. -/
def span (d : Draft) (target : Option (List Char)) (i : Nat) : Except Misdirection Directive :=
  match d.find? i fun c => c = ']' || c = '\x7b' with
  | none => .error .malformed
  | some j =>
    let name := d.part i j
    if (d.marks.drop j).head? = some ']' then d.closed ⟨target, some name, none⟩ (j + 1)
    else d.field ⟨target, if name.isEmpty then none else some name, none⟩ (j + 1)

/-- Reads a target or, where nothing follows, a limit. -/
def target (d : Draft) : Except Misdirection Directive :=
  match d.find? 0 fun c => c = '=' || c = '[' with
  | none =>
    match Limit.ofText? d.text with
    | some limit => .ok (.forAll limit)
    | none => .ok ⟨⟨some d.text, none, none⟩, some .trace⟩
  | some i =>
    if (d.marks.drop i).head? = some '=' then d.limited ⟨some (d.part 0 i), none, none⟩ (i + 1)
    else d.span (some (d.part 0 i)) (i + 1)

end Draft

def Directive.ofText (cs : List Char) : Except Misdirection Directive :=
  let draft : Draft := ⟨cs⟩
  match draft.marks with
  | [] => .error .malformed
  | '[' :: _ => draft.span none 1
  | c :: _ => if opensTarget c then draft.target else .error .malformed

end Shorthand.Log
