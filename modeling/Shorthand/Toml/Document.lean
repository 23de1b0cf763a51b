import Shorthand.Toml.Scalar

/-!
# TOML documents

A document is read as a list of statements: headers, and entries `key = value`. Building then puts
the entries into tables, and refuses a document that defines something twice or has a key of too
many parts, whichever comes first.

    parse text = statements? text, then build
-/

namespace Shorthand.Toml

/-! ## Values -/

/-- How many brackets of a value may be open at once. -/
def maxDepth : Nat := 80

/-- Reads elements up to and with the closing bracket. -/
def itemsFrom (item : Reader Value) : (fuel : Nat) → Reader (List Value)
  | 0 => failure
  | fuel + 1 => do
    trivia
    if (← peek) = some ']' then do
      expect ']'
      return []
    else do
      let v ← item
      trivia
      if (← peek) = some ',' then do
        expect ','
        let vs ← itemsFrom item fuel
        return v :: vs
      else do
        expect ']'
        return [v]

/-- Reads the entry `key = value`. -/
def entryWith (item : Reader Value) : Reader (Key × Value) := do
  let k ← key
  expect '='
  spaces
  return (k, ← item)

/-- Adds an entry, or stops. -/
def added (t : Table) (k : Key) (v : Value) : Reader Table :=
  match t.addEntry? k v with
  | some t => return t
  | none => failure

/-- Reads entries up to and with the closing brace, into a table. -/
def entriesFrom (item : Reader Value) : (fuel : Nat) → Table → Reader Table
  | 0, _ => failure
  | fuel + 1, t => do
    trivia
    if (← peek) = some '\x7d' then do
      expect '\x7d'
      return t
    else do
      let (k, v) ← entryWith item
      let t ← added t k v
      trivia
      if (← peek) = some ',' then do
        expect ','
        entriesFrom item fuel t
      else do
        expect '\x7d'
        return t

/-- Reads a value whose inner values are read by `inner?`; without it no bracket may be opened. -/
def valueWith (inner? : Option (Reader Value)) : Reader Value := do
  match ← peek with
  | some '"' => return .string (← string)
  | some '\'' => return .string (← string)
  | some '[' =>
    match inner? with
    | none => failure
    | some inner => do
      expect '['
      return .array false (← itemsFrom inner ((← get).rest.length + 1))
  | some '\x7b' =>
    match inner? with
    | none => failure
    | some inner => do
      expect '\x7b'
      return .table .inline (← entriesFrom inner ((← get).rest.length + 1) [])
  | _ => scalar

/-- Reads a value that opens at most `room` brackets at once. -/
def value : (room : Nat) → Reader Value
  | 0 => valueWith none
  | room + 1 => valueWith (some (value room))

/-! ## Statements -/

inductive Statement where
  /-- A header `[a.b]`: what follows belongs to that table. -/
  | table (key : Key)
  /-- A header `[[a.b]]`: what follows belongs to a new element of that array. -/
  | element (key : Key)
  | entry (key : Key) (value : Value)

/-- Reads a key in the brackets of a header. -/
def headerKey : Reader Key := do
  spaces
  key

def header : Reader Statement := do
  expect '['
  if (← peek) = some '[' then do
    expect '['
    let k ← headerKey
    expect ']'
    expect ']'
    return .element k
  else do
    let k ← headerKey
    expect ']'
    return .table k

def statement : Reader Statement := do
  if (← peek) = some '[' then header
  else do
    let (k, v) ← entryWith (value maxDepth)
    return .entry k v

/-- Reads statements up to the end of the text, each on lines of its own. With each goes whether
some key up to its end had too many parts. -/
def statementsFrom : (fuel : Nat) → Reader (List (Statement × Bool))
  | 0 => failure
  | fuel + 1 => do
    trivia
    if (← peek).isNone then return []
    else do
      let s ← statement
      lineEnd
      let overlong := (← get).overlong
      return (s, overlong) :: (← statementsFrom fuel)

/-- The statements of a text; a byte order mark at its start is passed over. -/
def statements? (cs : List Char) : Option (List (Statement × Bool)) :=
  let cs := match cs with
    | '\uFEFF' :: rest => rest
    | cs => cs
  (statementsFrom (cs.length + 1) ⟨cs, false⟩).map (·.1)

/-! ## Building -/

/-- The table that entries go into. -/
structure Place where
  key : Key
  /-- Whether it is a new element of an array. -/
  isElement : Bool

/-- What has been built: the finished tables, and the one that is open. -/
structure Building where
  root : Table
  /-- None while entries go into the root itself. -/
  place? : Option Place
  current : Table

/-- Puts the open table where its header says. -/
def Building.finish? (b : Building) : Option Table :=
  match b.place? with
  | none => some b.current
  | some s =>
    let put (_ : Origin) (parent : Table) : Option Table :=
      if s.isElement then
        match parent.lookup s.key.last with
        | none => some (parent.insert s.key.last (.array true [.table .header b.current]))
        | some (.array true items) =>
          some (parent.insert s.key.last (.array true (items ++ [.table .header b.current])))
        | some _ => none
      else some (parent.insert s.key.last (.table .header b.current))
    Table.changeAt? false put s.key.path .header b.root

/-- What stands at the end of a path, or fails where the path leads through no table. -/
def lookUp? (last : String) : (path : List String) → Table → Option (Option Value)
  | [], t => some (t.lookup last)
  | k :: path, t =>
    match t.lookup k with
    | none => some none
    | some (.table _ sub) => lookUp? last path sub
    | some (.array true items) =>
      match items.getLast? with
      | some (.table _ sub) => lookUp? last path sub
      | _ => none
    | some _ => none

/-- The table that a header opens: a new one, or one that headers below it have implied. -/
def openTable? (key : Key) (root : Table) : Option Table :=
  match lookUp? key.last key.path root with
  | some none => some []
  | some (some (.table .implied t)) => some t
  | _ => none

def Building.step? (b : Building) : Statement → Option Building
  | .entry k v => (b.current.addEntry? k v).map fun t => { b with current := t }
  | .table k => do
    let root ← b.finish?
    let t ← openTable? k root
    some ⟨root, some ⟨k, false⟩, t⟩
  | .element k => do
    let root ← b.finish?
    some ⟨root, some ⟨k, true⟩, []⟩

/-! ## Documents -/

/-- Why a text is no document. -/
inductive Flaw where
  | syntaxError
  /-- A key has too many parts. -/
  | overlongKey
  deriving DecidableEq, Repr

/-- The flaw in words; the second complaint ends its line. -/
def Flaw.message : Flaw → String
  | .syntaxError => "syntax"
  | .overlongKey => "syntax\n"

/-- Takes a statement, unless some key up to its end had too many parts. -/
def Building.step (b : Building) (s : Statement × Bool) : Except Flaw Building :=
  if s.2 then .error .overlongKey
  else
    match b.step? s.1 with
    | some b => .ok b
    | none => .error .syntaxError

def build (statements : List (Statement × Bool)) : Except Flaw Table := do
  let b ← statements.foldlM Building.step ⟨[], none, []⟩
  match b.finish? with
  | some t => .ok t
  | none => .error .syntaxError

/-- The table that a document denotes, if it is well formed. -/
def parse (cs : List Char) : Except Flaw Table :=
  match statements? cs with
  | some statements => build statements
  | none => .error .syntaxError

end Shorthand.Toml
