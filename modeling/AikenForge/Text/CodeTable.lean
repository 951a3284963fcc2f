/-
# Tables of code points

Properties of characters beyond ASCII are data of a standard. They are written as text: a list of
runs of code points in hexadecimal, each with an optional stride and an optional shift, and are
looked up by bisection.
-/

namespace AikenForge.Text

/-- The value of a hexadecimal digit. -/
def hexValue? (c : Char) : Option Nat :=
  if c.isDigit then some (c.toNat - '0'.toNat)
  else if 'a' ≤ c && c ≤ 'f' then some (c.toNat - 'a'.toNat + 10)
  else if 'A' ≤ c && c ≤ 'F' then some (c.toNat - 'A'.toNat + 10)
  else none

/-- The number that a list of hexadecimal digits writes; other characters count as zero. -/
def hexNumber (cs : List Char) : Nat :=
  cs.foldl (fun n c => n * 16 + (hexValue? c).getD 0) 0

/-- Every `step`-th code point from `first` to `last`, with the shift that a map adds to each. -/
structure Run where
  first : Nat
  last : Nat
  step : Nat := 1
  shift : Int := 0

/-- Read the shift that closes a run: `+` adds and `~` takes away. -/
def Run.readShift : List Char → Int
  | '+' :: rest => hexNumber rest
  | '~' :: rest => -(hexNumber rest : Int)
  | _ => 0

/-- Read one run: `F`, `F-L` or `F/L` (every second code point), and a shift. -/
def Run.read (cs : List Char) : Run :=
  let isHex := fun c => (hexValue? c).isSome
  let first := hexNumber (cs.takeWhile isHex)
  match cs.dropWhile isHex with
  | '-' :: rest =>
    { first, last := hexNumber (rest.takeWhile isHex), shift := readShift (rest.dropWhile isHex) }
  | '/' :: rest =>
    { first, last := hexNumber (rest.takeWhile isHex), step := 2
      shift := readShift (rest.dropWhile isHex) }
  | rest => { first, last := first, shift := readShift rest }

/-- Whether the run holds the code point `n`. -/
def Run.contains (run : Run) (n : Nat) : Bool :=
  run.first ≤ n && n ≤ run.last && (n - run.first) % run.step == 0

/-- The last index below `high` whose key is at most `n`, if there is one at or above `low`. -/
def bisect (key : Nat → Nat) (n : Nat) : (fuel low high : Nat) → Option Nat
  | 0, _, _ => none
  | fuel + 1, low, high =>
    if high ≤ low then none
    else
      let middle := (low + high) / 2
      if key middle ≤ n then (bisect key n fuel (middle + 1) high).orElse fun _ => some middle
      else bisect key n fuel low middle

/-- Runs in increasing order that do not interleave. -/
structure CodeTable where
  runs : Array Run

/-- The words of a text between blanks and line feeds. -/
def entriesFrom (current : List Char) : List Char → List String
  | [] => if current.isEmpty then [] else [.ofList current.reverse]
  | c :: rest =>
    if c == ' ' || c == '\n' then
      if current.isEmpty then entriesFrom [] rest
      else .ofList current.reverse :: entriesFrom [] rest
    else entriesFrom (c :: current) rest

/-- The entries of a table's text. -/
def entriesOf (text : String) : List String :=
  entriesFrom [] text.toList

/-- Read a table from its text. -/
def CodeTable.ofText (text : String) : CodeTable :=
  ⟨((entriesOf text).map fun entry => Run.read entry.toList).toArray⟩

/-- The run that holds `n`. -/
def CodeTable.find? (table : CodeTable) (n : Nat) : Option Run := do
  let key := fun i => (table.runs[i]?.map Run.first).getD 0
  let i ← bisect key n (table.runs.size + 1) 0 table.runs.size
  let run ← table.runs[i]?
  if run.contains n then some run else none

/-- Whether the table holds the character `c`. -/
def CodeTable.contains (table : CodeTable) (c : Char) : Bool :=
  (table.find? c.toNat).isSome

/-- The character that the table maps `c` to; `c` itself where it has no run. -/
def CodeTable.apply (table : CodeTable) (c : Char) : Char :=
  match table.find? c.toNat with
  | some run => Char.ofNat ((c.toNat : Int) + run.shift).toNat
  | none => c

/-- Characters that a map replaces by several, in increasing order. -/
structure Expansion where
  entries : Array (Nat × List Char)

/-- Read comma-separated code points. -/
def readCodePoints (text : String) : List Char :=
  (text.splitOn ",").map fun entry => Char.ofNat (hexNumber entry.toList)

/-- Read an expansion from entries `C:A,B`. -/
def Expansion.ofText (text : String) : Expansion :=
  ⟨((entriesOf text).map fun entry =>
    match entry.splitOn ":" with
    | [code, image] => (hexNumber code.toList, readCodePoints image)
    | _ => (0, [])).toArray⟩

/-- What `c` is replaced by: its expansion, or else its image under `single`. -/
def Expansion.expand (expansion : Expansion) (single : CodeTable) (c : Char) : List Char :=
  let key := fun i => (expansion.entries[i]?.map Prod.fst).getD 0
  let size := expansion.entries.size
  match (bisect key c.toNat (size + 1) 0 size).bind fun i => expansion.entries[i]? with
  | some (code, image) => if code == c.toNat then image else [single.apply c]
  | none => [single.apply c]

/-- Pairs of characters that compose one, in increasing order of the pair. -/
structure Composition where
  entries : Array (Nat × Char)

/-- One key for a pair of code points. -/
def Composition.key (a b : Nat) : Nat :=
  a * 0x110000 + b

/-- Read compositions from entries `A,B:C`. -/
def Composition.ofText (text : String) : Composition :=
  ⟨((entriesOf text).map fun entry =>
    match entry.splitOn ":" with
    | [pair, image] =>
      match readCodePoints pair with
      | [a, b] => (key a.toNat b.toNat, Char.ofNat (hexNumber image.toList))
      | _ => (0, image.front)
    | _ => (0, ' ')).toArray⟩

/-- The character that `a` and `b` compose. -/
def Composition.find? (composition : Composition) (a b : Char) : Option Char := do
  let wanted := Composition.key a.toNat b.toNat
  let size := composition.entries.size
  let i ← bisect (fun i => (composition.entries[i]?.map Prod.fst).getD 0) wanted (size + 1) 0 size
  let (found, image) ← composition.entries[i]?
  if found == wanted then some image else none

end AikenForge.Text
