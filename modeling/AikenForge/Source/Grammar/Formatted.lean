/-
# Formatted string literals

A formatted literal interleaves literal text with fields in braces. A field holds the text of an
expression, an optional conversion and an optional layout, which may hold fields again, one level
deep. Doubled braces stand for a brace outside layouts.
-/

import AikenForge.Source.Literal

namespace AikenForge.Source

namespace Formatted

/-- Literal text up to the next field: the text, whether it ended in a doubled brace and goes on,
and what follows. In a layout (`nested`) a closing brace ends the text. The braces around the name
of a character (`inName`) are part of the text. -/
def literalPart (isRaw nested : Bool) :
    (inName : Bool) → List Char → Option (List Char × Bool × List Char)
  | _, [] => some ([], false, [])
  | true, c :: rest =>
    (literalPart isRaw nested (c != '\x7d') rest).map fun (text, more, rest) =>
      (c :: text, more, rest)
  | false, c :: rest =>
    let brace := fun (lead : List Char) (c : Char) (rest : List Char) =>
      if nested then some (lead, false, c :: rest)
      else if rest.head? == some c then some (lead ++ [c], true, rest.drop 1)
      else if c == '\x7d' then none
      else some (lead, false, c :: rest)
    let isBrace := fun c => c == '\x7b' || c == '\x7d'
    if isBrace c then brace [] c rest
    else if !isRaw && c == '\\' then
      match rest with
      | [] => some ([c], false, [])
      | d :: after =>
        if isBrace d then brace [c] d after
        else
          let opensName := d == 'N' && after.head? == some '\x7b'
          (literalPart isRaw nested opensName after).map fun (text, more, rest) =>
            (c :: d :: text, more, rest)
    else (literalPart isRaw nested false rest).map fun (text, more, rest) => (c :: text, more, rest)

/-- A string inside an expression text: its quote and whether it is tripled. -/
structure OpenString where
  mark : Char
  isLong : Bool

/-- The text of an expression up to the character that ends it, which is left in place. `opened`
holds the closing brackets awaited; `skip` passes over characters already accounted for. -/
def expressionPart (inside : Option OpenString) (opened : List Char) (skip : Nat) :
    List Char → Option (List Char × List Char)
  | [] => none
  | c :: rest =>
    let keep := fun (inside : Option OpenString) (opened : List Char) (skip : Nat) =>
      (expressionPart inside opened skip rest).map fun (text, rest) => (c :: text, rest)
    let tripled := rest.take 2 == [c, c]
    match skip with
    | skip + 1 => keep inside opened skip
    | 0 =>
      if c == '\\' then none
      else
        match inside with
        | some string =>
          if c == string.mark then
            if string.isLong then
              if tripled then keep none opened 2 else keep inside opened 0
            else keep none opened 0
          else keep inside opened 0
        | none =>
          if c == '\'' || c == '"' then
            if tripled then keep (some ⟨c, true⟩) opened 2 else keep (some ⟨c, false⟩) opened 0
          else if c == '(' then keep none (')' :: opened) 0
          else if c == '[' then keep none (']' :: opened) 0
          else if c == '\x7b' then keep none ('\x7d' :: opened) 0
          else if c == '#' then none
          else if opened.isEmpty && ['!', ':', '\x7d', '=', '<', '>'].contains c then
            if c != ':' && c != '\x7d' && rest.head? == some '=' then keep none opened 1
            else if c == '<' || c == '>' then keep none opened 0
            else some ([], c :: rest)
          else if c == ')' || c == ']' || c == '\x7d' then
            match opened with
            | top :: below => if top == c then keep none below 0 else none
            | [] => none
          else keep none opened 0

/-- Literal text as parts of the literal; no text gives no part. -/
def textPart (names : CharacterNames) (isMarked isRaw : Bool) (text : List Char) :
    Option (List Expr) := do
  if text.isEmpty then some []
  else
    let decoded ← decodeBody names false isRaw text
    some [.constant (.text decoded isMarked)]

/-- Whether a text is only the blanks that the expression grammar passes over. -/
def isVoid (text : List Char) : Bool :=
  text.all fun c => c == ' ' || c == '\t' || c == '\n' || c == '\x0c'

/-- A self-documenting field: the text after `=` and its blanks, if the field has one. -/
def selfText (text rest : List Char) : Option (List Char × List Char) :=
  match rest with
  | '=' :: after =>
    let isSpace := fun c => c == ' ' || (9 ≤ c.toNat && c.toNat ≤ 13)
    some (text ++ '=' :: after.takeWhile isSpace, after.dropWhile isSpace)
  | _ => none

/-- The conversion after `!`. -/
def conversionPart : List Char → Option (Option Char × List Char)
  | '!' :: c :: rest => if c == 's' || c == 'r' || c == 'a' then some (some c, rest) else none
  | '!' :: [] => none
  | rest => some (none, rest)

/-- Join neighbouring literal texts and drop empty ones. -/
def mergeTexts : List Expr → List Expr
  | [] => []
  | .constant (.text s isMarked) :: rest =>
    match mergeTexts rest with
    | .constant (.text t _) :: merged => .constant (.text (s ++ t) isMarked) :: merged
    | merged => if s.isEmpty then merged else .constant (.text s isMarked) :: merged
  | part :: rest => part :: mergeTexts rest

/-- The parts of a field's layout: a text that ends the layout has no mark. -/
def unmarkLast : List Expr → List Expr
  | [] => []
  | [.constant (.text s _)] => [.constant (.text s false)]
  | part :: rest => part :: unmarkLast rest

/-- The parts of a formatted literal at a nesting `level`, read with `embedded` for expressions;
`fuel` bounds the number of parts. -/
def parts (names : CharacterNames) (embedded : List Char → Option Expr) (isMarked isRaw : Bool) :
    (fuel level : Nat) → List Char → Option (List Expr × List Char)
  | 0, _, _ => none
  | fuel + 1, level, cs => do
    let (text, more, rest) ← literalPart isRaw (level != 0) false cs
    let lead ← textPart names isMarked isRaw text
    if more then
      let (others, rest) ← parts names embedded isMarked isRaw fuel level rest
      some (lead ++ others, rest)
    else
      match rest with
      | '\x7b' :: rest =>
        if 2 ≤ level then none
        else
          let (text, rest) ← expressionPart none [] 0 rest
          if isVoid text then none
          else
            let value ← embedded text
            let shown := selfText text rest
            let (conversion, rest) ← conversionPart ((shown.map Prod.snd).getD rest)
            let (layout, rest) ← match rest with
              | ':' :: rest =>
                (parts names embedded isMarked isRaw fuel (level + 1) rest).map fun (parts, rest) =>
                  (some (Expr.joined (unmarkLast (mergeTexts parts))), rest)
              | _ => some (none, rest)
            match rest with
            | '\x7d' :: rest =>
              let conversion :=
                if shown.isSome && layout.isNone && conversion.isNone then some 'r' else conversion
              let label := match shown with
                | some (text, _) => [Expr.constant (.text (text.map Char.toNat) isMarked)]
                | none => []
              let (others, rest) ← parts names embedded isMarked isRaw fuel level rest
              some (lead ++ label ++ .formatted value conversion layout :: others, rest)
            | _ => none
      | _ => some (lead, rest)

/-- The parts of a formatted literal. -/
def read (names : CharacterNames) (embedded : List Char → Option Expr) (isMarked : Bool)
    (literal : StringLiteral) : Option (List Expr) := do
  let (found, rest) ←
    parts names embedded isMarked literal.isRaw (literal.body.length + 1) 0 literal.body
  if rest.isEmpty then some found else none

end Formatted

/-- The value of neighbouring string literals: byte literals join with byte literals only, and a
formatted literal among text literals makes the whole formatted. The first literal's mark holds for
all texts but the last of a layout. -/
def joinLiterals (names : CharacterNames) (embedded : List Char → Option Expr)
    (literals : List StringLiteral) : Option Expr := do
  if literals.all StringLiteral.isBytes then
    let bytes ← literals.mapM decodeBytes
    some (.constant (.bytes bytes.flatten))
  else if literals.any StringLiteral.isBytes then none
  else
    let isMarked := (literals.head?.map StringLiteral.isMarked).getD false
    let parts ← literals.mapM fun literal =>
      if literal.isFormatted then Formatted.read names embedded isMarked literal
      else (decodeBody names false literal.isRaw literal.body).map fun points =>
        [.constant (.text points isMarked)]
    let merged := Formatted.mergeTexts parts.flatten
    if literals.any StringLiteral.isFormatted then some (.joined merged)
    else
      match merged with
      | [text] => some text
      | _ => some (.constant (.text [] isMarked))

end AikenForge.Source
