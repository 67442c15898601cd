/-
**Message templates.**

`presentation/templates.py` and `_render_record` of `services/templates.py`.  A template is a body
with variables such as `%movie%` and a list of formatting entities whose ranges count UTF-16 code
units of the body.  Rendering replaces the variables and moves the entities along.

* `Json`, `intOf`, `parseInt` — stored values and Python's `int` on them;
* `variableRe`, `replaceVariables` — the variables of a body and the loop that replaces them;
* `remapEntities` — `_remap_entities`;
* `renderTemplate`, `validateTemplateSource`, `renderRecord`.

A dict of an entity keeps its `offset` and its `length` apart from its other keys; what
`MessageEntity.model_validate` makes of the other keys is the class `EntityModel`, and an offset and
a length are `int` fields, which take every integer.
-/

import CineGate.Delivery
import CineGate.Text
import CineGate.Utf16
import Mathlib.Data.Char
import Mathlib.Data.List.Lex

set_option relaxedAutoImplicit false
set_option autoImplicit false

namespace CineGate

/-! ### Stored values -/

/-- A JSON value.  A float is the decimal number that `repr` prints for it, and an array or an
object is its canonical text. -/
inductive Json
  | null
  | bool (value : Bool)
  | int (value : ℤ)
  | float (value : Rat)
  | str (value : Str)
  | compound (text : Str)
deriving DecidableEq, Repr

/-- White space that `int` skips around ASCII digits. -/
def isIntSpace (c : Char) : Bool := c ∈ [' ', '\t', '\n', '\r', '\x0b', '\x0c']

/-- The digits of a number, with single underscores between them. -/
def parseDigits : ℕ → Str → Option ℕ
  | n, [] => some n
  | n, '_' :: c :: cs => if c.isDigit then parseDigits (10 * n + (c.toNat - 48)) cs else none
  | n, c :: cs => if c.isDigit then parseDigits (10 * n + (c.toNat - 48)) cs else none

/-- A number without sign: it starts with a digit and has at most 4300 of them. -/
def parseUnsigned (text : Str) : Option ℕ :=
  if text.head?.any Char.isDigit && (text.filter Char.isDigit).length ≤ 4300 then parseDigits 0 text
  else none

/-- `int` of a text of ASCII characters. -/
def parseAsciiInt (text : Str) : Option ℤ :=
  match stripBy isIntSpace text with
  | '-' :: digits => (parseUnsigned digits).map fun n => -(n : ℤ)
  | '+' :: digits => (parseUnsigned digits).map fun n => (n : ℤ)
  | digits => (parseUnsigned digits).map fun n => (n : ℤ)

/-- What `int` reads for a character: itself in ASCII, else a blank or a decimal digit. -/
def asciiOf [UnicodeData] (c : Char) : Option Char :=
  if c.toNat < 127 then some c
  else if isSpace c then some ' '
  else (decimal c).map fun d => Char.ofNat (48 + d)

/-- `int` of a text. -/
def parseInt [UnicodeData] (text : Str) : Option ℤ := (text.mapM asciiOf).bind parseAsciiInt

/-- `int` of a value. -/
def intOf [UnicodeData] : Json → Option ℤ
  | .bool value => some (if value then 1 else 0)
  | .int value => some value
  | .float value => some (value.num.tdiv value.den)
  | .str text => parseInt text
  | .null | .compound _ => none

/-! ### Variables -/

/-- `%`. -/
def isPercent (u : ℕ) : Bool := u = '%'.toNat

/-- `[a-z_]`. -/
def isVariableSymbol (u : ℕ) : Bool := ('a'.toNat ≤ u && u ≤ 'z'.toNat) || u = '_'.toNat

/-- `%[a-z_]+%`. -/
def variableMatcher : TokenMatcher Char := Utf16.names isPercent isVariableSymbol

/-- `_VARIABLE_RE`. -/
def variableRe : Matcher := fun _ text => variableMatcher.length? text

/-- `_utf16_len`. -/
def utf16Len (value : Str) : ℕ := (Utf16.units value).length

/-- One of the `spans` of `render_template`. -/
structure ReplacementSpan where
  start : ℕ
  stop : ℕ
  replacementLength : ℕ
  originalLength : ℕ
  name : Str
deriving DecidableEq, Repr

/-- The span of a match whose variable is replaced by `replacement`. -/
def replacementSpan (body : Str) (span : ℕ × ℕ) (replacement : Str) : ReplacementSpan where
  start := utf16Len (body.take span.1)
  stop := utf16Len (body.take span.2)
  replacementLength := utf16Len replacement
  originalLength := utf16Len (body.take span.2) - utf16Len (body.take span.1)
  name := slice body span

/-- The loop of `render_template` over the matches, from a cursor on: the rest of the text and the
spans. -/
def replaceVariables (body : Str) (replacements : Str → Str) :
    ℕ → List (ℕ × ℕ) → Str × List ReplacementSpan
  | cursor, [] => (body.drop cursor, [])
  | cursor, span :: spans =>
      let replacement := replacements (slice body span)
      let rest := replaceVariables body replacements span.2 spans
      (slice body (cursor, span.1) ++ replacement ++ rest.1,
        replacementSpan body span replacement :: rest.2)

/-! ### Entities -/

/-- A stored entity. -/
structure EntityDict where
  offset : Option Json
  length : Option Json
  fields : List (Str × Json)
deriving DecidableEq, Repr

/-- An entity with its new range. -/
structure RemappedEntity where
  offset : ℤ
  length : ℤ
  fields : List (Str × Json)
deriving DecidableEq, Repr

/-- What `MessageEntity.model_validate` makes of the keys other than `offset` and `length`; `none`
is a `ValidationError`. -/
class EntityModel where
  validateFields : List (Str × Json) → Option (List (Str × Str))

/-- `TemplateRenderError`. -/
inductive TemplateRenderError
  | emptyBody
  | unsupportedVariables (names : List Str)
  | missingReplacements (names : List Str)
  | renderedTooLong (maxLength : ℤ)
  | sourceTooLong (maxLength : ℤ)
  | invalidOffsets
  | outsideText
  | splits (name : Str)
deriving DecidableEq, Repr

/-- `", ".join(names)`. -/
def joinNames (names : List Str) : Str := List.intercalate ", ".toList names

/-- The text of the exception. -/
def TemplateRenderError.message : TemplateRenderError → Str
  | emptyBody => "template body cannot be empty".toList
  | unsupportedVariables names => "unsupported template variables: ".toList ++ joinNames names
  | missingReplacements names => "missing template replacements: ".toList ++ joinNames names
  | renderedTooLong maxLength =>
      "rendered template exceeds ".toList ++ (toString maxLength).toList ++ " UTF-16 units".toList
  | sourceTooLong maxLength =>
      "template source exceeds ".toList ++ (toString maxLength).toList ++ " UTF-16 units".toList
  | invalidOffsets => "invalid Telegram entity offsets".toList
  | outsideText => "Telegram entity is outside template text".toList
  | splits name => "formatting boundary splits variable ".toList ++ name

/-- What the loop over the spans does to the new range of the entity `start ..< stop`. -/
def remapSpan (start stop : ℤ) (range : ℤ × ℤ) (span : ReplacementSpan) :
    Except TemplateRenderError (ℤ × ℤ) :=
  if (span.start < start ∧ start < span.stop) ∨ (span.start < stop ∧ stop < span.stop) then
    .error (.splits span.name)
  else
    let delta : ℤ := span.replacementLength - span.originalLength
    if span.stop ≤ start then .ok (range.1 + delta, range.2 + delta)
    else if start ≤ span.start ∧ span.stop ≤ stop then .ok (range.1, range.2 + delta)
    else .ok range

/-- What `_remap_entities` makes of one entity. -/
def remapEntity [UnicodeData] (bodyLength : ℕ) (spans : List ReplacementSpan)
    (entity : EntityDict) :
    Except TemplateRenderError RemappedEntity :=
  match entity.offset.bind intOf, entity.length.bind intOf with
  | some start, some length =>
      if start < 0 ∨ length ≤ 0 ∨ bodyLength < start + length then .error .outsideText
      else
        (spans.foldlM (remapSpan start (start + length)) (start, start + length)).map fun range =>
          ⟨range.1, range.2 - range.1, entity.fields⟩
  | _, _ => .error .invalidOffsets

/-- `_remap_entities`. -/
def remapEntities [UnicodeData] (body : Str) (entities : List EntityDict)
    (spans : List ReplacementSpan) : Except TemplateRenderError (List RemappedEntity) :=
  entities.mapM (remapEntity (utf16Len body) spans)

/-- `MessageEntity.model_validate`. -/
def modelValidate [EntityModel] (entity : RemappedEntity) : Option MessageEntity :=
  (EntityModel.validateFields entity.fields).map fun fields =>
    ⟨entity.offset, entity.length, fields⟩

/-! ### Rendering -/

/-- What `render_template` raises. -/
inductive RenderFailure
  | template (error : TemplateRenderError)
  | maxLengthNotPositive
  | entityValidation
deriving DecidableEq, Repr

/-- `sorted(set(names))`. -/
def sortedNames (names : List Str) : List Str := names.dedup.mergeSort fun a b => a ≤ b

/-- The variables of a body, in the order of the text. -/
def variableNames (body : Str) : List Str := (finditer variableRe body).map (slice body)

/-- `render_template`. -/
def renderTemplate [UnicodeData] [EntityModel] (body : Str)
    (storedEntities : Option (List EntityDict))
    (allowedVariables : List Str) (replacements : Str → Option Str) (maxLength : ℤ) :
    Except RenderFailure RenderedTemplate :=
  if body.isEmpty then .error (.template .emptyBody)
  else if maxLength ≤ 0 then .error .maxLengthNotPositive
  else
    let unknown := (variableNames body).filter fun name => name ∉ allowedVariables
    if !unknown.isEmpty then .error (.template (.unsupportedVariables (sortedNames unknown)))
    else
      let missing := (variableNames body).filter fun name => (replacements name).isNone
      if !missing.isEmpty then .error (.template (.missingReplacements (sortedNames missing)))
      else
        let replaced := replaceVariables body (fun name => (replacements name).getD []) 0
          (finditer variableRe body)
        if maxLength < utf16Len replaced.1 then .error (.template (.renderedTooLong maxLength))
        else
          match remapEntities body (storedEntities.getD []) replaced.2 with
          | .error error => .error (.template error)
          | .ok entities =>
              match entities.mapM modelValidate with
              | none => .error .entityValidation
              | some entities => .ok ⟨replaced.1, entities⟩

/-- `validate_template_source`. -/
def validateTemplateSource [UnicodeData] (body : Str) (storedEntities : Option (List EntityDict))
    (allowedVariables : List Str) (maxLength : ℤ) : Except TemplateRenderError Unit :=
  if body.isEmpty then .error .emptyBody
  else if maxLength < utf16Len body then .error (.sourceTooLong maxLength)
  else
    let unknown := (variableNames body).filter fun name => name ∉ allowedVariables
    if !unknown.isEmpty then .error (.unsupportedVariables (sortedNames unknown))
    else
      let spans := (finditer variableRe body).map fun span : ℕ × ℕ =>
        { start := utf16Len (body.take span.1)
          stop := utf16Len (body.take span.2)
          replacementLength := utf16Len (slice body span)
          originalLength := utf16Len (slice body span)
          name := slice body span : ReplacementSpan }
      (remapEntities body (storedEntities.getD []) spans).map fun _ => ()

/-- `StoredTemplate`. -/
structure StoredTemplate where
  body : Str
  entities : Option (List EntityDict)
deriving DecidableEq, Repr

/-- `_render_record`. -/
def renderRecord [UnicodeData] [EntityModel] (stored : Option StoredTemplate) (defaultBody : Str)
    (allowedVariables : List Str) (replacements : Str → Option Str) (maxLength : ℤ) :
    Except RenderFailure RenderedTemplate :=
  let body := (stored.map StoredTemplate.body).getD defaultBody
  match renderTemplate body (stored.bind StoredTemplate.entities) allowedVariables replacements
      maxLength with
  | .error (.template _) =>
      renderTemplate defaultBody none allowedVariables replacements maxLength
  | result => result

end CineGate
