/-
# The layout of a record's text

The block of a record is written from its fields or, where they are not known, from the text of the
definition. Both give the same lines if every name in the record's type is a plain one: the text of
a type then has a comma only inside of brackets, however deep types are nested, so that the
definition is split between its fields and nowhere else.
-/

import AikenForge.Proofs.Nested.Parts

namespace AikenForge

open AikenForge.Text AikenForge.TypeDeclaration

/-! ## Plain types -/

/-- Whether a name is not empty and has no blank, bracket or comma; every name of a label or a type,
dotted or not, is such a text. -/
def isPlainName (name : String) : Bool :=
  !name.isEmpty && name.toList.all fun c => !isBlank c && nesting c == 0 && c != ','

namespace Target

mutual

/-- Whether a type has plain names only, no literal and no empty union; a list has an argument. -/
def isPlain : Target → Bool
  | .void => true
  | .literal _ | .list [] | .union [] => false
  | .primitive name => isPlainName name
  | .list (element :: _) => element.isPlain
  | .application name args => isPlainName name && allPlain args
  | .tuple items => allPlain items
  | .union (member :: rest) => member.isPlain && allPlain rest
  | .record fields => fieldsPlain fields

/-- Whether every type of a list is plain. -/
def allPlain : List Target → Bool
  | [] => true
  | type :: rest => type.isPlain && allPlain rest

/-- Whether every field has a plain label and a plain type. -/
def fieldsPlain : List TargetField → Bool
  | [] => true
  | .mk label type :: rest => isPlainName label && type.isPlain && fieldsPlain rest

end

end Target

/-! ## The text of a plain type -/

/-- The first and the last character of a text are there and are no blanks. -/
structure Trimmed (cs : List Char) : Prop where
  first : ∃ c ∈ cs.head?, isBlank c = false
  last : ∃ c ∈ cs.getLast?, isBlank c = false

namespace Trimmed

variable {cs ds : List Char}

/-- A text without blanks is trimmed. -/
theorem of_dense (hne : cs ≠ []) (h : ∀ c ∈ cs, isBlank c = false) : Trimmed cs :=
  ⟨⟨cs.head hne, List.head?_eq_some_head hne, h _ (List.head_mem hne)⟩,
    ⟨cs.getLast hne, List.getLast?_eq_some_getLast hne, h _ (List.getLast_mem hne)⟩⟩

/-- What stands between trimmed texts does not matter. -/
theorem around (hcs : Trimmed cs) (hds : Trimmed ds) (middle : List Char) :
    Trimmed (cs ++ middle ++ ds) := by
  obtain ⟨c, hc, hfirst⟩ := hcs.first
  obtain ⟨d, hd, hlast⟩ := hds.last
  refine ⟨⟨c, ?_, hfirst⟩, ⟨d, ?_, hlast⟩⟩
  · rw [List.append_assoc, List.head?_append, Option.mem_def.mp hc]
    rfl
  · rw [List.getLast?_append, Option.mem_def.mp hd]
    rfl

/-- Nothing is stripped off a trimmed text. -/
theorem strip_eq {text : String} (h : Trimmed text.toList) : strip text = text := by
  obtain ⟨c, hc, hfirst⟩ := h.first
  obtain ⟨d, hd, hlast⟩ := h.last
  refine strip_eq_self (fun e he => ?_) fun e he => ?_
  · rwa [← Option.mem_unique hc he]
  · rwa [← Option.mem_unique hd he]

end Trimmed

/-- A text that is not split at commas and has no blanks at its ends. -/
structure IsCompact (text : String) : Prop where
  whole : Whole ',' text.toList
  trimmed : Trimmed text.toList

namespace IsCompact

/-- A compact text is one part of a list with commas. -/
theorem isPart {text : String} (h : IsCompact text) : IsPart ',' text where
  toWhole := h.whole
  full := by
    rintro rfl
    obtain ⟨c, hc, -⟩ := h.trimmed.first
    cases hc
  trimmed := h.trimmed.strip_eq

/-- A plain name is compact. -/
theorem of_isPlainName {name : String} (h : isPlainName name = true) : IsCompact name := by
  simp only [isPlainName, Bool.and_eq_true, Bool.not_eq_true', List.all_eq_true, beq_iff_eq,
    bne_iff_ne, ne_eq] at h
  obtain ⟨hne, hall⟩ := h
  have hflat : isFlat name.toList = true :=
    List.all_eq_true.mpr fun c hc => beq_iff_eq.mpr (hall c hc).1.2
  refine ⟨.of_isFlat hflat fun hc => (hall ',' hc).2 rfl, .of_dense ?_ ?_⟩
  · simpa [String.isEmpty_iff] using hne
  · exact fun c hc => (hall c hc).1.1

theorem around {first second : String} (hfirst : IsCompact first) (hsecond : IsCompact second)
    (middle : String) (hmiddle : Whole ',' middle.toList) :
    IsCompact (first ++ middle ++ second) := by
  constructor
  · simp only [String.toList_append]
    exact (hfirst.whole.append hmiddle).append hsecond.whole
  · simp only [String.toList_append]
    exact hfirst.trimmed.around hsecond.trimmed _

/-- Commas in brackets do not count. -/
theorem bracketed (opening closing : Char) (hopening : nesting opening = 1)
    (hclosing : nesting closing = -1) (hfirst : isBlank opening = false)
    (hlast : isBlank closing = false) {text : String} (h : Balanced text.toList) :
    IsCompact (.singleton opening ++ text ++ .singleton closing) := by
  have htext : (String.singleton opening ++ text ++ .singleton closing).toList =
      opening :: text.toList ++ [closing] := by
    simp
  refine ⟨?_, ?_⟩
  · rw [htext]
    exact .bracketed hopening hclosing (by decide) h
  · simp only [String.toList_append]
    exact (Trimmed.of_dense (by simp) (by simpa using hfirst)).around
      (.of_dense (by simp) (by simpa using hlast)) _

section Brackets

variable {text : String} (h : Balanced text.toList)

include h

/-- Something compact in angle brackets is compact. -/
theorem angled : IsCompact ("<" ++ text ++ ">") :=
  .bracketed '<' '>' (by decide) (by decide) (by decide) (by decide) h

theorem parenthesized : IsCompact ("(" ++ text ++ ")") :=
  .bracketed '(' ')' (by decide) (by decide) (by decide) (by decide) h

theorem braced : IsCompact ("\x7b" ++ text ++ "\x7d") :=
  .bracketed '\x7b' '\x7d' (by decide) (by decide) (by decide) (by decide) h

/-- A name with something in brackets after it. -/
theorem applied {name : String} (hname : IsCompact name) :
    IsCompact (name ++ "<" ++ text ++ ">") := by
  have happlied := hname.around (angled h) "" (.of_isFlat rfl (by simp))
  rwa [String.append_empty, ← String.append_assoc, ← String.append_assoc] at happlied

end Brackets

/-- Compact texts with commas between are balanced. -/
theorem balanced_row {texts : List String} (h : ∀ text ∈ texts, IsCompact text) :
    Balanced (", ".intercalate texts).toList :=
  .intercalate (.of_isFlat (by decide)) fun text htext => (h text htext).whole.toBalanced

end IsCompact

/-- What stands between the braces of a record. -/
def recordBody (fields : List TargetField) : String :=
  let body := ", ".intercalate (Target.renderFields fields)
  if body.isEmpty then "" else " " ++ body ++ " "

namespace Target

/-- A record is its body in braces. -/
theorem render_record (fields : List TargetField) :
    (record fields).render = "\x7b" ++ recordBody fields ++ "\x7d" := by
  rw [render, recordBody]
  split
  · rfl
  · simp only [← String.toList_inj, String.toList_append]
    simp

mutual

/-- A plain type has a compact text, by induction on the type. -/
theorem isCompact_render : ∀ {type : Target}, type.isPlain = true → IsCompact type.render
  | .void, _ => .of_isPlainName (by decide)
  | .primitive _, h => .of_isPlainName h
  | .list (element :: _), h => by
      have helement : element.isPlain = true := h
      have hname : isPlainName "List" = true := by decide
      exact .applied (isCompact_render helement).whole.toBalanced (.of_isPlainName hname)
  | .application _ _, h => by
      rw [isPlain, Bool.and_eq_true] at h
      exact .applied (IsCompact.balanced_row (isCompact_renderAll h.2)) (.of_isPlainName h.1)
  | .tuple _, h => .parenthesized (IsCompact.balanced_row (isCompact_renderAll h))
  | .union (member :: rest), h => by
      have hmembers : allPlain (member :: rest) = true := h
      rw [render]
      refine intercalate_induction (by simp [renderAll]) (fun first second hfirst hsecond => ?_)
        (isCompact_renderAll hmembers)
      exact hfirst.around hsecond " | " (.of_isFlat (by decide) (by decide))
  | .record fields, h => by
      have hrow := IsCompact.balanced_row (isCompact_renderFields h)
      have hblank : Balanced " ".toList := .of_isFlat (by decide)
      rw [render_record, recordBody]
      refine .braced ?_
      split
      · exact .of_isFlat rfl
      · simp only [String.toList_append]
        exact (hblank.append hrow).append hblank

theorem isCompact_renderAll :
    ∀ {types : List Target}, allPlain types = true → ∀ text ∈ renderAll types, IsCompact text
  | [], _, _, htext => nomatch htext
  | type :: rest, h, text, htext => by
      rw [allPlain, Bool.and_eq_true] at h
      rw [renderAll] at htext
      rcases List.mem_cons.mp htext with rfl | htext
      · exact isCompact_render h.1
      · exact isCompact_renderAll h.2 text htext

theorem isCompact_renderFields :
    ∀ {fields : List TargetField}, fieldsPlain fields = true →
      ∀ text ∈ renderFields fields, IsCompact text
  | [], _, _, htext => nomatch htext
  | .mk label type :: rest, h, text, htext => by
      simp only [fieldsPlain, Bool.and_eq_true] at h
      rw [renderFields] at htext
      rcases List.mem_cons.mp htext with rfl | htext
      · exact (IsCompact.of_isPlainName h.1.1).around (isCompact_render h.1.2) ": "
          (.of_isFlat (by decide) (by decide))
      · exact isCompact_renderFields h.2 text htext

end

end Target

/-! ## The lines of a block -/

namespace TypeDeclaration

/-- A definition in braces is split at its commas. -/
theorem linesOfDefinition_braced (body : String) :
    linesOfDefinition ("\x7b" ++ body ++ "\x7d") = (splitTopLevel "," body).map (· ++ ",") := by
  have htext : ("\x7b" ++ body ++ "\x7d").toList = '\x7b' :: body.toList ++ ['\x7d'] := by
    simp
  have hlast : ('\x7b' :: body.toList ++ ['\x7d']).getLast? = some '\x7d' := List.getLast?_concat
  have htrimmed : Trimmed ("\x7b" ++ body ++ "\x7d").toList := by
    rw [htext]
    exact ⟨⟨'\x7b', rfl, by decide⟩, ⟨'\x7d', hlast, by decide⟩⟩
  rw [linesOfDefinition, htrimmed.strip_eq, htext, hlast]
  simp [between]

/-- What a record's braces hold is split into the texts of its fields. -/
theorem splitTopLevel_recordBody {fields : List TargetField}
    (h : Target.fieldsPlain fields = true) :
    splitTopLevel "," (recordBody fields) = Target.renderFields fields := by
  have hparts : ∀ text ∈ Target.renderFields fields, IsPart ',' text :=
    fun text htext => (Target.isCompact_renderFields h text htext).isPart
  rw [recordBody]
  split
  · rename_i hempty
    cases hfields : Target.renderFields fields with
    | nil => rfl
    | cons text rest =>
        -- A first field would leave its text in the row.
        rw [hfields] at hempty hparts
        have hinfix := infix_intercalate (List.mem_cons_self (a := text) (l := rest)) ", "
        rw [String.isEmpty_iff.mp hempty] at hinfix
        have hfull := (hparts text List.mem_cons_self).full
        exact absurd (by simpa using hinfix) hfull
  · exact splitTopLevel_spaced hparts

/-- Complete fields have a line each, with a comma. -/
theorem mapM_fieldText {fields : List TargetField} (h : Target.fieldsComplete fields = true) :
    fields.mapM fieldText = .ok ((Target.renderFields fields).map (· ++ ",")) := by
  induction fields with
  | nil => rfl
  | cons field rest ih =>
      obtain ⟨label, type⟩ := field
      rw [Target.fieldsComplete, Bool.and_eq_true] at h
      rw [List.mapM_cons, ih h.2, fieldText, TargetField.type, render?_of_complete h.1]
      rfl

variable {d : TypeDeclaration} {fields : List TargetField}

/-- A record whose definition was rendered is complete. -/
theorem isComplete_of_render? (htarget : d.target = some (.record fields))
    (hdefinition : (Target.record fields).render? = .ok d.definition) : d.IsComplete := by
  unfold Target.render? at hdefinition
  split at hdefinition
  · rename_i hcomplete
    exact ⟨_, htarget, hcomplete, (Except.ok.inj hdefinition).symm⟩
  · cases hdefinition

/-- The lines of a plain record do not depend on whether its fields are known. -/
theorem blockLines_without_target (htarget : d.target = some (.record fields))
    (hdefinition : (Target.record fields).render? = .ok d.definition)
    (hplain : (Target.record fields).isPlain = true) :
    ({ d with target := none } : TypeDeclaration).blockLines = d.blockLines := by
  obtain ⟨target, hsome, hcomplete, htext⟩ := isComplete_of_render? htarget hdefinition
  obtain rfl : .record fields = target := Option.some.inj (htarget.symm.trans hsome)
  simp only [blockLines, htarget]
  rw [mapM_fieldText hcomplete, htext, Target.render_record, linesOfDefinition_braced,
    splitTopLevel_recordBody hplain]

/-- Parts that are not split themselves come out of a text joined by a separator. So the declaration
of a plain record has the same text whether its fields are known or read off the definition. -/
theorem layouts_agree :
    (∀ (separator : Char) (parts : List String), nesting separator = 0 →
      (∀ part ∈ parts, IsPart separator part) →
      splitTopLevel (.singleton separator) ((String.singleton separator).intercalate parts) =
        parts) ∧
    ∀ (options : Options) (d : TypeDeclaration) (fields : List TargetField),
      d.target = some (.record fields) → (Target.record fields).render? = .ok d.definition →
      (Target.record fields).isPlain = true →
      ∃ text, d.render options = .ok text ∧
        ({ d with target := none } : TypeDeclaration).render options = .ok text := by
  refine ⟨fun separator parts hseparator hparts => splitTopLevel_intercalate hseparator hparts,
    fun options d fields htarget hdefinition hplain => ?_⟩
  obtain ⟨text, htext, -⟩ := (isComplete_of_render? htarget hdefinition).exists_render options
  have hlines := blockLines_without_target htarget hdefinition hplain
  have hsame : ({ d with target := none } : TypeDeclaration).render options = d.render options := by
    rw [render, hlines]
    rfl
  exact ⟨text, htext, hsame.trans htext⟩

/-- A record of a pair and of a list of records, whose commas stand at three depths. -/
def nestedFields : List TargetField :=
  [.mk "owner" (.tuple [.primitive "PubKeyHash", .union [.primitive "Int", .void]]),
    .mk "orders" (.list [.record [.mk "price" (.application "Option" [.primitive "math.Rational"]),
      .mk "amount" (.primitive "Int")]])]

/-- A bar in brackets does not split a text, and the declaration of a nested record is split at one
of its three commas. -/
theorem layouts_agree_nested :
    splitTopLevel "|" "Some(a | b)|None" = ["Some(a | b)", "None"] ∧
    ∃ text, (ofTarget "Book" (.record nestedFields) none true false none).render {} = .ok text ∧
      ({ ofTarget "Book" (.record nestedFields) none true false none with target := none } :
        TypeDeclaration).render {} = .ok text := by
  obtain ⟨hsplit, hlayout⟩ := layouts_agree
  have hname : Whole '|' "Some".toList := .of_isFlat (by decide) (by decide)
  have hargs : Whole '|' "(a | b)".toList :=
    .bracketed (by decide : nesting '(' = 1) (by decide : nesting ')' = -1) (by decide)
      (.of_isFlat (by decide : isFlat "a | b".toList = true))
  have hsome : IsPart '|' "Some(a | b)" :=
    { toWhole := hname.append hargs
      full := by decide
      trimmed := by decide +kernel }
  have hnone : IsPart '|' "None" :=
    { toWhole := .of_isFlat (by decide) (by decide)
      full := by decide
      trimmed := by decide +kernel }
  refine ⟨hsplit '|' ["Some(a | b)", "None"] (by decide) ?_, ?_⟩
  · simp [hsome, hnone]
  · exact hlayout {} _ nestedFields rfl rfl (by decide +kernel)

end TypeDeclaration

end AikenForge
