/-
# What writing a module ends with

A module whose types are complete can be written. Its text holds the text of every body, moved to
the right as often as the body is nested in braces, and the literals of its aliases. One kind of
literal is no part of the text: where the only literal of an alias has a bar outside of brackets,
the alias is taken for alternatives and the literal is split at the bar.
-/

import Mathlib.Algebra.Ring.Int.Defs
import AikenForge.Declaration.Module
import AikenForge.Proofs.Handler.Grouped
import AikenForge.Proofs.Outcome.Annotation
import AikenForge.Proofs.Outcome.Pattern
import AikenForge.Proofs.Quoted.Shift

namespace AikenForge

open AikenForge.Text

/-! ## Texts in blocks -/

/-- Every quoted text that the one text holds, the other holds as well. -/
def Conveys (width : Nat) (body text : String) : Prop :=
  ∀ s : CodePoints, Carries width s body → Carries width s text

section Blocks

variable {options : Options} {width : Nat} {body text : String}

/-- A text conveys every part of it. -/
theorem Conveys.of_part (h : body.toList <:+: text.toList) : Conveys width body text :=
  fun _ hs => hs.trans h

/-- What is conveyed once more is shifted once more at most. -/
theorem Conveys.then {larger : String} (h : Conveys width body text)
    (hnext : Conveys width text larger) : Conveys width body larger :=
  fun s hs => hnext s (h s hs)

/-- A line is part of the lines. -/
theorem infix_joinLines {line : String} {lines : List String} (h : line ∈ lines) :
    line.toList <:+: (joinLines lines).toList :=
  infix_intercalate h "\n"

/-- A block holds its body, indented. -/
theorem indentBlock_infix_bracedBlock (indent : Int) (header body : String) :
    (indentBlock indent body).toList <:+: (bracedBlock indent header body).toList :=
  (infix_append_right _ _).trans (infix_append_left _ _)

/-- A block conveys its body, one level further in. -/
theorem conveys_bracedBlock (indent : Int) (header body : String) :
    Conveys indent.toNat body (bracedBlock indent header body) :=
  fun _ hs => hs.indentBlock.trans (indentBlock_infix_bracedBlock indent header body)

/-- A text that stands for an empty body loses nothing. -/
theorem conveys_nonEmpty?_getD (body other : String) :
    Conveys width body ((nonEmpty? body).getD other) := by
  intro s hs
  simpa [nonEmpty?, hs.ne_empty] using hs

/-- A declaration's last part is a block around its body. -/
theorem conveys_declaration (docs : List String) (header body other : String) :
    Conveys options.indent.toNat body (joinLines
      (docs ++ [bracedBlock options.indent header ((nonEmpty? body).getD other)])) :=
  ((conveys_nonEmpty?_getD body other).then (conveys_bracedBlock _ header _)).then
    (.of_part (infix_joinLines (by simp)))

/-- A piece of a block without a break in it stands as it is when the block is indented. -/
theorem infix_indentBlock {piece : String} (hpiece : IsPiece piece.toList)
    (hbreak : ∀ c ∈ piece.toList, isLineBreak c = false) (h : piece.toList <:+: text.toList)
    (indent : Int) : piece.toList <:+: (indentBlock indent text).toList := by
  have hshifted := shift_infix_indentBlock hpiece indent h
  rwa [shift_of_no_break _ hbreak] at hshifted

/-- A quoted string has no line breaks, so indenting leaves it whole. -/
theorem infix_indentBlock_quotePoints {points : CodePoints}
    (h : (quotePoints .ascii points).toList <:+: text.toList) (indent : Int) :
    (quotePoints .ascii points).toList <:+: (indentBlock indent text).toList :=
  infix_indentBlock (isPiece_quotePoints .ascii points) (not_break_of_mem_quotePoints (.inl rfl)) h
    indent

end Blocks

/-- A list is mapped without failure if every value is, and the results are related to the values if
each is. -/
theorem exists_mapM_ok {α β : Type} {f : α → Except Failure β} {related : α → β → Prop}
    {values : List α} (h : ∀ value ∈ values, ∃ result, f value = .ok result ∧
      related value result) :
    ∃ results, values.mapM f = .ok results ∧ List.Forall₂ related values results := by
  induction values with
  | nil => exact ⟨[], rfl, .nil⟩
  | cons value rest ih =>
      obtain ⟨result, hresult, hrelated⟩ := h value List.mem_cons_self
      obtain ⟨results, hresults, hall⟩ :=
        ih fun other hother => h other (List.mem_cons_of_mem _ hother)
      refine ⟨result :: results, ?_, .cons hrelated hall⟩
      rw [List.mapM_cons, hresult, hresults]
      rfl

/-! ## Types -/

namespace TypeDeclaration

/-- By how much the brackets that text opens outnumber those that it closes. -/
def balance (cs : List Char) : Int :=
  (cs.map nesting).sum

/-- A bar stands in a text where the brackets before it are balanced. -/
def HasOpenBar (cs : List Char) : Prop :=
  ∃ first rest, cs = first ++ '|' :: rest ∧ balance first = 0

/-- Brackets add up. -/
theorem balance_append (cs ds : List Char) : balance (cs ++ ds) = balance cs + balance ds := by
  simp [balance]

/-- A text is not split where its brackets are open, and so is passed over as a whole if the
separator stands inside of brackets only. -/
theorem splitFrom_append {separator : Char} (hseparator : nesting separator = 0) {depth : Int}
    {cs : List Char} (h : ∀ first more, cs = first ++ separator :: more → depth + balance first ≠ 0)
    (current rest : List Char) :
    splitFrom [separator] depth 0 current (cs ++ rest) =
      splitFrom [separator] (depth + balance cs) 0 (cs.reverse ++ current) rest := by
  induction cs generalizing depth current with
  | nil => simp [balance]
  | cons c cs ih =>
      have hnext : (decide (depth + nesting c = 0) &&
          [separator].isPrefixOf (c :: (cs ++ rest))) = false := by
        rw [Bool.and_eq_false_iff, decide_eq_false_iff_not, or_iff_not_imp_right]
        intro hc
        obtain rfl : separator = c := by simpa [List.isPrefixOf] using hc
        simpa [balance, hseparator] using h [] cs rfl
      have hrest : ∀ first more, cs = first ++ separator :: more →
          depth + nesting c + balance first ≠ 0 := by
        intro first more heq
        have hdepth := h (c :: first) more (by rw [heq, List.cons_append])
        rwa [balance, List.map_cons, List.sum_cons, ← Int.add_assoc] at hdepth
      have hstep : splitFrom [separator] depth 0 current (c :: (cs ++ rest)) =
          splitFrom [separator] (depth + nesting c) 0 (c :: current) (cs ++ rest) := by
        simp only [splitFrom, hnext, Bool.false_eq_true, if_false]
      have hdepth : depth + balance (c :: cs) = depth + nesting c + balance cs := by
        rw [balance, List.map_cons, List.sum_cons, Int.add_assoc, balance]
      rw [List.cons_append, hstep, ih hrest, hdepth]
      simp

theorem dropWhile_eq_self_of_head {p : Char → Bool} {cs : List Char}
    (h : ∀ c ∈ cs.head?, p c = false) : cs.dropWhile p = cs := by
  cases cs with
  | nil => rfl
  | cons c rest => rw [List.dropWhile_cons, h c rfl]; rfl

/-- Nothing is stripped off a text without blanks at its ends. -/
theorem strip_eq_self {text : String} (hfirst : ∀ c ∈ text.toList.head?, isBlank c = false)
    (hlast : ∀ c ∈ text.toList.getLast?, isBlank c = false) : strip text = text := by
  have hend : dropWhileEnd isBlank text.toList = text.toList := by
    rw [dropWhileEnd, dropWhile_eq_self_of_head, List.reverse_reverse]
    rwa [List.head?_reverse]
  rw [strip, dropWhile_eq_self_of_head hfirst, hend, String.ofList_toList]

theorem strip_quotePoints (alphabet : Alphabet) (points : CodePoints) :
    strip (quotePoints alphabet points) = quotePoints alphabet points := by
  have hquote : isBlank '"' = false := by decide
  apply strip_eq_self
  · simp [toList_quotePoints, hquote]
  · rw [toList_quotePoints, List.getLast?_concat]
    simp [hquote]

theorem isEmpty_quotePoints (alphabet : Alphabet) (points : CodePoints) :
    (quotePoints alphabet points).isEmpty = false := by
  rw [Bool.eq_false_iff]
  intro hempty
  have hlist := toList_quotePoints alphabet points
  rw [String.isEmpty_iff.mp hempty] at hlist
  cases hlist

/-- A quoted text without an open bar is one line of a block. -/
theorem linesOfDefinition_quotePoints {points : CodePoints}
    (h : ¬ HasOpenBar (quotePoints .ascii points).toList) :
    linesOfDefinition (quotePoints .ascii points) = [quotePoints .ascii points] := by
  have hhead : ((quotePoints .ascii points).toList.head? == some '\x7b') = false := by
    simp [toList_quotePoints]
  have hbar : ∀ first rest, (quotePoints .ascii points).toList = first ++ '|' :: rest →
      0 + balance first ≠ 0 := by
    intro first rest heq hbalance
    exact h ⟨first, rest, heq, by simpa using hbalance⟩
  have hfull : (quotePoints .ascii points).isEmpty = false := isEmpty_quotePoints .ascii points
  have hsplit := splitFrom_append (by decide : nesting '|' = 0) hbar [] []
  rw [linesOfDefinition, strip_quotePoints, hhead]
  simpa [splitTopLevel, splitFrom, strip_quotePoints, hfull] using hsplit

/-- A declared type shows the literal of a text: it is an alternative among others, or the only one
and not split. -/
def Shows (d : TypeDeclaration) (s : CodePoints) : Prop :=
  (d.target = some (.literal (quotePoints .ascii s)) ∧
      ¬ HasOpenBar (quotePoints .ascii s).toList) ∨
    ∃ members, d.target = some (.union members) ∧ .literal (quotePoints .ascii s) ∈ members

/-- A declaration that can be written: its type is complete and defined by its text. -/
def IsComplete (d : TypeDeclaration) : Prop :=
  ∃ target, d.target = some target ∧ target.isComplete = true ∧ d.definition = target.render

/-- A complete type has a text. -/
theorem render?_of_complete {target : Target} (h : target.isComplete = true) :
    target.render? = .ok target.render :=
  if_pos h

/-- A complete type has a line as a variant. -/
theorem exists_variantText {target : Target} (h : target.isComplete = true) :
    ∃ text, variantText target = .ok text := by
  unfold variantText
  split
  · rename_i label type
    have htype : type.isComplete = true := by
      simpa [Target.isComplete, Target.fieldsComplete] using h
    split
    · split
      · exact ⟨label, rfl⟩
      · exact ⟨label, rfl⟩
      · exact ⟨label ++ "(" ++ type.render ++ ")", by rw [render?_of_complete htype]; rfl⟩
    · exact ⟨_, render?_of_complete h⟩
  · exact ⟨_, render?_of_complete h⟩

/-- A field of a complete type has a line. -/
theorem exists_fieldText {field : TargetField} (h : field.type.isComplete = true) :
    ∃ text, fieldText field = .ok text :=
  ⟨field.label ++ ": " ++ field.type.render ++ ",", by rw [fieldText, render?_of_complete h]; rfl⟩

/-- The block of a complete type has lines, and shows literals in them. -/
theorem exists_blockLines {d : TypeDeclaration} (h : d.IsComplete) :
    ∃ lines, d.blockLines = .ok lines ∧ ∀ s, d.Shows s → quotePoints .ascii s ∈ lines := by
  obtain ⟨target, htarget, hcomplete, hdefinition⟩ := h
  unfold blockLines Shows
  rw [htarget]
  cases target with
  | record fields =>
      have hfields := Target.fieldsComplete_iff.mp hcomplete
      have htexts : ∀ field ∈ fields, ∃ text, fieldText field = .ok text ∧ True :=
        fun field hfield => (exists_fieldText (hfields field hfield)).imp fun _ h => ⟨h, trivial⟩
      obtain ⟨lines, hlines, -⟩ := exists_mapM_ok htexts
      exact ⟨lines, hlines, by simp⟩
  | union members =>
      have hmembers := Target.allComplete_iff.mp hcomplete
      have htexts : ∀ member ∈ members, ∃ text,
          variantText member = .ok text ∧ variantText member = .ok text :=
        fun member hmember => (exists_variantText (hmembers member hmember)).imp fun _ h => ⟨h, h⟩
      obtain ⟨lines, hlines, hrelated⟩ := exists_mapM_ok htexts
      refine ⟨lines, hlines, fun s hs => ?_⟩
      rcases hs with ⟨hliteral, -⟩ | ⟨others, hothers, hmem⟩
      · cases hliteral
      · cases hothers
        obtain ⟨line, hline, htext⟩ := exists_of_forall₂ hrelated hmem
        cases htext
        exact hline
  | literal text =>
      refine ⟨_, rfl, fun s hs => ?_⟩
      rcases hs with ⟨hliteral, hbar⟩ | ⟨others, hothers, -⟩
      · cases hliteral
        rw [hdefinition, Target.render, linesOfDefinition_quotePoints hbar]
        exact List.mem_singleton_self _
      · cases hothers
  | _ => exact ⟨_, rfl, by simp⟩

/-- A member is rendered among the members. -/
theorem render_mem_renderAll {member : Target} {members : List Target} (h : member ∈ members) :
    member.render ∈ Target.renderAll members := by
  induction members with
  | nil => cases h
  | cons first rest ih =>
      rw [Target.renderAll]
      rcases List.mem_cons.mp h with rfl | h
      · exact List.mem_cons_self
      · exact List.mem_cons_of_mem _ (ih h)

/-- A complete type shows its literals in its definition. -/
theorem infix_definition {d : TypeDeclaration} (h : d.IsComplete) {s : CodePoints}
    (hs : d.Shows s) :
    (quotePoints .ascii s).toList <:+: d.definition.toList := by
  obtain ⟨target, htarget, -, hdefinition⟩ := h
  rcases hs with ⟨hliteral, -⟩ | ⟨members, hunion, hmem⟩
  · rw [htarget] at hliteral
    cases hliteral
    rw [hdefinition]
    exact List.infix_refl _
  · rw [htarget] at hunion
    cases hunion
    rw [hdefinition, Target.render]
    exact infix_intercalate (render_mem_renderAll hmem) " | "

/-- A complete type can be written, and its text has the literals that it shows. -/
theorem IsComplete.exists_render (options : Options) {d : TypeDeclaration} (h : d.IsComplete) :
    ∃ text, d.render options = .ok text ∧
      ∀ s, d.Shows s → (quotePoints .ascii s).toList <:+: text.toList := by
  unfold render
  split
  · obtain ⟨lines, hlines, hshows⟩ := exists_blockLines h
    rw [hlines]
    refine ⟨_, rfl, fun s hs => ?_⟩
    have hbody : (quotePoints .ascii s).toList <:+: (joinLines lines).toList :=
      infix_joinLines (hshows s hs)
    have hfull : (joinLines lines).isEmpty = false := by
      rw [Bool.eq_false_iff]
      intro hempty
      rw [String.isEmpty_iff.mp hempty] at hbody
      simp [toList_quotePoints] at hbody
    refine (infix_indentBlock_quotePoints hbody options.indent).trans (infix_joinLines ?_)
    simp [hfull]
  · refine ⟨_, rfl, fun s hs => (infix_definition h hs).trans ?_⟩
    let header := d.keyword ++ " " ++ d.name ++ typeParametersText d.typeParameters
    exact (infix_append_right (header ++ " = ") d.definition).trans
      (infix_joinLines (by simp [header]))

end TypeDeclaration

/-! ## Functions and validators -/

namespace FunctionDeclaration

/-- A function conveys its body. -/
theorem conveys_render (options : Options) (f : FunctionDeclaration) :
    Conveys options.indent.toNat f.body (f.render options) :=
  conveys_declaration _ _ f.body "todo"

/-- A handler has a purpose. -/
theorem exists_handledPurpose {f : FunctionDeclaration} (h : f.isHandler = true) :
    ∃ purpose, f.handledPurpose = .ok purpose := by
  unfold handledPurpose
  split
  · exact ⟨_, rfl⟩
  · exact ⟨_, rfl⟩
  · rename_i hnone
    rw [isHandler, hnone] at h
    cases h

/-- A handler has a text, and that conveys its body. -/
theorem exists_renderHandler (options : Options) {f : FunctionDeclaration}
    (h : f.isHandler = true) :
    ∃ text, f.renderHandler options = .ok text ∧ Conveys options.indent.toNat f.body text := by
  obtain ⟨purpose, hpurpose⟩ := exists_handledPurpose h
  rw [renderHandler, hpurpose]
  exact ⟨_, rfl, conveys_declaration _ _ f.body "todo"⟩

/-- Handlers can be written as validators, one block for each group. -/
theorem exists_renderValidators (options : Options) {handlers : List FunctionDeclaration}
    (h : ∀ f ∈ handlers, f.isHandler = true) :
    ∃ texts, renderValidators options handlers = .ok texts ∧
      List.Forall₂ (IsBlock options) (groups handlers) texts := by
  have hblock : ∀ group ∈ groups handlers, ∃ text,
      (do
        let texts ← group.2.mapM (renderHandler options)
        return bracedBlock options.indent ("validator " ++ group.1) ("\n\n".intercalate texts)) =
          Except.ok text ∧ IsBlock options group text := by
    intro group hgroup
    have hmembers : ∀ f ∈ group.2, ∃ text, f.renderHandler options = .ok text ∧
        f.renderHandler options = .ok text := by
      intro f hf
      have hmem := (perm_groups handlers).mem_iff.mp (List.mem_flatMap.mpr ⟨group, hgroup, hf⟩)
      obtain ⟨text, htext, -⟩ := exists_renderHandler options (h f hmem)
      exact ⟨text, htext, htext⟩
    obtain ⟨texts, htexts, hall⟩ := exists_mapM_ok hmembers
    rw [htexts]
    exact ⟨_, rfl, texts, hall, rfl⟩
  rw [renderValidators, foldl_addHandler]
  exact exists_mapM_ok hblock

/-- A block holds the bodies of its handlers. -/
theorem IsBlock.conveys {options : Options} {group : String × List FunctionDeclaration}
    {text : String}
    (h : IsBlock options group text) {f : FunctionDeclaration} (hf : f ∈ group.2)
    (hhandler : f.isHandler = true) : Conveys options.indent.toNat f.body text := by
  obtain ⟨texts, hall, rfl⟩ := h
  obtain ⟨part, hpart, htext⟩ := exists_of_forall₂ hall hf
  obtain ⟨other, hother, hconveys⟩ := exists_renderHandler options hhandler
  cases htext.symm.trans hother
  exact hconveys.then ((Conveys.of_part (infix_intercalate hpart "\n\n")).then
    (conveys_bracedBlock _ _ _))

end FunctionDeclaration

/-- A test conveys its body. -/
theorem TestDeclaration.conveys_render (options : Options) (t : TestDeclaration) :
    Conveys options.indent.toNat t.body (t.render options) :=
  conveys_declaration _ _ t.body "True"

/-! ## Modules -/

namespace DeclaredModule

/-- A text has what the types of a module show and what the bodies of its functions and tests
hold. -/
structure IsText (width : Nat) (m : DeclaredModule) (text : String) : Prop where
  types : ∀ d ∈ m.types, ∀ s, d.Shows s → (quotePoints .ascii s).toList <:+: text.toList
  functions : ∀ f ∈ m.functions, Conveys width f.body text
  tests : ∀ t ∈ m.tests, Conveys width t.body text

/-- A section that is not empty is part of the text of its module. -/
theorem infix_sections {part : String} {sections : List String} (h : part ∈ sections)
    (hfull : part.isEmpty = false) :
    part.toList <:+: ("\n\n".intercalate (sections.filter fun text =>
      !text.isEmpty) ++ "\n").toList :=
  (infix_intercalate (by simp [h, hfull]) "\n\n").trans (infix_append_left _ _)

/-- A section is conveyed by the text of its module. -/
theorem conveys_sections {part : String} {sections : List String} (h : part ∈ sections)
    (width : Nat) :
    Conveys width part ("\n\n".intercalate (sections.filter fun text => !text.isEmpty) ++ "\n") :=
  fun _ hs => hs.trans (infix_sections h (by simpa [String.isEmpty_iff] using hs.ne_empty))

/-- A module whose types are complete can be written. -/
theorem exists_render (options : Options) (registry : Option Registry) {m : DeclaredModule}
    (h : ∀ d ∈ m.types, d.IsComplete) :
    ∃ text, m.render options registry = .ok text ∧ m.IsText options.indent.toNat text := by
  obtain ⟨types, htypes, hshows⟩ := exists_mapM_ok fun d hd => (h d hd).exists_render options
  have hkind : ∀ f ∈ m.handlers, f.isHandler = true := fun f hf => (List.mem_filter.mp hf).2
  obtain ⟨validators, hvalidators, hblocks⟩ :=
    FunctionDeclaration.exists_renderValidators options hkind
  rw [render, htypes, hvalidators]
  refine ⟨_, rfl, fun d hd s hs => ?_, fun f hf => ?_, fun t ht => ?_⟩
  · obtain ⟨text, htext, hshown⟩ := exists_of_forall₂ hshows hd
    have hfull : text.isEmpty = false := by
      rw [Bool.eq_false_iff]
      intro hempty
      have hnone := hshown s hs
      rw [String.isEmpty_iff.mp hempty] at hnone
      simp [toList_quotePoints] at hnone
    exact (hshown s hs).trans (infix_sections (by simp [htext]) hfull)
  · by_cases hhandler : f.isHandler = true
    · have hmem : f ∈ m.handlers := List.mem_filter.mpr ⟨hf, hhandler⟩
      obtain ⟨group, hgroup, hfgroup⟩ :=
        List.mem_flatMap.mp ((FunctionDeclaration.perm_groups m.handlers).mem_iff.mpr hmem)
      obtain ⟨text, htext, hblock⟩ := exists_of_forall₂ hblocks hgroup
      exact (hblock.conveys hfgroup hhandler).then (conveys_sections (by simp [htext]) _)
    · have hplain : f ∈ m.functions.filter fun f => !f.isHandler :=
        List.mem_filter.mpr ⟨hf, by simpa using hhandler⟩
      have hpart := List.mem_map_of_mem (f := FunctionDeclaration.render options) hplain
      exact (f.conveys_render options).then (conveys_sections (by simp [hpart]) _)
  · have hpart := List.mem_map_of_mem (f := TestDeclaration.render options) ht
    exact (t.conveys_render options).then (conveys_sections (by simp [hpart]) _)

end DeclaredModule

end AikenForge
