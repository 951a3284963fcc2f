/-
# What a module's text has of its functions

The text of a module is one section for each of its declarations, after those for its documentation
and its `use` lines. Every function that is no handler has a section of its own, and every handler
is a part of one validator block, that of its contract. So no function is lost and none is written
twice.
-/

import AikenForge.Proofs.Compile.Opening
import AikenForge.Proofs.Outcome.Rendering

namespace AikenForge

open AikenForge.Text

/-- What opens like a section has text. -/
theorem OpensSection.ne_empty {text : String} (h : OpensSection text.toList) : text ≠ "" := by
  rintro rfl
  obtain ⟨word, hword, hprefix⟩ := h
  have hall : ∀ word ∈ openings, ¬ word.toList <+: [] := by decide
  exact hall word hword hprefix

theorem filter_sections_eq_self {sections : List String}
    (h : ∀ text ∈ sections, OpensSection text.toList) :
    (sections.filter fun text => !text.isEmpty) = sections := by
  rw [List.filter_eq_self]
  intro text htext
  simpa using (h text htext).ne_empty

namespace DeclaredModule

/-- The functions of a module that are no handlers. -/
def plainFunctions (m : DeclaredModule) : List FunctionDeclaration :=
  m.functions.filter fun f => !f.isHandler

/-- The sections before all declarations: documentation and `use` lines, where there are any. -/
def leadingSections (options : Options) (registry : Option Registry) (m : DeclaredModule) :
    List String :=
  [joinLines (if options.emitDocs then m.docs.marked "////" else []),
    joinLines (m.useLines registry)].filter fun text => !text.isEmpty

/-- The sections of the declarations, with given texts for the types and the validators. -/
def declaredSections (options : Options) (m : DeclaredModule) (types validators : List String) :
    List String :=
  types ++ m.constants.map (ConstantDeclaration.render options) ++
    m.plainFunctions.map (FunctionDeclaration.render options) ++ validators ++
    m.tests.map (TestDeclaration.render options)

/-- The text of all sections. -/
def sectionsText (options : Options) (registry : Option Registry) (m : DeclaredModule)
    (types validators : List String) : String :=
  "\n\n".intercalate
    (m.leadingSections options registry ++ m.declaredSections options types validators) ++ "\n"

/-- The section of a declaration is never left out. -/
theorem render_eq {options : Options} {registry : Option Registry} {m : DeclaredModule}
    {validators : List String}
    (h : FunctionDeclaration.renderValidators options m.handlers = .ok validators) :
    m.render options registry = (m.sectionsText options registry · validators) <$>
      m.types.mapM (TypeDeclaration.render options) := by
  rw [render, h]
  cases htypes : m.types.mapM (TypeDeclaration.render options) with
  | error failure => rfl
  | ok types =>
      have hdeclared : ∀ text ∈ m.declaredSections options types validators,
          OpensSection text.toList := by
        intro text htext
        simp only [declaredSections, List.mem_append, List.mem_map] at htext
        rcases htext with (((htype | ⟨d, -, rfl⟩) | ⟨f, -, rfl⟩) | hvalidator) | ⟨t, -, rfl⟩
        · exact forall_of_mapM_ok htypes (fun d text => TypeDeclaration.opensSection) text htype
        · exact d.opensSection options
        · exact f.opensSection options
        · exact FunctionDeclaration.opensSection_validators h text hvalidator
        · exact t.opensSection options
      have hkept : ([joinLines (if options.emitDocs then m.docs.marked "////" else []),
            joinLines (m.useLines registry)] ++ m.declaredSections options types validators).filter
          (fun text => !text.isEmpty) =
            m.leadingSections options registry ++ m.declaredSections options types validators := by
        rw [List.filter_append, filter_sections_eq_self hdeclared, leadingSections]
      simp only [declaredSections, ← List.append_assoc] at hkept
      refine congrArg (fun sections => Except.ok ("\n\n".intercalate sections ++ "\n")) ?_
      simp only [declaredSections, ← List.append_assoc]
      exact hkept

/-- Writing a module neither loses nor repeats a function. The functions that are no handlers have
one section each, in order. Of the handlers there is one block for each contract, in the order of
first handlers; no two blocks have the same contract, and the members of a block are the handlers of
its contract in their order. Both together are the functions of the module. -/
theorem functions_rendered_once (options : Options) (registry : Option Registry)
    (m : DeclaredModule) :
    (∃ validators,
      List.Forall₂ (FunctionDeclaration.IsBlock options) (FunctionDeclaration.groups m.handlers)
        validators ∧
      m.render options registry =
        (m.sectionsText options registry · validators) <$>
          m.types.mapM (TypeDeclaration.render options)) ∧
    (FunctionDeclaration.groups m.handlers).map Prod.fst =
      (m.handlers.map FunctionDeclaration.contractName).eraseDups ∧
    ((FunctionDeclaration.groups m.handlers).map Prod.fst).Nodup ∧
    (∀ group ∈ FunctionDeclaration.groups m.handlers,
      group.2 = m.handlers.filter fun f => f.contractName == group.1) ∧
    (m.plainFunctions ++ (FunctionDeclaration.groups m.handlers).flatMap Prod.snd).Perm
      m.functions := by
  have hkeys : (FunctionDeclaration.groups m.handlers).map Prod.fst =
      (m.handlers.map FunctionDeclaration.contractName).eraseDups := by
    simp [FunctionDeclaration.groups, Table.tabulate, Function.comp_def]
  have hkind : ∀ f ∈ m.handlers, f.isHandler = true := fun f hf => (List.mem_filter.mp hf).2
  obtain ⟨validators, hvalidators, hblocks⟩ :=
    FunctionDeclaration.exists_renderValidators options hkind
  refine ⟨⟨validators, hblocks, render_eq hvalidators⟩, hkeys, ?_, fun group hgroup => ?_, ?_⟩
  · rw [hkeys]
    exact nodup_eraseDups _
  · obtain ⟨contract, -, rfl⟩ := List.mem_map.mp hgroup
    rfl
  · refine ((FunctionDeclaration.perm_groups m.handlers).append_left m.plainFunctions).trans ?_
    refine List.perm_append_comm.trans ?_
    exact List.filter_append_perm FunctionDeclaration.isHandler m.functions

end DeclaredModule

end AikenForge
