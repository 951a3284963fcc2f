/-
# What a module declares

Each statement of a module declares by itself what its form says. This module reads off a statement
the functions, tests, constants and enumerations that it declares, with the roles that a table gives
their names, and shows that the declarations of a module are those of its statements: one for each,
in the order of the source.
-/

import AikenForge.Pipeline
import AikenForge.Proofs.Ending
import AikenForge.Proofs.Reports

namespace AikenForge

open AikenForge.Source AikenForge.Lowering

/-- Whatever a computation gives, if it succeeds, is of one kind. -/
abbrev OnSuccess {σ α : Type} (gives : α → Prop) (action : ExceptT Failure (StateM σ) α) : Prop :=
  Ends (fun _ => True) (fun _ => True) gives action

/-- What a computation that only reports gives, it gives to the one that it is part of. -/
theorem onSuccess_ofReporting {α : Type} {gives : α → Prop} {action : Reporting α}
    (h : OnSuccess gives action) : OnSuccess gives (ofReporting action) :=
  ends_ofReporting (fun _ _ h => h) h

/-! ## Declarations by kind -/

namespace Declaration

/-- The function that a declaration is, if it is one. -/
def function? : Declaration → Option FunctionDeclaration
  | .function f => some f
  | _ => none

/-- The test that a declaration is, if it is one. -/
def test? : Declaration → Option TestDeclaration
  | .test t => some t
  | _ => none

/-- Whether a declaration is a function or a test. -/
def isDefinition : Declaration → Bool
  | .function _ | .test _ => true
  | _ => false

/-- The constant that a declaration is, if it is one. -/
def constant? : Declaration → Option ConstantDeclaration
  | .constant d => some d
  | _ => none

/-- The type that a declaration is, if it is one. -/
def type? : Declaration → Option TypeDeclaration
  | .type d => some d
  | _ => none

/-- Functions are definitions, so leaving out everything else loses none. -/
theorem filterMap_function?_filter (found : List Declaration) :
    (found.filter isDefinition).filterMap function? = found.filterMap function? := by
  rw [List.filterMap_filter]
  congr 1
  funext d
  cases d <;> rfl

/-- Tests are definitions, so leaving out everything else loses none. -/
theorem filterMap_test?_filter (found : List Declaration) :
    (found.filter isDefinition).filterMap test? = found.filterMap test? := by
  rw [List.filterMap_filter]
  congr 1
  funext d
  cases d <;> rfl

end Declaration

namespace DeclaredModule

/-- A module has the functions that were declared, in order. -/
theorem functions_foldl_add (m : DeclaredModule) (found : List Declaration) :
    (found.foldl add m).functions = m.functions ++ found.filterMap Declaration.function? := by
  induction found generalizing m with
  | nil => simp
  | cons d rest ih => cases d <;> simp [ih, add, List.filterMap_cons, Declaration.function?]

/-- It has the tests that were declared, in order. -/
theorem tests_foldl_add (m : DeclaredModule) (found : List Declaration) :
    (found.foldl add m).tests = m.tests ++ found.filterMap Declaration.test? := by
  induction found generalizing m with
  | nil => simp
  | cons d rest ih => cases d <;> simp [ih, add, List.filterMap_cons, Declaration.test?]

/-- It has the constants that were declared, in order. -/
theorem constants_foldl_add (m : DeclaredModule) (found : List Declaration) :
    (found.foldl add m).constants = m.constants ++ found.filterMap Declaration.constant? := by
  induction found generalizing m with
  | nil => simp
  | cons d rest ih => cases d <;> simp [ih, add, List.filterMap_cons, Declaration.constant?]

/-- It has the types that were declared, in order. -/
theorem types_foldl_add (m : DeclaredModule) (found : List Declaration) :
    (found.foldl add m).types = m.types ++ found.filterMap Declaration.type? := by
  induction found generalizing m with
  | nil => simp
  | cons d rest ih => cases d <;> simp [ih, add, List.filterMap_cons, Declaration.type?]

end DeclaredModule

/-! ## Definitions and their roles -/

/-- A definition of a function: a method of a class, or a function of the module. -/
inductive Definition
  | method (owner : ClassHeader) (f : FunctionSource)
  | plain (f : FunctionSource)

/-- A way to tell the roles of definitions: which classes are contracts, which methods are handlers,
for which purpose and with which documentation, and which functions are tests. -/
@[ext]
structure RoleReading where
  isContract : ClassHeader → Bool
  handler? : ClassHeader → FunctionSource → Option (String × Documentation)
  isTest : FunctionSource → Bool

/-- The roles that a table has under the names of definitions. -/
def RoleTable.reading (roles : RoleTable) : RoleReading where
  isContract owner := (roles.contract? owner.name).isSome
  handler? owner f :=
    match roles.find? (owner.name ++ "." ++ f.header.name) with
    | some ⟨.handler purpose, docs⟩ => some (purpose, docs)
    | _ => none
  isTest f := roles.role? f.header.name == some .test

/-- A function is declared under its name: as a handler of a purpose, with the documentation that
comes with it, or as a function of its own with its own documentation. -/
structure DeclaresFunction (f : FunctionSource) (handler : Option (String × Documentation))
    (d : FunctionDeclaration) : Prop where
  name : d.name = f.header.name
  purpose : d.purpose = handler.map fun h => Purpose.ofLabel h.1
  purposeName : d.purposeName = handler.map Prod.fst
  docs : d.docs = (handler.map Prod.snd).getD (.ofBlock f.body)

/-- A test is declared under its name, with its own documentation. -/
structure DeclaresTest (f : FunctionSource) (t : TestDeclaration) : Prop where
  name : t.name = f.header.name
  docs : t.docs = .ofBlock f.body

namespace RoleReading

variable (reading : RoleReading)

/-- What a definition gives by the roles that are read: a method of a contract gives one function,
public if it is a handler and private if it is not; a method of another class gives nothing; and a
function of the module gives one test or one function. -/
def Gives : Definition → List Declaration → Prop
  | .method owner f, found =>
    if reading.isContract owner then
      ∃ d, found = [.function d] ∧ DeclaresFunction f (reading.handler? owner f) d ∧
        d.isPublic = (reading.handler? owner f).isSome
    else found = []
  | .plain f, found =>
    if reading.isTest f then ∃ t, found = [.test t] ∧ DeclaresTest f t
    else ∃ d, found = [.function d] ∧ DeclaresFunction f none d

/-- Definitions give declarations one after the other. -/
def GivesAll (definitions : List Definition) (found : List Declaration) : Prop :=
  ∃ groups : List (List Declaration), groups.flatten = found ∧
    List.Forall₂ reading.Gives definitions groups

variable {reading}

theorem givesAll_nil : reading.GivesAll [] [] :=
  ⟨[], rfl, .nil⟩

/-- One definition gives what is declared for it. -/
theorem givesAll_singleton {definition : Definition} {found : List Declaration}
    (h : reading.Gives definition found) : reading.GivesAll [definition] found :=
  ⟨[found], by simp, .cons h .nil⟩

/-- Definitions one after the other give their declarations one after the other. -/
theorem GivesAll.append {definitions more : List Definition} {found further : List Declaration}
    (h : reading.GivesAll definitions found) (hmore : reading.GivesAll more further) :
    reading.GivesAll (definitions ++ more) (found ++ further) := by
  obtain ⟨groups, rfl, hgroups⟩ := h
  obtain ⟨rest, rfl, hrest⟩ := hmore
  exact ⟨groups ++ rest, List.flatten_append, List.rel_append hgroups hrest⟩

/-- Definitions that give nothing one by one give nothing together. -/
theorem givesAll_of_none {definitions : List Definition}
    (h : ∀ definition ∈ definitions, reading.Gives definition []) :
    reading.GivesAll definitions [] := by
  induction definitions with
  | nil => exact givesAll_nil
  | cons definition rest ih =>
      have hrest := ih fun other hother => h other (List.mem_cons_of_mem _ hother)
      exact (givesAll_singleton (h definition List.mem_cons_self)).append hrest

/-- Definitions give functions and tests and nothing else. -/
theorem GivesAll.isDefinition {definitions : List Definition} {found : List Declaration}
    (h : reading.GivesAll definitions found) : ∀ d ∈ found, d.isDefinition = true := by
  obtain ⟨groups, rfl, hgroups⟩ := h
  induction hgroups with
  | nil => simp
  | @cons definition group _ _ hfirst _ ih =>
      have hgroup : ∀ d ∈ group, d.isDefinition = true := by
        cases definition with
        | method owner f =>
            rw [Gives] at hfirst
            split at hfirst
            · obtain ⟨d, rfl, -, -⟩ := hfirst
              simp [Declaration.isDefinition]
            · simp [hfirst]
        | plain f =>
            rw [Gives] at hfirst
            split at hfirst
            · obtain ⟨t, rfl, -⟩ := hfirst
              simp [Declaration.isDefinition]
            · obtain ⟨d, rfl, -⟩ := hfirst
              simp [Declaration.isDefinition]
      intro d hd
      rw [List.flatten_cons, List.mem_append] at hd
      exact hd.elim (hgroup d) (ih d)

/-- What the members of a class give, taken together. -/
theorem givesAll_flatten {definitionsOf : Stmt → List Definition} {members : List Stmt}
    {groups : List (List Declaration)}
    (h : List.Forall₂ (fun member => reading.GivesAll (definitionsOf member)) members groups) :
    reading.GivesAll (members.flatMap definitionsOf) groups.flatten := by
  induction h with
  | nil => exact givesAll_nil
  | cons hfirst _ ih =>
      rw [List.flatMap_cons, List.flatten_cons]
      exact hfirst.append ih

end RoleReading

namespace Collect

/-! ## What statements define -/

/-- The method that a statement of a class defines. -/
def methods (owner : ClassHeader) : Stmt → List Definition
  | .function line header body =>
    if header.isAsync then [] else [.method owner ⟨line, header, body⟩]
  | _ => []

/-- The functions that a statement of a module defines. -/
def definitions : Stmt → List Definition
  | .classDef _ header body => body.flatMap (methods header)
  | .function line header body =>
    if header.isAsync then [] else [.plain ⟨line, header, body⟩]
  | _ => []

/-- The source names of the constants that a statement of a module defines: an annotated or assigned
name that is that of a constant, or annotated to be final, unless it names a type or lists
exports. -/
def constantNames : Stmt → List String
  | .simple _ (.annotates (.name id) hint (some _)) =>
    if isAliasHint hint then []
    else if Naming.isConstantName id || ConstantDeclaration.isFinal hint then [id]
    else []
  | .simple _ (.assigns [.name id] value) =>
    if id == "__all__" || isTypeVariable value then []
    else if Naming.isConstructorName id && TypeDeclaration.isTypeExpression value then []
    else if Naming.isConstantName id then [id]
    else []
  | _ => []

/-- The enumerations that a statement of a module defines: a class that is one and is no
contract. -/
def enumSites (roles : RoleTable) : Stmt → List (ClassHeader × List Stmt)
  | .classDef _ header body =>
    if (roles.contract? header.name).isNone && TypeDeclaration.isEnum header then [(header, body)]
    else []
  | _ => []

/-! ## Their declarations -/

/-- The type of an enumeration: the union of its constructors, or none at all. -/
def enumTarget (body : List Stmt) : Target :=
  match TypeDeclaration.enumMembers body with
  | [] => .void
  | members => .union (members.map fun member => .primitive (Naming.toConstructorName member))

/-- An enumeration is declared under its name as the union of its constructors. -/
structure DeclaresEnum (header : ClassHeader) (body : List Stmt) (d : TypeDeclaration) : Prop where
  name : d.name = header.name
  target : d.target = some (enumTarget body)
  definition : d.definition = (enumTarget body).render

/-- The declarations of statements are those of the functions and the constants that they define,
each in order, and have one for each enumeration among others for types. -/
structure Declared (roles : RoleTable) (statements : List Stmt) (found : List Declaration) :
    Prop where
  definitions : roles.reading.GivesAll (statements.flatMap definitions)
    (found.filter Declaration.isDefinition)
  constants : List.Forall₂ (fun name d => d.name = Naming.constantName name)
    (statements.flatMap constantNames) (found.filterMap Declaration.constant?)
  enums : ∀ site ∈ statements.flatMap (enumSites roles),
    ∃ d ∈ found.filterMap Declaration.type?, DeclaresEnum site.1 site.2 d

theorem declared_nil (roles : RoleTable) : Declared roles [] [] :=
  ⟨RoleReading.givesAll_nil, .nil, by simp⟩

/-- The declarations of a statement and those of the statements after it. -/
theorem Declared.cons {roles : RoleTable} {statement : Stmt} {rest : List Stmt}
    {found more : List Declaration} (h : Declared roles [statement] found)
    (hrest : Declared roles rest more) : Declared roles (statement :: rest) (found ++ more) := by
  have hsplit : statement :: rest = [statement] ++ rest := rfl
  constructor
  · rw [hsplit, List.flatMap_append, List.filter_append]
    exact h.definitions.append hrest.definitions
  · rw [hsplit, List.flatMap_append, List.filterMap_append]
    exact List.rel_append h.constants hrest.constants
  · rw [hsplit, List.flatMap_append, List.filterMap_append]
    intro site hsite
    rcases List.mem_append.mp hsite with hsite | hsite
    · obtain ⟨d, hd, hdeclares⟩ := h.enums site hsite
      exact ⟨d, List.mem_append_left _ hd, hdeclares⟩
    · obtain ⟨d, hd, hdeclares⟩ := hrest.enums site hsite
      exact ⟨d, List.mem_append_right _ hd, hdeclares⟩

/-! ## Functions and tests -/

variable (setting : Setting)

/-- The definitions of a class are its methods. -/
theorem exists_of_mem_methods {owner : ClassHeader} {member : Stmt} {definition : Definition}
    (h : definition ∈ methods owner member) : ∃ f, definition = .method owner f := by
  unfold methods at h
  split at h
  · split at h
    · cases h
    · exact ⟨_, List.mem_singleton.mp h⟩
  · cases h

/-- A function is declared under its own name, without a purpose. -/
theorem onSuccess_ofSource (ctx : Context) (f : FunctionSource) (isPublic isMethod : Bool)
    (docs : Documentation) :
    OnSuccess (fun d => d.name = f.header.name ∧ d.purpose = none ∧ d.purposeName = none ∧
        d.docs = docs ∧ d.isPublic = isPublic)
      (FunctionDeclaration.ofSource ctx f isPublic isMethod docs) := by
  unfold FunctionDeclaration.ofSource
  refine (ends_somehow _).bind fun _ _ => ?_
  refine (ends_somehow _).bind fun _ _ => (ends_somehow _).bind fun _ _ => .pure ?_
  exact ⟨rfl, rfl, rfl, rfl, rfl⟩

/-- A handler is declared under its own name, for the purpose that it is given. -/
theorem onSuccess_ofHandlerSource (ctx : Context) (f : FunctionSource) (contract purpose : String)
    (docs : Documentation) (datumType : Option String) :
    OnSuccess (fun d => d.name = f.header.name ∧ d.purpose = some (Purpose.ofLabel purpose) ∧
        d.purposeName = some purpose ∧ d.docs = docs ∧ d.isPublic = true)
      (FunctionDeclaration.ofHandlerSource ctx f contract purpose docs datumType) := by
  unfold FunctionDeclaration.ofHandlerSource
  refine (ends_somehow _).bind fun _ _ => (ends_somehow _).bind fun _ _ => .pure ?_
  exact ⟨rfl, rfl, rfl, rfl, rfl⟩

/-- A test is declared under its own name. -/
theorem onSuccess_testBody (ctx : Context) (f : FunctionSource) (docs : Documentation) :
    OnSuccess (fun t => t.name = f.header.name ∧ t.docs = docs) (do
      let (body, _) ← separately (functionText ctx f)
      return ({ name := f.header.name, body, docs } : TestDeclaration)) :=
  (ends_somehow _).bind fun _ _ => .pure ⟨rfl, rfl⟩

theorem onSuccess_testOfSource (ctx : Context) (f : FunctionSource) (docs : Documentation) :
    OnSuccess (fun t => t.name = f.header.name ∧ t.docs = docs)
      (TestDeclaration.ofSource ctx f docs) := by
  unfold TestDeclaration.ofSource
  split
  · exact (ends_somehow _).bind fun _ _ => onSuccess_testBody ctx f docs
  · exact onSuccess_testBody ctx f docs

/-- A member of a contract gives a handler if the table has one under its qualified name, and else a
private function. -/
theorem onSuccess_method (owner : ClassHeader) (contract : String) (datumType : Option String)
    (hcontract : setting.roles.reading.isContract owner = true) (member : Stmt) :
    OnSuccess (setting.roles.reading.GivesAll (methods owner member))
      (method setting owner.name contract datumType member) := by
  cases member with
  | function line header body =>
      rw [method, methods]
      split
      · exact .pure RoleReading.givesAll_nil
      · dsimp only
        have hgives {d : FunctionDeclaration} (handler : Option (String × Documentation))
            (hhandler : setting.roles.reading.handler? owner ⟨line, header, body⟩ = handler)
            (hd : DeclaresFunction ⟨line, header, body⟩ handler d)
            (hpublic : d.isPublic = handler.isSome) :
            setting.roles.reading.GivesAll [.method owner ⟨line, header, body⟩] [.function d] := by
          refine RoleReading.givesAll_singleton ?_
          rw [RoleReading.Gives, if_pos hcontract, hhandler]
          exact ⟨d, rfl, hd, hpublic⟩
        split
        · rename_i purpose docs hfound
          refine (onSuccess_ofReporting (onSuccess_ofHandlerSource _ _ contract purpose docs
            datumType)).bind fun d hd => .pure (hgives (some (purpose, docs)) ?_ ?_ ?_)
          · rw [RoleTable.reading]
            dsimp only
            rw [hfound]
          · exact ⟨hd.1, hd.2.1, hd.2.2.1, hd.2.2.2.1⟩
          · exact hd.2.2.2.2
        · rename_i hfound
          refine (onSuccess_ofSource _ _ _ _ _).bind fun d hd =>
            .pure (hgives none ?_ ?_ ?_)
          · rw [RoleTable.reading]
            dsimp only
            split
            · rename_i purpose docs heq
              exact absurd heq (hfound purpose docs)
            · rfl
          · exact ⟨hd.1, hd.2.1, hd.2.2.1, hd.2.2.2.1⟩
          · exact hd.2.2.2.2
  | _ => exact .pure RoleReading.givesAll_nil

/-! ## Statements of each form -/

/-- Declarations that are types. -/
def AreTypes (found : List Declaration) : Prop :=
  ∃ ds : List TypeDeclaration, found = ds.map .type

/-- Looking for the datum of a contract declares types only. -/
theorem onSuccess_contractDatum (className : String) (members : List Stmt) :
    OnSuccess (fun result => AreTypes result.2) (contractDatum setting className members) := by
  fun_induction contractDatum setting className members with
  | case1 => exact .pure ⟨[], rfl⟩
  | case2 line id hint value rest name hrole =>
      refine (ends_somehow _).bind fun inner _ => ?_
      split
      · exact (ends_somehow _).bind fun d _ => .pure ⟨[d], rfl⟩
      · exact (ends_somehow _).bind fun _ _ => .pure ⟨[], rfl⟩
  | case3 line id hint value rest hrole ih => exact ih
  | case4 statement rest hstatement ih => exact ih

/-- A contract declares its methods after the type of its datum. -/
theorem onSuccess_contract (owner : ClassHeader) (name : String) (members : List Stmt)
    (hcontract : setting.roles.reading.isContract owner = true) :
    OnSuccess (fun found => ∃ types given, found = types ++ given ∧ AreTypes types ∧
        setting.roles.reading.GivesAll (members.flatMap (methods owner)) given)
      (contract setting owner.name name members) := by
  unfold contract
  refine (onSuccess_ofReporting (onSuccess_contractDatum setting owner.name members)).bind
    fun result htypes => ?_
  refine (Ends.mapM fun member _ =>
    onSuccess_method setting owner name result.1 hcontract member).bind fun groups hgroups =>
      .pure ?_
  exact ⟨result.2, groups.flatten, rfl, htypes, RoleReading.givesAll_flatten hgroups⟩

/-- An enumeration is declared with its members. -/
theorem onSuccess_ofEnum (header : ClassHeader) (body : List Stmt) (isPublic : Bool)
    (docs : Documentation) :
    OnSuccess (DeclaresEnum header body) (TypeDeclaration.ofEnum header body isPublic docs) := by
  have hdeclares (target : Target) (htarget : enumTarget body = target) :
      DeclaresEnum header body (.ofTarget header.name target none isPublic false docs) := by
    subst htarget
    exact ⟨rfl, rfl, rfl⟩
  unfold TypeDeclaration.ofEnum
  split
  · rename_i hnone
    refine (ends_somehow _).bind fun _ _ => .pure (hdeclares _ ?_)
    rw [enumTarget, hnone]
  · rename_i hsome
    refine .pure (hdeclares _ ?_)
    unfold enumTarget
    split
    · rename_i hnone
      exact absurd hnone hsome
    · rfl

/-- A class declares its methods, in order, and otherwise types. -/
theorem onSuccess_classDeclarations (line : Nat) (header : ClassHeader) (body : List Stmt) :
    OnSuccess (Declared setting.roles [.classDef line header body])
      (classDeclarations setting header body) := by
  unfold classDeclarations
  dsimp only
  cases hcontract : setting.roles.contract? header.name with
  | some name =>
      have hreading : setting.roles.reading.isContract header = true := by
        simp [RoleTable.reading, hcontract]
      refine (onSuccess_contract setting header name body hreading).imp fun found hfound => ?_
      obtain ⟨_, given, rfl, ⟨types, rfl⟩, hgiven⟩ := hfound
      have hall := hgiven.isDefinition
      constructor
      · have htypes : (types.map Declaration.type).filter Declaration.isDefinition = [] := by
          simp [List.filter_map, Function.comp_def, Declaration.isDefinition]
        rw [List.filter_append, htypes, List.filter_eq_self.mpr hall]
        simpa [definitions] using hgiven
      · have hconstants : given.filterMap Declaration.constant? = [] := by
          refine List.filterMap_eq_nil_iff.mpr fun d hd => ?_
          have hdefinition := hall d hd
          cases d <;> first | rfl | cases hdefinition
        simp [constantNames, hconstants, List.filterMap_map, Function.comp_def,
          Declaration.constant?]
      · simp [enumSites, hcontract]
  | none =>
      have hreading : setting.roles.reading.isContract header = false := by
        simp [RoleTable.reading, hcontract]
      have hone {d : TypeDeclaration}
          (hd : TypeDeclaration.isEnum header = true → DeclaresEnum header body d) :
          Declared setting.roles [.classDef line header body] [.type d] := by
        constructor
        · refine RoleReading.givesAll_of_none fun definition hdefinition => ?_
          simp only [List.flatMap_cons, List.flatMap_nil, List.append_nil, definitions,
            List.mem_flatMap] at hdefinition
          obtain ⟨member, -, hmember⟩ := hdefinition
          obtain ⟨f, rfl⟩ := exists_of_mem_methods hmember
          simp [RoleReading.Gives, hreading]
        · simp [constantNames, Declaration.constant?]
        · simpa [enumSites, hcontract, Declaration.type?] using hd
      dsimp only
      split
      · exact (onSuccess_ofReporting (onSuccess_ofEnum _ _ _ _)).bind fun d hd =>
          .pure (hone fun _ => hd)
      · rename_i hrecord
        exact (ends_somehow _).bind fun d _ => .pure (hone fun henum => absurd henum hrecord)

/-- A function is declared once, by its role. -/
theorem onSuccess_functionDeclarations (f : FunctionSource) (hsync : f.header.isAsync = false) :
    OnSuccess (Declared setting.roles [.function f.line f.header f.body])
      (functionDeclarations setting f) := by
  have hone {d : Declaration} (hdefinition : d.isDefinition = true)
      (hgives : setting.roles.reading.Gives (.plain f) [d]) :
      Declared setting.roles [.function f.line f.header f.body] [d] := by
    constructor
    · simpa [definitions, hsync, hdefinition] using RoleReading.givesAll_singleton hgives
    · have hconstants : Declaration.constant? d = none := by
        cases d <;> first | rfl | cases hdefinition
      simp [constantNames, hconstants]
    · simp [enumSites]
  unfold functionDeclarations
  dsimp only
  split
  · rename_i htest
    have htest : setting.roles.reading.isTest f = true := htest
    refine (onSuccess_testOfSource _ _ _).bind fun t ht => .pure (hone rfl ?_)
    rw [RoleReading.Gives, if_pos htest]
    exact ⟨t, rfl, ht.1, ht.2⟩
  · rename_i htest
    have htest : ¬ setting.roles.reading.isTest f = true := htest
    refine (onSuccess_ofSource _ _ _ _ _).bind fun d hd => .pure (hone rfl ?_)
    rw [RoleReading.Gives, if_neg htest]
    exact ⟨d, rfl, hd.1, hd.2.1, hd.2.2.1, hd.2.2.2.1⟩

/-- A statement that is neither a class nor a function declares only what its constants are. -/
theorem declared_other {roles : RoleTable} {statement : Stmt} {found : List Declaration}
    (hclass : ∀ line header body, statement ≠ .classDef line header body)
    (hfunction : ∀ line header body, statement = .function line header body →
      header.isAsync = true)
    (hdefinitions : found.filter Declaration.isDefinition = [])
    (hconstants : List.Forall₂ (fun name d => d.name = Naming.constantName name)
      (constantNames statement) (found.filterMap Declaration.constant?)) :
    Declared roles [statement] found := by
  have hgives : roles.reading.GivesAll [] (found.filter Declaration.isDefinition) := by
    rw [hdefinitions]
    exact RoleReading.givesAll_nil
  cases statement with
  | classDef line header body => exact absurd rfl (hclass line header body)
  | function line header body =>
      have hasync := hfunction line header body rfl
      exact ⟨by simpa [definitions, hasync] using hgives, by simpa using hconstants,
        by simp [enumSites]⟩
  | _ => exact ⟨hgives, by simpa using hconstants, by simp [enumSites]⟩

/-- A simple statement declares the constants that it names, and no definition. -/
theorem declared_simple {roles : RoleTable} {line : Nat} {simple : Simple}
    {found : List Declaration} (hdefinitions : found.filter Declaration.isDefinition = [])
    (hconstants : List.Forall₂ (fun name d => d.name = Naming.constantName name)
      (constantNames (.simple line simple)) (found.filterMap Declaration.constant?)) :
    Declared roles [.simple line simple] found :=
  declared_other (fun _ _ _ => by simp) (fun _ _ _ => by simp) hdefinitions hconstants

/-- An alias declares a type. -/
theorem onSuccess_aliasDeclarations (name : String) (value : Option Expr) (docs : Documentation) :
    OnSuccess AreTypes (aliasDeclarations setting name value docs) :=
  (ends_somehow _).bind fun d _ => .pure ⟨[d], rfl⟩

/-- A constant is declared under its name in the spelling of constants. -/
theorem onSuccess_ofValue (ctx : Context) (name : String) (value : Expr) (hint : Option Expr)
    (isPublic : Bool) (docs : Documentation) :
    OnSuccess (fun d => d.name = Naming.constantName name)
      (ConstantDeclaration.ofValue ctx name value hint isPublic docs) := by
  have hdeclared (type : Option String) (u : PUnit) :
      OnSuccess (fun d => d.name = Naming.constantName name) (do
        let text ← lower ctx value
        return ({ name := Naming.constantName name, value := text, type, isPublic, docs } :
          ConstantDeclaration)) :=
    (ends_somehow _).bind fun _ _ => .pure (by dsimp only)
  unfold ConstantDeclaration.ofValue
  refine (ends_somehow _).bind fun type _ => ?_
  dsimp only
  split
  · exact (ends_somehow _).bind fun u _ => hdeclared type u
  · exact hdeclared type ⟨⟩

/-- A constant is declared under its name in the target. -/
theorem onSuccess_constantDeclarations (name : String) (value : Expr) (hint : Option Expr)
    (docs : Documentation) :
    OnSuccess (fun found => ∃ d, found = [.constant d] ∧ d.name = Naming.constantName name)
      (constantDeclarations setting name value hint docs) := by
  unfold constantDeclarations
  exact (onSuccess_ofValue _ _ _ _ _ _).bind fun d hd => .pure ⟨d, rfl, hd⟩

/-- A variable that is skipped declares nothing. -/
theorem onSuccess_skipVariable (name : String) (line : Nat) :
    OnSuccess (fun found => found = []) (skipVariable name line) :=
  (ends_somehow _).bind fun _ _ => .pure rfl

theorem onSuccess_skipStatement (statement : Stmt) :
    OnSuccess (fun found => found = []) (skipStatement statement) := by
  unfold skipStatement
  split <;> exact (ends_somehow _).bind fun _ _ => .pure rfl

/-- A statement that names no constant may declare types. -/
theorem declared_types {roles : RoleTable} {line : Nat} {simple : Simple}
    {found : List Declaration} (hnames : constantNames (.simple line simple) = [])
    (h : AreTypes found) : Declared roles [.simple line simple] found := by
  obtain ⟨types, rfl⟩ := h
  refine declared_simple ?_ ?_
  · simp [List.filter_map, Function.comp_def, Declaration.isDefinition]
  · simp [hnames, List.filterMap_map, Function.comp_def, Declaration.constant?]

/-- A statement that names a constant declares that constant. -/
theorem declared_constant {roles : RoleTable} {line : Nat} {simple : Simple} {name : String}
    {found : List Declaration} (hnames : constantNames (.simple line simple) = [name])
    (h : ∃ d, found = [.constant d] ∧ d.name = Naming.constantName name) :
    Declared roles [.simple line simple] found := by
  obtain ⟨d, rfl, hd⟩ := h
  refine declared_simple (by simp [Declaration.isDefinition]) ?_
  simpa [hnames, Declaration.constant?] using hd

theorem declared_nothing {roles : RoleTable} {line : Nat} {simple : Simple}
    {found : List Declaration} (hnames : constantNames (.simple line simple) = [])
    (h : found = []) : Declared roles [.simple line simple] found := by
  subst h
  exact declared_types hnames ⟨[], rfl⟩

/-- An annotated name is an alias of a type, a constant, or skipped. -/
theorem onSuccess_annotatedDeclarations (line : Nat) (name : String) (hint : Expr)
    (value : Option Expr) (docs : Documentation) :
    OnSuccess (Declared setting.roles [.simple line (.annotates (.name name) hint value)])
      (annotatedDeclarations setting line name hint value docs) := by
  unfold annotatedDeclarations
  split
  · rename_i halias
    refine (onSuccess_aliasDeclarations setting name value docs).imp fun found hfound =>
      declared_types ?_ hfound
    cases value <;> simp [constantNames, halias]
  · rename_i halias
    split
    · rename_i value
      split
      · rename_i hconstant
        refine (onSuccess_constantDeclarations setting name value (some hint) docs).imp
          fun found hfound => declared_constant ?_ hfound
        rw [constantNames, if_neg halias, if_pos hconstant]
      · rename_i hconstant
        refine (onSuccess_skipVariable name line).imp fun found hfound =>
          declared_nothing ?_ hfound
        rw [constantNames, if_neg halias, if_neg hconstant]
    · exact (onSuccess_skipVariable name line).imp fun found hfound =>
        declared_nothing rfl hfound

/-- An assigned name is a type, a constant, or skipped. -/
theorem onSuccess_assignedDeclarations (line : Nat) (name : String) (value : Expr)
    (docs : Documentation) :
    OnSuccess (Declared setting.roles [.simple line (.assigns [.name name] value)])
      (assignedDeclarations setting line name value docs) := by
  unfold assignedDeclarations
  split
  · rename_i hskipped
    refine .pure (declared_nothing ?_ rfl)
    rw [constantNames, if_pos hskipped]
  rename_i hskipped
  split
  · rename_i htype
    refine (onSuccess_aliasDeclarations setting name (some value) docs).imp fun found hfound =>
      declared_types ?_ hfound
    rw [constantNames, if_neg hskipped, if_pos htype]
  rename_i htype
  split
  · rename_i hconstant
    refine (onSuccess_constantDeclarations setting name value none docs).imp fun found hfound =>
      declared_constant ?_ hfound
    rw [constantNames, if_neg hskipped, if_neg htype, if_pos hconstant]
  · rename_i hconstant
    refine (onSuccess_skipVariable name line).imp fun found hfound => declared_nothing ?_ hfound
    rw [constantNames, if_neg hskipped, if_neg htype, if_neg hconstant]

/-! ## Modules -/

/-- A statement declares what its form says, whatever comes after it. -/
theorem onSuccess_statementDeclarations (next : Option Stmt) (statement : Stmt) :
    OnSuccess (Declared setting.roles [statement])
      (statementDeclarations setting next statement) := by
  unfold statementDeclarations
  split
  · refine .pure (declared_simple ?_ ?_) <;>
      simp [List.filter_map, List.filterMap_map, Function.comp_def, Declaration.isDefinition,
        Declaration.constant?, constantNames]
  · refine (ends_somehow _).bind fun i _ => .pure (declared_simple ?_ ?_) <;>
      cases i <;> simp [Declaration.isDefinition, Declaration.constant?, constantNames]
  · exact onSuccess_classDeclarations setting _ _ _
  · rename_i line header body
    split
    · rename_i hasync
      refine (onSuccess_skipStatement _).imp fun found hfound => ?_
      subst hfound
      refine declared_other (fun _ _ _ => by simp) ?_ rfl (by simp [constantNames])
      rintro _ _ _ ⟨⟩
      exact hasync
    · rename_i hsync
      exact onSuccess_functionDeclarations setting ⟨line, header, body⟩ (by simpa using hsync)
  · exact onSuccess_annotatedDeclarations setting _ _ _ _ _
  · exact onSuccess_assignedDeclarations setting _ _ _ _
  · exact .pure (declared_nothing rfl rfl)
  · rename_i hclass hfunction hannotates hassigns hevaluates
    refine (onSuccess_skipStatement _).imp fun found hfound => ?_
    subst hfound
    refine declared_other hclass (fun line header body heq => absurd heq (hfunction _ _ _)) rfl ?_
    have hnames : constantNames statement = [] := by
      unfold constantNames
      split
      · rename_i heq
        exact absurd rfl (hannotates _ _ _ _)
      · exact absurd rfl (hassigns _ _ _)
      · rfl
    simp [hnames]

/-- The statements of a module declare what is in them, in order and once each. -/
theorem onSuccess_declarations (statements : List Stmt) :
    OnSuccess (Declared setting.roles statements) (declarations setting statements) := by
  induction statements with
  | nil => exact .pure (declared_nil _)
  | cons statement rest ih =>
      rw [declarations]
      exact (onSuccess_statementDeclarations setting rest.head? statement).bind fun found hfound =>
        ih.bind fun more hmore => .pure (hfound.cons hmore)

end Collect

/-- The functions and the tests of a module are what the definitions of its statements give, one
after the other, by the roles that are read. -/
def DeclaredModule.DefinedBy (m : DeclaredModule) (reading : RoleReading) (statements : List Stmt) :
    Prop :=
  ∃ groups : List (List Declaration),
    List.Forall₂ reading.Gives (statements.flatMap Collect.definitions) groups ∧
      m.functions = groups.flatten.filterMap Declaration.function? ∧
      m.tests = groups.flatten.filterMap Declaration.test?

/-- A module has the scope of its statements, and the declarations that these define. -/
structure DeclaredModule.Declares (m : DeclaredModule) (statements : List Stmt) : Prop where
  scope : m.scope = Collect.scopeOf (RoleTable.ofModule statements) statements
  definitions : m.DefinedBy (RoleTable.ofModule statements).reading statements
  constants : List.Forall₂ (fun name d => d.name = Naming.constantName name)
    (statements.flatMap Collect.constantNames) m.constants
  enums : ∀ site ∈ statements.flatMap (Collect.enumSites (RoleTable.ofModule statements)),
    ∃ d ∈ m.types, Collect.DeclaresEnum site.1 site.2 d

/-- A module that a pipeline reads declares what the statements of its source define. -/
theorem Pipeline.declares_of_read (p : Pipeline) {source file : String} {name : Option String}
    {statements : List Stmt} {m : DeclaredModule}
    (hread : readModule p.options.names source = .ok statements)
    (hm : (p.read source name file).1 = .ok m) : m.Declares statements := by
  have hsource (module : String) :
      OnSuccess (fun m => m.Declares statements)
        (DeclaredModule.ofSource p.options module file source) := by
    unfold DeclaredModule.ofSource
    rw [hread]
    refine (ends_somehow _).bind fun _ _ => ?_
    refine (Collect.onSuccess_declarations _ statements).bind fun found hfound => .pure ?_
    obtain ⟨groups, hflatten, hgroups⟩ := hfound.definitions
    constructor
    · rw [DeclaredModule.scope_foldl_add]
    · refine ⟨groups, hgroups, ?_, ?_⟩
      · rw [DeclaredModule.functions_foldl_add, hflatten, Declaration.filterMap_function?_filter]
        rfl
      · rw [DeclaredModule.tests_foldl_add, hflatten, Declaration.filterMap_test?_filter]
        rfl
    · rw [DeclaredModule.constants_foldl_add]
      exact hfound.constants
    · rw [DeclaredModule.types_foldl_add]
      exact hfound.enums
  exact (hsource _).of_ok trivial (Prod.ext hm rfl)

end AikenForge
