/-
# Declarations and uses agree on names

The names that expressions resolve against are collected by one pass over a module and its
declarations are made by another. Against the scope that a module has, a constant reads as the name
that it is declared under, a member of an enumeration as one of the constructors that the declared
type lists, and a call of a function of the module starts with the name of the function, whatever
the name would mean by itself.
-/

import AikenForge.Proofs.Declared.Sites

namespace AikenForge

open AikenForge.Source AikenForge.Lowering

variable {α σ : Type}

/-- What one element of a list brings about and no element undoes holds after a fold over the
list. -/
theorem foldl_establishes (holds : σ → Prop) {step : σ → α → σ} {x : α} {xs : List α} (hx : x ∈ xs)
    (hstep : ∀ state, holds (step state x))
    (hkeeps : ∀ state, holds state → ∀ y ∈ xs, holds (step state y)) (start : σ) :
    holds (xs.foldl step start) := by
  obtain ⟨before, after, rfl⟩ := List.append_of_mem hx
  rw [List.foldl_append, List.foldl_cons]
  exact List.foldlRecOn after step (hstep _) fun state hstate y hy =>
    hkeeps state hstate y (by simp [hy])

namespace Collect

/-! ## The scope of a module -/

@[simp]
theorem mem_addOnce {names : List String} {name other : String} :
    other ∈ addOnce names name ↔ other ∈ names ∨ other = name := by
  unfold addOnce
  split
  · rename_i hname
    have hmem : name ∈ names := by simpa using hname
    constructor
    · exact .inl
    · rintro (h | rfl)
      · exact h
      · exact hmem
  · simp

/-- Adding names loses none, and adds no others. -/
theorem mem_foldl_addOnce {added names : List String} {other : String} :
    other ∈ added.foldl addOnce names ↔ other ∈ names ∨ other ∈ added := by
  induction added generalizing names with
  | nil => simp
  | cons name rest ih => rw [List.foldl_cons, ih, mem_addOnce, List.mem_cons, or_assoc]

variable {roles : RoleTable} {scope : Scope} {name : String} {statement : Stmt}

/-- A constant of the scope stays one. -/
theorem mem_constants_addToScope (h : name ∈ scope.constants) :
    name ∈ (addToScope roles scope statement).constants := by
  unfold addToScope
  split
  · split
    · exact h
    · split <;> exact h
  · split
    · exact mem_addOnce.mpr (.inl h)
    · exact h
  · split
    · exact h
    · exact mem_foldl_addOnce.mpr (.inl h)
  · split <;> exact h

/-- A function of the scope stays one. -/
theorem mem_knownFunctions_addToScope (h : name ∈ scope.knownFunctions) :
    name ∈ (addToScope roles scope statement).knownFunctions := by
  unfold addToScope
  split
  · split
    · exact h
    · split
      · exact mem_foldl_addOnce.mpr (.inl h)
      · exact h
  · split <;> exact h
  · split <;> exact h
  · split
    · exact mem_addOnce.mpr (.inl h)
    · exact h

/-- What a statement declares as a constant is one in scope. -/
theorem mem_constants_of_mem_constantNames (h : name ∈ constantNames statement) (scope : Scope) :
    name ∈ (addToScope roles scope statement).constants := by
  unfold constantNames at h
  split at h
  · rename_i hint value
    split at h
    · cases h
    split at h
    · rename_i hconstant
      rw [List.mem_singleton.mp h, addToScope, if_pos hconstant]
      exact mem_addOnce.mpr (.inr rfl)
    · cases h
  · rename_i id value
    split at h
    · cases h
    rename_i hskipped
    split at h
    · cases h
    split at h
    · rename_i hconstant
      have hvariable : ¬ isTypeVariable value = true :=
        fun hvariable => hskipped (by simp [hvariable])
      rw [List.mem_singleton.mp h, addToScope, if_neg hvariable]
      refine mem_foldl_addOnce.mpr (.inr ?_)
      simp [constantTargets, Expr.name?, hconstant]
    · cases h
  · cases h

/-- Other statements leave an enumeration of the scope. -/
theorem enums_addToScope (hclass : ∀ line header body, statement = .classDef line header body →
    header.name ≠ name) :
    (addToScope roles scope statement).enums.find? name = scope.enums.find? name := by
  unfold addToScope
  split
  · rename_i line header body
    split
    · rw [Table.find?_insert, if_neg (Ne.symm (hclass _ _ _ rfl))]
    · split <;> rfl
  · split <;> rfl
  · split <;> rfl
  · split <;> rfl

variable {statements : List Stmt}

/-- The constants of a module are in its scope. -/
theorem mem_constants_scopeOf (h : name ∈ statements.flatMap constantNames) :
    name ∈ (scopeOf roles statements).constants := by
  obtain ⟨statement, hmem, hname⟩ := List.mem_flatMap.mp h
  exact foldl_establishes (fun scope : Scope => name ∈ scope.constants) hmem
    (mem_constants_of_mem_constantNames hname)
    (fun _ hscope _ _ => mem_constants_addToScope hscope) _

/-- So are its functions. -/
theorem mem_knownFunctions_scopeOf {line : Nat} {header : FunctionHeader} {body : List Stmt}
    (hmem : .function line header body ∈ statements) (hsync : header.isAsync = false) :
    header.name ∈ (scopeOf roles statements).knownFunctions := by
  refine foldl_establishes (fun scope : Scope => header.name ∈ scope.knownFunctions) hmem
    (fun scope => ?_) (fun _ hscope _ _ => mem_knownFunctions_addToScope hscope) _
  simp [addToScope, functionName?, hsync]

/-- An enumeration has its members in scope, if no class after it has its name. -/
theorem enums_scopeOf {before after : List Stmt} {line : Nat} {header : ClassHeader}
    {body : List Stmt} (henum : TypeDeclaration.isEnum header = true)
    (hafter : ∀ line' header' body', .classDef line' header' body' ∈ after →
      header'.name ≠ header.name) :
    (scopeOf roles (before ++ .classDef line header body :: after)).enums.find? header.name =
      some (TypeDeclaration.enumMembers body) := by
  rw [scopeOf, List.foldl_append, List.foldl_cons]
  refine List.foldlRecOn (motive := fun scope : Scope => scope.enums.find? header.name =
    some (TypeDeclaration.enumMembers body)) after _ ?_ fun scope hscope statement hmem => ?_
  · rw [addToScope, if_pos henum, Table.find?_insert, if_pos rfl]
  · rw [enums_addToScope fun line' header' body' heq => hafter line' header' body' (heq ▸ hmem),
      hscope]

end Collect

/-! ## The texts of uses -/

namespace Lowering

variable {ctx : Context} {name : String}

/-- Without aliases, an expression has a text whatever else the state holds, and leaves the state as
it is. -/
def ReadsAs (ctx : Context) (e : Expr) (text : String) : Prop :=
  ∀ state, state.aliases = [] → Yields (lower ctx e) state text state

/-- A name is read as that of a constant, or as it is. -/
theorem readsAs_name (ctx : Context) (name : String) :
    ReadsAs ctx (.name name)
      (if ctx.scope.constants.contains name then Naming.constantName name else name) := by
  intro state hstate
  have hfind : state.aliases.find? name = none := by rw [hstate]; rfl
  rw [lower, nameText]
  refine yields_bind.mpr ⟨state, state, by simp, ?_⟩
  rw [hfind]
  exact .pure

/-- A name of a constant is read as the constant's. -/
theorem readsAs_constant (h : name ∈ ctx.scope.constants) :
    ReadsAs ctx (.name name) (Naming.constantName name) := by
  have hname := readsAs_name ctx name
  rwa [if_pos (by simpa using h)] at hname

/-- A member of an enumeration is read as its constructor. -/
theorem readsAs_member {members : List String} {member : String}
    (h : ctx.scope.enums.find? name = some members) (hmember : member ∈ members) :
    ReadsAs ctx (.attribute (.name name) member) (Naming.toConstructorName member) := by
  intro state _
  have henum : enumMember? ctx (.name name) member = some (Naming.toConstructorName member) := by
    simp [enumMember?, Expr.name?, h, hmember]
  rw [lower, henum]
  exact .pure

/-- What follows the name of a function in the text of a call. -/
def callTail (ctx : Context) (name : String) (args : List Expr) (keywords : List Keyword) :
    Lowering String :=
  if Naming.isConstructorName (afterLastDot name) && !keywords.isEmpty && args.isEmpty then do
    return " " ++ bracedFields (← lowerFields ctx keywords)
  else do
    let positional ← lowerAll ctx args
    let labelled ← lowerLabelled ctx true keywords
    return "(" ++ ", ".intercalate (positional ++ labelled) ++ ")"

/-- A function that the module defines is called by its name, even one that is called like a builtin
or like one of the special forms. -/
theorem outcome_lower_call (hknown : name ∈ ctx.scope.knownFunctions)
    (hconstant : name ∉ ctx.scope.constants) (args : List Expr) (keywords : List Keyword)
    (state : LoweringState) (hstate : state.aliases = []) :
    outcome (lower ctx (.call (.name name) args keywords)) state =
      outcome ((name ++ ·) <$> callTail ctx name args keywords) state := by
  have hspecial : specialCall? ctx (.name name) args = none := by
    simp [specialCall?, Expr.name?, hknown]
  have hname := readsAs_name ctx name state hstate
  rw [if_neg (by simpa using hconstant)] at hname
  have hcallee : Yields (calleeText ctx (.name name) (lower ctx (.name name))) state name
    state := by
    have htarget : Yields (builtinTarget? ctx (.name name)) state none state := by
      rw [builtinTarget?]
      refine yields_bind.mpr ⟨state, state, by simp, ?_⟩
      split
      · rename_i id registry hid hregistry
        obtain rfl : name = id := Option.some.inj hid
        rw [if_pos (by simp [hknown])]
        exact .pure
      · exact .pure
    refine htarget.bind ?_
    exact hname.bind .pure
  rw [lower, hspecial]
  dsimp only
  rw [outcome_bind, hcallee]
  dsimp only
  unfold callTail
  split
  · simp [String.append_assoc]
  · simp [String.append_assoc]

end Lowering

/-! ## Agreement -/

namespace TypeDeclaration

/-- The constructors that a declared type lists. -/
def constructors (d : TypeDeclaration) : List String :=
  match d.target with
  | some (.union members) => members.filterMap fun
    | .primitive name => some name
    | _ => none
  | _ => []

/-- A declared enumeration has a constructor for each of its members. -/
theorem constructors_of_enum {header : ClassHeader} {body : List Stmt} {d : TypeDeclaration}
    (h : Collect.DeclaresEnum header body d) :
    d.constructors = (enumMembers body).map Naming.toConstructorName := by
  rw [constructors, h.target, Collect.enumTarget]
  cases hmembers : enumMembers body with
  | nil => rfl
  | cons member rest => simp [List.filterMap_map]

end TypeDeclaration

/-- A module and the texts of expressions in a context agree on what the statements of the module
declare. A class has its name to itself if no class before or after it has the same. -/
structure DeclaredModule.AgreesOnNames (m : DeclaredModule) (statements : List Stmt)
    (ctx : Context) : Prop where
  constants : List.Forall₂ (fun name d => ReadsAs ctx (.name name) d.name)
    (statements.flatMap Collect.constantNames) m.constants
  enums : ∀ before line header body after, statements =
    before ++ .classDef line header body :: after →
    (∀ line' header' body', .classDef line' header' body' ∈ before ++ after →
      header'.name ≠ header.name) →
    TypeDeclaration.isEnum header = true →
    (RoleTable.ofModule statements).contract? header.name = none →
    ∃ d ∈ m.types, Collect.DeclaresEnum header body d ∧
      (∀ member ∈ TypeDeclaration.enumMembers body, ∃ constructor ∈ d.constructors,
        ReadsAs ctx (.attribute (.name header.name) member) constructor) ∧
      (∀ constructor ∈ d.constructors, ∃ member ∈ TypeDeclaration.enumMembers body,
        ReadsAs ctx (.attribute (.name header.name) member) constructor)
  functions : ∀ line header body, .function line header body ∈ statements →
    header.isAsync = false → header.name ∉ m.scope.constants →
    header.name ∈ m.functions.map FunctionDeclaration.name ++ m.tests.map TestDeclaration.name ∧
      ∀ args keywords state, state.aliases = [] →
        outcome (lower ctx (.call (.name header.name) args keywords)) state =
          outcome ((header.name ++ ·) <$> callTail ctx header.name args keywords) state

namespace DeclaredModule

variable {m : DeclaredModule} {statements : List Stmt} {ctx : Context}

/-- The constants are declared under the names that uses are read as. -/
theorem Declares.constants_agree (h : m.Declares statements) (hscope : ctx.scope = m.scope) :
    List.Forall₂ (fun name d => ReadsAs ctx (.name name) d.name)
      (statements.flatMap Collect.constantNames) m.constants := by
  have hreads : ∀ name ∈ statements.flatMap Collect.constantNames,
      ReadsAs ctx (.name name) (Naming.constantName name) := by
    intro name hname
    refine readsAs_constant ?_
    rw [hscope, h.scope]
    exact Collect.mem_constants_scopeOf hname
  refine ((List.forall₂_and_left _ _).mpr ⟨hreads, h.constants⟩).imp fun name d hboth => ?_
  rw [hboth.2]
  exact hboth.1

/-- A function of the source is declared under its name, as a function or as a test. -/
theorem Declares.declares_function (h : m.Declares statements) {line : Nat}
    {header : FunctionHeader} {body : List Stmt} (hmem : .function line header body ∈ statements)
    (hsync : header.isAsync = false) :
    header.name ∈ m.functions.map FunctionDeclaration.name ++ m.tests.map TestDeclaration.name := by
  obtain ⟨groups, hgroups, hfunctions, htests⟩ := h.definitions
  have hdefinition : .plain ⟨line, header, body⟩ ∈ statements.flatMap Collect.definitions :=
    List.mem_flatMap.mpr ⟨_, hmem, by simp [Collect.definitions, hsync]⟩
  obtain ⟨group, hgroup, hgives⟩ := exists_of_forall₂ hgroups hdefinition
  have hflatten {d : Declaration} (hd : d ∈ group) : d ∈ groups.flatten :=
    List.mem_flatten.mpr ⟨group, hgroup, hd⟩
  rw [List.mem_append, List.mem_map, List.mem_map, hfunctions, htests]
  rw [RoleReading.Gives] at hgives
  split at hgives
  · obtain ⟨t, rfl, ht⟩ := hgives
    exact .inr ⟨t, List.mem_filterMap.mpr ⟨_, hflatten (List.mem_singleton_self _), rfl⟩, ht.name⟩
  · obtain ⟨d, rfl, hd⟩ := hgives
    exact .inl ⟨d, List.mem_filterMap.mpr ⟨_, hflatten (List.mem_singleton_self _), rfl⟩, hd.name⟩

/-- A module agrees with the texts of expressions in its scope. -/
theorem Declares.agreesOnNames (h : m.Declares statements) (hscope : ctx.scope = m.scope) :
    m.AgreesOnNames statements ctx := by
  constructor
  · exact h.constants_agree hscope
  · intro before line header body after hsplit hunique henum hcontract
    have hsite : (header, body) ∈
        statements.flatMap (Collect.enumSites (RoleTable.ofModule statements)) :=
      List.mem_flatMap.mpr ⟨.classDef line header body, by simp [hsplit],
        by simp [Collect.enumSites, hcontract, henum]⟩
    obtain ⟨d, hd, hdeclares⟩ := h.enums _ hsite
    have hmembers : ctx.scope.enums.find? header.name =
        some (TypeDeclaration.enumMembers body) := by
      rw [hscope, h.scope]
      generalize RoleTable.ofModule statements = roles
      rw [hsplit]
      exact Collect.enums_scopeOf henum fun line' header' body' hmem =>
        hunique line' header' body' (List.mem_append_right _ hmem)
    refine ⟨d, hd, hdeclares, fun member hmember => ?_, fun constructor hconstructor => ?_⟩
    · refine ⟨_, ?_, readsAs_member hmembers hmember⟩
      rw [TypeDeclaration.constructors_of_enum hdeclares]
      exact List.mem_map_of_mem hmember
    · rw [TypeDeclaration.constructors_of_enum hdeclares] at hconstructor
      obtain ⟨member, hmember, rfl⟩ := List.mem_map.mp hconstructor
      exact ⟨member, hmember, readsAs_member hmembers hmember⟩
  · intro line header body hmem hsync hconstant
    refine ⟨h.declares_function hmem hsync, fun args keywords state hstate => ?_⟩
    refine outcome_lower_call ?_ ?_ args keywords state hstate
    · rw [hscope, h.scope]
      exact Collect.mem_knownFunctions_scopeOf hmem hsync
    · rwa [hscope]

end DeclaredModule

/-- Whatever module a pipeline reads, it agrees on names with every context that has its scope. -/
theorem Pipeline.names_agree_of_read (p : Pipeline) {source file : String} {name : Option String}
    {statements : List Stmt} {m : DeclaredModule} {ctx : Context}
    (hread : readModule p.options.names source = .ok statements)
    (hm : (p.read source name file).1 = .ok m)
    (hscope : ctx.scope = m.scope) : m.AgreesOnNames statements ctx :=
  (p.declares_of_read hread hm).agreesOnNames hscope

/-- A constant in lower case, an enumeration, and a function that is called like a special form. -/
theorem Pipeline.names_agree_of_read_special :
    ∃ (statements : List Stmt) (m : DeclaredModule),
      readModule (fun _ => none) ("limit: Final = 3\nclass E(Enum):\n    dark_red = 1\n" ++
        "def pipe(x):\n    return x\n") = .ok statements ∧
      m.AgreesOnNames statements { scope := m.scope } ∧
      m.constants.map ConstantDeclaration.name = ["limit"] ∧
      m.types.map TypeDeclaration.constructors = [["DarkRed"]] ∧
      m.functions.map FunctionDeclaration.name = ["pipe"] := by
  let source := "limit: Final = 3\nclass E(Enum):\n    dark_red = 1\n" ++
    "def pipe(x):\n    return x\n"
  obtain ⟨hread, hm⟩ : (readModule (fun _ => none) source).isOk = true ∧
      (({} : Pipeline).read source none "<source>").1.toOption.map (fun m : DeclaredModule =>
        (m.constants.map ConstantDeclaration.name, m.types.map TypeDeclaration.constructors,
          m.functions.map FunctionDeclaration.name)) =
        some (["limit"], [["DarkRed"]], ["pipe"]) := by decide +kernel
  cases hstatements : readModule (fun _ => none) source with
  | error cause =>
      rw [hstatements] at hread
      cases hread
  | ok statements =>
      cases hresult : (({} : Pipeline).read source none "<source>").1 with
      | error failure =>
          rw [hresult] at hm
          cases hm
      | ok m =>
          rw [hresult] at hm
          obtain ⟨hconstants, hboth⟩ := Prod.mk.inj (Option.some.inj hm)
          obtain ⟨htypes, hfunctions⟩ := Prod.mk.inj hboth
          exact ⟨statements, m, rfl, Pipeline.names_agree_of_read {} hstatements hresult rfl,
            hconstants, htypes, hfunctions⟩

end AikenForge
