/-
# Where local names are kept

Names are bound in the body of a function, of a lambda and of a comprehension. Such a part of the
source keeps its names if it is lowered as in the scope that takes them as local, and all of them
are bound in its text. It does if every use of one of them would be kept by itself, and its text
binds all; and a use by itself is kept exactly if the module declares nothing else under the name.
Among the parameters of a lambda the text binds the regular ones only.
-/

import AikenForge.Proofs.Local.Body

namespace AikenForge.Locals

open AikenForge.Source AikenForge.Lowering AikenForge.Inlining

variable (ctx : Context) (builtins : Option (Table String))

/-- An expression is lowered as in the scope that takes some names as local. -/
def Kept (names : List String) (e : Expr) : Prop :=
  Agrees builtins (lower ctx e) (lower (ctx.withLocals names) e)

/-- A use by itself. -/
def Use.expression : Use → Expr
  | .load id => .name id
  | .call id false => .call (.name id) [] []
  | .call id true => .call (.name id) [.constant .none] []
  | .field id label => .attribute (.name id) label

variable {ctx builtins} {names : List String}

/-! ## Local names -/

/-- In a scope with locals, a local name without an alias is written as itself where it is
loaded. -/
theorem yields_local {id : String} (h : id ∈ names) {state : LoweringState}
    (halias : state.aliases.find? id = none) :
    Yields (lower (ctx.withLocals names) (.name id)) state id state := by
  have hrun := outcome_nameText (ctx.withLocals names) id state
  rw [halias, plainName_withLocals, if_pos h] at hrun
  exact hrun

/-- So it is where it is called. -/
theorem yields_calleeText_local {id : String} (h : id ∈ names) {state : LoweringState}
    (halias : state.aliases.find? id = none) :
    ∃ after, Yields (calleeText (ctx.withLocals names) (.name id)
      (lower (ctx.withLocals names) (.name id))) state id after := by
  obtain ⟨registry, hrun, -⟩ := outcome_calleeText (ctx.withLocals names) id state
  rw [halias, called_withLocals, if_pos h] at hrun
  exact ⟨_, hrun⟩

/-! ## Uses by themselves -/

/-- A state with given builtins and aliases. -/
def stateOf (builtins : Option (Table String)) (aliases : Table String) : LoweringState where
  aliases := aliases
  registry := builtins.map fun mappings => { mappings }

theorem mappings_stateOf (aliases : Table String) :
    (stateOf builtins aliases).registry.map Registry.mappings = builtins := by
  cases builtins <;> rfl

theorem plainName_self : plainName ctx "self" = "self" := by
  unfold plainName
  split <;> rfl

/-- What a call of a name by itself gives, unless it stands for another form. -/
theorem outcome_call {id : String} {args : List Expr} {texts : List String}
    (hspecial : specialCall? ctx (.name id) args = none)
    (hargs : ∀ state, outcome (lowerAll ctx args) state = (.ok texts, state)) :
    (outcome (lower ctx (.call (.name id) args [])) (stateOf builtins [])).1 =
      .ok (called ctx builtins id ++ "(" ++ ", ".intercalate texts ++ ")") := by
  obtain ⟨registry, hrun, -⟩ := outcome_calleeText ctx id (stateOf builtins [])
  rw [mappings_stateOf] at hrun
  rw [lower, hspecial]
  dsimp only
  rw [outcome_bind, hrun]
  dsimp only
  rw [if_neg (by simp), outcome_bind, hargs]
  simp [lowerLabelled, outcome_pure, stateOf, Table.find?]

/-- A name that is loaded is written as its alias, or as it is spelled. -/
theorem outcome_load (id : String) (aliases : Table String) :
    (outcome (lower ctx (.name id)) (stateOf builtins aliases)).1 =
      .ok ((aliases.find? id).getD (plainName ctx id)) :=
  congrArg Prod.fst (outcome_nameText ctx id _)

theorem lowerAll_none (state : LoweringState) :
    outcome (lowerAll ctx [.constant .none]) state = (.ok ["None"], state) := rfl

/-- A name that is kept is spelled as it is. -/
theorem plainName_of_kept {id : String} (h : Kept ctx builtins [id] (.name id)) :
    plainName ctx id = id := by
  have hsame := h.result_eq (mappings_stateOf [])
  rw [outcome_load, outcome_load, plainName_withLocals, if_pos List.mem_cons_self] at hsame
  exact Except.ok.inj hsame

/-- A call of a name with arguments is plain if the name is a function, or neither special word. -/
theorem specialCall?_eq_none_iff {id : String} {first : Expr} {rest : List Expr} :
    specialCall? ctx (.name id) (first :: rest) = none ↔
      (ctx.scope.knownFunctions.contains id = false → id ≠ "pipe" ∧ id ≠ "expect") := by
  unfold specialCall?
  rw [Expr.name?]
  dsimp only
  cases ctx.scope.knownFunctions.contains id with
  | true => simp
  | false =>
      by_cases hpipe : id = "pipe" <;> by_cases hexpect : id = "expect" <;>
        simp [hpipe, hexpect]

/-- The text of a pipe or of an expectation is not that of a call. -/
theorem special_ne_call {id : String}
    (h : specialCall? ctx (.name id) [.constant .none] ≠ none) :
    (outcome (lower ctx (.call (.name id) [.constant .none] [])) (stateOf builtins [])).1 ≠
      .ok (id ++ "(" ++ ", ".intercalate ["None"] ++ ")") := by
  have hword : id = "pipe" ∨ id = "expect" := by
    by_contra hneither
    rw [not_or] at hneither
    exact h (specialCall?_eq_none_iff.mpr fun _ => hneither)
  have hknown : ctx.scope.knownFunctions.contains id = false := by
    by_contra htrue
    exact h (specialCall?_eq_none_iff.mpr fun hfalse => absurd hfalse htrue)
  intro htext
  rcases hword with rfl | rfl
  · have hform : specialCall? ctx (.name "pipe") [.constant .none] = some .pipe := by
      simp [specialCall?, Expr.name?, List.contains_eq_mem, by simpa using hknown]
    rw [lower, hform] at htext
    exact absurd (Except.ok.inj htext) (by decide)
  · have hform : specialCall? ctx (.name "expect") [.constant .none] = some .expect := by
      simp [specialCall?, Expr.name?, List.contains_eq_mem, by simpa using hknown]
    rw [lower, hform] at htext
    have hlength := congrArg String.length (Except.ok.inj htext)
    simp only [ExpectExpression.render, String.length_append] at hlength
    have hlonger : ("expect" ++ "(" ++ ", ".intercalate ["None"] ++ ")").length <
        "expect(".length + "None".length + ", ".length := by decide
    simp only [String.length_append] at hlonger
    omega

/-- A call by itself that is kept stands for no other form, and its name is written as it is. -/
theorem called_of_kept {id : String} {args : List Expr} {texts : List String}
    (hargs : ∀ (context : Context) (state : LoweringState),
      outcome (lowerAll context args) state = (.ok texts, state))
    (hspecial : specialCall? ctx (.name id) args = none)
    (h : Kept ctx builtins [id] (.call (.name id) args [])) : called ctx builtins id = id := by
  have hsame := h.result_eq (mappings_stateOf [])
  rw [outcome_call hspecial (hargs ctx),
    outcome_call (specialCall?_of_mem List.mem_cons_self args) (hargs _), called_withLocals,
    if_pos List.mem_cons_self] at hsame
  simpa [String.append_assoc] using Except.ok.inj hsame

/-- What a field of a name by itself gives, unless it is a member of an enumeration. -/
theorem outcome_field {id label : String} (h : enumMember? ctx (.name id) label = none)
    (aliases : Table String) :
    (outcome (lower ctx (.attribute (.name id) label)) (stateOf builtins aliases)).1 =
      .ok (if id = "self" ∧ aliases.find? "self" = none then label
        else (aliases.find? id).getD (plainName ctx id) ++ "." ++ label) := by
  rw [lower, h]
  dsimp only
  rw [outcome_get_bind]
  by_cases hself : id = "self" ∧ aliases.find? "self" = none
  · obtain ⟨rfl, hnone⟩ := hself
    rw [if_pos (by simp [Expr.name?, stateOf, Table.contains, hnone]), if_pos ⟨rfl, hnone⟩]
    rfl
  · have hkept : ¬((Expr.name id).name? == some "self" &&
        !Table.contains (stateOf builtins aliases).aliases "self") = true := by
      simpa [Expr.name?, stateOf, Table.contains] using hself
    rw [if_neg hkept, if_neg hself, outcome_bind, lower, outcome_nameText]
    rfl

/-- A field of a name that is kept is no member of an enumeration. -/
theorem enumMember?_of_kept {id label : String}
    (h : Kept ctx builtins [id] (.attribute (.name id) label)) :
    enumMember? ctx (.name id) label = none := by
  cases hmember : enumMember? ctx (.name id) label with
  | none => rfl
  | some member =>
      -- A name that stands for the text of the member is written before a dot, and not the member.
      have hsame := h.result_eq (mappings_stateOf [(id, member)])
      have hmembers : (outcome (lower ctx (.attribute (.name id) label))
          (stateOf builtins [(id, member)])).1 = .ok member := by
        rw [lower, hmember]
        rfl
      have halias : Table.find? [(id, member)] id = some member := by simp [Table.find?]
      have hself : ¬(id = "self" ∧ Table.find? [(id, member)] "self" = none) := by
        rintro ⟨rfl, hnone⟩
        cases halias.symm.trans hnone
      rw [hmembers, outcome_field (enumMember?_of_mem List.mem_cons_self label), if_neg hself,
        halias] at hsame
      have hlength := congrArg String.length (Except.ok.inj hsame)
      have hdot : ".".length = 1 := rfl
      simp only [Option.getD_some, String.length_append] at hlength
      omega

/-- A name whose field is kept is spelled as it is. -/
theorem plainName_of_kept_field {id label : String}
    (h : Kept ctx builtins [id] (.attribute (.name id) label)) : plainName ctx id = id := by
  by_cases hself : id = "self"
  · rw [hself, plainName_self]
  · have hsame := h.result_eq (mappings_stateOf [])
    rw [outcome_field (enumMember?_of_kept h),
      outcome_field (enumMember?_of_mem List.mem_cons_self label),
      plainName_withLocals, if_pos List.mem_cons_self] at hsame
    simpa [hself, Table.find?, String.append_assoc] using Except.ok.inj hsame

/-- A use by itself is kept exactly if it is harmless. -/
theorem kept_use_iff (use : Use) :
    Kept ctx builtins [use.name] use.expression ↔ use.Harmless ctx builtins := by
  constructor
  · intro h
    cases use with
    | load id => exact plainName_of_kept h
    | call id hasArguments =>
        cases hasArguments with
        | false => exact ⟨called_of_kept (fun _ _ => rfl) rfl h, by simp⟩
        | true =>
            have hspecial : specialCall? ctx (.name id) [.constant .none] = none := by
              by_contra hform
              have hcall : (outcome (lower (ctx.withLocals [id])
                  (.call (.name id) [.constant .none] [])) (stateOf builtins [])).1 =
                    .ok (id ++ "(" ++ ", ".intercalate ["None"] ++ ")") := by
                rw [outcome_call (specialCall?_of_mem List.mem_cons_self _) lowerAll_none,
                  called_withLocals, if_pos List.mem_cons_self]
              exact special_ne_call hform ((h.result_eq (mappings_stateOf [])).trans hcall)
            exact ⟨called_of_kept (fun _ _ => lowerAll_none _) hspecial h, fun _ =>
              specialCall?_eq_none_iff.mp hspecial⟩
    | field id label => exact ⟨enumMember?_of_kept h, plainName_of_kept_field h⟩
  · intro h
    refine agrees_lower use.expression ?_
    cases use with
    | load id => exact clear_singleton.mpr fun _ => h
    | call id hasArguments =>
        cases hasArguments <;> refine clear_append.mpr ⟨clear_singleton.mpr fun _ => h, ?_⟩ <;>
          split <;> exact clear_nil
    | field id label => exact clear_singleton.mpr fun _ => h

/-! ## The parameters of a lambda -/

/-- All parameters can be passed by position and by name, as those that the text of a lambda
binds. -/
def OnlyRegular (parameters : Parameters) : Prop :=
  parameters.positionalOnly = [] ∧ parameters.variadic = none ∧ parameters.keywordOnly = [] ∧
    parameters.keywords = none

/-- Regular parameters are all that there are. -/
theorem OnlyRegular.parameterNames_eq {parameters : Parameters} (h : OnlyRegular parameters) :
    parameterNames parameters = parameters.regular.map Parameter.name := by
  obtain ⟨positionalOnly, regular, variadic, keywordOnly, keywords⟩ := parameters
  obtain ⟨rfl, rfl, rfl, rfl⟩ := h
  simp [parameterNames, Parameters.regular]

/-- The text of a function with parameters. -/
def lambdaText (parameters : List String) (body : String) : String :=
  "fn(" ++ ", ".intercalate parameters ++ ") \x7b " ++ body ++ " \x7d"

/-- How much names take in a list, each with a comma and a blank. -/
def listed : List String → Nat
  | [] => 0
  | name :: rest => name.length + 2 + listed rest

/-- How long a list of names is, with commas and blanks. -/
theorem length_intercalate {names : List String} (h : names ≠ []) :
    (", ".intercalate names).length + 2 = listed names := by
  have hcomma : ", ".length = 2 := rfl
  induction names with
  | nil => exact absurd rfl h
  | cons name rest ih =>
      cases rest with
      | nil => rw [String.intercalate_singleton, listed, listed]
      | cons other rest =>
          rw [String.intercalate_cons_cons, String.length_append, String.length_append, listed,
            ← ih (List.cons_ne_nil _ _), hcomma]
          omega

/-- A list that leaves a name out is shorter. -/
theorem listed_lt_of_sublist {part names : List String} (h : part.Sublist names) :
    part = names ∨ listed part < listed names := by
  induction h with
  | slnil => exact .inl rfl
  | cons name _ ih =>
      refine .inr ?_
      rw [listed]
      rcases ih with rfl | ih <;> omega
  | cons_cons name _ ih =>
      rcases ih with rfl | ih
      · exact .inl rfl
      · refine .inr ?_
        rw [listed, listed]
        omega

/-- Leaving names out of a list changes its text. -/
theorem eq_of_intercalate_eq {part names : List String} (hpart : part.Sublist names)
    (hnames : "" ∉ names) (h : ", ".intercalate part = ", ".intercalate names) : part = names := by
  by_cases hempty : names = []
  · rw [hempty] at hpart ⊢
    exact List.sublist_nil.mp hpart
  have hlength := length_intercalate hempty
  rw [← h] at hlength
  by_cases hnone : part = []
  · cases names with
    | nil => exact hnone
    | cons name rest =>
        have hname : name ≠ "" := fun heq => hnames (heq ▸ List.mem_cons_self)
        have hpos : name.length ≠ 0 := mt String.length_eq_zero_iff.mp hname
        have hblank : (", ".intercalate part).length = 0 := by rw [hnone]; rfl
        rw [hblank, listed] at hlength
        omega
  · rw [length_intercalate hnone] at hlength
    refine (listed_lt_of_sublist hpart).resolve_right ?_
    omega

/-- All parameters are regular exactly if the text lists all names. -/
theorem onlyRegular_iff {parameters : Parameters} (h : "" ∉ parameterNames parameters) :
    OnlyRegular parameters ↔ ", ".intercalate (parameters.regular.map Parameter.name) =
      ", ".intercalate (parameterNames parameters) := by
  constructor
  · intro honly
    rw [honly.parameterNames_eq]
  · intro hsame
    obtain ⟨positionalOnly, regular, variadic, keywordOnly, keywords⟩ := parameters
    have hpart : (regular.map Parameter.name).Sublist
        (parameterNames (.mk positionalOnly regular variadic keywordOnly keywords)) := by
      refine List.Sublist.map _ ?_
      rw [List.append_assoc, List.append_assoc, List.append_assoc]
      exact (List.sublist_append_left _ _).trans (List.sublist_append_right _ _)
    have hlength := congrArg List.length (eq_of_intercalate_eq hpart h hsame)
    simp only [parameterNames, List.length_map, List.length_append] at hlength
    have hnone : positionalOnly.length = 0 ∧ variadic.toList.length = 0 ∧ keywordOnly.length = 0 ∧
        keywords.toList.length = 0 := by omega
    simpa [OnlyRegular, Parameters.positionalOnly, Parameters.variadic, Parameters.keywordOnly,
      Parameters.keywords] using hnone

/-! ## Regions -/

/-- A part of the source in which names are bound: the body of a function, a handler or a test with
some of the names bound there, a lambda, and a comprehension over a list. -/
inductive Region
  | body (f : FunctionSource) (names : List String)
  | lambda (parameters : Parameters) (value : Expr)
  | comprehension (target : String) (element iterable : Expr) (conditions : List Expr)
      (isAsync : Bool)

namespace Region

/-- The names that are bound. -/
def locals : Region → List String
  | .body _ names => names
  | .lambda parameters _ => parameterNames parameters
  | .comprehension target .. => [target]

/-- The uses of names where they are bound. -/
def uses (ctx : Context) : Region → List Use
  | .body f _ => functionUses ctx f
  | .lambda _ value => Locals.uses ctx value
  | .comprehension target element _ conditions _ =>
    usesAll ctx conditions ++ if element.name? == some target then [] else Locals.uses ctx element

/-- The text that is written. -/
def text (ctx : Context) : Region → Lowering String
  | .body f _ => functionText ctx f
  | .lambda parameters value => lower ctx (.lambda parameters value)
  | .comprehension target element iterable conditions isAsync =>
    lower ctx (.comprehension .list element [.mk (.name target) iterable conditions isAsync])

/-- The text in which the names are local, and all of them are bound. -/
def localText (ctx : Context) : Region → Lowering String
  | .body f names => functionText (ctx.withLocals names) f
  | .lambda parameters value => do
    let names := parameterNames parameters
    let value ← withAliases (fun aliases => names.foldl Table.erase aliases)
      (lower (ctx.withLocals names) value)
    return lambdaText names value
  | .comprehension target element iterable conditions _ => do
    let source ← lower ctx iterable
    withAliases (·.erase target) do
      let conditions ← lowerAll (ctx.withLocals [target]) conditions
      let source := conditions.foldl (filterText target) source
      if element.name? == some target then return source
      else
        let mapped ← lower (ctx.withLocals [target]) element
        return "list.map(" ++ source ++ ", fn(" ++ target ++ ") \x7b " ++ mapped ++ " \x7d)"

/-- A region keeps its names if they are local in its text, and all of them are bound there. -/
def Keeps (ctx : Context) (builtins : Option (Table String)) (region : Region) : Prop :=
  Agrees builtins (region.text ctx) (region.localText ctx)

/-- The names of a region can be bound in its text. -/
def Binds : Region → Prop
  | .lambda parameters _ => OnlyRegular parameters
  | _ => True

end Region

/-- A region whose uses are clear keeps its names. -/
theorem keeps_of_clear {region : Region} (hbinds : region.Binds)
    (h : Clear ctx builtins region.locals (region.uses ctx)) : region.Keeps ctx builtins := by
  cases region with
  | body f names => exact agrees_functionText h
  | lambda parameters value =>
      have hnames : parameterNames parameters = parameters.regular.map Parameter.name :=
        OnlyRegular.parameterNames_eq hbinds
      have hvalue : Agrees builtins (lower ctx value)
        (lower (ctx.withLocals (parameterNames parameters)) value) := agrees_lower value h
      rw [Region.Keeps, Region.text, Region.localText, lower, ← hnames]
      exact (hvalue.withAliases _).thenPure _
  | comprehension target element iterable conditions isAsync =>
      obtain ⟨hconditions, helement⟩ := clear_append.mp h
      refine (composed_lower ctx iterable).agrees.then fun source => Agrees.withAliases _ ?_
      refine (agrees_lowerAll conditions hconditions).then fun texts => ?_
      dsimp only
      split
      · exact agrees_pure _
      · rename_i hother
        rw [if_neg hother] at helement
        exact (agrees_lower element helement).thenPure _

/-- The text of a lambda binds its parameters exactly if all of them are regular. -/
theorem keeps_lambda_iff {parameters : Parameters} (h : "" ∉ parameterNames parameters) :
    (Region.lambda parameters (.constant .none)).Keeps ctx builtins ↔ OnlyRegular parameters := by
  constructor
  · intro hkeeps
    have hsame : lambdaText (parameters.regular.map Parameter.name) "None" =
        lambdaText (parameterNames parameters) "None" :=
      Except.ok.inj (hkeeps.result_eq (mappings_stateOf []))
    refine (onlyRegular_iff h).mpr ?_
    simpa [lambdaText, String.append_assoc] using hsame
  · intro hregular
    exact keeps_of_clear hregular clear_nil

/-- Local names are kept where the module declares nothing else under them. In the scope that takes
names as local these are written as themselves, where they are loaded and where they are called,
unless they are aliases. A use of a name by itself is as in that scope exactly if it is harmless; a
lambda binds its parameters exactly if all of them are regular; and the body of a function, a lambda
or a comprehension keeps its names if it binds them all and every use of one of them by itself is
kept. -/
theorem locals_kept_iff (ctx : Context) (builtins : Option (Table String)) :
    (∀ (names : List String) (id : String) (state : LoweringState), id ∈ names →
      state.aliases.find? id = none →
      Yields (lower (ctx.withLocals names) (.name id)) state id state ∧
        ∃ after, Yields (calleeText (ctx.withLocals names) (.name id)
          (lower (ctx.withLocals names) (.name id))) state id after) ∧
    (∀ use : Use, Kept ctx builtins [use.name] use.expression ↔ use.Harmless ctx builtins) ∧
    (∀ parameters : Parameters, "" ∉ parameterNames parameters →
      ((Region.lambda parameters (.constant .none)).Keeps ctx builtins ↔ OnlyRegular parameters)) ∧
    ∀ region : Region, region.Binds →
      (∀ use ∈ region.uses ctx, use.name ∈ region.locals →
        Kept ctx builtins [use.name] use.expression) → region.Keeps ctx builtins := by
  refine ⟨fun names id state hid halias => ?_, kept_use_iff, fun _ => keeps_lambda_iff,
    fun region hbinds h => keeps_of_clear hbinds fun use huse hname => ?_⟩
  · exact ⟨yields_local hid halias, yields_calleeText_local hid halias⟩
  · exact (kept_use_iff use).mp (h use huse hname)

/-- A target keeps its name beside a constant that is another name. -/
theorem locals_kept_iff_target :
    (Region.comprehension "n" (.binary .add (.name "n") (.name "MIN")) (.name "ns") [] false).Keeps
      { scope := { constants := ["MIN"] } } (some standardBuiltins) := by
  obtain ⟨-, huse, -, hregion⟩ :=
    locals_kept_iff { scope := { constants := ["MIN"] } } (some standardBuiltins)
  refine hregion _ trivial fun use hmem hname => (huse use).mpr ?_
  have huses : use = .load "n" ∨ use = .load "MIN" := by
    simpa [Region.uses, usesAll, uses, Expr.name?] using hmem
  rcases huses with rfl | rfl
  · decide
  · exact absurd hname (by decide)

/-- Local names that are written as constants and as builtins, and parameters that are not bound. -/
theorem locals_renamed :
    Yields (lower { scope := { constants := ["X"] } }
      (.lambda (.mk [] [.mk "X" none none] none [] none) (.name "X"))) {} "fn(X) \x7b x \x7d" {} ∧
    (outcome (lower {} (.lambda (.mk [] [.mk "head" none none] none [] none)
      (.call (.name "head") [.name "xs"] []))) { registry := some {} }).1 =
        .ok "fn(head) \x7b head_list(xs) \x7d" ∧
    Yields (lower {} (.lambda (.mk [.mk "a" none none] [.mk "b" none none] none
      [.mk "c" none none] none) (.list [.name "a", .name "b", .name "c"]))) {}
        "fn(b) \x7b [a, b, c] \x7d" {} := by
  exact ⟨rfl, rfl, rfl⟩

end AikenForge.Locals
