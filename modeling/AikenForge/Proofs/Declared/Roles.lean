/-
# Roles by name and roles by decorator

The roles of definitions stand in one table by name, which is filled before any declaration is made.
So a definition has the role that the last mark of its name gives, and that is the one that its own
decorators give exactly as long as no other definition of the name marks it differently later, or
marks it at all if the definition itself does not.
-/

import AikenForge.Proofs.Declared.Sites

namespace AikenForge

open AikenForge.Source

/-! ## Marks -/

namespace RoleTable

/-- The marks that the decorators of a class set on its name. -/
def classMarks (header : ClassHeader) (body : List Stmt) : List (String × RoleEntry) :=
  (decoratorNames header.decorators).filterMap fun (decorator, argument) =>
    if decorator == "contract" then
      some (header.name, ⟨.contract (argumentOr header.name argument), .ofBlock body⟩)
    else if decorator == "opaque" then some (header.name, ⟨.hidden, .ofBlock body⟩)
    else none

/-- The marks that a member of a class sets on its qualified name. -/
def memberMarks (className : String) : Stmt → List (String × RoleEntry)
  | .function _ header body =>
    if header.isAsync then []
    else (decoratorNames header.decorators).filterMap fun (decorator, argument) =>
      if decorator == "validator" then
        some (className ++ "." ++ header.name,
          ⟨.handler (argumentOr header.name argument), .ofBlock body⟩)
      else none
  | .simple _ (.annotates (.name id) hint _) =>
    if isDatumHint hint then [(className ++ "." ++ id, ⟨.datum id, none⟩)] else []
  | _ => []

/-- The marks that a statement of a module sets. -/
def statementMarks : Stmt → List (String × RoleEntry)
  | .classDef _ header body => classMarks header body ++ body.flatMap (memberMarks header.name)
  | .function _ header body => if isTest header then [(header.name, ⟨.test, .ofBlock body⟩)] else []
  | _ => []

/-- The last mark that the statements of a module set on a name. -/
def lastMark? (statements : List Stmt) (name : String) : Option RoleEntry :=
  Table.find? (statements.flatMap statementMarks).reverse name

/-- A class adds its own marks. -/
theorem addClass_eq_foldl (header : ClassHeader) (body : List Stmt) (table : RoleTable) :
    addClass header body table =
      (classMarks header body).foldl (fun table mark => table.insert mark.1 mark.2) table := by
  rw [addClass, classMarks, List.foldl_filterMap]
  congr 1
  funext table decorator
  dsimp only
  split_ifs <;> rfl

/-- A member adds its own marks. -/
theorem addMember_eq_foldl (className : String) (table : RoleTable) (member : Stmt) :
    addMember className table member =
      (memberMarks className member).foldl
      (fun table mark => table.insert mark.1 mark.2) table := by
  fun_cases memberMarks className member with
  | case1 line header body hasync => rw [addMember, if_pos hasync, List.foldl_nil]
  | case2 line header body hsync =>
      rw [addMember, if_neg hsync, List.foldl_filterMap]
      congr 1
      funext table decorator
      dsimp only
      split_ifs <;> rfl
  | case3 line id hint value hdatum =>
      rw [addMember, if_pos hdatum, List.foldl_cons, List.foldl_nil]
  | case4 line id hint value hdatum => rw [addMember, if_neg hdatum, List.foldl_nil]
  | case5 member hfunction hannotates => rw [addMember, List.foldl_nil] <;> assumption

/-- A statement adds the marks of its class and its members, in order. -/
theorem addStatement_eq_foldl (table : RoleTable) (statement : Stmt) :
    addStatement table statement =
      (statementMarks statement).foldl (fun table mark => table.insert mark.1 mark.2) table := by
  fun_cases statementMarks statement with
  | case1 line header body =>
      rw [addStatement, List.foldl_append, ← addClass_eq_foldl, List.foldl_flatMap]
      congr 1
      funext table member
      exact addMember_eq_foldl _ table member
  | case2 line header body htest => rw [addStatement, if_pos htest, List.foldl_cons, List.foldl_nil]
  | case3 line header body htest => rw [addStatement, if_neg htest, List.foldl_nil]
  | case4 statement hclass hfunction => rw [addStatement, List.foldl_nil] <;> assumption

/-- The table of a module has for a name the last mark that is set on it. -/
theorem find?_ofModule (statements : List Stmt) (name : String) :
    (ofModule statements).find? name = lastMark? statements name := by
  have htable : ofModule statements = Table.ofList (statements.flatMap statementMarks) := by
    rw [ofModule, Table.ofList, List.foldl_flatMap]
    congr 1
    funext table statement
    exact addStatement_eq_foldl table statement
  rw [htable, Table.find?_ofList, lastMark?]

end RoleTable

/-! ## Two ways to tell roles -/

namespace RoleReading

/-- The roles that the last marks of names give. -/
def byLastMark (statements : List Stmt) : RoleReading where
  isContract owner :=
    match RoleTable.lastMark? statements owner.name with
    | some ⟨.contract _, _⟩ => true
    | _ => false
  handler? owner f :=
    match RoleTable.lastMark? statements (owner.name ++ "." ++ f.header.name) with
    | some ⟨.handler purpose, docs⟩ => some (purpose, docs)
    | _ => none
  isTest f :=
    match RoleTable.lastMark? statements f.header.name with
    | some ⟨.test, _⟩ => true
    | _ => false

/-- The roles that definitions have by themselves: by their own decorators, of which the last
counts, or by the name of a test. A handler has its own documentation, and its own name for a
purpose where the decorator names none. -/
def byDecorators : RoleReading where
  isContract owner :=
    (((RoleTable.decoratorNames owner.decorators).map Prod.fst).filter
      ["contract", "opaque"].contains).getLast? == some "contract"
  handler? _ f :=
    ((RoleTable.decoratorNames f.header.decorators).filter (·.1 == "validator")).getLast?.map
      fun decorator => (RoleTable.argumentOr f.header.name decorator.2, .ofBlock f.body)
  isTest f := RoleTable.isTest f.header

/-- The table of a module is read by the last mark of each name. -/
theorem reading_ofModule (statements : List Stmt) :
    (RoleTable.ofModule statements).reading = byLastMark statements := by
  have hcontract : (RoleTable.ofModule statements).reading.isContract =
      (byLastMark statements).isContract := by
    funext owner
    rcases hmark : RoleTable.lastMark? statements owner.name with _ | ⟨_ | _ | _ | _ | _, _⟩ <;>
      simp [RoleTable.reading, byLastMark, RoleTable.contract?, RoleTable.role?,
        RoleTable.find?_ofModule, hmark]
  have hhandler : (RoleTable.ofModule statements).reading.handler? =
      (byLastMark statements).handler? := by
    funext owner f
    rcases hmark : RoleTable.lastMark? statements (owner.name ++ "." ++ f.header.name) with
      _ | ⟨_ | _ | _ | _ | _, _⟩ <;>
      simp [RoleTable.reading, byLastMark, RoleTable.find?_ofModule, hmark]
  have htest : (RoleTable.ofModule statements).reading.isTest = (byLastMark statements).isTest := by
    funext f
    rcases hmark : RoleTable.lastMark? statements f.header.name with _ | ⟨_ | _ | _ | _ | _, _⟩ <;>
      simp [RoleTable.reading, byLastMark, RoleTable.role?, RoleTable.find?_ofModule, hmark]
  exact RoleReading.ext hcontract hhandler htest

/-- Two ways to tell roles agree on a definition: on whether the class of a method is a contract
and, if so, on the handler that the method is; or on whether a function is a test. -/
def AgreesOn (reading other : RoleReading) : Definition → Prop
  | .method owner f =>
    reading.isContract owner = other.isContract owner ∧
      (reading.isContract owner = true → reading.handler? owner f = other.handler? owner f)
  | .plain f => reading.isTest f = other.isTest f

variable {reading other : RoleReading}

/-- Two readings that agree on a definition declare the same for it. -/
theorem Gives.of_agreesOn {definition : Definition} {found : List Declaration}
    (h : reading.Gives definition found) (hagrees : reading.AgreesOn other definition) :
    other.Gives definition found := by
  cases definition with
  | method owner f =>
      obtain ⟨hcontract, hhandler⟩ := hagrees
      rw [Gives] at h ⊢
      rw [← hcontract]
      split at h
      · rename_i hisContract
        rw [if_pos hisContract, ← hhandler hisContract]
        exact h
      · rename_i hisContract
        rwa [if_neg hisContract]
  | plain f =>
      rw [Gives] at h ⊢
      rwa [← show reading.isTest f = other.isTest f from hagrees]

/-- A declaration tells of which handler it is. -/
theorem handler_unique {f : FunctionSource}
    {handler handler' : Option (String × Documentation)} {d : FunctionDeclaration}
    (h : DeclaresFunction f handler d) (h' : DeclaresFunction f handler' d) :
    handler = handler' := by
  have hpurpose : handler.map Prod.fst = handler'.map Prod.fst := h.purposeName ▸ h'.purposeName
  have hdocs := h.docs.symm.trans h'.docs
  match handler, handler' with
  | none, none => rfl
  | none, some _ | some _, none => cases hpurpose
  | some (purpose, docs), some (purpose', docs') =>
      cases hpurpose
      cases hdocs
      rfl

/-- Two readings that declare the same for a definition agree on it. -/
theorem Gives.agreesOn {definition : Definition} {found : List Declaration}
    (h : reading.Gives definition found) (hother : other.Gives definition found) :
    reading.AgreesOn other definition := by
  cases definition with
  | method owner f =>
      rw [Gives] at h hother
      cases hcontract : reading.isContract owner <;> cases hcontract' : other.isContract owner
      · simp [AgreesOn, hcontract, hcontract']
      · rw [hcontract, if_neg (by simp)] at h
        rw [hcontract', if_pos rfl] at hother
        obtain ⟨d, hd, -⟩ := hother
        cases h.symm.trans hd
      · rw [hcontract, if_pos rfl] at h
        rw [hcontract', if_neg (by simp)] at hother
        obtain ⟨d, hd, -⟩ := h
        cases hother.symm.trans hd
      · rw [hcontract, if_pos rfl] at h
        rw [hcontract', if_pos rfl] at hother
        obtain ⟨d, rfl, hdeclares, -⟩ := h
        obtain ⟨_, ⟨rfl⟩, hdeclares', -⟩ := hother
        exact ⟨hcontract.trans hcontract'.symm, fun _ => handler_unique hdeclares hdeclares'⟩
  | plain f =>
      rw [Gives] at h hother
      cases htest : reading.isTest f <;> cases htest' : other.isTest f
      · exact htest.trans htest'.symm
      · rw [htest, if_neg (by simp)] at h
        rw [htest', if_pos rfl] at hother
        obtain ⟨d, rfl, -⟩ := h
        obtain ⟨t, ht, -⟩ := hother
        cases ht
      · rw [htest, if_pos rfl] at h
        rw [htest', if_neg (by simp)] at hother
        obtain ⟨t, rfl, -⟩ := h
        obtain ⟨d, hd, -⟩ := hother
        cases hd
      · exact htest.trans htest'.symm

/-- What a definition gives by one way to tell roles it gives by another exactly if the two agree on
it. -/
theorem Gives.iff_agreesOn {definition : Definition} {found : List Declaration}
    (h : reading.Gives definition found) :
    other.Gives definition found ↔ reading.AgreesOn other definition :=
  ⟨h.agreesOn, h.of_agreesOn⟩

instance (reading other : RoleReading) : DecidablePred (reading.AgreesOn other)
  | .method owner f =>
    inferInstanceAs (Decidable (reading.isContract owner = other.isContract owner ∧
      (reading.isContract owner = true → reading.handler? owner f = other.handler? owner f)))
  | .plain f => inferInstanceAs (Decidable (reading.isTest f = other.isTest f))

/-- The purposes of the functions that a definition gives. -/
def purposeNames (reading : RoleReading) : Definition → List (Option String)
  | .method owner f =>
    if reading.isContract owner then [(reading.handler? owner f).map Prod.fst] else []
  | .plain f => if reading.isTest f then [] else [none]

theorem Gives.purposeNames {definition : Definition} {found : List Declaration}
    (h : reading.Gives definition found) :
    (found.filterMap Declaration.function?).map FunctionDeclaration.purposeName =
      reading.purposeNames definition := by
  cases definition with
  | method owner f =>
      rw [Gives] at h
      rw [RoleReading.purposeNames]
      split at h
      · rename_i hcontract
        obtain ⟨d, rfl, hd, -⟩ := h
        rw [if_pos hcontract, ← hd.purposeName]
        rfl
      · rename_i hcontract
        rw [if_neg hcontract, h]
        rfl
  | plain f =>
      rw [Gives] at h
      rw [RoleReading.purposeNames]
      split at h
      · rename_i htest
        obtain ⟨t, rfl, -⟩ := h
        rw [if_pos htest]
        rfl
      · rename_i htest
        obtain ⟨d, rfl, hd⟩ := h
        rw [if_neg htest]
        exact congrArg (fun purpose => [purpose]) hd.purposeName

end RoleReading

namespace DeclaredModule

variable {m : DeclaredModule} {reading : RoleReading} {statements : List Stmt}

/-- The purposes of the functions are those that the reading gives to the definitions. -/
theorem DefinedBy.purposeNames (h : m.DefinedBy reading statements) :
    m.functions.map FunctionDeclaration.purposeName =
      (statements.flatMap Collect.definitions).flatMap reading.purposeNames := by
  obtain ⟨groups, hgroups, hfunctions, -⟩ := h
  rw [hfunctions]
  clear hfunctions
  generalize statements.flatMap Collect.definitions = definitions at hgroups ⊢
  induction hgroups with
  | nil => rfl
  | cons hfirst _ ih =>
      rw [List.flatten_cons, List.filterMap_append, List.map_append, List.flatMap_cons,
        hfirst.purposeNames, ih]

end DeclaredModule

/-! ## Modules -/

namespace Pipeline

/-- Each definition of a module gives what the last mark of its name says, one after the other, and
gives what its own decorators say exactly if these agree with the last mark. -/
theorem declared_as_decorated_iff (p : Pipeline) {source file : String} {name : Option String}
    {statements : List Stmt} {m : DeclaredModule}
    (hread : readModule p.options.names source = .ok statements)
    (hm : (p.read source name file).1 = .ok m) :
    (∃ groups : List (List Declaration),
      List.Forall₂ (fun definition found =>
          (RoleReading.byLastMark statements).Gives definition found ∧
            (RoleReading.byDecorators.Gives definition found ↔
              (RoleReading.byLastMark statements).AgreesOn RoleReading.byDecorators definition))
        (statements.flatMap Collect.definitions) groups ∧
      m.functions = groups.flatten.filterMap Declaration.function? ∧
      m.tests = groups.flatten.filterMap Declaration.test?) ∧
    ((∀ definition ∈ statements.flatMap Collect.definitions,
        (RoleReading.byLastMark statements).AgreesOn RoleReading.byDecorators definition) →
      m.DefinedBy RoleReading.byDecorators statements) := by
  obtain ⟨groups, hgroups, hfunctions, htests⟩ := (p.declares_of_read hread hm).definitions
  rw [RoleReading.reading_ofModule] at hgroups
  refine ⟨⟨groups, hgroups.imp fun _ _ h => ⟨h, h.iff_agreesOn⟩, hfunctions, htests⟩,
    fun hagrees => ⟨groups, ?_, hfunctions, htests⟩⟩
  exact ((List.forall₂_and_left _ _).mpr ⟨hagrees, hgroups⟩).imp fun _ _ h => h.2.of_agreesOn h.1

/-- A handler and a function beside it, each under a name of its own. -/
theorem declared_as_decorated_iff_distinct :
    ∃ (statements : List Stmt) (m : DeclaredModule),
      readModule (fun _ => none)
        ("@contract\nclass C:\n    @validator\n    def mint(self):\n        return x\n" ++
        "    def f(self):\n        return x\n") = .ok statements ∧
      m.DefinedBy RoleReading.byDecorators statements ∧
      m.functions.map FunctionDeclaration.purposeName = [some "mint", none] := by
  let source := "@contract\nclass C:\n    @validator\n    def mint(self):\n        return x\n" ++
    "    def f(self):\n        return x\n"
  obtain ⟨hagrees, hpurposes⟩ : (readModule (fun _ => none) source).toOption.map (fun statements =>
        decide (∀ definition ∈ statements.flatMap Collect.definitions,
          (RoleReading.byLastMark statements).AgreesOn RoleReading.byDecorators definition)) =
        some true ∧
      (({} : Pipeline).read source none "<source>").1.toOption.map
        (fun m : DeclaredModule => m.functions.map FunctionDeclaration.purposeName) =
        some [some "mint", none] := by decide +kernel
  cases hstatements : readModule (fun _ => none) source with
  | error cause =>
      rw [hstatements] at hagrees
      cases hagrees
  | ok statements =>
      rw [hstatements] at hagrees
      cases hresult : (({} : Pipeline).read source none "<source>").1 with
      | error failure =>
          rw [hresult] at hpurposes
          cases hpurposes
      | ok m =>
          rw [hresult] at hpurposes
          have hdefined := declared_as_decorated_iff {} hstatements hresult
          exact ⟨statements, m, rfl, hdefined.2 (of_decide_eq_true (Option.some.inj hagrees)),
            Option.some.inj hpurposes⟩

/-- A method without a decorator is a handler, because another of its name has one. -/
theorem declared_otherwise_than_decorated :
    ∃ (statements : List Stmt) (m : DeclaredModule),
      readModule (fun _ => none)
        ("@contract\nclass C:\n    @validator\n    def mint(self):\n        return x\n" ++
        "    def mint(self):\n        return x\n") = .ok statements ∧
      (({} : Pipeline).read ("@contract\nclass C:\n    @validator\n    def mint(self):\n" ++
        "        return x\n    def mint(self):\n        return x\n") none "<source>").1 = .ok m ∧
      ¬ m.DefinedBy RoleReading.byDecorators statements := by
  let source := "@contract\nclass C:\n    @validator\n    def mint(self):\n        return x\n" ++
    "    def mint(self):\n        return x\n"
  obtain ⟨hdecorated, hpurposes⟩ :
    (readModule (fun _ => none) source).toOption.map (fun statements =>
        (statements.flatMap Collect.definitions).flatMap RoleReading.byDecorators.purposeNames) =
        some [some "mint", none] ∧
      (({} : Pipeline).read source none "<source>").1.toOption.map
        (fun m : DeclaredModule => m.functions.map FunctionDeclaration.purposeName) =
        some [some "mint", some "mint"] := by decide +kernel
  cases hstatements : readModule (fun _ => none) source with
  | error cause =>
      rw [hstatements] at hdecorated
      cases hdecorated
  | ok statements =>
      rw [hstatements] at hdecorated
      cases hresult : (({} : Pipeline).read source none "<source>").1 with
      | error failure =>
          rw [hresult] at hpurposes
          cases hpurposes
      | ok m =>
          rw [hresult] at hpurposes
          refine ⟨statements, m, rfl, hresult, fun h => ?_⟩
          have heq := (Option.some.inj hpurposes).symm.trans
            (h.purposeNames.trans (Option.some.inj hdecorated))
          simp at heq

end Pipeline

end AikenForge
