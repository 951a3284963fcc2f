/-
# What reports depend on

Annotations are resolved, and declarations without a body are read off, while things are reported.
The result never depends on what was reported before: such a computation is called *steady*.
-/

import AikenForge.Declaration.Collect

namespace AikenForge

namespace Reporting

variable {α β : Type}

/-- What a computation gives does not depend on what was reported before. -/
def Steady (action : Reporting α) : Prop :=
  ∀ j j' : Journal, (action.run j).1 = (action.run j').1

theorem steady_pure (value : α) : Steady (pure value) :=
  fun _ _ => rfl

/-- A failure is the same whatever was reported before. -/
theorem steady_throw (failure : Failure) : Steady (throw failure : Reporting α) :=
  fun _ _ => rfl

/-- A warning is reported at the end. -/
theorem steady_warn (channel : Channel) (message : String) : Steady (warn channel message) :=
  fun _ _ => rfl

/-- Reports one after the other. -/
theorem Steady.bind {action : Reporting α} {next : α → Reporting β} (h : Steady action)
    (hnext : ∀ value, Steady (next value)) : Steady (action >>= next) := by
  intro j j'
  have hj := h j j'
  change (ExceptT.bindCont next (action.run j).1 (action.run j).2).1 =
    (ExceptT.bindCont next (action.run j').1 (action.run j').2).1
  rw [← hj]
  cases (action.run j).1 with
  | error failure => rfl
  | ok value => exact hnext value _ _

/-- A value put together afterwards. -/
theorem Steady.map {action : Reporting α} (f : α → β) (h : Steady action) :
    Steady (f <$> action) := by
  rw [map_eq_pure_bind]
  exact h.bind fun _ => steady_pure _

/-- A list that is gone through, element by element. -/
theorem steady_mapM {f : α → Reporting β} {values : List α}
    (h : ∀ value ∈ values, Steady (f value)) :
    Steady (values.mapM f) := by
  induction values with
  | nil => exact steady_pure []
  | cons value values ih =>
      rw [List.mapM_cons]
      have hrest := ih fun value hvalue => h value (List.mem_cons_of_mem _ hvalue)
      exact (h value List.mem_cons_self).bind fun _ => hrest.bind fun _ => steady_pure _

end Reporting

namespace Hint

open AikenForge.Source AikenForge.Reporting

/-- What cannot be classified gives a warning. -/
theorem steady_voidWith (message : String) : Steady (voidWith message) :=
  (steady_warn _ _).bind fun _ => steady_pure _

/-- A literal type is read off its value. -/
theorem steady_literalType : ∀ e : Expr, Steady (literalType e)
  | .constant value => by
      change Steady (literalConstant value)
      unfold literalConstant
      split
      case h_3 =>
        split
        · exact steady_pure _
        · exact steady_throw _
      case h_5 => exact steady_voidWith _
      all_goals exact steady_pure _
  | .unary op operand => by
      have hoperand := steady_literalType operand
      cases op with
      | minus =>
          refine hoperand.bind fun type => ?_
          split
          · exact steady_pure _
          · exact steady_voidWith _
      | _ => exact steady_voidWith _
  | .name _ | .attribute .. | .subscript .. | .slice .. | .list _ | .tuple _ | .set _ | .dict _
  | .starred _ | .binary .. | .boolean .. | .compare .. | .conditional .. | .call .. | .lambda ..
  | .comprehension .. | .dictComprehension .. | .named .. | .await _ | .yield _ | .yieldFrom _
  | .joined _ | .formatted .. => steady_voidWith _

/-- The types of parts, in order. -/
theorem steady_typesOf {parts : List (Reporting Part)} (h : ∀ part ∈ parts, Steady part) :
    Steady (typesOf parts) :=
  steady_mapM fun part hpart => (h part hpart).map _

/-- A type with arguments, by what its base is. -/
theorem steady_genericType (base : Expr) (args : List Expr) {parts : List (Reporting Part)}
    (h : ∀ part ∈ parts, Steady part) : Steady (genericType base args parts) := by
  unfold genericType
  split
  · exact steady_voidWith _
  · split
    · refine Steady.bind (steady_mapM fun e _ => steady_literalType e) fun types => ?_
      split <;> exact steady_pure _
    split
    · split
      · exact steady_pure _
      · rename_i part _
        exact (h part List.mem_cons_self).bind fun _ => steady_pure _
    split
    · exact (steady_mapM fun part hpart => (h part hpart).map _).bind fun _ => steady_pure _
    split
    · exact (steady_typesOf h).bind fun _ => steady_pure _
    split
    · exact (steady_typesOf h).bind fun _ => steady_pure _
    · exact (steady_typesOf h).bind fun _ => steady_pure _

/-- Labels alone give fields without a type. -/
theorem steady_labelFields : ∀ items : List Expr, Steady (labelFields items)
  | [] => steady_pure _
  | item :: rest => by
      have hrest := steady_labelFields rest
      rw [labelFields]
      split
      · exact hrest.bind fun _ => steady_pure _
      · split
        · exact (steady_warn _ _).bind fun _ => hrest
        · exact steady_throw _

/-- A constant as a type is a text that is read, or is void. -/
theorem steady_constantType {ofText : CodePoints → Reporting Target}
    (hofText : ∀ text, Steady (ofText text)) (value : Constant) :
    Steady (constantType ofText value) := by
  unfold constantType
  split
  · exact steady_pure _
  · exact steady_pure _
  · exact hofText _
  · exact steady_voidWith _

mutual

/-- A part of an annotation, by induction on its form. -/
theorem steady_resolvePart {ofText : CodePoints → Reporting Target}
    (hofText : ∀ text, Steady (ofText text)) : ∀ e : Expr, Steady (resolvePart ofText e)
  | .constant value => (steady_constantType hofText value).map _
  | .name _ => steady_pure _
  | .attribute .. => steady_pure _
  | .binary op left right => by
      have hleft := steady_resolvePart hofText left
      have hright := steady_resolvePart hofText right
      cases op
      case bitOr => exact hleft.bind fun _ => hright.bind fun _ => steady_pure _
      all_goals exact (steady_voidWith _).map _
  | .subscript base index => by
      have hindex := steady_resolvePart hofText index
      have hone : ∀ part ∈ [resolvePart ofText index], Steady part := by simpa using hindex
      have hgeneric := steady_genericType base [index] hone
      cases index
      case tuple items => exact (steady_genericType base items (steady_partsOf hofText items)).map _
      all_goals exact hgeneric.map _
  | .dict entries => (steady_recordFields hofText entries).bind fun _ => steady_pure _
  | .set items => (steady_labelFields items).bind fun _ => steady_pure _
  | .list items => by
      refine (steady_typesOf (steady_partsOf hofText items)).bind fun types => ?_
      split
      · exact steady_pure _
      · exact (steady_voidWith _).map _
  | .tuple items => by
      refine (steady_typesOf (steady_partsOf hofText items)).bind fun types => ?_
      split
      · exact (steady_voidWith _).map _
      · exact steady_pure _
  | .slice .. | .starred _ | .unary .. | .boolean .. | .compare .. | .conditional .. | .call ..
  | .lambda .. | .comprehension .. | .dictComprehension .. | .named .. | .await _ | .yield _
  | .yieldFrom _ | .joined _ | .formatted .. => (steady_voidWith _).map _

theorem steady_partsOf {ofText : CodePoints → Reporting Target}
    (hofText : ∀ text, Steady (ofText text)) :
    ∀ items : List Expr, ∀ part ∈ partsOf ofText items, Steady part
  | [] => by simp [partsOf]
  | e :: rest => by
      intro part hpart
      rcases List.mem_cons.mp hpart with rfl | hpart
      · exact steady_resolvePart hofText e
      · exact steady_partsOf hofText rest part hpart

theorem steady_recordFields {ofText : CodePoints → Reporting Target}
    (hofText : ∀ text, Steady (ofText text)) :
    ∀ entries : List Entry, Steady (recordFields ofText entries)
  | [] => steady_pure _
  | .spread _ :: rest => (steady_warn _ _).bind fun _ => steady_recordFields hofText rest
  | .pair key value :: rest => by
      have hvalue := steady_resolvePart hofText value
      have hrest := steady_recordFields hofText rest
      rw [recordFields]
      split
      · exact hvalue.bind fun _ => hrest.bind fun _ => steady_pure _
      · exact (steady_warn _ _).bind fun _ => hrest

end

variable (names : CharacterNames)

/-- A text is read as an expression, and that is resolved. -/
theorem steady_textBy {type : Expr → Reporting Target} (h : ∀ inner, Steady (type inner))
    (points : CodePoints) : Steady (textBy names type points) := by
  unfold textBy
  split
  · exact steady_throw _
  · split
    · exact h _
    · exact steady_throw _
    · exact steady_voidWith _

/-- An annotation whose texts are read up to some depth. -/
theorem steady_resolveUpTo (depth : Nat) (e : Expr) : Steady (resolveUpTo names depth e) := by
  induction depth generalizing e with
  | zero => exact (steady_resolvePart (fun _ => steady_pure _) e).map _
  | succ depth ih => exact (steady_resolvePart (steady_textBy names ih) e).map _

/-- The type of an annotation does not depend on what was reported before. -/
theorem steady_resolve (e : Expr) : Steady (resolve names e) :=
  steady_resolveUpTo names _ e

end Hint

/-! ## Declarations -/

open AikenForge.Source AikenForge.Reporting

theorem Import.steady_exposedNames (module : String) (names : List ImportName) :
    Steady (exposedNames module names) := by
  induction names with
  | nil => exact steady_pure _
  | cons n rest ih =>
      have hnames (u : Unit) := ih.bind fun names => steady_pure (n.name :: names)
      unfold exposedNames
      split
      · exact (steady_warn _ _).bind fun _ => ih
      · split
        · split
          · exact (steady_warn _ _).bind hnames
          · exact hnames ()
        · exact hnames ()

/-- An import with what it exposes. -/
theorem Import.steady_ofNames (line : Nat) (module : Option String) (names : List ImportName)
    (level : Nat) : Steady (ofNames line module names level) := by
  unfold ofNames
  split
  · exact (steady_warn _ _).bind fun _ => steady_pure _
  · split
    · exact steady_pure _
    · split
      · exact steady_pure _
      · refine (steady_exposedNames _ names).bind fun exposed => ?_
        split <;> exact steady_pure _

variable (names : CharacterNames)

namespace TypeDeclaration

/-- A type that is declared by an alias. -/
theorem steady_ofAlias (name : String) (value : Option Expr) (parameters : Option (List String))
    (isPublic isOpaque : Bool) (docs : Documentation) :
    Steady (ofAlias names name value parameters isPublic isOpaque docs) := by
  have hresolve : Steady (Hint.resolve? names value) := by
    cases value with
    | none => exact steady_pure _
    | some e => exact Hint.steady_resolve names e
  refine hresolve.bind fun target => ?_
  split
  · split
    · exact (steady_warn _ _).bind fun _ => steady_pure _
    · exact steady_pure _
  · exact steady_pure _

theorem steady_ofEnum (header : ClassHeader) (body : List Stmt) (isPublic : Bool)
    (docs : Documentation) : Steady (ofEnum header body isPublic docs) := by
  unfold ofEnum
  split
  · exact (steady_warn _ _).bind fun _ => steady_pure _
  · exact steady_pure _

theorem steady_recordFields (className : String) (body : List Stmt) :
    Steady (recordFields names className body) := by
  fun_induction recordFields names className body with
  | case1 => exact steady_pure _
  | case2 _ _ hint _ rest ih =>
      exact (Hint.steady_resolve names hint).bind fun _ => ih.bind fun _ => steady_pure _
  | case3 _ _ _ rest ih => exact (steady_warn _ _).bind fun _ => ih
  | case4 _ rest _ _ ih => exact ih

/-- A record with its fields. -/
theorem steady_ofRecord (header : ClassHeader) (body : List Stmt) (isPublic isOpaque : Bool)
    (docs : Documentation) : Steady (ofRecord names header body isPublic isOpaque docs) := by
  refine (steady_recordFields names header.name body).bind fun fields => ?_
  split
  · exact (steady_warn _ _).bind fun _ => steady_pure _
  · exact steady_pure _

end TypeDeclaration

/-- The type of a constant. -/
theorem ConstantDeclaration.steady_typeOf (hint : Option Expr) (value : Expr) :
    Steady (typeOf names hint value) := by
  unfold typeOf
  split
  · exact steady_pure _
  · split
    · exact steady_pure _
    · exact (Hint.steady_resolve names _).bind fun _ => steady_pure _

namespace FunctionDeclaration

theorem steady_hintText? (hint : Option Expr) : Steady (hintText? names hint) := by
  cases hint with
  | none => exact steady_pure _
  | some e => exact (Hint.steady_resolve names e).bind fun _ => steady_pure _

/-- The parameters of a function with their types. -/
theorem steady_parametersOf (isMethod : Bool) (header : FunctionHeader) :
    Steady (parametersOf names isMethod header) := by
  unfold parametersOf
  extract_lets parameters declared
  have hdeclared (u : Unit) : Steady (declared u) :=
    steady_mapM fun p _ => (steady_hintText? names p.hint).bind fun _ => steady_pure _
  split
  · exact (steady_warn _ _).bind hdeclared
  · exact hdeclared ()

/-- A handler is declared without its body being lowered. -/
theorem steady_ofHandlerSource (ctx : Context) (f : FunctionSource)
    (contract purposeName : String) (docs : Documentation) (datumType : Option String) :
    Steady (ofHandlerSource ctx f contract purposeName docs datumType) :=
  (steady_parametersOf _ _ _).bind fun _ => (steady_hintText? _ _).bind fun _ => steady_pure _

end FunctionDeclaration

/-- The datum of a contract, with the type that is declared for it. -/
theorem Collect.steady_contractDatum (setting : Setting) (className : String) (body : List Stmt) :
    Steady (contractDatum setting className body) := by
  fun_induction contractDatum setting className body with
  | case1 => exact steady_pure _
  | case2 line id hint value rest name hrole =>
      have hpart : Steady (contractDatum.liftExcept (datumPart hint)) := by
        cases datumPart hint with
        | error failure => exact steady_throw failure
        | ok part => exact steady_pure part
      refine hpart.bind fun inner => ?_
      split
      · exact (TypeDeclaration.steady_ofAlias _ _ _ _ _ _ _).bind fun _ => steady_pure _
      · exact (Hint.steady_resolve _ _).bind fun _ => steady_pure _
  | case3 line id hint value rest hrole ih => exact ih
  | case4 statement rest hstatement ih => exact ih

end AikenForge
