/-
# Unions of unions

Bars join operands on one level; every other way to write a union inside a union makes a union of
unions. The types that such a union joins are those of its leaves all the same, from left to right.
It is the union of exactly these if and only if none of its operands resolves to a union, and then
the spelling does not matter and a block has one line for each leaf.
-/

import AikenForge.Proofs.Union.Written

namespace AikenForge

open AikenForge.Source AikenForge.Text

/-! ## The types that a union joins -/

namespace Target

/-- Whether a type is a union. -/
def isUnion : Target → Bool
  | .union _ => true
  | _ => false

mutual

/-- The types that a type joins: itself unless it is a union. -/
def alternatives : Target → List Target
  | .union members => alternativesOf members
  | type => [type]

/-- The types that types join, from left to right. -/
def alternativesOf : List Target → List Target
  | [] => []
  | type :: rest => type.alternatives ++ alternativesOf rest

end

/-- Alternatives one after the other. -/
@[simp]
theorem alternativesOf_append (first rest : List Target) :
    alternativesOf (first ++ rest) = alternativesOf first ++ alternativesOf rest := by
  induction first with
  | nil => rfl
  | cons type more ih => simp [alternativesOf, ih]

/-- What is no union is its own alternative. -/
theorem alternatives_of_not_isUnion {type : Target} (h : type.isUnion = false) :
    type.alternatives = [type] := by
  cases type with
  | union members => cases h
  | _ => rfl

mutual

/-- No alternative is a union itself. -/
theorem isUnion_of_mem_alternatives :
    ∀ (type : Target), ∀ other ∈ type.alternatives, other.isUnion = false
  | .union members, other, hmem => isUnion_of_mem_alternativesOf members other hmem
  | .primitive _, _, hmem | .application .., _, hmem | .record _, _, hmem | .list _, _, hmem
  | .tuple _, _, hmem | .literal _, _, hmem | .void, _, hmem => by
      rw [List.mem_singleton.mp hmem]
      rfl

theorem isUnion_of_mem_alternativesOf :
    ∀ (types : List Target), ∀ other ∈ alternativesOf types, other.isUnion = false
  | [], _, hmem => by cases hmem
  | type :: rest, other, hmem =>
      (List.mem_append.mp hmem).elim (isUnion_of_mem_alternatives type other)
        (isUnion_of_mem_alternativesOf rest other)

end

/-- Types are the ones they join exactly if none of them is a union. -/
theorem alternativesOf_eq_self_iff {types : List Target} :
    alternativesOf types = types ↔ ∀ type ∈ types, type.isUnion = false := by
  constructor
  · intro hself type htype
    exact isUnion_of_mem_alternativesOf types type (hself.symm ▸ htype)
  · intro hnone
    induction types with
    | nil => rfl
    | cons type rest ih =>
        rw [alternativesOf, alternatives_of_not_isUnion (hnone type List.mem_cons_self),
          ih fun other hother => hnone other (List.mem_cons_of_mem _ hother), List.singleton_append]

end Target

namespace Hint

variable {names : CharacterNames}

/-! ## What unions resolve to -/

/-- A quoted annotation is resolved as what is in its quotes. -/
theorem resolve_of_quoted? {e inner : Expr} (h : quoted? names e = some inner) :
    resolve names e = resolve names inner := by
  obtain ⟨s, marked, rfl, hread⟩ := exists_of_quoted? h
  exact resolve_text hread marked

/-- Quotes around an annotation make no difference. -/
theorem resolve_unquoted (e : Expr) : resolve names (unquoted names e) = resolve names e := by
  fun_induction unquoted names e with
  | case1 e inner hinner ih => rw [ih, resolve_of_quoted? hinner]
  | case2 e hnone => rfl

/-- A qualified type is resolved as the type that it qualifies. -/
theorem resolve_of_qualified? {e arg : Expr} (h : qualified? e = some arg) :
    resolve names e = resolve names arg := by
  unfold qualified? at h
  split at h
  · rename_i base index
    split at h
    · rename_i hqualifier
      obtain ⟨rest, hargs⟩ := List.head?_eq_some_iff.mp h
      obtain ⟨name, hname, hcontains⟩ := (Option.any_eq_true ..).mp hqualifier
      have hliteral : (name == "Literal") = false := by
        refine beq_false_of_ne fun heq => ?_
        rw [heq] at hcontains
        exact absurd hcontains (by decide)
      rw [← subscriptStep_resolver, Resolver.subscriptStep, hname, hargs]
      dsimp only
      rw [hliteral, hcontains, if_neg Bool.false_ne_true, if_pos rfl]
      rfl
    · cases h
  · cases h

/-- Neither quotes nor qualifiers make a difference. -/
theorem resolve_bare (e : Expr) : resolve names (bare names e) = resolve names e := by
  fun_induction bare names e with
  | case1 e inner hinner ih =>
      rw [ih]
      rcases Option.or_eq_some_iff.mp hinner with hquoted | ⟨-, hqualified⟩
      · rw [resolve_of_quoted? hquoted]
      · rw [resolve_of_qualified? hqualified]
  | case2 e hnone => rfl

section Lists

variable {α β : Type}

/-- Going through the items of items. -/
theorem mapM_flatMap (f : Expr → Reporting β) (g : α → List Expr) (items : List α) :
    (items.flatMap g).mapM f = List.flatten <$> items.mapM fun item => (g item).mapM f := by
  induction items with
  | nil => rfl
  | cons item rest ih => simp [ih]

end Lists

/-- The members of a union are its operands, resolved one by one. -/
theorem members_resolver (e : Expr) :
    (resolver names).members e = (bars e).mapM (resolve names) := by
  fun_induction bars e with
  | case1 left right ihleft ihright =>
      rw [← membersStep_resolver, Resolver.membersStep, ihleft, ihright, List.mapM_append]
  | case2 e hne =>
      rw [← membersStep_resolver, List.mapM_cons, List.mapM_nil]
      unfold Resolver.membersStep
      split
      · exact absurd rfl (hne _ _)
      · simp only [pure_bind]
        rfl

/-- The members of a union are its operands' types. -/
theorem resolve_of_operands {e : Expr} {operands : List Expr} (h : operands? e = some operands) :
    resolve names e = .union <$> operands.mapM (resolve names) := by
  unfold operands? at h
  split at h
  · cases h
    rw [← typeStep_resolver, Resolver.typeStep, members_resolver, members_resolver,
      List.mapM_append]
    simp
  · split at h
    · rename_i base index hbase
      cases h
      have hmembers : (genericArgs index).mapM (resolver names).members =
          (genericArgs index).mapM fun arg => (bars arg).mapM (resolve names) :=
        mapM_congr fun arg _ => members_resolver arg
      rw [← subscriptStep_resolver, Resolver.subscriptStep, eq_of_beq hbase, mapM_flatMap,
        ← hmembers]
      simp [qualifierNames]
    · cases h
  · cases h

/-- The alternatives of several types are those of their leaves. -/
theorem alternativesOf_mapM {items : List Expr}
    (h : ∀ item ∈ items, Target.alternatives <$> resolve names item =
      Target.alternativesOf <$> (leaves names item).mapM (resolve names)) :
    Target.alternativesOf <$> items.mapM (resolve names) =
      Target.alternativesOf <$> (items.flatMap (leaves names)).mapM (resolve names) := by
  induction items with
  | nil => rfl
  | cons item rest ih =>
      have hrest := ih fun other hother => h other (List.mem_cons_of_mem _ hother)
      -- Both sides run what is joined by the first and what is joined by the rest.
      let joined (first rest : Reporting (List Target)) : Reporting (List Target) := do
        return (← first) ++ (← rest)
      calc Target.alternativesOf <$> (item :: rest).mapM (resolve names)
          = joined (Target.alternatives <$> resolve names item)
              (Target.alternativesOf <$> rest.mapM (resolve names)) := by
            simp [joined, Target.alternativesOf]
        _ = joined (Target.alternativesOf <$> (leaves names item).mapM (resolve names))
              (Target.alternativesOf <$> (rest.flatMap (leaves names)).mapM (resolve names)) := by
            rw [h item List.mem_cons_self, hrest]
        _ = Target.alternativesOf <$> ((item :: rest).flatMap (leaves names)).mapM
          (resolve names) := by
            simp [joined]

/-- The types that a union joins are those that its leaves join. -/
theorem alternatives_resolve (e : Expr) :
    Target.alternatives <$> resolve names e =
      Target.alternativesOf <$> (leaves names e).mapM (resolve names) := by
  fun_induction leaves names e with
  | case1 e inner hinner ih => rw [resolve_of_quoted? hinner, ih]
  | case2 e hquoted operands hoperands ih =>
      rw [List.flatMap_subtype fun _ _ => rfl, List.unattach_attach,
        ← alternativesOf_mapM fun item hitem => ih ⟨item, hitem⟩, resolve_of_operands hoperands,
        ← comp_map]
      rfl
  | case3 e hquoted hoperands => simp [Target.alternativesOf]

/-! ## Which annotations resolve to unions -/

section Unions

/-- A computation ends with a type that is or is no union. -/
abbrev Unites (joins : Bool) (action : Reporting Target) : Prop :=
  Ends (fun _ => True) (fun _ => True) (fun type => type.isUnion = joins) action

/-- What cannot be classified is no union. -/
theorem unites_voidWith (message : String) : Unites false (voidWith message) :=
  (Reporting.ends_warn _ _).bind fun _ _ => .pure rfl

theorem unites_literalConstant (value : Constant) : Unites false (literalConstant value) := by
  unfold literalConstant
  split
  case h_3 =>
    split
    · exact .pure rfl
    · exact .throw trivial
  case h_5 => exact unites_voidWith _
  all_goals exact .pure rfl

theorem unites_literalType (e : Expr) : Unites false (literalType e) := by
  unfold literalType
  split
  · exact unites_literalConstant _
  · refine (ends_somehow _).bind fun type _ => ?_
    split
    · exact .pure rfl
    · exact unites_voidWith _
  · exact unites_voidWith _

/-- Several literals make a union, and one alone does not. -/
theorem unites_literalUnion (args : List Expr) :
    Unites (args.length != 1) (literalUnion args) := by
  refine (Ends.mapM fun arg _ => unites_literalType arg).bind fun types htypes => ?_
  rw [htypes.length_eq]
  split
  · rename_i type
    exact .pure (of_forall₂ htypes type List.mem_cons_self)
  · rename_i hmany
    refine .pure ?_
    cases types with
    | nil => rfl
    | cons first rest =>
        cases rest with
        | nil => exact absurd rfl (hmany first)
        | cons => rfl

/-- Nothing is left to take off a bare annotation. -/
theorem inside_bare (e : Expr) :
    (quoted? names (bare names e)).or (qualified? (bare names e)) = none := by
  fun_induction bare names e with
  | case1 e inner hinner ih => exact ih
  | case2 e hnone => exact hnone

/-- A text that cannot be read is no union. -/
theorem unites_textBy {points : CodePoints} {marked : Bool}
    (h : quoted? names (.constant (.text points marked)) = none) :
    Unites false (textBy names (resolve names) points) := by
  unfold textBy
  cases hpoints : points.string? with
  | none => exact .throw trivial
  | some s =>
      cases hread : readExpression names s with
      | ok inner => simp [quoted?, hpoints, hread, Except.toOption] at h
      | error reason =>
          simp only [hread]
          cases reason with
          | nul => exact .throw trivial
          | malformed _ => exact unites_voidWith _

/-- A generic annotation that qualifies nothing. -/
theorem unites_subscript (base index : Expr) (h : qualified? (.subscript base index) = none) :
    Unites (baseName? base == some "Union" ||
      baseName? base == some "Literal" && (genericArgs index).length != 1)
      (resolve names (.subscript base index)) := by
  rw [← subscriptStep_resolver, Resolver.subscriptStep]
  rw [qualified?] at h
  cases hname : baseName? base with
  | none => exact unites_voidWith _
  | some name =>
      rw [hname, Option.any_some] at h
      dsimp only
      by_cases hliteral : name = "Literal"
      · subst hliteral
        exact unites_literalUnion _
      by_cases hunion : name = "Union"
      · subst hunion
        exact (ends_somehow _).bind fun _ _ => .pure rfl
      have hneither : (some name == some "Union" ||
          some name == some "Literal" && (genericArgs index).length != 1) = false := by
        simp [hliteral, hunion]
      rw [hneither, beq_false_of_ne hliteral, beq_false_of_ne hunion]
      simp only [Bool.false_eq_true, if_false]
      split
      · rename_i hqualifier
        rw [if_pos hqualifier] at h
        rw [List.head?_eq_none_iff.mp h]
        exact .pure rfl
      split
      · exact (ends_somehow _).bind fun _ _ => .pure rfl
      split
      · exact (ends_somehow _).bind fun _ _ => .pure rfl
      · exact (ends_somehow _).bind fun _ _ => .pure rfl

/-- An annotation resolves to a union if it is one of these, and to no union otherwise. -/
theorem unites_resolve (e : Expr) : Unites (unites names e) (resolve names e) := by
  have hinside : (quoted? names (bare names e)).or (qualified? (bare names e)) = none :=
    inside_bare e
  rw [← resolve_bare, unites]
  generalize bare names e = e at hinside ⊢
  obtain ⟨hquoted, hqualified⟩ := Option.or_eq_none_iff.mp hinside
  cases e with
  | subscript base index => exact unites_subscript base index hqualified
  | constant value =>
      rw [← typeStep_resolver]
      cases value with
      | text s marked => exact unites_textBy hquoted
      | none | ellipsis => exact .pure rfl
      | _ => exact unites_voidWith _
  | binary op left right =>
      cases op with
      | bitOr =>
          rw [resolve_of_operands rfl]
          exact (ends_somehow _).map fun _ _ => rfl
      | _ =>
          rw [← typeStep_resolver]
          exact unites_voidWith _
  | name | «attribute» =>
      rw [← typeStep_resolver]
      exact .pure rfl
  | dict entries =>
      rw [← recordStep_resolver]
      exact (ends_somehow _).map fun _ _ => rfl
  | set items =>
      rw [← typeStep_resolver]
      exact (ends_somehow _).bind fun _ _ => .pure rfl
  | list items =>
      rw [← typeStep_resolver]
      refine (ends_somehow _).bind fun types _ => ?_
      show Unites false _
      split
      · exact .pure rfl
      · exact unites_voidWith _
  | tuple items =>
      rw [← typeStep_resolver]
      refine (ends_somehow _).bind fun types _ => ?_
      show Unites false _
      split
      · exact unites_voidWith _
      · exact .pure rfl
  | _ =>
      rw [← typeStep_resolver]
      exact unites_voidWith _

end Unions

/-! ## Flat unions -/

/-- A union in quotes or not. -/
def IsUnion (names : CharacterNames) (e : Expr) : Prop :=
  ∃ operands, operands? (unquoted names e) = some operands

/-- A union none of whose operands resolves to a union. -/
def IsFlat (names : CharacterNames) (e : Expr) : Prop :=
  ∃ operands, operands? (unquoted names e) = some operands ∧
    ∀ part ∈ operands, unites names part = false

/-- The leaves of a flat union are its operands. -/
theorem IsFlat.leaves_eq {e : Expr} {operands : List Expr}
    (h : operands? (unquoted names e) = some operands)
    (hflat : ∀ part ∈ operands, unites names part = false) :
    leaves names e = operands.map (unquoted names) := by
  rw [← leaves_unquoted, leaves_of_operands h, List.map_eq_flatMap]
  exact List.flatMap_congr fun part hpart => leaves_of_not_unites (hflat part hpart)

/-- The members of a flat union are the types of its leaves. -/
theorem IsFlat.resolve_eq {e : Expr} (h : IsFlat names e) :
    resolve names e = .union <$> (leaves names e).mapM (resolve names) := by
  obtain ⟨operands, hoperands, hflat⟩ := h
  rw [IsFlat.leaves_eq hoperands hflat, List.mapM_map, ← resolve_unquoted,
    resolve_of_operands hoperands]
  exact congrArg (Target.union <$> ·) (mapM_congr fun part _ => (resolve_unquoted part).symm)

/-- The members of a union are unions where its operands are. -/
theorem isUnion_members_iff {e : Expr} {journal after : Journal} {target : Target}
    {operands : List Expr} (h : operands? (unquoted names e) = some operands)
    (hrun : (resolve names e).run journal = (.ok target, after)) :
    ∃ members, target = .union members ∧
      ((∀ member ∈ members, member.isUnion = false) ↔ ∀ part ∈ operands, unites names part =
        false) := by
  have hends : Ends (fun _ => True) (fun _ => True) (fun target =>
    ∃ members, target = .union members ∧
      List.Forall₂ (fun part member => member.isUnion = unites names part) operands members)
        (resolve names e) := by
    rw [← resolve_unquoted, resolve_of_operands h]
    exact (Ends.mapM fun part _ => unites_resolve part).map fun members hmembers =>
      ⟨members, rfl, hmembers⟩
  obtain ⟨members, rfl, hmembers⟩ := hends.of_ok trivial hrun
  refine ⟨members, rfl, ?_⟩
  clear hrun h hends
  induction hmembers with
  | nil => simp
  | cons hfirst _ ih => simp [hfirst, ih]

/-! ## Blocks of unions -/

/-- The text of a union of two types or more has a bar. -/
theorem isBlock_union {types : List Target} (h : 2 ≤ types.length) (name : String)
    (typeParameters : Option (List String)) (isPublic isOpaque : Bool) (docs : Documentation) :
    (TypeDeclaration.ofTarget name (.union types) typeParameters isPublic isOpaque docs).isBlock =
      true := by
  obtain ⟨first, others, rfl⟩ :=
    List.exists_cons_of_length_pos (Nat.lt_of_lt_of_le Nat.zero_lt_two h)
  obtain ⟨second, rest, rfl⟩ := List.exists_cons_of_length_pos (Nat.le_of_succ_le_succ h)
  have hbar : '|' ∈ (Target.union (first :: second :: rest)).render.toList := by
    rw [Target.render, Target.renderAll, Target.renderAll, String.toList_intercalate]
    simp [List.intercalate_cons_cons]
  rw [TypeDeclaration.isBlock, Bool.or_eq_true_iff]
  exact .inr (List.contains_iff_mem.mpr hbar)

/-- A flat annotation is declared with its leaves as its members. -/
theorem ofAlias_of_isFlat {e : Expr} (h : IsFlat names e) (name : String)
    (typeParameters : Option (List String)) (isPublic isOpaque : Bool) (docs : Documentation) :
    TypeDeclaration.ofAlias names name (some e) typeParameters isPublic isOpaque docs =
      (fun types => .ofTarget name (.union types) typeParameters isPublic isOpaque docs) <$>
        (leaves names e).mapM (resolve names) := by
  rw [TypeDeclaration.ofAlias, resolve?, h.resolve_eq]
  simp [Target.isVoid]

theorem exists_of_run_map {α β : Type} {f : α → β} {action : Reporting α} {journal after : Journal}
    {result : β} (h : (f <$> action).run journal = (.ok result, after)) :
    ∃ value, action.run journal = (.ok value, after) ∧ f value = result := by
  rw [map_eq_pure_bind] at h
  change (ExceptT.bindCont (fun value => (pure (f value) : Reporting β)) (action.run journal).1)
    (action.run journal).2 = _ at h
  rcases hrun : action.run journal with ⟨failure | value, between⟩
  · rw [hrun] at h
    cases h
  · rw [hrun] at h
    cases h
    exact ⟨value, rfl, rfl⟩

/-- However a union is written, the types that it joins are those that its leaves join, from left to
right. It is the union of exactly these, with no union among its members, if and only if none of its
operands resolves to a union. Then it is the union of its leaves' types, so that flat unions with
the same leaves resolve alike, and its block has one line for each leaf. -/
theorem unions_flatten_iff {e : Expr} (h : IsUnion names e) :
    Target.alternatives <$> resolve names e =
      Target.alternativesOf <$> (leaves names e).mapM (resolve names) ∧
    (∀ journal target after, (resolve names e).run journal = (.ok target, after) →
      ∃ members, target = .union members ∧
        ((∀ member ∈ members, member.isUnion = false) ↔ IsFlat names e) ∧
        (members = target.alternatives ↔ IsFlat names e)) ∧
    (IsFlat names e →
      resolve names e = .union <$> (leaves names e).mapM (resolve names) ∧
      (∀ other, IsFlat names other → leaves names other = leaves names e →
        resolve names other = resolve names e) ∧
      ∀ name typeParameters isPublic isOpaque docs journal declared after,
        (TypeDeclaration.ofAlias names name (some e) typeParameters isPublic isOpaque docs).run
          journal =
          (.ok declared, after) →
        ∃ types, ((leaves names e).mapM (resolve names)).run journal = (.ok types, after) ∧
          types.length = (leaves names e).length ∧
          declared.blockLines = types.mapM TypeDeclaration.variantText ∧
          (2 ≤ types.length → declared.isBlock = true)) := by
  obtain ⟨operands, hoperands⟩ := h
  have hflat : IsFlat names e ↔ ∀ part ∈ operands, unites names part = false := by
    constructor
    · rintro ⟨others, hothers, hall⟩
      cases hoperands.symm.trans hothers
      exact hall
    · exact fun hall => ⟨operands, hoperands, hall⟩
  refine ⟨alternatives_resolve e, fun journal target after hrun => ?_, fun hflat =>
    ⟨hflat.resolve_eq,
    fun other hother hleaves => ?_, ?_⟩⟩
  · obtain ⟨members, rfl, hmembers⟩ := isUnion_members_iff hoperands hrun
    rw [← hflat] at hmembers
    refine ⟨members, rfl, hmembers, ?_⟩
    rw [← hmembers, ← Target.alternativesOf_eq_self_iff]
    exact eq_comm
  · rw [hother.resolve_eq, hflat.resolve_eq, hleaves]
  · intro name typeParameters isPublic isOpaque docs journal declared after hrun
    rw [ofAlias_of_isFlat hflat] at hrun
    obtain ⟨types, htypes, rfl⟩ := exists_of_run_map hrun
    have hlength := ((Ends.mapM fun leaf _ =>
      ends_somehow (resolve names leaf)).of_ok trivial htypes).length_eq
    exact ⟨types, htypes, hlength.symm, rfl, fun htwo => isBlock_union htwo ..⟩

/-- Bars and a quoted name in a generic union. -/
theorem unions_flatten_mixed :
    IsUnion (fun _ => none) (.subscript (.name "Union") (.tuple
      [.binary .bitOr (.name "Yes") (.constant (.text (codePoints "No") false)),
        .name "Maybe"])) ∧
    IsFlat (fun _ => none) (.subscript (.name "Union") (.tuple
      [.binary .bitOr (.name "Yes") (.constant (.text (codePoints "No") false)),
        .name "Maybe"])) ∧
    resolve (fun _ => none) (.subscript (.name "Union") (.tuple
      [.binary .bitOr (.name "Yes") (.constant (.text (codePoints "No") false)),
        .name "Maybe"])) =
      .union <$> [Expr.name "Yes", .name "No", .name "Maybe"].mapM (resolve fun _ => none) := by
  have hunion : operands? (unquoted (fun _ => none) (.subscript (.name "Union") (.tuple
      [.binary .bitOr (.name "Yes") (.constant (.text (codePoints "No") false)),
        .name "Maybe"]))) =
      some [.name "Yes", .constant (.text (codePoints "No") false), .name "Maybe"] := by
    rw [unquoted_eq_self rfl]
    rfl
  have hquoted : quoted? (fun _ => none) (.constant (.text (codePoints "No") false)) =
      some (.name "No") := rfl
  have hflat : IsFlat (fun _ => none) (.subscript (.name "Union") (.tuple
      [.binary .bitOr (.name "Yes") (.constant (.text (codePoints "No") false)),
        .name "Maybe"])) :=
    ⟨_, hunion, by simp [unites_of_quoted? hquoted]⟩
  obtain ⟨-, -, hrule⟩ := unions_flatten_iff ⟨_, hunion⟩
  refine ⟨⟨_, hunion⟩, hflat, ?_⟩
  rw [(hrule hflat).1, ← leaves_unquoted, leaves_of_operands hunion]
  simp only [List.flatMap_cons, List.flatMap_nil, leaves_name, leaves_of_quoted? hquoted]
  rfl

/-- A generic union next to a bar is a member and has no lines of its own, although the leaves are
those of bars alone. -/
theorem unions_nest_beside_bars :
    leaves (fun _ => none) (.binary .bitOr (.name "Yes")
        (.subscript (.name "Union") (.tuple [.name "No", .name "Maybe"]))) =
      leaves (fun _ => none)
        (.binary .bitOr (.binary .bitOr (.name "Yes") (.name "No")) (.name "Maybe")) ∧
    resolve (fun _ => none) (.binary .bitOr (.name "Yes")
        (.subscript (.name "Union") (.tuple [.name "No", .name "Maybe"]))) =
      pure (.union [.primitive "Yes", .union [.primitive "No", .primitive "Maybe"]]) ∧
    resolve (fun _ => none)
        (.binary .bitOr (.binary .bitOr (.name "Yes") (.name "No")) (.name "Maybe")) =
      pure (.union [.primitive "Yes", .primitive "No", .primitive "Maybe"]) ∧
    (TypeDeclaration.ofTarget "Choice"
        (.union [.primitive "Yes", .union [.primitive "No", .primitive "Maybe"]])
        none true false none).blockLines = .ok ["Yes", "No | Maybe"] := by
  have hinner : operands? (.subscript (.name "Union") (.tuple [.name "No", .name "Maybe"])) =
      some [.name "No", .name "Maybe"] := rfl
  have houter : operands? (.binary .bitOr (.name "Yes")
      (.subscript (.name "Union") (.tuple [.name "No", .name "Maybe"]))) =
      some [.name "Yes", .subscript (.name "Union") (.tuple [.name "No", .name "Maybe"])] := rfl
  have hbars : operands?
    (.binary .bitOr (.binary .bitOr (.name "Yes") (.name "No")) (.name "Maybe")) =
      some [.name "Yes", .name "No", .name "Maybe"] := rfl
  refine ⟨?_, rfl, rfl, rfl⟩
  simp [leaves_of_operands houter, leaves_of_operands hinner, leaves_of_operands hbars]

end Hint

end AikenForge
