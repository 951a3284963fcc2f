/-
# What inlining keeps of the source

Inlining replaces names and nothing else, so everything by which lowering tells the forms of the
source apart is the same before and after: kinds, precedences, literals, special forms, the lines of
statements and the shape of chains. Where no name stands for something it changes nothing at all.
-/

import AikenForge.Proofs.Alias.Inline

namespace AikenForge.Inlining

open AikenForge.Source AikenForge.Lowering AikenForge.Text AikenForge.Expectation

/-! ## Ending what names stand for -/

/-- Names that end stand for nothing, and all others for what they stood for. -/
@[simp]
theorem ended_heeded (taken : List String) (env : Env) (name : String) :
    ended heeded taken env name = if name ∈ taken then none else env name := by
  cases hname : env name <;> simp [ended, heeded, hname, Option.filter]

@[simp]
theorem ended_heeded_nil (env : Env) : ended heeded [] env = env := by
  funext name
  simp

/-! ## Expressions -/

section Shape

variable (rule : Rule) (ctx : Context) (env : Env)

/-- What a name stands for is no name itself. -/
@[simp]
theorem name?_standing (standing : Standing) : standing.expr.name? = none := by
  cases standing <;> rfl

/-- What a name stands for is no string. -/
@[simp]
theorem points?_standing (standing : Standing) : standing.expr.points? = none := by
  cases standing <;> rfl

/-- What a name stands for needs no brackets. -/
@[simp]
theorem precedence_standing (standing : Standing) : standing.expr.precedence = .atom := by
  cases standing <;> rfl

/-- Only a name that stands for nothing is a name after inlining. -/
theorem name?_inline (e : Expr) :
    (inline rule ctx env e).name? = e.name?.filter fun id => (env id).isNone := by
  match e with
  | .name id =>
      cases h : env id with
      | none =>
          rw [inline_name_none rule ctx env h]
          simp [Expr.name?, Option.filter, h]
      | some standing =>
          rw [inline_name_some rule ctx env h, name?_standing]
          simp [Expr.name?, Option.filter, h]
  | .attribute value label => rw [inline]; split <;> rfl
  | .call callee args keywords => rw [inline]; split <;> rfl
  | .comprehension kind element clauses => unfold inline; split <;> first | rfl | contradiction
  | .constant _ | .subscript .. | .slice .. | .list _ | .tuple _ | .set _ | .dict _ | .starred _
  | .unary .. | .binary .. | .boolean .. | .compare .. | .conditional .. | .lambda ..
  | .dictComprehension .. | .named .. | .await _ | .yield _ | .yieldFrom _ | .joined _
  | .formatted .. => rfl

/-- Inlining keeps what messages call an expression, names apart. -/
theorem kind_beq_inline (e : Expr) {kind : String} (hname : kind ≠ "Name")
    (hattribute : kind ≠ "Attribute") :
    ((inline rule ctx env e).kind == kind) = (e.kind == kind) := by
  match e with
  | .name id =>
      cases h : env id with
      | none => rw [inline_name_none rule ctx env h]
      | some standing =>
          rw [inline_name_some rule ctx env h]
          have hkind : standing.expr.kind = "Attribute" := by cases standing <;> rfl
          rw [hkind, beq_false_of_ne hattribute.symm]
          exact (beq_false_of_ne hname.symm).symm
  | .attribute value label => rw [inline]; split <;> rfl
  | .call callee args keywords => rw [inline]; split <;> rfl
  | .comprehension form element clauses =>
      have hkind : (inline rule ctx env (.comprehension form element clauses)).kind =
          form.kind := by
        unfold inline
        split <;> simp_all [Expr.kind]
      rw [hkind]
      rfl
  | .constant _ | .subscript .. | .slice .. | .list _ | .tuple _ | .set _ | .dict _ | .starred _
  | .unary .. | .binary .. | .boolean .. | .compare .. | .conditional .. | .lambda ..
  | .dictComprehension .. | .named .. | .await _ | .yield _ | .yieldFrom _ | .joined _
  | .formatted .. => rfl

/-- Strings stay strings, and nothing else becomes one. -/
theorem points?_inline (e : Expr) : (inline rule ctx env e).points? = e.points? := by
  match e with
  | .name id =>
      cases h : env id with
      | none => rw [inline_name_none rule ctx env h]
      | some standing =>
          rw [inline_name_some rule ctx env h, points?_standing]
          rfl
  | .attribute value label => rw [inline]; split <;> rfl
  | .call callee args keywords => rw [inline]; split <;> rfl
  | .comprehension kind element clauses => unfold inline; split <;> first | rfl | contradiction
  | .constant _ | .subscript .. | .slice .. | .list _ | .tuple _ | .set _ | .dict _ | .starred _
  | .unary .. | .binary .. | .boolean .. | .compare .. | .conditional .. | .lambda ..
  | .dictComprehension .. | .named .. | .await _ | .yield _ | .yieldFrom _ | .joined _
  | .formatted .. => rfl

theorem text?_inline (e : Expr) : (inline rule ctx env e).text? = e.text? := by
  rw [Expr.text?, Expr.text?, points?_inline]

/-- What a name stands for is an atom as the name is, so no brackets come or go. -/
theorem precedence_inline : ∀ e : Expr, (inline rule ctx env e).precedence = e.precedence
  | .name id => by
      cases h : env id with
      | none => rw [inline_name_none rule ctx env h]
      | some standing =>
          rw [inline_name_some rule ctx env h, precedence_standing]
          rfl
  | .unary op operand => by
      cases op with
      | plus => exact precedence_inline operand
      | _ => rfl
  | .compare left links => by
      match links with
      | [] => rfl
      | [.mk op _] => cases op <;> rfl
      | .mk _ _ :: .mk _ _ :: _ => rfl
  | .attribute value label => by rw [inline]; split <;> rfl
  | .call callee args keywords => by rw [inline]; split <;> rfl
  | .comprehension kind element clauses => by unfold inline; split <;> first | rfl | contradiction
  | .boolean op values => by cases op <;> rfl
  | .constant _ | .subscript .. | .slice .. | .list _ | .tuple _ | .set _ | .dict _ | .starred _
  | .binary .. | .conditional .. | .lambda .. | .dictComprehension .. | .named ..
  | .await _ | .yield _ | .yieldFrom _ | .joined _ | .formatted .. => rfl

theorem isEmpty_inlineAll (items : List Expr) :
    (inlineAll rule ctx env items).isEmpty = items.isEmpty := by
  cases items <;> rfl

theorem isEmpty_inlinePipe (items : List Expr) :
    (inlinePipe rule ctx env items).isEmpty = items.isEmpty := by
  cases items <;> rfl

theorem isEmpty_inlineKeywords (keywords : List Keyword) :
    (inlineKeywords rule ctx env keywords).isEmpty = keywords.isEmpty := by
  match keywords with
  | [] | .labelled .. :: _ | .spread _ :: _ => rfl

end Shape

section Heeded

variable (ctx : Context) {env : Env}

/-- Inlining finds no further members of enumerations. -/
theorem enumMember?_inline {value : Expr} {label : String}
    (h : enumMember? ctx value label = none) :
    enumMember? ctx (inline heeded ctx env value) label = none := by
  unfold enumMember? at h ⊢
  rw [name?_inline]
  cases hname : value.name? with
  | none => rfl
  | some id =>
      rw [hname] at h
      cases henv : env id with
      | none => simpa [Option.filter, henv] using h
      | some standing => simp [Option.filter, henv]

/-- In a comprehension its target stands for nothing, and no other name becomes it. -/
theorem name?_inline_bound (element : Expr) (target : String) :
    ((inline heeded ctx (ended heeded [target] env) element).name? == some target) =
      (element.name? == some target) := by
  rw [name?_inline]
  cases element.name? with
  | none => rfl
  | some id =>
      by_cases hid : id = target
      · simp [Option.filter, hid]
      · have hbeq : (id == target) = false := beq_false_of_ne hid
        cases henv : env id <;> simp [Option.filter, henv, hid, hbeq]

/-- The message of an expectation is a string, and stays as it is. -/
theorem expectMessage_inlineAll (further : List Expr) :
    expectMessage (inlineAll heeded ctx env further) = expectMessage further := by
  cases further with
  | nil => rfl
  | cons message _ =>
      rw [inlineAll, expectMessage, expectMessage, points?_inline]

/-- Whether a call is special depends on its callee, and on whether it has arguments. -/
theorem specialCall?_congr (callee : Expr) {args args' : List Expr}
    (h : args'.isEmpty = args.isEmpty) :
    specialCall? ctx callee args' = specialCall? ctx callee args := by
  unfold specialCall?
  rw [h]

/-- Inlining makes no special form of a call that was none. -/
theorem specialCall?_inline {callee : Expr} {args : List Expr}
    (h : specialCall? ctx callee args = none) :
    specialCall? ctx (inline heeded ctx env callee) (inlineAll heeded ctx env args) = none := by
  rw [specialCall?_congr ctx _ (isEmpty_inlineAll heeded ctx env args)]
  unfold specialCall? at h ⊢
  rw [name?_inline]
  cases hname : callee.name? with
  | none => rfl
  | some id =>
      rw [hname] at h
      cases henv : env id with
      | none => simpa [Option.filter, henv] using h
      | some standing => simp [Option.filter, henv]

/-- A step that is no call is inlined as an expression. -/
theorem inlineSteps_cons {e : Expr} (h : (e.kind == "Call") = false) (rest : List Expr) :
    inlineSteps heeded ctx env (e :: rest) =
      inline heeded ctx env e :: inlineSteps heeded ctx env rest := by
  cases e <;> first | rfl | contradiction

end Heeded

/-! ## Expressions without aliases in them -/

section Silent

variable (ctx : Context) {env : Env}

/-- Names that stand for something are not among some expressions. -/
def Silent (env : Env) (expressions : List Expr) : Prop :=
  ∀ name, Expr.name name ∈ expressions → env name = none

/-- Fewer expressions load fewer names. -/
theorem Silent.mono {expressions expressions' : List Expr} (h : Silent env expressions)
    (hsub : expressions' ⊆ expressions) : Silent env expressions' :=
  fun name hname => h name (hsub hname)

/-- Names that end are loaded no more than before. -/
theorem Silent.ended {expressions : List Expr} (h : Silent env expressions) (taken : List String) :
    Silent (Inlining.ended heeded taken env) expressions := by
  intro name hname
  rw [ended_heeded, h name hname, ite_self]

mutual

/-- Inlining changes nothing where no name stands for something. -/
theorem inline_eq_self :
    ∀ (e : Expr) (env : Env), Silent env e.subterms → inline heeded ctx env e = e
  | .name id, env, h => inline_name_none _ ctx env (h id (by simp [Expr.subterms]))
  | .constant _, _, _ => rfl
  | .attribute value label, env, h => by
      rw [inline, inline_eq_self value env (h.mono (by simp [Expr.subterms])), ite_self]
  | .subscript value index, env, h => by
      rw [inline, inline_eq_self value env (h.mono (by simp [Expr.subterms])),
        inline_eq_self index env (h.mono (by simp [Expr.subterms]))]
  | .list items, env, h => by
      rw [inline, inlineAll_eq_self items env (h.mono (by simp [Expr.subterms]))]
  | .tuple items, env, h => by
      rw [inline, inlineAll_eq_self items env (h.mono (by simp [Expr.subterms]))]
  | .starred value, env, h => by
      rw [inline, inline_eq_self value env (h.mono (by simp [Expr.subterms]))]
  | .dict entries, env, h => by
      rw [inline, inlineEntries_eq_self entries env (h.mono (by simp [Expr.subterms]))]
  | .unary op operand, env, h => by
      rw [inline, inline_eq_self operand env (h.mono (by simp [Expr.subterms]))]
  | .binary op left right, env, h => by
      rw [inline, inline_eq_self left env (h.mono (by simp [Expr.subterms])),
        inline_eq_self right env (h.mono (by simp [Expr.subterms]))]
  | .boolean op values, env, h => by
      rw [inline, inlineAll_eq_self values env (h.mono (by simp [Expr.subterms]))]
  | .compare left links, env, h => by
      rw [inline, inline_eq_self left env (h.mono (by simp [Expr.subterms])),
        inlineLinks_eq_self links env (h.mono (by simp [Expr.subterms]))]
  | .conditional test body orelse, env, h => by
      rw [inline, inline_eq_self test env (h.mono (by simp [Expr.subterms])),
        inline_eq_self body env (h.mono fun _ hx => by simp [Expr.subterms, hx]),
        inline_eq_self orelse env (h.mono fun _ hx => by simp [Expr.subterms, hx])]
  | .call callee args keywords, env, h => by
      rw [inline, inline_eq_self callee env (h.mono (by simp [Expr.subterms])),
        inlineAll_eq_self args env (h.mono fun _ hx => by simp [Expr.subterms, hx]),
        inlinePipe_eq_self args env (h.mono fun _ hx => by simp [Expr.subterms, hx]),
        inlineKeywords_eq_self keywords env (h.mono fun _ hx => by simp [Expr.subterms, hx])]
      split <;> rfl
  | .lambda parameters body, env, h => by
      rw [inline, inline_eq_self body _ ((h.mono (by simp [Expr.subterms])).ended _)]
  | .comprehension kind element [.mk target iterable conditions isAsync], env, h => by
      have hiterable := inline_eq_self iterable env
        (h.mono fun _ hx => by simp [Expr.subterms, Expr.ofClauses, hx])
      have helement := fun taken => inline_eq_self element (ended heeded taken env)
        ((h.mono (by simp [Expr.subterms])).ended taken)
      have hconditions := fun taken => inlineAll_eq_self conditions (ended heeded taken env)
        (Silent.ended (h.mono fun _ hx => by simp [Expr.subterms, Expr.ofClauses, hx]) taken)
      unfold inline
      split <;> simp_all
  | .comprehension kind element [], _, _ => by cases kind <;> rfl
  | .comprehension kind element (.mk target _ _ _ :: _ :: _), _, _ => by
      cases kind <;> cases target <;> rfl
  | .slice .., _, _ | .set _, _, _ | .dictComprehension .., _, _ | .named .., _, _ | .await _, _, _
  | .yield _, _, _ | .yieldFrom _, _, _ | .joined _, _, _ | .formatted .., _, _ => rfl

theorem inlinePipe_eq_self : ∀ (items : List Expr) (env : Env), Silent env (Expr.all items) →
    inlinePipe heeded ctx env items = items
  | [], _, _ => rfl
  | first :: steps, env, h => by
      rw [inlinePipe, inline_eq_self first env (h.mono (by simp [Expr.all])),
        inlineSteps_eq_self steps env (h.mono (by simp [Expr.all]))]

/-- Inlining changes no expression that loads nothing that stands for something. -/
theorem inlineAll_eq_self : ∀ (items : List Expr) (env : Env), Silent env (Expr.all items) →
    inlineAll heeded ctx env items = items
  | [], _, _ => rfl
  | e :: rest, env, h => by
      rw [inlineAll, inline_eq_self e env (h.mono (by simp [Expr.all])),
        inlineAll_eq_self rest env (h.mono (by simp [Expr.all]))]

theorem inlineEntries_eq_self : ∀ (entries : List Entry) (env : Env),
    Silent env (Expr.ofEntries entries) → inlineEntries heeded ctx env entries = entries
  | [], _, _ => rfl
  | .pair key value :: rest, env, h => by
      rw [inlineEntries, inline_eq_self key env (h.mono (by simp [Expr.ofEntries])),
        inline_eq_self value env (h.mono (by simp [Expr.ofEntries])),
        inlineEntries_eq_self rest env (h.mono (by simp [Expr.ofEntries]))]
  | .spread value :: rest, env, h => by
      rw [inlineEntries, inline_eq_self value env (h.mono (by simp [Expr.ofEntries])),
        inlineEntries_eq_self rest env (h.mono (by simp [Expr.ofEntries]))]

theorem inlineLinks_eq_self : ∀ (links : List Link) (env : Env),
    Silent env (Expr.ofLinks links) → inlineLinks heeded ctx env links = links
  | [], _, _ => rfl
  | .mk op right :: rest, env, h => by
      rw [inlineLinks, inline_eq_self right env (h.mono (by simp [Expr.ofLinks])),
        inlineLinks_eq_self rest env (h.mono (by simp [Expr.ofLinks]))]

theorem inlineKeywords_eq_self : ∀ (keywords : List Keyword) (env : Env),
    Silent env (Expr.ofKeywords keywords) → inlineKeywords heeded ctx env keywords = keywords
  | [], _, _ => rfl
  | .labelled label value :: rest, env, h => by
      rw [inlineKeywords, inline_eq_self value env (h.mono (by simp [Expr.ofKeywords])),
        inlineKeywords_eq_self rest env (h.mono (by simp [Expr.ofKeywords]))]
  | .spread value :: rest, env, h => by
      rw [inlineKeywords, inline_eq_self value env (h.mono (by simp [Expr.ofKeywords])),
        inlineKeywords_eq_self rest env (h.mono (by simp [Expr.ofKeywords]))]

theorem inlineSteps_eq_self : ∀ (steps : List Expr) (env : Env), Silent env (Expr.all steps) →
    inlineSteps heeded ctx env steps = steps
  | [], _, _ => rfl
  | e :: rest, env, h => by
      have he := inline_eq_self e env (h.mono (by simp [Expr.all]))
      have hrest := inlineSteps_eq_self rest env (h.mono (by simp [Expr.all]))
      cases e with
      | call callee args keywords =>
          rw [inlineSteps, hrest,
            inline_eq_self callee env (h.mono fun _ hx => by simp [Expr.all, Expr.subterms, hx]),
            inlineAll_eq_self args env (h.mono fun _ hx => by simp [Expr.all, Expr.subterms, hx]),
            inlineKeywords_eq_self keywords env
              (h.mono fun _ hx => by simp [Expr.all, Expr.subterms, hx])]
      | comprehension kind => cases kind <;> rw [inlineSteps_cons ctx rfl, he, hrest]
      | _ => rw [inlineSteps_cons ctx rfl, he, hrest]

end

end Silent

/-! ## Statements -/

section Statements

variable (rule : Rule) (ctx : Context) (env : Env)

/-- A statement stays on its line, so the same directives stand above it. -/
theorem line_inlineStatement (way : Way) (statement : Stmt) :
    (inlineStatement rule ctx env way statement).line = statement.line := by
  cases statement <;> rfl

/-- A statement that leaves its block still does. -/
theorem leaves_inlineStatement (way : Way) (statement : Stmt) :
    leaves (inlineStatement rule ctx env way statement) = leaves statement := by
  cases statement with
  | simple line statement =>
      rw [inlineStatement]
      cases statement with
      | assigns targets value => rw [inlineSimple]; split <;> rfl
      | annotates target hint value =>
          cases value with
          | none => rfl
          | some value => rw [inlineSimple]; split <;> rfl
      | augments target op value => rw [inlineSimple]; split <;> rfl
      | _ => rfl
  | _ => rfl

theorem isEmpty_inlineLines (way : Way) (statements : List Stmt) :
    (inlineLines rule ctx env way statements).isEmpty = statements.isEmpty := by
  cases statements <;> rfl

/-- A list that is one branch still is. -/
theorem isSingleBranch_inlineLines (way : Way) (statements : List Stmt) :
    isSingleBranch (inlineLines rule ctx env way statements) = isSingleBranch statements := by
  match statements with
  | [] => rfl
  | [statement] => cases statement <;> rfl
  | first :: second :: rest =>
      rw [inlineLines, inlineLines]
      cases first <;> rfl

/-- A chain goes on where it went on before. -/
theorem continuesChain_inlineLines (way : Way) (statements : List Stmt) :
    continuesChain ctx (inlineLines rule ctx env way statements) =
      continuesChain ctx statements := by
  match statements with
  | [] => rfl
  | [statement] => cases statement <;> rfl
  | first :: second :: rest =>
      rw [inlineLines, inlineLines]
      cases first <;> rfl

/-- A block leaves after inlining if it does before. -/
theorem leaves_getLast?_inlineLines (way : Way) (statements : List Stmt) :
    (inlineLines rule ctx env way statements).getLast?.map leaves =
      statements.getLast?.map leaves := by
  induction statements generalizing env way with
  | nil => rfl
  | cons statement rest ih =>
      rw [inlineLines]
      cases rest with
      | nil =>
          rw [inlineLines]
          simp [leaves_inlineStatement]
      | cons next rest =>
          have hrest := ih (afterStatement rule ctx (inside rule env way statement) statement)
            (Way.after ctx statement (next :: rest))
          rw [inlineLines] at hrest ⊢
          rw [List.getLast?_cons_cons, List.getLast?_cons_cons]
          exact hrest

/-- A guard stays one. -/
theorem isGuard_inlineStatement (way : Way) (statement : Stmt) :
    isGuard ctx (inlineStatement rule ctx env way statement) = isGuard ctx statement := by
  cases statement with
  | branch line test body orelse =>
      rw [inlineStatement]
      cases orelse with
      | nil =>
          rw [inlineLines, isGuard, isGuard, leaves_getLast?_inlineLines]
      | cons first rest => rfl
  | _ => rfl

end Statements

end AikenForge.Inlining
