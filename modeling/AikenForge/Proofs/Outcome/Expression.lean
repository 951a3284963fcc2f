/-
# What lowering an expression ends with

Lowering an expression fails only at a number literal that has no decimal text. When it gives a
text, the text holds every string that is written in the expression, in quotes and as it is. Both
are shown in one walk over the expression: the failures that are allowed are a parameter, and so a
use that asks for the text alone allows all of them.

Whether a call gives its arguments to a constructor as fields depends on the text of its function,
and with it on the aliases in force. So the strings are those of an expression and a state, and the
walk is over all runs that start from a state alike to it.
-/

import AikenForge.Proofs.Composition
import AikenForge.Proofs.Outcome.Start
import AikenForge.Proofs.Quoted.Shift

namespace AikenForge

open AikenForge.Source AikenForge.Number AikenForge.Text

/-- Fields in braces hold the strings that the fields hold. -/
theorem Text.BearsAmong.bracedFields {width : Nat} {strings : List CodePoints}
    {fields : List String}
    (h : BearsAmong width strings fields) : Bears width strings (AikenForge.bracedFields fields) :=
  (h.intercalate ", ").inside "\x7b " " \x7d"

/-- Brackets around an operand lose none of its strings. -/
theorem Text.Bears.operand {width : Nat} {strings : List CodePoints} {text : String}
    (h : Bears width strings text) (own place : Precedence) (strict : Bool) :
    Bears width strings (bracketOperand own place strict text) := by
  unfold bracketOperand
  split
  · exact (h.after "(").before ")"
  · exact h

/-! ## Literals without a text -/

/-- The failure of a number that has more digits than can be written. -/
def digitFailure? (n : Nat) : Option Failure :=
  if (decimalText? n).isSome then none else some .digitLimit

/-- The failure that the text of a literal meets. -/
def Source.Constant.failure? : Constant → Option Failure
  | .int n => digitFailure? n
  | .real x => x.truncate?.elim (some .infiniteInteger) digitFailure?
  | _ => Option.none

/-- The failure that an expression meets if it is a literal. -/
def Source.Expr.failure? : Expr → Option Failure
  | .constant value => value.failure?
  | _ => none

/-- The failures that literals of a list meet are among those that are allowed. -/
def Harmless (fails : Failure → Prop) (expressions : List Expr) : Prop :=
  ∀ e ∈ expressions, ∀ failure, e.failure? = some failure → fails failure

/-- Expressions are harmless one by one. -/
@[simp]
theorem harmless_cons {fails : Failure → Prop} {e : Expr} {rest : List Expr} :
    Harmless fails (e :: rest) ↔
      (∀ failure, e.failure? = some failure → fails failure) ∧ Harmless fails rest := by
  simp [Harmless]

@[simp]
theorem harmless_append {fails : Failure → Prop} {first rest : List Expr} :
    Harmless fails (first ++ rest) ↔ Harmless fails first ∧ Harmless fails rest := by
  simp only [Harmless, List.mem_append]
  exact ⟨fun h => ⟨fun e he => h e (.inl he), fun e he => h e (.inr he)⟩,
    fun h e he => he.elim (h.1 e) (h.2 e)⟩

/-! ## Written strings -/

namespace Lowering

section Written

variable (ctx : Context)

/-- Whether a call gives its labelled arguments to a constructor as fields. The text of the function
is the one that it has from this state. -/
def isFieldsCall (base : LoweringState) (callee : Expr) (args : List Expr)
    (keywords : List Keyword) : Bool :=
  match (outcome (calleeText ctx callee (lower ctx callee)) base).1 with
  | .ok name => Naming.isConstructorName (afterLastDot name) && !keywords.isEmpty && args.isEmpty
  | .error _ => false

mutual

/-- The strings that are written in an expression which is lowered from a state: those of string
literals that are lowered and whose text is part of the text of the expression. Keys of a dictionary
that are string literals are labels, and forms that are not supported have no text. -/
def written (base : LoweringState) : Expr → List CodePoints
  | .constant (.text points _) => [points]
  | .attribute value _ => written base value
  | .subscript _ (.slice ..) => []
  | .subscript value index => written base value ++ written base index
  | .list items | .tuple items => writtenAll base items
  | .starred value => written base value
  | .dict entries => writtenEntries base entries
  | .unary .invert _ => []
  | .unary _ operand => written base operand
  | .binary op left right =>
    if op.target?.isSome then written base left ++ written base right else []
  | .boolean _ values => writtenAll base values
  | .compare left links => writtenLinks base (written base left) links
  | .conditional test body orelse => written base test ++ (written base body ++ written base orelse)
  | .call callee args keywords =>
    match specialCall? ctx callee args with
    | some .pipe => writtenPipe base args
    | some .expect => writtenFirst base args
    | none =>
      written base callee ++
        if isFieldsCall ctx base callee args keywords then writtenFields base keywords
        else writtenAll base args ++ writtenLabelled base keywords
  | .lambda parameters body => written (dropped (parameters.regular.map Parameter.name) base) body
  | .comprehension .list element [.mk (.name target) iterable conditions _] =>
    written base iterable ++
      (writtenAll (dropped [target] base) conditions ++ written (dropped [target] base) element)
  | _ => []

/-- The strings that are written in expressions of a list. -/
def writtenAll (base : LoweringState) : List Expr → List CodePoints
  | [] => []
  | e :: rest => written base e ++ writtenAll base rest

/-- The strings that are written in the value of an expectation. -/
def writtenFirst (base : LoweringState) : List Expr → List CodePoints
  | [] => []
  | value :: _ => written base value

/-- The strings that are written in a pipe. -/
def writtenPipe (base : LoweringState) : List Expr → List CodePoints
  | [] => []
  | first :: steps => written base first ++ writtenSteps base steps

/-- The strings that are written in the steps of a pipe. -/
def writtenSteps (base : LoweringState) : List Expr → List CodePoints
  | [] => []
  | .call callee args keywords :: rest =>
    writtenAll base args ++ writtenLabelled base keywords ++ written base callee ++
      writtenSteps base rest
  | e :: rest => written base e ++ writtenSteps base rest

/-- The strings that are written in dictionary entries. -/
def writtenEntries (base : LoweringState) : List Entry → List CodePoints
  | [] => []
  | .spread value :: rest => written base value ++ writtenEntries base rest
  | .pair key value :: rest =>
    (if key.text?.isSome then [] else written base key) ++ written base value ++
      writtenEntries base rest

/-- The strings that are written in a chain of comparisons; `left` are those of its first
operand. -/
def writtenLinks (base : LoweringState) (left : List CodePoints) : List Link → List CodePoints
  | [] => []
  | .mk _ right :: rest =>
    left ++ written base right ++ writtenLinks base (written base right) rest

/-- The strings that are written in the fields of a constructor call, spreads included. -/
def writtenFields (base : LoweringState) : List Keyword → List CodePoints
  | [] => []
  | .labelled _ value :: rest | .spread value :: rest =>
      written base value ++ writtenFields base rest

/-- The strings that are written in labelled arguments; a spread is left out of them. -/
def writtenLabelled (base : LoweringState) : List Keyword → List CodePoints
  | [] => []
  | .labelled _ value :: rest => written base value ++ writtenLabelled base rest
  | .spread _ :: rest => writtenLabelled base rest

end

/-- A name holds no string. -/
theorem written_of_name (base : LoweringState) {e : Expr} (h : e.name?.isSome) :
    written ctx base e = [] := by
  cases e with
  | name n => simp [written]
  | _ => cases h

/-- Names write no string, and a list writes what its items write. -/
example (base : LoweringState) :
    written ctx base (.list [.constant (.text (codePoints "a") false), .name "b"]) =
      [codePoints "a"] := by
  simp [written, writtenAll]

end Written

/-! ## The parts of expressions -/

section Parts

variable {ctx : Context} {base : LoweringState} {fails : Failure → Prop} {width : Nat}
    {strings others : List CodePoints}

/-- A name is written without a string of its own, whatever its alias. -/
theorem ends_nameText (id : String) :
    Ends (Alike base) fails (Bears width []) (nameText ctx id) := by
  refine .get fun state _ => ?_
  split
  · exact .pure (bears_nil width _)
  · exact .pure (bears_nil width _)

/-- A number fails only by its digits. -/
theorem ends_integerText {n : Nat} (h : ∀ failure, digitFailure? n = some failure → fails failure) :
    Ends (Alike base) fails (Bears width []) (integerText n) := by
  unfold integerText
  split
  · exact .pure (bears_nil width _)
  · rename_i hnone
    exact .throw (h _ (by simp [digitFailure?, hnone]))

/-- A real number is written by its whole part, or fails where it has none. -/
theorem ends_truncated {x : Magnitude}
    (h : ∀ failure, (Constant.real x).failure? = some failure → fails failure) :
    Ends (Alike base) fails (Bears width [])
      (match x.truncate? with
        | some n => integerText n
        | none => throw .infiniteInteger) := by
  split
  · rename_i n htruncate
    exact ends_integerText fun failure hfailure => h failure (by
      simp [Constant.failure?, htruncate, hfailure])
  · rename_i htruncate
    exact .throw (h _ (by simp [Constant.failure?, htruncate]))

/-- A string constant is written in quotes, and every other constant holds none. -/
theorem ends_constantText {value : Constant}
    (h : ∀ failure, value.failure? = some failure → fails failure) :
    Ends (Alike base) fails (Bears width (written ctx base (.constant value)))
      (constantText value) := by
  cases value with
  | text s marked =>
      refine .pure fun other hother => ?_
      rw [written] at hother
      rw [List.mem_singleton.mp hother]
      exact carries_quotePoints width s
  | int n =>
      have hdigits : (Constant.int n).failure? = digitFailure? n := by rw [Constant.failure?]
      rw [hdigits] at h
      simp only [constantText, written]
      exact ends_integerText h
  | real x =>
      simp only [constantText, written]
      split
      · exact (ends_warn _ _).bind fun _ _ => ends_truncated h
      · exact ends_truncated h
  | bool b => cases b <;> exact .pure (bears_nil width _)
  | none | ellipsis | bytes => exact .pure (bears_nil width _)
  | imaginary => exact (ends_warn _ _).bind fun _ _ => .pure (bears_nil width _)

/-- A form that is not supported ends with an empty text. -/
theorem ends_unsupported (what kind : String) :
    Ends (Alike base) fails (Bears width []) (unsupported what kind) :=
  (ends_warn _ _).bind fun _ _ => .pure (bears_nil width _)

/-- A builtin's target stands for a name, and a name holds no string. -/
theorem ends_calleeText {callee : Expr} {lowered : Lowering String}
    (h : Ends (Alike base) fails (Bears width (written ctx base callee)) lowered) :
    Ends (Alike base) fails (Bears width (written ctx base callee))
      (calleeText ctx callee lowered) := by
  refine (ends_builtinTarget? ctx callee).bind fun target htarget => ?_
  split
  · rw [written_of_name ctx base (htarget rfl)]
    exact .pure (bears_nil width _)
  · exact h.bind fun _ htext => .pure (htext.operand _ _ _)

theorem ends_expectMessage (further : List Expr) :
    Ends (Alike base) fails (fun _ => True) (expectMessage further) := by
  unfold expectMessage
  split
  · exact .pure trivial
  · split
    · exact .pure trivial
    · exact (ends_warn _ _).bind fun _ _ => .pure trivial

/-- What is expected keeps its strings; the message is written besides. -/
theorem ends_expectText {expression : String} (h : Bears width strings expression)
    (message : Option CodePoints) :
    Ends (Alike base) fails (Bears width strings) (expectText ctx expression message) :=
  (ends_modifyRecords _).bind fun _ _ => .pure
    ((((h.after "expect(").before ", ").before _).before ")")

/-- Some step of a pipe holds each quoted text, in its function or in an argument. -/
def BearsSteps (width : Nat) (strings : List CodePoints) (operations : List PipeOperation) : Prop :=
  ∀ s ∈ strings, ∃ operation ∈ operations,
    Carries width s operation.functionName ∨ ∃ arg ∈ operation.args, Carries width s arg

/-- A step of a pipe keeps what goes through it. -/
theorem infix_apply (value : String) (operation : PipeOperation) :
    value.toList <:+: (operation.apply value).toList := by
  have hargs := infix_intercalate (List.mem_cons_self : value ∈ value :: operation.args) ", "
  exact (hargs.trans (infix_append_right _ _)).trans (infix_append_left _ ")")

/-- The text of a pipe holds what its value and its steps hold. -/
theorem bears_render {value : String} {operations : List PipeOperation}
    (h : Bears width strings value) (hsteps : BearsSteps width others operations) :
    Bears width (strings ++ others) (PipeExpression.render ⟨value, operations⟩) := by
  rw [bears_append]
  refine ⟨h.trans (infix_foldl infix_apply operations value), fun s hs => ?_⟩
  obtain ⟨operation, hoperation, hcarries⟩ := hsteps s hs
  obtain ⟨reached, hreached⟩ := exists_infix_foldl infix_apply hoperation value
  apply Carries.trans _ hreached
  rcases hcarries with hcarries | ⟨arg, harg, hcarries⟩
  · apply hcarries.trans
    exact ((infix_append_left _ "(").trans (infix_append_left _ _)).trans (infix_append_left _ ")")
  · have hargs := infix_intercalate (List.mem_cons_of_mem reached harg) ", "
    exact hcarries.trans ((hargs.trans (infix_append_right _ _)).trans (infix_append_left _ ")"))

/-- A pipe holds what its value holds, and what its steps hold. -/
theorem ends_pipeText {value : String} {operations : List PipeOperation}
    (h : Bears width strings value) (hsteps : BearsSteps width others operations) :
    Ends (Alike base) fails (Bears width (strings ++ others)) (pipeText value operations) :=
  (ends_modifyRecords _).bind fun _ _ => .pure (bears_render h hsteps)

/-- Both sides of a comparison are written, in whichever order. -/
theorem ends_comparisonText (op : CompareOp) {left right : Lowering String}
    (leftOwn rightOwn : Precedence) (hl : Ends (Alike base) fails (Bears width strings) left)
    (hr : Ends (Alike base) fails (Bears width others) right) :
    Ends (Alike base) fails (Bears width (strings ++ others))
      (comparisonText op leftOwn left rightOwn right) := by
  unfold comparisonText
  split
  · rename_i symbol _
    refine hl.bind fun l hleft => hr.bind fun r hright => .pure (bears_append.mpr ⟨?_, ?_⟩)
    · exact (((hleft.operand _ _ _).before " ").before _).before " " |>.before _
    · exact (hright.operand _ _ _).after _
  · refine hr.bind fun container hcontainer => hl.bind fun item hitem => .pure ?_
    have htext : Bears width (strings ++ others)
        ("list.has(" ++ container ++ ", " ++ item ++ ")") := by
      rw [bears_append]
      exact ⟨(hitem.after _).before ")", (((hcontainer.after _).before ", ").before _).before ")"⟩
    split
    · exact htext.after "!"
    · exact htext

/-- A filter keeps what it filters. -/
theorem infix_filterText (target source condition : String) :
    source.toList <:+: (filterText target source condition).toList := by
  unfold filterText
  refine (infix_append_right "list.filter(" source).trans ?_
  simp only [String.append_assoc]
  rw [← String.append_assoc]
  exact infix_append_left _ _

/-- A filtered list holds what the list and the conditions hold. -/
theorem bears_foldl_filterText (target : String) {conditions : List String} {source : String}
    (h : Bears width strings source) (hconditions : BearsAmong width others conditions) :
    Bears width (strings ++ others) (conditions.foldl (filterText target) source) := by
  rw [bears_append]
  refine ⟨h.trans (infix_foldl (infix_filterText target) conditions source), fun s hs => ?_⟩
  obtain ⟨condition, hcondition, hcarries⟩ := hconditions s hs
  obtain ⟨reached, hreached⟩ := exists_infix_foldl (infix_filterText target) hcondition source
  exact hcarries.trans (((infix_append_right _ _).trans (infix_append_left _ _)).trans hreached)

/-! ## Forms of expressions

Each form ends as it should if its parts do.
-/

/-- Only a name can be the enumeration of a member. -/
theorem isSome_name?_of_enumMember? {value : Expr} {label constructor : String}
    (h : enumMember? ctx value label = some constructor) : value.name?.isSome := by
  unfold enumMember? at h
  cases hname : value.name? with
  | none => simp [hname] at h
  | some id => rfl

theorem isSome_name?_of_beq {e : Expr} {id : String} (h : (e.name? == some id) = true) :
    e.name?.isSome := by
  rw [beq_iff_eq] at h
  simp [h]

/-- An attribute holds what its value holds; an enumeration's name holds no string. -/
theorem ends_attribute {value : Expr} (label : String)
    (h : Ends (Alike base) fails (Bears width (written ctx base value)) (lower ctx value)) :
    Ends (Alike base) fails (Bears width (written ctx base (.attribute value label)))
      (lower ctx (.attribute value label)) := by
  have hnothing (hname : value.name?.isSome) (text : String) :
      Bears width (written ctx base value) text := by
    rw [written_of_name ctx base hname]
    exact bears_nil width text
  rw [lower, written]
  split
  · rename_i hmember
    exact .pure (hnothing (isSome_name?_of_enumMember? hmember) _)
  · refine .get fun state _ => ?_
    split
    · rename_i hself
      rw [Bool.and_eq_true] at hself
      exact .pure (hnothing (isSome_name?_of_beq hself.1) _)
    · exact h.bind fun _ htext => .pure (((htext.operand _ _ _).before ".").before label)

/-- A slice is not written, and its strings do not count. -/
theorem ends_subscript {value index : Expr}
    (hvalue : Ends (Alike base) fails (Bears width (written ctx base value)) (lower ctx value))
    (hindex : Ends (Alike base) fails (Bears width (written ctx base index)) (lower ctx index)) :
    Ends (Alike base) fails (Bears width (written ctx base (.subscript value index)))
      (lower ctx (.subscript value index)) := by
  have hboth : Ends (Alike base) fails
      (Bears width (written ctx base value ++ written ctx base index)) (do
        let text ← lower ctx value
        let inside ← lower ctx index
        return bracketOperand value.precedence .atom false text ++ "[" ++ inside ++ "]") := by
    refine hvalue.bind fun text htext => hindex.bind fun inside hinside => .pure ?_
    rw [bears_append]
    exact ⟨(((htext.operand _ _ _).before "[").before inside).before "]", hinside.inside _ "]"⟩
  cases index with
  | slice =>
      simp only [lower, written]
      exact (ends_warn _ _).bind fun _ _ => .pure (bears_nil width _)
  | _ =>
      simp only [lower, written] at hboth ⊢
      exact hboth

/-- Entries in braces, or an empty pair of braces. -/
theorem ends_dict {entries : List Entry}
    (h : Ends (Alike base) fails (BearsAmong width (writtenEntries ctx base entries))
      (lowerEntries ctx entries)) :
    Ends (Alike base) fails (Bears width (written ctx base (.dict entries)))
      (lower ctx (.dict entries)) := by
  rw [lower, written]
  refine h.bind fun fields hfields => .pure ?_
  split
  · rename_i hempty
    obtain rfl := List.isEmpty_iff.mp hempty
    intro s hs
    obtain ⟨_, hmem, -⟩ := hfields s hs
    cases hmem
  · exact hfields.bracedFields

/-- A sign in front keeps the strings of its operand. -/
theorem ends_unary (op : UnaryOp) {operand : Expr}
    (h : Ends (Alike base) fails (Bears width (written ctx base operand)) (lower ctx operand)) :
    Ends (Alike base) fails (Bears width (written ctx base (.unary op operand)))
      (lower ctx (.unary op operand)) := by
  cases op with
  | plus =>
      simp only [lower, written]
      exact h
  | minus =>
      simp only [lower, written]
      exact h.bind fun _ htext => .pure ((htext.operand _ _ _).after "-")
  | not =>
      simp only [lower, written]
      exact h.bind fun _ htext => .pure ((htext.operand _ _ _).after "!")
  | invert =>
      simp only [lower, written]
      exact h.bind fun _ _ => ends_unsupported _ _

/-- Both operands are written, unless the operator is not supported. -/
theorem ends_binary (op : BinaryOp) {left right : Expr}
    (hl : Ends (Alike base) fails (Bears width (written ctx base left)) (lower ctx left))
    (hr : Ends (Alike base) fails (Bears width (written ctx base right)) (lower ctx right)) :
    Ends (Alike base) fails (Bears width (written ctx base (.binary op left right)))
      (lower ctx (.binary op left right)) := by
  rw [lower, written]
  cases op.target? with
  | none =>
      simp only [Option.isSome_none, Bool.false_eq_true, if_false]
      exact ends_unsupported _ _
  | some target =>
      obtain ⟨symbol, own⟩ := target
      simp only [Option.isSome_some, if_true]
      refine hl.bind fun _ hleft => hr.bind fun _ hright => .pure ?_
      rw [bears_append]
      exact ⟨((((hleft.operand _ _ _).before " ").before symbol).before " ").before _,
        (hright.operand _ _ _).after _⟩

/-- All three parts of a conditional are written. -/
theorem ends_conditional {test body orelse : Expr}
    (htest : Ends (Alike base) fails (Bears width (written ctx base test)) (lower ctx test))
    (hbody : Ends (Alike base) fails (Bears width (written ctx base body)) (lower ctx body))
    (horelse : Ends (Alike base) fails (Bears width (written ctx base orelse))
      (lower ctx orelse)) :
    Ends (Alike base) fails (Bears width (written ctx base (.conditional test body orelse)))
      (lower ctx (.conditional test body orelse)) := by
  rw [lower, written]
  refine htest.bind fun test htest => hbody.bind fun body hbody =>
    horelse.bind fun orelse horelse => .pure ?_
  rw [bears_append, bears_append]
  exact ⟨((((htest.after "if ").before " \x7b ").before body).before _).before orelse |>.before _,
    (((hbody.after _).before _).before orelse).before _, horelse.inside _ _⟩

/-- A constructor with labelled fields holds what its name and its fields hold. -/
theorem bears_constructorCall {name : String} {fields : List String}
    (hname : Bears width strings name) (hfields : BearsAmong width others fields) :
    Bears width (strings ++ others) (name ++ " " ++ bracedFields fields) := by
  rw [bears_append]
  exact ⟨(hname.before " ").before (bracedFields fields), hfields.bracedFields.after (name ++ " ")⟩

/-- A call holds what its name and its arguments hold. -/
theorem bears_callText {name : String} {arguments : List String} (hname : Bears width strings name)
    (harguments : BearsAmong width others arguments) :
    Bears width (strings ++ others) (name ++ "(" ++ ", ".intercalate arguments ++ ")") := by
  have hlist := harguments.intercalate ", "
  rw [bears_append]
  exact ⟨((hname.before "(").before (", ".intercalate arguments)).before ")",
    hlist.inside (name ++ "(") ")"⟩

/-- A call is a pipe, an expectation, or written with its arguments; a constructor's has its
fields. -/
theorem ends_call {callee : Expr} {args : List Expr} {keywords : List Keyword}
    (hcallee : Ends (Alike base) fails (Bears width (written ctx base callee)) (lower ctx callee))
    (hargs : Ends (Alike base) fails (BearsAmong width (writtenAll ctx base args))
      (lowerAll ctx args))
    (hfields : Ends (Alike base) fails (BearsAmong width (writtenFields ctx base keywords))
      (lowerFields ctx keywords))
    (hlabelled : Ends (Alike base) fails (BearsAmong width (writtenLabelled ctx base keywords))
      (lowerLabelled ctx true keywords))
    (hpipe : Ends (Alike base) fails (Bears width (writtenPipe ctx base args)) (lowerPipe ctx args))
    (hexpect : Ends (Alike base) fails (Bears width (writtenFirst ctx base args))
      (lowerExpect ctx args)) :
    Ends (Alike base) fails (Bears width (written ctx base (.call callee args keywords)))
      (lower ctx (.call callee args keywords)) := by
  rw [lower, written]
  cases specialCall? ctx callee args with
  | some special =>
      cases special with
      | pipe => exact hpipe
      | expect => exact hexpect
  | none =>
      have hcomposed : Composed .expression (calleeText ctx callee (lower ctx callee)) :=
        composed_calleeText ctx callee (composed_lower ctx callee)
      dsimp only
      apply (ends_fromBase (ends_calleeText hcallee) hcomposed.uniform).bind
      rintro name ⟨hname, hbase⟩
      have hform : isFieldsCall ctx base callee args keywords =
          (Naming.isConstructorName (afterLastDot name) && !keywords.isEmpty && args.isEmpty) := by
        rw [isFieldsCall, hbase]
      rw [hform]
      split
      · apply hfields.bind
        intro fields hfields
        exact .pure (bears_constructorCall hname hfields)
      · apply hargs.bind
        intro positional hpositional
        apply hlabelled.bind
        intro labels hlabels
        exact .pure (bears_callText hname (hpositional.append hlabels))

/-- A body is lowered without the aliases of the parameters' names. -/
theorem ends_lambda {parameters : Parameters} {body : Expr}
    (h : Ends (Alike (dropped (parameters.regular.map Parameter.name) base)) fails
      (Bears width (written ctx (dropped (parameters.regular.map Parameter.name) base) body))
      (lower ctx body)) :
    Ends (Alike base) fails (Bears width (written ctx base (.lambda parameters body)))
      (lower ctx (.lambda parameters body)) := by
  rw [lower, written]
  exact (ends_withAliases h).bind fun _ hbody => .pure (hbody.inside _ _)

/-- A map holds what is mapped and what it is mapped to. -/
theorem bears_mapText (target : String) {source mapped : String}
    (hsource : Bears width strings source)
    (hmapped : Bears width others mapped) :
    Bears width (strings ++ others)
      ("list.map(" ++ source ++ ", fn(" ++ target ++ ") \x7b " ++ mapped ++ " \x7d)") := by
  have hhead := (((hsource.after "list.map(").before ", fn(").before target).before ") \x7b "
  rw [bears_append]
  exact ⟨(hhead.before mapped).before " \x7d)",
    hmapped.inside ("list.map(" ++ source ++ ", fn(" ++ target ++ ") \x7b ") " \x7d)"⟩

/-- A comprehension that maps each element to itself is written without the element. -/
theorem ends_comprehension (target : String) {iterable element : Expr} {conditions : List Expr}
    (isAsync : Bool)
    (hiterable : Ends (Alike base) fails (Bears width (written ctx base iterable))
      (lower ctx iterable))
    (hconditions : Ends (Alike (dropped [target] base)) fails
      (BearsAmong width (writtenAll ctx (dropped [target] base) conditions))
      (lowerAll ctx conditions))
    (helement : Ends (Alike (dropped [target] base)) fails
      (Bears width (written ctx (dropped [target] base) element)) (lower ctx element)) :
    Ends (Alike base) fails
      (Bears width (written ctx base
        (.comprehension .list element [.mk (.name target) iterable conditions isAsync])))
      (lower ctx (.comprehension .list element [.mk (.name target) iterable conditions
        isAsync])) := by
  rw [lower, written, ← List.append_assoc]
  apply hiterable.bind
  intro source hsource
  apply ends_withAliases
  apply hconditions.bind
  intro texts htexts
  have hfiltered := bears_foldl_filterText target hsource htexts
  dsimp only
  split
  · rename_i hname
    rw [written_of_name ctx _ (isSome_name?_of_beq hname), List.append_nil]
    exact .pure hfiltered
  · exact helement.bind fun mapped hmapped => .pure (bears_mapText target hfiltered hmapped)

/-- Comprehensions over another target than a name have no text. -/
theorem ends_otherComprehension {target iterable element : Expr} {conditions : List Expr}
    (isAsync : Bool) (h : target.name? = none) :
    Ends (Alike base) fails
      (Bears width (written ctx base
        (.comprehension .list element [.mk target iterable conditions isAsync])))
      (lower ctx (.comprehension .list element [.mk target iterable conditions isAsync])) := by
  cases target with
  | name id => simp [Expr.name?] at h
  | _ =>
      simp only [lower, written]
      exact (ends_warn _ _).bind fun _ _ => .pure (bears_nil width _)

/-- An entry with its key and value, and the entries after it. -/
theorem ends_pair {key value : Expr} {rest : List Entry}
    (hkey : Ends (Alike base) fails (Bears width (written ctx base key)) (lower ctx key))
    (hvalue : Ends (Alike base) fails (Bears width (written ctx base value)) (lower ctx value))
    (hrest : Ends (Alike base) fails (BearsAmong width (writtenEntries ctx base rest))
      (lowerEntries ctx rest)) :
    Ends (Alike base) fails (BearsAmong width (writtenEntries ctx base (.pair key value :: rest)))
      (lowerEntries ctx (.pair key value :: rest)) := by
  have hlater (strings : List CodePoints) (label : String) (hlabel : Bears width strings label) :
      Ends (Alike base) fails
        (BearsAmong width (strings ++ written ctx base value ++ writtenEntries ctx base rest)) (do
          let text ← lower ctx value
          return (label ++ ": " ++ text) :: (← lowerEntries ctx rest)) := by
    refine hvalue.bind fun text htext => hrest.bind fun texts htexts => .pure ?_
    have hboth : Bears width (strings ++ written ctx base value) (label ++ ": " ++ text) := by
      rw [bears_append]
      exact ⟨(hlabel.before ": ").before text, htext.after (label ++ ": ")⟩
    exact hboth.cons htexts
  rw [lowerEntries, writtenEntries]
  cases key.text? with
  | some label =>
      simp only [Option.isSome_some, if_true]
      exact hlater [] label (bears_nil width label)
  | none =>
      simp only [Option.isSome_none, Bool.false_eq_true, if_false]
      exact hkey.bind fun label hlabel => hlater _ label hlabel

/-- A step that calls a function, with its arguments. -/
theorem ends_callStep {callee : Expr} {args : List Expr} {keywords : List Keyword}
    {rest : List Expr}
    (hcallee : Ends (Alike base) fails (Bears width (written ctx base callee)) (lower ctx callee))
    (hargs : Ends (Alike base) fails (BearsAmong width (writtenAll ctx base args))
      (lowerAll ctx args))
    (hlabelled : Ends (Alike base) fails (BearsAmong width (writtenLabelled ctx base keywords))
      (lowerLabelled ctx false keywords))
    (hrest : Ends (Alike base) fails (BearsSteps width (writtenSteps ctx base rest))
      (lowerSteps ctx rest)) :
    Ends (Alike base) fails
      (BearsSteps width (writtenSteps ctx base (.call callee args keywords :: rest)))
      (lowerSteps ctx (.call callee args keywords :: rest)) := by
  rw [lowerSteps, writtenSteps]
  refine hargs.bind fun positional hpositional => hlabelled.bind fun labels hlabels =>
    (ends_calleeText hcallee).bind fun name hname => hrest.bind fun steps hsteps => .pure ?_
  intro s hs
  rcases List.mem_append.mp hs with hs | hs
  · refine ⟨_, List.mem_cons_self, ?_⟩
    rcases List.mem_append.mp hs with hs | hs
    · exact .inr (hpositional.append hlabels s hs)
    · exact .inl (hname s hs)
  · obtain ⟨operation, hoperation, hcarries⟩ := hsteps s hs
    exact ⟨operation, List.mem_cons_of_mem _ hoperation, hcarries⟩

/-- A step that names a function. -/
theorem ends_plainStep {e : Expr} {rest : List Expr}
    (hcall : ∀ callee args keywords, e ≠ .call callee args keywords)
    (h : Ends (Alike base) fails (Bears width (written ctx base e)) (lower ctx e))
    (hrest : Ends (Alike base) fails (BearsSteps width (writtenSteps ctx base rest))
      (lowerSteps ctx rest)) :
    Ends (Alike base) fails (BearsSteps width (writtenSteps ctx base (e :: rest)))
      (lowerSteps ctx (e :: rest)) := by
  rw [lowerSteps, writtenSteps]
  · refine (ends_calleeText h).bind fun name hname => hrest.bind fun steps hsteps => .pure ?_
    intro s hs
    rcases List.mem_append.mp hs with hs | hs
    · exact ⟨_, List.mem_cons_self, .inl (hname s hs)⟩
    · obtain ⟨operation, hoperation, hcarries⟩ := hsteps s hs
      exact ⟨operation, List.mem_cons_of_mem _ hoperation, hcarries⟩
  · exact hcall
  · exact hcall

/-! ## Expressions -/

mutual

/-- Lowering an expression fails only as its literals do, and its text holds the strings that are
written in it. -/
theorem ends_lower (base : LoweringState) : ∀ e : Expr, Harmless fails e.subterms →
    Ends (Alike base) fails (Bears width (written ctx base e)) (lower ctx e)
  | .name id, _ => by
      rw [lower, written_of_name ctx base rfl]
      exact ends_nameText id
  | .constant value, h => by
      have hvalue : ∀ failure, value.failure? = some failure → fails failure :=
        h (.constant value) (by simp [Expr.subterms])
      rw [lower]
      exact ends_constantText hvalue
  | .attribute value label, h => by
      simp only [Expr.subterms, harmless_cons] at h
      exact ends_attribute label (ends_lower base value h.2)
  | .subscript value index, h => by
      simp only [Expr.subterms, harmless_cons, harmless_append] at h
      exact ends_subscript (ends_lower base value h.2.1) (ends_lower base index h.2.2)
  | .list items, h => by
      simp only [Expr.subterms, harmless_cons] at h
      rw [lower, written]
      exact (ends_lowerAll base items h.2).bind fun _ htexts =>
        .pure ((htexts.intercalate ", ").inside "[" "]")
  | .tuple items, h => by
      simp only [Expr.subterms, harmless_cons] at h
      rw [lower, written]
      exact (ends_lowerAll base items h.2).bind fun _ htexts =>
        .pure ((htexts.intercalate ", ").inside "(" ")")
  | .starred value, h => by
      simp only [Expr.subterms, harmless_cons] at h
      rw [lower, written]
      exact (ends_lower base value h.2).bind fun _ htext => .pure (htext.after "..")
  | .dict entries, h => by
      simp only [Expr.subterms, harmless_cons] at h
      exact ends_dict (ends_lowerEntries base entries h.2)
  | .unary op operand, h => by
      simp only [Expr.subterms, harmless_cons] at h
      exact ends_unary op (ends_lower base operand h.2)
  | .binary op left right, h => by
      simp only [Expr.subterms, harmless_cons, harmless_append] at h
      exact ends_binary op (ends_lower base left h.2.1) (ends_lower base right h.2.2)
  | .boolean op values, h => by
      simp only [Expr.subterms, harmless_cons] at h
      rw [lower, written]
      exact (ends_lowerOperands base _ values h.2).bind fun _ htexts => .pure (htexts.intercalate _)
  | .compare left links, h => by
      simp only [Expr.subterms, harmless_cons, harmless_append] at h
      rw [lower, written]
      exact (ends_lowerLinks base _ (ends_lower base left h.2.1) links h.2.2).bind fun _ htexts =>
        .pure (htexts.intercalate " && ")
  | .conditional test body orelse, h => by
      simp only [Expr.subterms, harmless_cons, harmless_append] at h
      exact ends_conditional (ends_lower base test h.2.1.1) (ends_lower base body h.2.1.2)
        (ends_lower base orelse h.2.2)
  | .call callee args keywords, h => by
      simp only [Expr.subterms, harmless_cons, harmless_append] at h
      exact ends_call (ends_lower base callee h.2.1.1) (ends_lowerAll base args h.2.1.2)
        (ends_lowerFields base keywords h.2.2) (ends_lowerLabelled base true keywords h.2.2)
        (ends_lowerPipe base args h.2.1.2) (ends_lowerExpect base args h.2.1.2)
  | .lambda parameters body, h => by
      simp only [Expr.subterms, harmless_cons, harmless_append] at h
      exact ends_lambda (ends_lower _ body h.2.2)
  | .comprehension .list element [.mk target iterable conditions isAsync], h => by
      simp only [Expr.subterms, Expr.ofClauses, harmless_cons, harmless_append] at h
      cases htarget : target.name? with
      | none => exact ends_otherComprehension isAsync htarget
      | some id =>
          obtain rfl : target = .name id := by
            cases target <;> simp_all [Expr.name?]
          exact ends_comprehension id isAsync (ends_lower base iterable h.2.2.1.1.2)
            (ends_lowerAll _ conditions h.2.2.1.2) (ends_lower _ element h.2.1)
  | .comprehension .list _ [], _ => by
      simp only [lower, written]
      exact (ends_warn _ _).bind fun _ _ => .pure (bears_nil width _)
  | .comprehension .list _ (.mk target _ _ _ :: _ :: _), _ => by
      simp only [lower, written]
      exact (ends_warn _ _).bind fun _ _ => .pure (bears_nil width _)
  | .comprehension .set _ _, _ | .comprehension .generator _ _, _ | .slice .., _ | .set _, _
  | .dictComprehension .., _ | .named .., _ | .await _, _ | .yield _, _ | .yieldFrom _, _
  | .joined _, _ | .formatted .., _ => by
      simp only [lower, written]
      exact ends_unsupported _ _

/-- A pipe's value and its steps. -/
theorem ends_lowerPipe (base : LoweringState) : ∀ args : List Expr, Harmless fails (Expr.all args) →
    Ends (Alike base) fails (Bears width (writtenPipe ctx base args)) (lowerPipe ctx args)
  | [], _ => by
      rw [lowerPipe, writtenPipe]
      exact .pure (bears_nil width _)
  | first :: steps, h => by
      simp only [Expr.all, harmless_append] at h
      rw [lowerPipe, writtenPipe]
      exact (ends_lower base first h.1).bind fun _ hinitial =>
        (ends_lowerSteps base steps h.2).bind fun _ hsteps => ends_pipeText hinitial hsteps

theorem ends_lowerExpect (base : LoweringState) :
    ∀ args : List Expr, Harmless fails (Expr.all args) →
    Ends (Alike base) fails (Bears width (writtenFirst ctx base args)) (lowerExpect ctx args)
  | [], _ => by
      rw [lowerExpect, writtenFirst]
      exact .pure (bears_nil width _)
  | value :: further, h => by
      simp only [Expr.all, harmless_append] at h
      rw [lowerExpect, writtenFirst]
      exact (ends_expectMessage further).bind fun _ _ =>
        (ends_lower base value h.1).bind fun _ htext => ends_expectText htext _

/-- Expressions in a row hold their strings among them. -/
theorem ends_lowerAll (base : LoweringState) :
    ∀ items : List Expr, Harmless fails (Expr.all items) →
    Ends (Alike base) fails (BearsAmong width (writtenAll ctx base items)) (lowerAll ctx items)
  | [], _ => by
      rw [lowerAll, writtenAll]
      exact .pure (bearsAmong_nil width _)
  | e :: rest, h => by
      simp only [Expr.all, harmless_append] at h
      rw [lowerAll, writtenAll]
      exact (ends_lower base e h.1).bind fun _ htext =>
        (ends_lowerAll base rest h.2).bind fun _ htexts => .pure (htext.cons htexts)

theorem ends_lowerOperands (base : LoweringState) (place : Precedence) : ∀ values : List Expr,
    Harmless fails (Expr.all values) →
    Ends (Alike base) fails (BearsAmong width (writtenAll ctx base values))
      (lowerOperands ctx place values)
  | [], _ => by
      rw [lowerOperands, writtenAll]
      exact .pure (bearsAmong_nil width _)
  | e :: rest, h => by
      simp only [Expr.all, harmless_append] at h
      rw [lowerOperands, writtenAll]
      exact (ends_lower base e h.1).bind fun _ htext =>
        (ends_lowerOperands base place rest h.2).bind fun _ htexts =>
          .pure ((htext.operand _ _ _).cons htexts)

theorem ends_lowerEntries (base : LoweringState) :
    ∀ entries : List Entry, Harmless fails (Expr.ofEntries entries) →
    Ends (Alike base) fails (BearsAmong width (writtenEntries ctx base entries))
      (lowerEntries ctx entries)
  | [], _ => by
      rw [lowerEntries, writtenEntries]
      exact .pure (bearsAmong_nil width _)
  | .spread value :: rest, h => by
      simp only [Expr.ofEntries, harmless_append] at h
      rw [lowerEntries, writtenEntries]
      exact (ends_lower base value h.1).bind fun _ htext =>
        (ends_lowerEntries base rest h.2).bind fun _ htexts =>
          .pure ((htext.after "..").cons htexts)
  | .pair key value :: rest, h => by
      simp only [Expr.ofEntries, harmless_append] at h
      exact ends_pair (ends_lower base key h.1.1) (ends_lower base value h.1.2)
        (ends_lowerEntries base rest h.2)

/-- Each link writes both of its sides, so an inner operand's strings are written twice. -/
theorem ends_lowerLinks (base : LoweringState) (leftOwn : Precedence) {strings : List CodePoints}
    {left : Lowering String}
    (hleft : Ends (Alike base) fails (Bears width strings) left) : ∀ links : List Link,
    Harmless fails (Expr.ofLinks links) →
    Ends (Alike base) fails (BearsAmong width (writtenLinks ctx base strings links))
      (lowerLinks ctx leftOwn left links)
  | [], _ => by
      rw [lowerLinks, writtenLinks]
      exact .pure (bearsAmong_nil width _)
  | .mk op right :: rest, h => by
      simp only [Expr.ofLinks, harmless_append] at h
      have hright := ends_lower base right h.1
      rw [lowerLinks, writtenLinks]
      exact (ends_comparisonText op _ _ hleft hright).bind fun _ htext =>
        (ends_lowerLinks base _ hright rest h.2).bind fun _ htexts => .pure (htext.cons htexts)

theorem ends_lowerFields (base : LoweringState) :
    ∀ keywords : List Keyword, Harmless fails (Expr.ofKeywords keywords) →
    Ends (Alike base) fails (BearsAmong width (writtenFields ctx base keywords))
      (lowerFields ctx keywords)
  | [], _ => by
      rw [lowerFields, writtenFields]
      exact .pure (bearsAmong_nil width _)
  | .labelled label value :: rest, h => by
      simp only [Expr.ofKeywords, harmless_append] at h
      rw [lowerFields, writtenFields]
      exact (ends_lower base value h.1).bind fun _ htext =>
        (ends_lowerFields base rest h.2).bind fun _ htexts => .pure ((htext.after _).cons htexts)
  | .spread value :: rest, h => by
      simp only [Expr.ofKeywords, harmless_append] at h
      rw [lowerFields, writtenFields]
      exact (ends_lower base value h.1).bind fun _ htext =>
        (ends_lowerFields base rest h.2).bind fun _ htexts =>
          .pure ((htext.after "..").cons htexts)

theorem ends_lowerLabelled (base : LoweringState) (warnSpread : Bool) : ∀ keywords : List Keyword,
    Harmless fails (Expr.ofKeywords keywords) →
    Ends (Alike base) fails (BearsAmong width (writtenLabelled ctx base keywords))
      (lowerLabelled ctx warnSpread keywords)
  | [], _ => by
      rw [lowerLabelled, writtenLabelled]
      exact .pure (bearsAmong_nil width _)
  | .labelled label value :: rest, h => by
      simp only [Expr.ofKeywords, harmless_append] at h
      rw [lowerLabelled, writtenLabelled]
      exact (ends_lower base value h.1).bind fun _ htext =>
        (ends_lowerLabelled base warnSpread rest h.2).bind fun _ htexts =>
          .pure ((htext.after _).cons htexts)
  | .spread _ :: rest, h => by
      simp only [Expr.ofKeywords, harmless_append] at h
      have hrest := ends_lowerLabelled base warnSpread rest h.2
      rw [lowerLabelled, writtenLabelled]
      split
      · exact (ends_warn _ _).bind fun _ _ => hrest
      · exact hrest

/-- Each step holds the strings of its callee and its arguments. -/
theorem ends_lowerSteps (base : LoweringState) :
    ∀ steps : List Expr, Harmless fails (Expr.all steps) →
    Ends (Alike base) fails (BearsSteps width (writtenSteps ctx base steps))
      (lowerSteps ctx steps)
  | [], _ => by
      rw [lowerSteps, writtenSteps]
      exact .pure (by simp [BearsSteps])
  | e :: rest, h => by
      simp only [Expr.all, harmless_append] at h
      have hrest := ends_lowerSteps base rest h.2
      have hname := ends_lower base e h.1
      cases e with
      | call callee args keywords =>
          have hcall := h.1
          simp only [Expr.subterms, harmless_cons, harmless_append] at hcall
          exact ends_callStep (ends_lower base callee hcall.2.1.1)
            (ends_lowerAll base args hcall.2.1.2)
            (ends_lowerLabelled base false keywords hcall.2.2) hrest
      | _ => exact ends_plainStep (by simp) hname hrest

end

end Parts

end Lowering

end AikenForge
