/-
# The recursion of resolving annotations

Resolving an annotation goes to its parts, and from a text to the expression that the text is read
as, which is no part of anything. Every call is smaller than its caller all the same: its longest
text is shorter, or no longer while there is less of it. So the recursion is well founded, and there
is one way only to answer all of its calls, which is what resolving to a depth computes.
-/

import AikenForge.Proofs.Outcome.Annotation
import AikenForge.Proofs.Reading.Grammar

namespace AikenForge.Hint

open AikenForge.Source AikenForge.Text

variable {names : CharacterNames}

/-! ## Calls -/

/-- The functions that resolve annotations. -/
structure Resolver where
  type : Expr → Reporting Target
  subscript : (base index : Expr) → Reporting Target
  record : List Entry → Reporting Target
  members : Expr → Reporting (List Target)

/-- A call of one of these functions. -/
inductive Call
  | type (e : Expr)
  | subscript (base index : Expr)
  | record (entries : List Entry)
  | members (e : Expr)

/-- The calls that a call may make: the callee stands first. -/
inductive Enters (names : CharacterNames) : Call → Call → Prop
  | text {s : String} {marked : Bool} {inner : Expr} (hread : readExpression names s = .ok inner) :
      Enters names (.type inner) (.type (.constant (.text (codePoints s) marked)))
  | left {left right : Expr} : Enters names (.members left) (.type (.binary .bitOr left right))
  | right {left right : Expr} : Enters names (.members right) (.type (.binary .bitOr left right))
  | subscript {base index : Expr} :
      Enters names (.subscript base index) (.type (.subscript base index))
  | record {entries : List Entry} : Enters names (.record entries) (.type (.dict entries))
  | listItem {items : List Expr} {item : Expr} (hitem : item ∈ items) :
      Enters names (.type item) (.type (.list items))
  | tupleItem {items : List Expr} {item : Expr} (hitem : item ∈ items) :
      Enters names (.type item) (.type (.tuple items))
  | argument {base index arg : Expr} (harg : arg ∈ genericArgs index) :
      Enters names (.type arg) (.subscript base index)
  | alternative {base index arg : Expr} (harg : arg ∈ genericArgs index) :
      Enters names (.members arg) (.subscript base index)
  | field {entries : List Entry} {key value : Expr} (hentry : .pair key value ∈ entries) :
      Enters names (.type value) (.record entries)
  | leftMembers {left right : Expr} :
      Enters names (.members left) (.members (.binary .bitOr left right))
  | rightMembers {left right : Expr} :
      Enters names (.members right) (.members (.binary .bitOr left right))
  | member {e : Expr} : Enters names (.type e) (.members e)

/-- The fields of a record annotation whose values are typed by `type`. -/
def fieldsBy (type : Expr → Reporting Target) : List Entry → Reporting (List TargetField)
  | [] => pure []
  | .spread _ :: rest => do
    Reporting.warn .annotations "Unsupported record field key, skipping"
    fieldsBy type rest
  | .pair key value :: rest => do
    match fieldLabel? key with
    | some label =>
      let found ← type value
      return .mk label found :: (← fieldsBy type rest)
    | none =>
      Reporting.warn .annotations "Unsupported record field key, skipping"
      fieldsBy type rest

namespace Resolver

variable (names : CharacterNames) (resolver : Resolver)

/-- The type of an annotation, given the answers of further calls. -/
def typeStep : Expr → Reporting Target
  | .constant value => constantType (textBy names resolver.type) value
  | .name id => pure (.primitive (targetName id))
  | .attribute value label =>
    pure (.primitive (targetName ((baseName? (.attribute value label)).getD "")))
  | .binary .bitOr left right => do
    let left ← resolver.members left
    let right ← resolver.members right
    return .union (left ++ right)
  | .subscript base index => resolver.subscript base index
  | .dict entries => resolver.record entries
  | .set items => do
    return .record (← labelFields items)
  | .list items => do
    match ← items.mapM resolver.type with
    | [type] => return .list [type]
    | _ => voidWith "Unsupported type annotation List, using Void"
  | .tuple items => do
    match ← items.mapM resolver.type with
    | [] => voidWith "Unsupported type annotation Tuple, using Void"
    | types => return .tuple types
  | e => voidWith ("Unsupported type annotation " ++ e.kind ++ ", using Void")

/-- The type of a generic annotation, given the answers of further calls. -/
def subscriptStep (base index : Expr) : Reporting Target := do
  let args := genericArgs index
  match baseName? base with
  | none => voidWith ("Unsupported generic base " ++ base.kind ++ ", using Void")
  | some name =>
    if name == "Literal" then literalUnion args
    else if qualifierNames.contains name then
      match args with
      | [] => return .void
      | arg :: _ => resolver.type arg
    else if name == "Union" then return .union (← args.mapM resolver.members).flatten
    else if listNames.contains name && args.length == 1 then
      return .list (← args.mapM resolver.type)
    else if tupleNames.contains name then return .tuple (← args.mapM resolver.type)
    else return .application (targetName name) (← args.mapM resolver.type)

/-- The members that an annotation adds to a union, given the answers of further calls. -/
def membersStep : Expr → Reporting (List Target)
  | .binary .bitOr left right => do
    let left ← resolver.members left
    let right ← resolver.members right
    return left ++ right
  | e => do
    return [← resolver.type e]

/-- One step of each function, with the answers of further calls. -/
def step : Resolver where
  type := resolver.typeStep names
  subscript := resolver.subscriptStep
  record entries := .record <$> fieldsBy resolver.type entries
  members := resolver.membersStep

/-- Two resolvers give the same answer to a call. -/
def Agrees (first second : Resolver) : Call → Prop
  | .type e => first.type e = second.type e
  | .subscript base index => first.subscript base index = second.subscript base index
  | .record entries => first.record entries = second.record entries
  | .members e => first.members e = second.members e

end Resolver

/-! ## The size of a call -/

/-- The expressions below a call. -/
def Call.terms : Call → List Expr
  | .type e | .members e => e.subterms
  | .subscript base index => base.subterms ++ index.subterms
  | .record entries => Expr.ofEntries entries

/-- The length of the longest text in a list of expressions. -/
def longest (terms : List Expr) : Nat :=
  terms.foldl (fun longest e => max longest e.textLength) 0

/-- The longest text in terms is a bound for all of them, and the least one. -/
theorem longest_le_iff {terms : List Expr} {n : Nat} : longest terms ≤ n ↔ Within n terms := by
  have hfold (start : Nat) : terms.foldl (fun longest e => max longest e.textLength) start ≤ n ↔
      start ≤ n ∧ Within n terms := by
    induction terms generalizing start with
    | nil => simp
    | cons e rest ih => rw [List.foldl_cons, ih, Nat.max_le, within_cons, and_assoc]
  simpa [longest] using hfold 0

theorem within_longest (terms : List Expr) : Within (longest terms) terms :=
  longest_le_iff.mp (Nat.le_refl _)

/-- Fewer terms have no longer text. -/
theorem longest_mono {terms others : List Expr} (h : terms ⊆ others) :
    longest terms ≤ longest others :=
  longest_le_iff.mpr fun x hx => within_longest others x (h hx)

/-- How much there is of a call. The members of an annotation that is no union are its type, so a
call for members is more than a call for the type. -/
def Call.size : Call → Nat
  | .members e => 2 * e.subterms.length + 1
  | call => 2 * call.terms.length

/-- An expression is one of its own subterms. -/
theorem length_subterms_pos (e : Expr) : 0 < e.subterms.length :=
  List.length_pos_of_mem (self_mem_subterms e)

/-- The subterms of an item are among those of the list. -/
theorem sublist_all {e : Expr} {items : List Expr} (h : e ∈ items) :
    e.subterms.Sublist (Expr.all items) := by
  induction items with
  | nil => cases h
  | cons item rest ih =>
      rw [Expr.all]
      rcases List.mem_cons.mp h with rfl | h
      · exact List.sublist_append_left _ _
      · exact (ih h).trans (List.sublist_append_right _ _)

/-- The arguments of a type are inside its index. -/
theorem sublist_genericArgs {arg index : Expr} (h : arg ∈ genericArgs index) :
    arg.subterms.Sublist index.subterms := by
  unfold genericArgs at h
  split at h
  · rw [Expr.subterms]
    exact (sublist_all h).cons _
  · rw [List.mem_singleton.mp h]

theorem sublist_ofEntries {key value : Expr} {entries : List Entry}
    (h : .pair key value ∈ entries) :
    (key.subterms ++ value.subterms).Sublist (Expr.ofEntries entries) := by
  induction entries with
  | nil => cases h
  | cons entry rest ih =>
      rcases List.mem_cons.mp h with rfl | hrest
      · rw [Expr.ofEntries]
        exact List.sublist_append_left _ _
      · cases entry <;> rw [Expr.ofEntries] <;>
          exact (ih hrest).trans (List.sublist_append_right _ _)

/-- What a text is read as has shorter texts than where the text stands. -/
theorem longestText_lt_of_mem {e inner : Expr} {s : String} {marked : Bool}
    (hmem : .constant (.text (codePoints s) marked) ∈ e.subterms)
    (hread : readExpression names s = .ok inner) : inner.longestText < e.longestText := by
  have hlength : s.length ≤ e.longestText := by
    have hwithin := within_longest e.subterms _ hmem
    rwa [Expr.textLength, codePoints, List.length_map, String.length_toList] at hwithin
  have hinner : inner.longestText ≤ s.length - 1 :=
    longest_le_iff.mpr fun x hx => Nat.le_sub_one_of_lt (textLength_lt_of_readExpression hread x hx)
  have hpositive := textLength_lt_of_readExpression hread inner (self_mem_subterms inner)
  omega

/-- A callee has shorter texts than its caller, or no longer ones and less of everything. -/
theorem Enters.descends {callee caller : Call} (h : Enters names callee caller) :
    longest callee.terms < longest caller.terms ∨
      longest callee.terms ≤ longest caller.terms ∧ callee.size < caller.size := by
  have hpart {callee caller : Call} (hterms : callee.terms.Sublist caller.terms)
      (hsize : callee.size < caller.size) : longest callee.terms < longest caller.terms ∨
        longest callee.terms ≤ longest caller.terms ∧ callee.size < caller.size :=
    .inr ⟨longest_mono hterms.subset, hsize⟩
  cases h with
  | text hread => exact .inl (longestText_lt_of_mem (self_mem_subterms _) hread)
  | left | leftMembers =>
      refine hpart ?_ ?_
      · simp only [Call.terms, Expr.subterms]
        exact (List.sublist_append_left _ _).cons _
      · simp only [Call.size, Call.terms, Expr.subterms, List.length_cons, List.length_append]
        omega
  | right | rightMembers =>
      refine hpart ?_ ?_
      · simp only [Call.terms, Expr.subterms]
        exact (List.sublist_append_right _ _).cons _
      · simp only [Call.size, Call.terms, Expr.subterms, List.length_cons, List.length_append]
        omega
  | subscript | record =>
      refine hpart ?_ ?_
      · simp only [Call.terms, Expr.subterms]
        exact (List.Sublist.refl _).cons _
      · simp only [Call.size, Call.terms, Expr.subterms, List.length_cons, List.length_append]
        omega
  | listItem hitem | tupleItem hitem =>
      refine hpart ?_ ?_
      · simp only [Call.terms, Expr.subterms]
        exact (sublist_all hitem).cons _
      · have := (sublist_all hitem).length_le
        simp only [Call.size, Call.terms, Expr.subterms, List.length_cons]
        omega
  | @argument base index arg harg | @alternative base index arg harg =>
      refine hpart ((sublist_genericArgs harg).trans (List.sublist_append_right _ _)) ?_
      have := (sublist_genericArgs harg).length_le
      have := length_subterms_pos base
      simp only [Call.size, Call.terms, List.length_append]
      omega
  | @field entries key value hentry =>
      refine hpart ((List.sublist_append_right _ _).trans (sublist_ofEntries hentry)) ?_
      have hle := (sublist_ofEntries hentry).length_le
      have := length_subterms_pos key
      rw [List.length_append] at hle
      simp only [Call.size, Call.terms]
      omega
  | member => exact hpart (List.Sublist.refl _) (Nat.lt_succ_self _)

/-- No chain of calls goes on for ever. -/
theorem wellFounded_enters (names : CharacterNames) : WellFounded (Enters names) := by
  refine Subrelation.wf (fun {callee caller} h => ?_)
    (InvImage.wf (fun call : Call => (longest call.terms, call.size))
      (Prod.lex Nat.lt_wfRel Nat.lt_wfRel).wf)
  rcases h.descends with hlongest | ⟨hlongest, hsize⟩
  · exact Prod.Lex.left _ _ hlongest
  · rcases Nat.lt_or_eq_of_le hlongest with hlongest | hequal
    · exact Prod.Lex.left _ _ hlongest
    · show Prod.Lex _ _ (longest callee.terms, callee.size) (longest caller.terms, caller.size)
      rw [hequal]
      exact Prod.Lex.right _ hsize

/-! ## One step -/

/-- Going through a list does the same if each step does. -/
theorem mapM_congr {α β : Type} {f g : α → Reporting β} {items : List α}
    (h : ∀ item ∈ items, f item = g item) : items.mapM f = items.mapM g := by
  induction items with
  | nil => rfl
  | cons item rest ih =>
      rw [List.mapM_cons, List.mapM_cons, h item List.mem_cons_self,
        ih fun other hother => h other (List.mem_cons_of_mem _ hother)]

/-- Reading a text does the same if what it is read as is resolved alike. -/
theorem textBy_congr {f g : Expr → Reporting Target} {points : CodePoints}
    (h : ∀ s inner, points = codePoints s → readExpression names s = .ok inner →
      f inner = g inner) :
    textBy names f points = textBy names g points := by
  unfold textBy
  cases hstring : points.string? with
  | none => rfl
  | some s =>
      dsimp only
      cases hread : readExpression names s with
      | ok inner => exact h s inner (CodePoints.string?_eq_some_iff.mp hstring) hread
      | error reason => cases reason <;> rfl

/-- The fields of a record are the same if the types of its values are. -/
theorem fieldsBy_congr {f g : Expr → Reporting Target} {entries : List Entry}
    (h : ∀ key value, .pair key value ∈ entries → f value = g value) :
    fieldsBy f entries = fieldsBy g entries := by
  induction entries with
  | nil => rfl
  | cons entry rest ih =>
      have hrest := ih fun key value hmem => h key value (List.mem_cons_of_mem _ hmem)
      cases entry with
      | spread value => rw [fieldsBy, fieldsBy, hrest]
      | pair key value => rw [fieldsBy, fieldsBy, hrest, h key value List.mem_cons_self]

/-- The answer to a call depends on the calls it may make only. -/
theorem Resolver.Agrees.step {first second : Resolver} {call : Call}
    (h : ∀ callee, Enters names callee call → first.Agrees second callee) :
    (first.step names).Agrees (second.step names) call := by
  cases call with
  | type e =>
      show first.typeStep names e = second.typeStep names e
      cases e with
      | constant value =>
          cases value with
          | text points marked =>
              refine textBy_congr fun s inner hpoints hread => h (.type inner) ?_
              exact hpoints ▸ .text hread
          | _ => rfl
      | binary op left right =>
          cases op with
          | bitOr =>
              have hleft : first.members left = second.members left := h (.members left) .left
              have hright : first.members right = second.members right := h (.members right) .right
              simp only [Resolver.typeStep, hleft, hright]
          | _ => rfl
      | subscript base index => exact h (.subscript base index) .subscript
      | dict entries => exact h (.record entries) .record
      | list items =>
          have hitems : items.mapM first.type = items.mapM second.type :=
            mapM_congr fun item hitem => h (.type item) (.listItem hitem)
          simp only [Resolver.typeStep, hitems]
      | tuple items =>
          have hitems : items.mapM first.type = items.mapM second.type :=
            mapM_congr fun item hitem => h (.type item) (.tupleItem hitem)
          simp only [Resolver.typeStep, hitems]
      | _ => rfl
  | subscript base index =>
      have htypes : (genericArgs index).mapM first.type = (genericArgs index).mapM second.type :=
        mapM_congr fun arg harg => h (.type arg) (.argument harg)
      have hmembers :
          (genericArgs index).mapM first.members = (genericArgs index).mapM second.members :=
        mapM_congr fun arg harg => h (.members arg) (.alternative harg)
      show first.subscriptStep base index = second.subscriptStep base index
      unfold Resolver.subscriptStep
      dsimp only
      rw [htypes, hmembers]
      cases hargs : genericArgs index with
      | nil => rfl
      | cons arg rest =>
          have harg : first.type arg = second.type arg :=
            h (.type arg) (.argument (hargs ▸ List.mem_cons_self))
          dsimp only
          rw [harg]
  | record entries =>
      exact congrArg (Target.record <$> ·) (fieldsBy_congr fun key value hentry =>
        h (.type value) (.field hentry))
  | members e =>
      have hmember : first.type e = second.type e := h (.type e) .member
      have hplain : (do return [← first.type e] : Reporting (List Target)) =
          (do return [← second.type e]) := by rw [hmember]
      cases e with
      | binary op left right =>
          cases op with
          | bitOr =>
              have hleft : first.members left = second.members left :=
                h (.members left) .leftMembers
              have hright : first.members right = second.members right :=
                h (.members right) .rightMembers
              show first.membersStep (.binary .bitOr left right) =
                second.membersStep (.binary .bitOr left right)
              simp only [Resolver.membersStep, hleft, hright]
          | _ => exact hplain
      | _ => exact hplain

/-- Answers that agree with their own step are determined. -/
theorem Resolver.agrees_of_step {first second : Resolver} (hfirst : first.step names = first)
    (hsecond : second.step names = second) (call : Call) : first.Agrees second call := by
  induction call using (wellFounded_enters names).induction with
  | h call ih =>
      have hstep : (first.step names).Agrees (second.step names) call := Resolver.Agrees.step ih
      rwa [hfirst, hsecond] at hstep

/-- Resolvers that agree on every call are the same. -/
theorem Resolver.eq_of_agrees {first second : Resolver} (h : ∀ call, first.Agrees second call) :
    first = second := by
  obtain ⟨type, subscript, record, members⟩ := first
  obtain ⟨type', subscript', record', members'⟩ := second
  have htype : type = type' := funext fun e => h (.type e)
  have hsubscript : subscript = subscript' := funext₂ fun base index => h (.subscript base index)
  have hrecord : record = record' := funext fun entries => h (.record entries)
  have hmembers : members = members' := funext fun e => h (.members e)
  rw [htype, hsubscript, hrecord, hmembers]

/-! ## Reading to a depth -/

section Congruence

variable {f g : CodePoints → Reporting Target}

/-- Two readings of texts agree on the texts among expressions. -/
def SameTexts (f g : CodePoints → Reporting Target) (terms : List Expr) : Prop :=
  ∀ points marked, .constant (.text points marked) ∈ terms → f points = g points

/-- Fewer terms have fewer texts to agree on. -/
theorem SameTexts.mono {terms others : List Expr} (h : SameTexts f g others)
    (hsubset : terms ⊆ others) : SameTexts f g terms :=
  fun points marked hmem => h points marked (hsubset hmem)

/-- A constant is resolved alike if its text is. -/
theorem constantType_congr {value : Constant} (h : SameTexts f g (Expr.constant value).subterms) :
    constantType f value = constantType g value := by
  cases value with
  | text points marked => exact h points marked (self_mem_subterms _)
  | _ => rfl

/-- What agrees on an expression agrees on its proper subterms. -/
theorem SameTexts.tail {e : Expr} {terms : List Expr} (h : SameTexts f g e.subterms)
    (hsubset : terms ⊆ e.subterms.tail) : SameTexts f g terms :=
  h.mono fun _ hx => List.mem_of_mem_tail (hsubset hx)

mutual

/-- What an annotation stands for depends on the texts in it only. -/
theorem resolvePart_congr : ∀ e : Expr, SameTexts f g e.subterms → resolvePart f e = resolvePart g e
  | .constant value, h => by rw [resolvePart, resolvePart, constantType_congr h]
  | .name _, _ | .attribute .., _ | .set _, _ => by rw [resolvePart, resolvePart]
  | .binary op left right, h => by
      have hleft := resolvePart_congr left (h.tail (by simp [Expr.subterms]))
      have hright := resolvePart_congr right (h.tail (by simp [Expr.subterms]))
      cases op
      case bitOr => rw [resolvePart, resolvePart, hleft, hright]
      all_goals rfl
  | .subscript base index, h => by
      have hindex := resolvePart_congr index (h.tail (by simp [Expr.subterms]))
      cases index
      case tuple items =>
        have hitems := partsOf_congr items (h.tail (by simp [Expr.subterms]))
        rw [resolvePart, resolvePart, hitems]
      all_goals exact congrArg (fun part => Part.single <$> genericType base [_] [part]) hindex
  | .dict entries, h => by
      have hentries := recordFields_congr entries (h.tail (by simp [Expr.subterms]))
      rw [resolvePart, resolvePart, hentries]
  | .list items, h => by
      have hitems := partsOf_congr items (h.tail (by simp [Expr.subterms]))
      rw [resolvePart, resolvePart, hitems]
  | .tuple items, h => by
      have hitems := partsOf_congr items (h.tail (by simp [Expr.subterms]))
      rw [resolvePart, resolvePart, hitems]
  | .slice .., _ | .starred _, _ | .unary .., _ | .boolean .., _ | .compare .., _
  | .conditional .., _ | .call .., _ | .lambda .., _ | .comprehension .., _
  | .dictComprehension .., _ | .named .., _ | .await _, _ | .yield _, _ | .yieldFrom _, _
  | .joined _, _ | .formatted .., _ => rfl

/-- Parts are resolved alike if all texts in them are. -/
theorem partsOf_congr : ∀ items : List Expr, SameTexts f g (Expr.all items) →
    partsOf f items = partsOf g items
  | [], _ => rfl
  | e :: rest, h => by
      have hfirst := resolvePart_congr e (h.mono (by simp [Expr.all]))
      have hrest := partsOf_congr rest (h.mono (by simp [Expr.all]))
      rw [partsOf, partsOf, hfirst, hrest]

theorem recordFields_congr : ∀ entries : List Entry, SameTexts f g (Expr.ofEntries entries) →
    recordFields f entries = recordFields g entries
  | [], _ => rfl
  | .spread _ :: rest, h => by
      have hrest := recordFields_congr rest (h.mono (by simp [Expr.ofEntries]))
      rw [recordFields, recordFields, hrest]
  | .pair key value :: rest, h => by
      have hvalue := resolvePart_congr value (h.mono (by simp [Expr.ofEntries]))
      have hrest := recordFields_congr rest (h.mono (by simp [Expr.ofEntries]))
      rw [recordFields, recordFields, hvalue, hrest]

end

end Congruence

/-- One more level of texts is resolved by the level before. -/
theorem resolveUpTo_succ (depth : Nat) (e : Expr) :
    resolveUpTo names (depth + 1) e =
      Part.type <$> resolvePart (textBy names (resolveUpTo names depth)) e :=
  rfl

/-- A depth beyond the longest text is never used up. -/
theorem resolveUpTo_eq {depth depth' : Nat} {e : Expr} (h : e.longestText < depth)
    (h' : e.longestText < depth') : resolveUpTo names depth e = resolveUpTo names depth' e := by
  induction depth generalizing depth' e with
  | zero => exact absurd h (Nat.not_lt_zero _)
  | succ depth ih =>
      obtain ⟨depth', rfl⟩ := Nat.exists_eq_succ_of_ne_zero (Nat.ne_zero_of_lt h')
      rw [resolveUpTo_succ, resolveUpTo_succ]
      refine congrArg (Part.type <$> ·) (resolvePart_congr e fun points marked hmem => ?_)
      refine textBy_congr fun s inner hpoints hread => ?_
      subst hpoints
      have hlt := longestText_lt_of_mem hmem hread
      exact ih (by omega) (by omega)

/-- Resolving reads the texts in an annotation by resolving what they are read as. -/
theorem resolve_eq (e : Expr) :
    resolve names e = Part.type <$> resolvePart (textBy names (resolve names)) e := by
  rw [resolve, resolveUpTo_succ]
  refine congrArg (Part.type <$> ·) (resolvePart_congr e fun points marked hmem => ?_)
  refine textBy_congr fun s inner hpoints hread => ?_
  subst hpoints
  exact resolveUpTo_eq (longestText_lt_of_mem hmem hread) (Nat.lt_succ_self _)

/-! ## The answers of resolving -/

/-- What resolving answers to every call. -/
def resolver (names : CharacterNames) : Resolver where
  type := resolve names
  subscript base index := resolve names (.subscript base index)
  record entries := resolve names (.dict entries)
  members e := Part.members <$> resolvePart (textBy names (resolve names)) e

section Answers

variable {ofText : CodePoints → Reporting Target}

@[simp]
theorem type_single (action : Reporting Target) :
    Part.type <$> Part.single <$> action = action := by
  rw [← comp_map]
  exact id_map action

theorem partsOf_eq_map (items : List Expr) :
    partsOf ofText items = items.map (resolvePart ofText) := by
  induction items with
  | nil => rfl
  | cons e rest ih => rw [partsOf, ih, List.map_cons]

/-- The types of parts are the parts resolved. -/
theorem typesOf_partsOf (items : List Expr) :
    typesOf (partsOf (textBy names (resolve names)) items) = items.mapM (resolve names) := by
  rw [typesOf, partsOf_eq_map, List.mapM_map]
  exact mapM_congr fun item _ => (resolve_eq item).symm

theorem recordFields_eq (entries : List Entry) :
    recordFields (textBy names (resolve names)) entries = fieldsBy (resolve names) entries := by
  induction entries with
  | nil => rfl
  | cons entry rest ih =>
      cases entry with
      | spread value => rw [recordFields, fieldsBy, ih]
      | pair key value =>
          rw [recordFields, fieldsBy, ih, resolve_eq value]
          cases fieldLabel? key with
          | none => rfl
          | some label =>
              dsimp only
              rw [bind_map_left]

/-- A part that is a subscript is a generic type. -/
theorem resolvePart_subscript (base index : Expr) :
    resolvePart ofText (.subscript base index) =
      .single <$> genericType base (genericArgs index) (partsOf ofText (genericArgs index)) := by
  cases index with
  | tuple items => rw [resolvePart, genericArgs]
  | _ => rfl

/-- An annotation that is no union stands for its type. -/
theorem resolvePart_eq_single {e : Expr} (h : ∀ left right, e ≠ .binary .bitOr left right) :
    resolvePart (textBy names (resolve names)) e =
      .single <$> (resolver names).typeStep names e := by
  cases e with
  | binary op left right =>
      cases op with
      | bitOr => exact absurd rfl (h left right)
      | _ => rfl
  | subscript base index =>
      show _ = Part.single <$> resolve names (.subscript base index)
      rw [resolve_eq, resolvePart_subscript, type_single]
  | dict entries =>
      show _ = Part.single <$> resolve names (.dict entries)
      rw [resolve_eq, resolvePart]
      simp [Part.type]
  | set items =>
      rw [resolvePart, Resolver.typeStep]
      simp
  | list items =>
      rw [resolvePart, Resolver.typeStep, typesOf_partsOf, map_bind]
      refine congrArg (items.mapM (resolve names) >>= ·) (funext fun types => ?_)
      split <;> simp
  | tuple items =>
      rw [resolvePart, Resolver.typeStep, typesOf_partsOf, map_bind]
      refine congrArg (items.mapM (resolve names) >>= ·) (funext fun types => ?_)
      split <;> simp
  | constant value => rw [resolvePart]; rfl
  | name id => rfl
  | «attribute» value label => rfl
  | _ => rfl

/-- The resolver is a fixed point of the step for types. -/
theorem typeStep_resolver (e : Expr) : (resolver names).typeStep names e = resolve names e := by
  rw [resolve_eq]
  by_cases hunion : ∃ left right, e = .binary .bitOr left right
  · obtain ⟨left, right, rfl⟩ := hunion
    rw [resolvePart]
    simp [Resolver.typeStep, resolver, Part.type]
  · rw [resolvePart_eq_single fun left right heq => hunion ⟨left, right, heq⟩, type_single]

/-- It is one of the step for members. -/
theorem membersStep_resolver (e : Expr) :
    (resolver names).membersStep e = (resolver names).members e := by
  show _ = Part.members <$> resolvePart (textBy names (resolve names)) e
  by_cases hunion : ∃ left right, e = .binary .bitOr left right
  · obtain ⟨left, right, rfl⟩ := hunion
    rw [resolvePart]
    simp [Resolver.membersStep, resolver, Part.members]
  · rw [resolvePart_eq_single fun left right heq => hunion ⟨left, right, heq⟩, typeStep_resolver]
    unfold Resolver.membersStep
    split
    · exact absurd ⟨_, _, rfl⟩ hunion
    · simp [resolver, Part.members]

/-- It is one of the step for subscripts. -/
theorem subscriptStep_resolver (base index : Expr) :
    (resolver names).subscriptStep base index = resolve names (.subscript base index) := by
  have hmembers : ((partsOf (textBy names (resolve names)) (genericArgs index)).mapM fun part =>
    Part.members <$> part) =
      (genericArgs index).mapM (resolver names).members := by
    rw [partsOf_eq_map, List.mapM_map]
    rfl
  rw [resolve_eq, resolvePart_subscript, type_single]
  unfold Resolver.subscriptStep genericType
  dsimp only
  rw [typesOf_partsOf, hmembers, partsOf_eq_map, List.length_map]
  cases genericArgs index with
  | nil => rfl
  | cons arg rest =>
      have harg : (resolver names).type arg =
          (do return (← resolvePart (textBy names (resolve names)) arg).type) := by
        show resolve names arg = _
        rw [resolve_eq, map_eq_pure_bind]
      dsimp only
      rw [harg]
      rfl

/-- It is one of the step for records. -/
theorem recordStep_resolver (entries : List Entry) :
    .record <$> fieldsBy (resolve names) entries = resolve names (.dict entries) := by
  rw [resolve_eq, resolvePart, recordFields_eq]
  simp [Part.type]

/-- Resolving answers every call by the answers of further calls. -/
theorem step_resolver : (resolver names).step names = resolver names :=
  Resolver.eq_of_agrees fun
    | .type e => typeStep_resolver e
    | .subscript base index => subscriptStep_resolver base index
    | .record entries => recordStep_resolver entries
    | .members e => membersStep_resolver e

end Answers

end AikenForge.Hint
