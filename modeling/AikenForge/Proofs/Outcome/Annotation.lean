/-
# What resolving annotations ends with

An annotation has a type whatever it is made of, and every list in that type has an element.
Resolving fails for three causes only, and all of them stand in the annotation: a number that has no
decimal text, and a text that cannot be read because of a NUL or of half a surrogate pair. A text
that can be read is an annotation again, so they may stand inside it.
-/

import AikenForge.Proofs.Outcome.Expression

namespace AikenForge

open AikenForge.Source AikenForge.Number AikenForge.Text

/-! ## Complete types -/

namespace Target

/-- Types are complete one by one. -/
theorem allComplete_iff {types : List Target} :
    allComplete types = true ↔ ∀ type ∈ types, type.isComplete = true := by
  induction types with
  | nil => simp [allComplete]
  | cons type rest ih => simp [allComplete, ih]

/-- Fields are complete one by one. -/
theorem fieldsComplete_iff {fields : List TargetField} :
    fieldsComplete fields = true ↔ ∀ field ∈ fields, field.type.isComplete = true := by
  induction fields with
  | nil => simp [fieldsComplete]
  | cons field rest ih =>
      obtain ⟨label, type⟩ := field
      simp [fieldsComplete, ih, TargetField.type]

end Target

namespace Hint

/-! ## Faults of annotations -/

variable {names : CharacterNames}

/-- The failures whose cause stands in an annotation, or in a text in it that is read again. -/
inductive Faulty (names : CharacterNames) : Expr → Failure → Prop
  | digits {e : Expr} {n : Nat} {failure : Failure} (hmem : .constant (.int n) ∈ e.subterms)
      (hdigits : digitFailure? n = some failure) : Faulty names e failure
  | surrogates {e : Expr} {points : CodePoints} {marked : Bool}
      (hmem : .constant (.text points marked) ∈ e.subterms) (hnone : points.string? = none) :
      Faulty names e (.surrogates points.surrogateRun.1 points.surrogateRun.2)
  | nul {e : Expr} {s : String} {marked : Bool}
      (hmem : .constant (.text (codePoints s) marked) ∈ e.subterms)
      (hread : readExpression names s = .error .nul) : Faulty names e .nul
  | inner {e inner : Expr} {s : String} {marked : Bool} {failure : Failure}
      (hmem : .constant (.text (codePoints s) marked) ∈ e.subterms)
      (hread : readExpression names s = .ok inner) (hinner : Faulty names inner failure) :
      Faulty names e failure

/-- The faults of a part of an annotation are faults of the whole. -/
theorem Faulty.of_subset {inner e : Expr} {failure : Failure} (h : Faulty names inner failure)
    (hsubset : inner.subterms ⊆ e.subterms) : Faulty names e failure := by
  cases h with
  | digits hmem hdigits => exact .digits (hsubset hmem) hdigits
  | surrogates hmem hnone => exact .surrogates (hsubset hmem) hnone
  | nul hmem hread => exact .nul (hsubset hmem) hread
  | inner hmem hread hinner => exact .inner (hsubset hmem) hread hinner

/-- The faults of an annotation are allowed. -/
def Harmless (names : CharacterNames) (fails : Failure → Prop) (e : Expr) : Prop :=
  ∀ failure, Faulty names e failure → fails failure

/-- The numbers of a list have a text or a failure that is allowed, and its texts resolve well. -/
def Fair (fails : Failure → Prop) (ofText : CodePoints → Reporting Target)
    (expressions : List Expr) : Prop :=
  (∀ n, .constant (.int n) ∈ expressions → ∀ failure, digitFailure? n = some failure →
    fails failure) ∧
  ∀ points marked, .constant (.text points marked) ∈ expressions →
    Ends (fun _ => True) fails (fun type => type.isComplete = true) (ofText points)

section Resolve

variable {fails : Failure → Prop} {ofText : CodePoints → Reporting Target}

/-- Fewer expressions are no less fair. -/
theorem Fair.mono {expressions fewer : List Expr} (h : Fair fails ofText expressions)
    (hfewer : fewer ⊆ expressions) : Fair fails ofText fewer :=
  ⟨fun n hn => h.1 n (hfewer hn), fun points marked hs => h.2 points marked (hfewer hs)⟩

/-- Expressions are fair one by one. -/
@[simp]
theorem fair_append {first rest : List Expr} :
    Fair fails ofText (first ++ rest) ↔ Fair fails ofText first ∧ Fair fails ofText rest := by
  constructor
  · exact fun h => ⟨h.mono (List.subset_append_left _ _), h.mono (List.subset_append_right _ _)⟩
  · rintro ⟨hfirst, hrest⟩
    constructor
    · intro n hn
      exact (List.mem_append.mp hn).elim (hfirst.1 n) (hrest.1 n)
    · intro points marked hs
      exact (List.mem_append.mp hs).elim (hfirst.2 points marked) (hrest.2 points marked)

/-- A computation of a type ends with one that is complete, unless it fails in a way that is
allowed. -/
abbrev Completes (fails : Failure → Prop) (action : Reporting Target) : Prop :=
  Ends (fun _ => True) fails (fun type => type.isComplete = true) action

/-- A computation of a part ends with one whose members are complete. -/
abbrev CompletesPart (fails : Failure → Prop) (action : Reporting Part) : Prop :=
  Ends (fun _ => True) fails (fun part => ∀ type ∈ part.members, type.isComplete = true) action

/-- A part is complete if its members are. -/
theorem Part.isComplete_type {part : Part} (h : ∀ type ∈ part.members, type.isComplete = true) :
    part.type.isComplete = true := by
  cases part with
  | single type => exact h type (List.mem_singleton_self type)
  | chain members => exact Target.allComplete_iff.mpr h

theorem Completes.single {action : Reporting Target} (h : Completes fails action) :
    CompletesPart fails (Part.single <$> action) :=
  Ends.map h fun _ htype _ hother => List.mem_singleton.mp hother ▸ htype

/-- A part that completes gives a complete type. -/
theorem CompletesPart.type {action : Reporting Part} (h : CompletesPart fails action) :
    Completes fails (Part.type <$> action) :=
  Ends.map h fun _ hpart => Part.isComplete_type hpart

/-- What cannot be classified is void, and that is complete. -/
theorem completes_voidWith (message : String) : Completes fails (voidWith message) :=
  Ends.bind (Reporting.ends_warn _ _) fun _ _ => Ends.pure rfl

/-- A literal number fails only by its digits. -/
theorem completes_literalConstant {value : Constant}
    (h : ∀ n, value = .int n → ∀ failure, digitFailure? n = some failure → fails failure) :
    Completes fails (literalConstant value) := by
  unfold literalConstant
  split
  case h_3 n =>
    split
    · exact .pure rfl
    · rename_i hnone
      exact .throw (h n rfl _ (by simp [digitFailure?, hnone]))
  case h_5 => exact completes_voidWith _
  all_goals exact .pure rfl

/-- A literal type completes, by the form of its value. -/
theorem completes_literalType : ∀ e : Expr, Fair fails ofText e.subterms →
    Completes fails (literalType e)
  | .constant value, h => by
      rw [literalType]
      exact completes_literalConstant fun n hn => h.1 n (by simp [Expr.subterms, hn])
  | .unary op operand, h => by
      rw [Expr.subterms] at h
      have hoperand := completes_literalType operand (h.mono (List.subset_cons_self _ _))
      cases op with
      | minus =>
          rw [literalType]
          refine hoperand.bind fun type _ => ?_
          split
          · exact .pure rfl
          · exact completes_voidWith _
      | _ => exact completes_voidWith _
  | .name _, _ | .attribute .., _ | .subscript .., _ | .slice .., _ | .list _, _ | .tuple _, _
  | .set _, _ | .dict _, _ | .starred _, _ | .binary .., _ | .boolean .., _ | .compare .., _
  | .conditional .., _ | .call .., _ | .lambda .., _ | .comprehension .., _
  | .dictComprehension .., _ | .named .., _ | .await _, _ | .yield _, _ | .yieldFrom _, _
  | .joined _, _ | .formatted .., _ => completes_voidWith _

theorem fair_of_mem_all {items : List Expr} (h : Fair fails ofText (Expr.all items)) {e : Expr}
    (he : e ∈ items) : Fair fails ofText e.subterms := by
  induction items with
  | nil => cases he
  | cons item rest ih =>
      rw [Expr.all, fair_append] at h
      rcases List.mem_cons.mp he with rfl | he
      · exact h.1
      · exact ih h.2 he

/-- The types of parts are complete if the parts are, and there are as many. -/
theorem ends_typesOf {parts : List (Reporting Part)}
    (h : ∀ part ∈ parts, CompletesPart fails part) :
    Ends (fun _ => True) fails
      (fun types => types.length = parts.length ∧ ∀ type ∈ types, type.isComplete = true)
      (typesOf parts) :=
  Ends.imp (Ends.mapM fun part hpart => CompletesPart.type (h part hpart))
    fun _ htypes => ⟨htypes.length_eq.symm, of_forall₂ htypes⟩

/-- Several literals complete if each of them does. -/
theorem completes_literalUnion {args : List Expr} (h : Fair fails ofText (Expr.all args)) :
    Completes fails (literalUnion args) := by
  refine Ends.bind (Ends.mapM fun e he => completes_literalType e (fair_of_mem_all h he))
    fun types htypes => ?_
  have hall := of_forall₂ htypes
  split
  · exact .pure (by simpa using hall)
  · exact .pure (Target.allComplete_iff.mpr hall)

/-- A type with arguments completes if its arguments do. -/
theorem completes_genericType (base : Expr) {args : List Expr} {parts : List (Reporting Part)}
    (hargs : Fair fails ofText (Expr.all args)) (h : ∀ part ∈ parts, CompletesPart fails part) :
    Completes fails (genericType base args parts) := by
  have htypes := ends_typesOf h
  unfold genericType
  split
  · exact completes_voidWith _
  split
  · exact completes_literalUnion hargs
  split
  · split
    · exact .pure rfl
    · rename_i part _
      exact (h part List.mem_cons_self).bind fun _ hpart => .pure (Part.isComplete_type hpart)
  split
  · have hgroups : ∀ part ∈ parts, Ends (fun _ => True) fails
        (fun members => ∀ type ∈ members, type.isComplete = true) (Part.members <$> part) :=
      fun part hpart => Ends.map (h part hpart) fun _ hmembers => hmembers
    refine (Ends.mapM hgroups).bind fun members hmembers => .pure (Target.allComplete_iff.mpr ?_)
    intro type htype
    obtain ⟨group, hgroup, htype⟩ := List.mem_flatten.mp htype
    exact of_forall₂ hmembers group hgroup type htype
  split
  · rename_i hlist
    refine htypes.bind fun types htypes => .pure ?_
    rw [Bool.and_eq_true] at hlist
    have hone : types.length = 1 := htypes.1.trans (eq_of_beq hlist.2)
    obtain ⟨type, rfl⟩ := List.length_eq_one_iff.mp hone
    exact htypes.2 type (List.mem_singleton_self type)
  split
  · exact htypes.bind fun _ htypes => .pure (Target.allComplete_iff.mpr htypes.2)
  · exact htypes.bind fun _ htypes => .pure (Target.allComplete_iff.mpr htypes.2)

/-- A computation of fields ends with complete ones. -/
abbrev CompletesFields (fails : Failure → Prop) (action : Reporting (List TargetField)) : Prop :=
  Ends (fun _ => True) fails (fun fields => Target.fieldsComplete fields = true) action

/-- What cannot be shown has a number without a decimal text. -/
theorem exists_digitFailure?_of_not_isShowable {e : Expr} (h : ¬ e.isShowable = true) :
    ∃ n, .constant (.int n) ∈ e.subterms ∧ digitFailure? n = some .digitLimit := by
  by_contra hnone
  refine h (List.all_eq_true.mpr fun x hx => ?_)
  split
  · rename_i n
    by_contra hn
    refine hnone ⟨n, hx, ?_⟩
    rw [digitFailure?, if_neg hn]
  · rfl

theorem completes_labelFields {items : List Expr} (h : Fair fails ofText (Expr.all items)) :
    CompletesFields fails (labelFields items) := by
  induction items with
  | nil => exact .pure rfl
  | cons item rest ih =>
      rw [Expr.all, fair_append] at h
      have hrest := ih h.2
      rw [labelFields]
      split
      · exact hrest.bind fun _ hfields => .pure hfields
      split
      · exact (Reporting.ends_warn _ _).bind fun _ _ => hrest
      · rename_i hshowable
        obtain ⟨n, hn, hfailure⟩ := exists_digitFailure?_of_not_isShowable hshowable
        exact .throw (h.1.1 n hn _ hfailure)

/-- A text as a type completes if what it is read as does. -/
theorem completes_constantType {value : Constant}
    (h : ∀ points marked, value = .text points marked → Completes fails (ofText points)) :
    Completes fails (constantType ofText value) := by
  unfold constantType
  split
  · exact .pure rfl
  · exact .pure rfl
  · exact h _ _ rfl
  · exact completes_voidWith _

mutual

/-- Every annotation resolves to members that are complete, unless one of its numbers or texts
fails. -/
theorem completes_resolvePart : ∀ e : Expr, Fair fails ofText e.subterms →
    CompletesPart fails (resolvePart ofText e)
  | .constant value, h => by
      rw [resolvePart]
      refine (completes_constantType fun points marked hvalue => ?_).single
      exact h.2 points marked (by simp [Expr.subterms, hvalue])
  | .name _, _ | .attribute .., _ => .pure (by simp [Part.members, Target.isComplete])
  | .binary op left right, h => by
      rw [Expr.subterms] at h
      have hboth := fair_append.mp (h.mono (List.subset_cons_self _ _))
      have hleft := completes_resolvePart left hboth.1
      have hright := completes_resolvePart right hboth.2
      cases op
      case bitOr =>
        rw [resolvePart]
        refine hleft.bind fun left hleft => hright.bind fun right hright =>
          .pure fun type htype => ?_
        exact (List.mem_append.mp htype).elim (hleft type) (hright type)
      all_goals exact (completes_voidWith _).single
  | .subscript base index, h => by
      rw [Expr.subterms] at h
      have hboth := fair_append.mp (h.mono (List.subset_cons_self _ _))
      have hindex := completes_resolvePart index hboth.2
      have hone : ∀ part ∈ [resolvePart ofText index], CompletesPart fails part := by
        simpa using hindex
      have hall : Fair fails ofText (Expr.all [index]) := by
        simpa [Expr.all] using hboth.2
      have hgeneric := (completes_genericType base hall hone).single
      cases index
      case tuple items =>
        have hitems : Fair fails ofText (Expr.all items) := by
          have hsubterms := hboth.2
          rw [Expr.subterms] at hsubterms
          exact hsubterms.mono (List.subset_cons_self _ _)
        rw [resolvePart]
        exact (completes_genericType base hitems (completes_partsOf items hitems)).single
      all_goals exact hgeneric
  | .dict entries, h => by
      rw [Expr.subterms] at h
      rw [resolvePart]
      refine (completes_recordFields entries (h.mono (List.subset_cons_self _ _))).bind
        fun fields hfields => .pure ?_
      simpa [Part.members, Target.isComplete] using hfields
  | .set items, h => by
      rw [Expr.subterms] at h
      rw [resolvePart]
      refine (completes_labelFields (h.mono (List.subset_cons_self _ _))).bind
        fun fields hfields => .pure ?_
      simpa [Part.members, Target.isComplete] using hfields
  | .list items, h => by
      rw [Expr.subterms] at h
      have hitems := h.mono (List.subset_cons_self _ _)
      rw [resolvePart]
      refine (ends_typesOf (completes_partsOf items hitems)).bind fun types htypes => ?_
      split
      · exact .pure (by simpa [Part.members, Target.isComplete] using htypes.2)
      · exact (completes_voidWith _).single
  | .tuple items, h => by
      rw [Expr.subterms] at h
      have hitems := h.mono (List.subset_cons_self _ _)
      rw [resolvePart]
      refine (ends_typesOf (completes_partsOf items hitems)).bind fun types htypes => ?_
      split
      · exact (completes_voidWith _).single
      · exact .pure (by
          simpa [Part.members, Target.isComplete, Target.allComplete_iff] using htypes.2)
  | .slice .., _ | .starred _, _ | .unary .., _ | .boolean .., _ | .compare .., _
  | .conditional .., _ | .call .., _ | .lambda .., _ | .comprehension .., _
  | .dictComprehension .., _ | .named .., _ | .await _, _ | .yield _, _ | .yieldFrom _, _
  | .joined _, _ | .formatted .., _ => (completes_voidWith _).single

theorem completes_partsOf : ∀ items : List Expr, Fair fails ofText (Expr.all items) →
    ∀ part ∈ partsOf ofText items, CompletesPart fails part
  | [], _ => by simp [partsOf]
  | e :: rest, h => by
      rw [Expr.all, fair_append] at h
      intro part hpart
      rcases List.mem_cons.mp hpart with rfl | hpart
      · exact completes_resolvePart e h.1
      · exact completes_partsOf rest h.2 part hpart

theorem completes_recordFields :
    ∀ entries : List Entry, Fair fails ofText (Expr.ofEntries entries) →
    CompletesFields fails (recordFields ofText entries)
  | [], _ => .pure rfl
  | .spread _ :: rest, h => by
      rw [Expr.ofEntries, fair_append] at h
      exact (Reporting.ends_warn _ _).bind fun _ _ => completes_recordFields rest h.2
  | .pair key value :: rest, h => by
      rw [Expr.ofEntries, fair_append, fair_append] at h
      have hvalue := completes_resolvePart value h.1.2
      have hrest := completes_recordFields rest h.2
      rw [recordFields]
      split
      · refine hvalue.bind fun part hpart => hrest.bind fun fields hfields => .pure ?_
        rw [Target.fieldsComplete, Part.isComplete_type hpart, hfields]
        rfl
      · exact (Reporting.ends_warn _ _).bind fun _ _ => hrest

end

end Resolve

/-! ## Annotations -/

/-- A text in an annotation has a complete type, if what it is read as has one. -/
theorem completes_textBy {fails : Failure → Prop} {type : Expr → Reporting Target} {e : Expr}
    (h : Harmless names fails e) (htype : ∀ inner, Harmless names fails inner →
      Completes fails (type inner)) {points : CodePoints} {marked : Bool}
    (hmem : .constant (.text points marked) ∈ e.subterms) :
    Completes fails (textBy names type points) := by
  unfold textBy
  cases hstring : points.string? with
  | none => exact .throw (h _ (.surrogates hmem hstring))
  | some s =>
      obtain rfl := CodePoints.string?_eq_some_iff.mp hstring
      dsimp only
      cases hread : readExpression names s with
      | ok inner => exact htype inner fun failure hinner => h failure (.inner hmem hread hinner)
      | error cause =>
          cases cause with
          | nul => exact .throw (h .nul (.nul hmem hread))
          | malformed line => exact completes_voidWith _

/-- A harmless annotation completes at every depth of texts. -/
theorem completes_resolveUpTo {fails : Failure → Prop} (depth : Nat) {e : Expr}
    (h : Harmless names fails e) : Completes fails (resolveUpTo names depth e) := by
  have hdigits (n : Nat) (hn : .constant (.int n) ∈ e.subterms) (failure : Failure)
      (hfailure : digitFailure? n = some failure) : fails failure :=
    h failure (.digits hn hfailure)
  induction depth generalizing e with
  | zero => exact (completes_resolvePart e ⟨hdigits, fun _ _ _ => .pure rfl⟩).type
  | succ depth ih =>
      refine (completes_resolvePart e ⟨hdigits, fun points marked hmem => ?_⟩).type
      exact completes_textBy h (fun inner hinner =>
        ih hinner fun n hn failure hfailure => hinner failure (.digits hn hfailure)) hmem

/-- An annotation has a complete type, unless it has a fault. -/
theorem completes_resolve {fails : Failure → Prop} {e : Expr} (h : Harmless names fails e) :
    Completes fails (resolve names e) :=
  completes_resolveUpTo _ h

/-! ## Literal annotations -/

/-- The arguments of a generic annotation. -/
def genericArgs : Expr → List Expr
  | .tuple items => items
  | index => [index]

/-- The type of a literal annotation with these arguments: the literal of a text argument if it is
the only one, else a union with it. -/
def HoldsLiterals (args : List Expr) (type : Target) : Prop :=
  ∀ points marked, .constant (.text points marked) ∈ args →
    (args.length = 1 ∧ type = .literal (quotePoints .ascii points)) ∨
      ∃ members, type = .union members ∧ .literal (quotePoints .ascii points) ∈ members

/-- A string in a literal type is the quoted string. -/
theorem ends_literalType_text (e : Expr) :
    Ends (fun _ => True) (fun _ => True)
      (fun type => ∀ points marked, e = .constant (.text points marked) →
        type = .literal (quotePoints .ascii points))
      (literalType e) := by
  by_cases htext : ∃ points marked, e = .constant (.text points marked)
  · obtain ⟨points, marked, rfl⟩ := htext
    rw [literalType]
    refine .pure fun other _ heq => ?_
    cases heq
    rfl
  · exact (ends_somehow _).imp fun _ _ points marked heq => absurd ⟨points, marked, heq⟩ htext

/-- Strings in a literal type are all kept. -/
theorem ends_literalUnion_texts (args : List Expr) :
    Ends (fun _ => True) (fun _ => True) (HoldsLiterals args) (literalUnion args) := by
  refine Ends.bind (Ends.mapM fun e _ => ends_literalType_text e) fun types htypes => ?_
  have hmember {points : CodePoints} {marked : Bool}
      (hmem : .constant (.text points marked) ∈ args) :
      .literal (quotePoints .ascii points) ∈ types := by
    obtain ⟨type, htype, hrelated⟩ := exists_of_forall₂ htypes hmem
    exact hrelated points marked rfl ▸ htype
  split
  · rename_i type
    exact .pure fun points marked hmem =>
      .inl ⟨htypes.length_eq, (List.mem_singleton.mp (hmember hmem)).symm⟩
  · exact .pure fun points marked hmem => .inr ⟨_, rfl, hmember hmem⟩

theorem genericType_literal {base : Expr} (h : baseName? base = some "Literal") (args : List Expr)
    (parts : List (Reporting Part)) : genericType base args parts = literalUnion args := by
  unfold genericType
  rw [h]
  rfl

/-- A generic annotation is resolved from its arguments. -/
theorem exists_resolvePart_subscript (ofText : CodePoints → Reporting Target) (base index : Expr) :
    ∃ parts, resolvePart ofText (.subscript base index) =
      .single <$> genericType base (genericArgs index) parts := by
  cases index
  case tuple items => exact ⟨partsOf ofText items, by rw [resolvePart, genericArgs]⟩
  all_goals exact ⟨_, by simp only [resolvePart, genericArgs]; rfl⟩

/-- A literal annotation has the type of its arguments. -/
theorem ends_resolve_literal {base : Expr} (index : Expr) (h : baseName? base = some "Literal") :
    Ends (fun _ => True) (fun _ => True) (HoldsLiterals (genericArgs index))
      (resolve names (.subscript base index)) := by
  have hpart (ofText : CodePoints → Reporting Target) :
      Ends (fun _ => True) (fun _ => True) (fun part => HoldsLiterals (genericArgs index) part.type)
        (resolvePart ofText (.subscript base index)) := by
    obtain ⟨parts, hparts⟩ := exists_resolvePart_subscript ofText base index
    rw [hparts, genericType_literal h]
    exact (ends_literalUnion_texts _).map fun _ htype => htype
  exact (hpart _).map fun _ htype => htype

end Hint

end AikenForge
