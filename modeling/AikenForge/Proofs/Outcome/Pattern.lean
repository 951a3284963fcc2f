/-
# What lowering patterns ends with

The text of a clause pattern holds the strings that are written in the values it matches, except
where the pattern is written in a fixed form or leaves out a part. A constructor is written in a
fixed form by its name alone, and its name is what its callee is lowered to, from the state in which
the pattern is lowered.
-/

import AikenForge.Proofs.Outcome.Directive

namespace AikenForge

open AikenForge.Source AikenForge.Text

namespace Lowering

/-! ## Names of constructors -/

/-- Whether a text is the name of a constructor that is written in a fixed form. -/
def isFixedName (name : String) : Bool :=
  (ClausePattern.fixedForms.lookup name).isSome

/-- A wildcard is no fixed form. -/
theorem isFixedName_orWildcard {text : String} (h : isFixedName text = false) :
    isFixedName (ClausePattern.orWildcard (some text)) = false := by
  simp only [ClausePattern.orWildcard]
  split
  · decide
  · exact h

section Written

variable (ctx : Context) (base : LoweringState)

/-- Whether the callee of a class pattern is lowered to the name of a fixed form. -/
def isFixedCallee (callee : Expr) : Bool :=
  match (outcome (lower ctx callee) base).1 with
  | .ok name => isFixedName name
  | .error _ => false

mutual

/-- The strings that are written in a pattern. A class pattern with fields is written with these
only, and a label that is repeated with its last field. -/
def writtenPattern : Pattern → List CodePoints
  | .value expression => written ctx base expression
  | .singleton _ | .capture _ | .star _ | .mapping .. => []
  | .binding pattern _ => writtenPattern pattern
  | .class callee args labels fields =>
    if isFixedCallee ctx base callee then []
    else if labels.isEmpty || fields.isEmpty then written ctx base callee ++ writtenPatterns args
    else written ctx base callee ++ writtenFieldPatterns labels fields
  | .sequence _ items | .alternatives items => writtenPatterns items

/-- The strings that are written in patterns of a list. -/
def writtenPatterns : List Pattern → List CodePoints
  | [] => []
  | pattern :: rest => writtenPattern pattern ++ writtenPatterns rest

/-- The strings that are written in labelled patterns whose labels are not repeated after them. -/
def writtenFieldPatterns (labels : List String) : List Pattern → List CodePoints
  | [] => []
  | pattern :: rest =>
    match labels with
    | [] => []
    | label :: labels =>
      (if labels.contains label then [] else writtenPattern pattern) ++
        writtenFieldPatterns labels rest

end

end Written

variable {ctx : Context} {base : LoweringState} {fails : Failure → Prop} {width : Nat}
  {strings others : List CodePoints}

/-! ## Texts of patterns -/

/-- A name that is empty holds no string, and is written as a wildcard. -/
theorem bears_orWildcard {text : String} (h : Bears width strings text) :
    Bears width strings (ClausePattern.orWildcard (some text)) := by
  intro s hs
  have hcarries := h s hs
  have hnonempty : text.isEmpty = false := by simpa using hcarries.ne_empty
  simpa [ClausePattern.orWildcard, hnonempty] using hcarries

theorem renderAll_eq_map (patterns : List ClausePattern) :
    ClausePattern.renderAll patterns = patterns.map ClausePattern.render := by
  induction patterns with
  | nil => rfl
  | cons pattern rest ih => rw [ClausePattern.renderAll, ih, List.map_cons]

/-- The text of a field. -/
def fieldText : FieldPattern → String
  | .mk label pattern => label ++ ": " ++ pattern.render

/-- Fields are rendered one by one. -/
theorem renderFields_eq_map (fields : List FieldPattern) :
    ClausePattern.renderFields fields = fields.map fieldText := by
  induction fields with
  | nil => rfl
  | cons field rest ih =>
      obtain ⟨label, pattern⟩ := field
      rw [ClausePattern.renderFields, ih, List.map_cons, fieldText]

/-- A name that is not fixed has no fixed form. -/
theorem lookup_fixedForms {name : String} (h : isFixedName name = false) :
    ClausePattern.fixedForms.lookup (ClausePattern.orWildcard (some name)) = none := by
  have hfixed := isFixedName_orWildcard h
  rwa [isFixedName, Option.isSome_eq_false_iff, Option.isNone_iff_eq_none] at hfixed

/-- A constructor whose name has no fixed form holds what its name and its arguments hold. -/
theorem bears_constructor {name : String} {args : List ClausePattern}
    (hname : Bears width strings name)
    (hfixed : isFixedName name = false)
    (hargs : BearsAmong width others (args.map ClausePattern.render)) :
    Bears width (strings ++ others) (ClausePattern.constructor (some name) args []).render := by
  rw [ClausePattern.render.eq_def]
  simp only [lookup_fixedForms hfixed]
  cases args with
  | nil =>
      rw [hargs.eq_nil rfl, List.append_nil]
      exact bears_orWildcard hname
  | cons first rest =>
      dsimp only
      rw [renderAll_eq_map]
      exact bears_callText (bears_orWildcard hname) hargs

/-- A constructor whose name has no fixed form holds what its name and its fields hold. -/
theorem bears_constructor_fields {name : String} (args : List ClausePattern)
    {fields : List FieldPattern} (hname : Bears width strings name)
    (hfixed : isFixedName name = false) (hnonempty : fields ≠ [])
    (hfields : BearsAmong width others (fields.map fieldText)) :
    Bears width (strings ++ others) (ClausePattern.constructor (some name) args fields).render := by
  obtain ⟨field, rest, rfl⟩ := List.exists_cons_of_ne_nil hnonempty
  have hlist := hfields.intercalate ", "
  have hhead := (bears_orWildcard hname).before " \x7b "
  rw [ClausePattern.render.eq_def]
  simp only [lookup_fixedForms hfixed]
  rw [renderFields_eq_map, bears_append]
  exact ⟨(hhead.before (", ".intercalate ((field :: rest).map fieldText))).before " \x7d",
    hlist.inside (ClausePattern.orWildcard (some name) ++ " \x7b ") " \x7d"⟩

/-! ## Fields -/

theorem insertField_ne_nil (label : String) (pattern : ClausePattern) (fields : List FieldPattern) :
    ClausePattern.insertField label pattern fields ≠ [] := by
  cases fields with
  | nil => simp [ClausePattern.insertField]
  | cons field rest =>
      obtain ⟨l, p⟩ := field
      rw [ClausePattern.insertField]
      split <;> simp

/-- The field that is inserted is there. -/
theorem mem_insertField (label : String) (pattern : ClausePattern) (fields : List FieldPattern) :
    .mk label pattern ∈ ClausePattern.insertField label pattern fields := by
  induction fields with
  | nil => simp [ClausePattern.insertField]
  | cons field rest ih =>
      obtain ⟨l, p⟩ := field
      rw [ClausePattern.insertField]
      split
      · exact List.mem_cons_self
      · exact List.mem_cons_of_mem _ ih

/-- A field stays when one with another label is put in. -/
theorem mem_insertField_of_ne {label other : String} {pattern further : ClausePattern}
    {fields : List FieldPattern} (h : .mk label pattern ∈ fields) (hne : label ≠ other) :
    .mk label pattern ∈ ClausePattern.insertField other further fields := by
  induction fields with
  | nil => cases h
  | cons field rest ih =>
      obtain ⟨l, p⟩ := field
      rw [ClausePattern.insertField]
      split
      · rename_i hlabel
        rcases List.mem_cons.mp h with h | h
        · cases h
          exact absurd (eq_of_beq hlabel) hne
        · exact List.mem_cons_of_mem _ h
      · rcases List.mem_cons.mp h with h | h
        · exact h ▸ List.mem_cons_self
        · exact List.mem_cons_of_mem _ (ih h)

/-- The fields that are put in one after the other. -/
def putFields (fields : List FieldPattern) (entries : List (String × ClausePattern)) :
    List FieldPattern :=
  entries.foldl (fun fields (label, pattern) =>
    ClausePattern.insertField label pattern fields) fields

/-- A field stays there unless one of the same label is put in. -/
theorem mem_putFields {label : String} {pattern : ClausePattern} {fields : List FieldPattern}
    {entries : List (String × ClausePattern)} (h : .mk label pattern ∈ fields)
    (hne : ∀ entry ∈ entries, label ≠ entry.1) : .mk label pattern ∈ putFields fields entries := by
  induction entries generalizing fields with
  | nil => exact h
  | cons entry rest ih =>
      exact ih (mem_insertField_of_ne h (hne entry List.mem_cons_self))
        fun other hother => hne other (List.mem_cons_of_mem _ hother)

theorem putFields_ne_nil {fields : List FieldPattern} (h : fields ≠ [])
    (entries : List (String × ClausePattern)) : putFields fields entries ≠ [] := by
  induction entries generalizing fields with
  | nil => exact h
  | cons entry rest ih => exact ih (insertField_ne_nil _ _ _)

theorem fieldsOf_ne_nil {entries : List (String × ClausePattern)} (h : entries ≠ []) :
    ClausePattern.fieldsOf entries ≠ [] := by
  obtain ⟨entry, rest, rfl⟩ := List.exists_cons_of_ne_nil h
  exact putFields_ne_nil (insertField_ne_nil _ _ _) rest

/-- Every pattern has the text of its clause pattern. -/
abbrev Renders (width : Nat) (ctx : Context) (base : LoweringState) :
    List Pattern → List ClausePattern → Prop :=
  List.Forall₂ fun pattern lowered => Bears width (writtenPattern ctx base pattern) lowered.render

/-- Patterns that are rendered hold their strings among them. -/
theorem Renders.among {patterns : List Pattern} {lowered : List ClausePattern}
    (h : Renders width ctx base patterns lowered) :
    BearsAmong width (writtenPatterns ctx base patterns) (lowered.map ClausePattern.render) := by
  induction h with
  | nil => exact bearsAmong_nil width _
  | cons hfirst _ ih =>
      rw [writtenPatterns]
      exact hfirst.cons ih

/-- The fields hold what the patterns hold whose labels are not repeated after them. -/
theorem bearsAmong_putFields {patterns : List Pattern} {lowered : List ClausePattern}
    (h : Renders width ctx base patterns lowered) (labels : List String)
    (fields : List FieldPattern) :
    BearsAmong width (writtenFieldPatterns ctx base labels patterns)
      ((putFields fields (labels.zip lowered)).map fieldText) := by
  induction h generalizing labels fields with
  | nil => exact bearsAmong_nil width _
  | @cons pattern first rest more hfirst hrest ih =>
      cases labels with
      | nil => exact bearsAmong_nil width _
      | cons label labels =>
          rw [writtenFieldPatterns]
          intro s hs
          rcases List.mem_append.mp hs with hs | hs
          · split at hs
            · cases hs
            · rename_i hrepeated
              have hlater : ∀ entry ∈ labels.zip more, label ≠ entry.1 := by
                intro entry hentry heq
                apply hrepeated
                rw [List.contains_iff_mem, heq]
                exact (List.of_mem_zip hentry).1
              have hfield := mem_putFields (mem_insertField label first fields) hlater
              refine ⟨fieldText (.mk label first), List.mem_map_of_mem hfield, ?_⟩
              exact (hfirst.after (label ++ ": ")) s hs
          · exact ih labels _ s hs

/-! ## Patterns -/

/-- A class pattern holds the strings of its fields, or of its patterns by position if it has
none. -/
theorem ends_class {callee : Expr} {args fields : List Pattern} (labels : List String)
    (hcallee : Harmless fails callee.subterms)
    (hargs : Ends (Alike base) fails (Renders width ctx base args) (lowerPatterns ctx args))
    (hfields : Ends (Alike base) fails (Renders width ctx base fields) (lowerPatterns ctx fields)) :
    Ends (Alike base) fails
      (fun lowered => Bears width (writtenPattern ctx base (.class callee args labels fields))
        lowered.render)
      (lowerPattern ctx (.class callee args labels fields)) := by
  have hlower : Ends (Alike base) fails (Bears width (written ctx base callee))
    (lower ctx callee) :=
    ends_lower base callee hcallee
  have hname := ends_fromBase hlower (steady_lower ctx callee).uniform
  rw [lowerPattern, writtenPattern]
  apply hname.bind
  rintro name ⟨hname, hbase⟩
  refine hargs.bind fun args hargs => hfields.bind fun fields hfields => .pure ?_
  have hcallee : isFixedCallee ctx base callee = isFixedName name := by
    rw [isFixedCallee, hbase]
  cases hfixed : isFixedName name with
  | true =>
    rw [hcallee, hfixed, if_pos rfl]
    exact bears_nil width _
  | false =>
    rw [hcallee, hfixed, if_neg Bool.false_ne_true]
    split
    · rename_i hempty
      have hnone : labels.zip fields = [] := by
        rcases (Bool.or_eq_true _ _).mp hempty with h | h
        · rw [List.isEmpty_iff.mp h, List.zip_nil_left]
        · have hlength := hfields.length_eq
          rw [List.isEmpty_iff.mp h] at hlength
          rw [List.eq_nil_of_length_eq_zero hlength.symm, List.zip_nil_right]
      rw [hnone]
      exact bears_constructor hname hfixed hargs.among
    · rename_i hnonempty
      have hzip : labels.zip fields ≠ [] := by
        intro hzip
        rcases List.zip_eq_nil_iff.mp hzip with h | h
        · simp [h] at hnonempty
        · have hlength := hfields.length_eq
          rw [h, List.length_nil] at hlength
          simp [List.eq_nil_of_length_eq_zero hlength] at hnonempty
      exact bears_constructor_fields args hname hfixed (fieldsOf_ne_nil hzip)
        (bearsAmong_putFields hfields labels [])

mutual

/-- Lowering a pattern fails only as the literals in it do, and the text of the clause pattern holds
the strings that are written in it. -/
theorem ends_lowerPattern : ∀ pattern : Pattern, Harmless fails (Expr.all pattern.expressions) →
    Ends (Alike base) fails
      (fun lowered => Bears width (writtenPattern ctx base pattern) lowered.render)
      (lowerPattern ctx pattern)
  | .value e, h => by
      simp only [Pattern.expressions, Expr.all, List.append_nil] at h
      rw [lowerPattern, writtenPattern]
      exact (ends_lower base e h).bind fun _ htext => .pure (bears_orWildcard htext)
  | .singleton _, _ | .capture none, _ | .capture (some _), _ | .star _, _ => by
      rw [lowerPattern, writtenPattern]
      exact .pure (bears_nil width _)
  | .mapping .., _ => by
      rw [lowerPattern, writtenPattern]
      exact (ends_warn _ _).bind fun _ _ => .pure (bears_nil width _)
  | .binding pattern name, h => by
      rw [Pattern.expressions] at h
      rw [lowerPattern, writtenPattern]
      exact (ends_warn _ _).bind fun _ _ => ends_lowerPattern pattern h
  | .class callee args labels fields, h => by
      simp only [Pattern.expressions, Expr.all, all_append, harmless_append] at h
      exact ends_class labels h.1.1 (ends_lowerPatterns args h.1.2) (ends_lowerPatterns fields h.2)
  | .sequence _ items, h => by
      rw [Pattern.expressions] at h
      rw [lowerPattern, writtenPattern]
      refine (ends_lowerPatterns items h).bind fun items hitems => .pure ?_
      split
      · rw [ClausePattern.render, renderAll_eq_map]
        exact (hitems.among.intercalate ", ").inside "(" ")"
      · rw [ClausePattern.render, renderAll_eq_map]
        exact (hitems.among.intercalate ", ").inside "[" "]"
  | .alternatives items, h => by
      rw [Pattern.expressions] at h
      rw [lowerPattern, writtenPattern]
      exact (ends_lowerPatterns items h).bind fun _ hitems =>
        .pure (bears_orWildcard (hitems.among.intercalate " | "))

/-- Patterns one by one. -/
theorem ends_lowerPatterns : ∀ patterns : List Pattern,
    Harmless fails (Expr.all (Pattern.expressionsAll patterns)) →
    Ends (Alike base) fails (Renders width ctx base patterns) (lowerPatterns ctx patterns)
  | [], _ => by
      rw [lowerPatterns]
      exact .pure .nil
  | pattern :: rest, h => by
      simp only [Pattern.expressionsAll, all_append, harmless_append] at h
      rw [lowerPatterns]
      exact (ends_lowerPattern pattern h.1).bind fun _ hfirst =>
        (ends_lowerPatterns rest h.2).bind fun _ hrest => .pure (.cons hfirst hrest)

end

end Lowering

end AikenForge
