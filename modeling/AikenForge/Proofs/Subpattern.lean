/-
# Which sub-patterns a pattern shows

The text of a pattern is put together from the texts of its sub-patterns. A class pattern may have
sub-patterns by position and by keyword, and it is written with one of the two lists: with the
keyword ones if there are any, and else with the positional ones. So positional sub-patterns that
stand beside keyword ones are lost, and the pattern matches whatever stands at their places.

What the text shows is a pattern again, the source pattern without those sub-patterns. The module
says that the text is the text of that pattern and holds, at every depth, the texts of all its
sub-patterns in order. A pattern loses nothing exactly if it is the pattern that is shown.
-/

import AikenForge.Proofs.Guard
import AikenForge.Proofs.Outcome.Pattern
import AikenForge.Proofs.Steady

namespace AikenForge.Subpattern

open AikenForge.Source AikenForge.Lowering

/-! ## What is shown -/

/-- The sub-patterns of a pattern in the order of the source, if it is of a form that has them. -/
def subpatterns? : Pattern → Option (List Pattern)
  | .class _ args _ fields => some (args ++ fields)
  | .sequence _ items | .alternatives items => some items
  | _ => none

mutual

/-- A pattern without the positional sub-patterns that stand beside keyword ones, at any depth. -/
def shown : Pattern → Pattern
  | .class callee args labels fields =>
    .class callee (if fields.isEmpty then shownAll args else []) labels (shownAll fields)
  | .sequence opensRound items => .sequence opensRound (shownAll items)
  | .alternatives items => .alternatives (shownAll items)
  | pattern => pattern

/-- What is shown of several patterns. -/
def shownAll : List Pattern → List Pattern
  | [] => []
  | pattern :: rest => shown pattern :: shownAll rest

end

mutual

/-- Whether a class pattern, at any depth, has sub-patterns both by position and by keyword. -/
def mixes : Pattern → Bool
  | .class _ args _ fields =>
    (!args.isEmpty && !fields.isEmpty) || mixesAny args || mixesAny fields
  | .sequence _ items | .alternatives items => mixesAny items
  | _ => false

/-- Whether one of several patterns mixes. -/
def mixesAny : List Pattern → Bool
  | [] => false
  | pattern :: rest => mixes pattern || mixesAny rest

end

mutual

/-- All of a pattern is shown exactly if no class pattern in it mixes. -/
theorem shown_eq_iff : ∀ pattern : Pattern, shown pattern = pattern ↔ mixes pattern = false
  | .class callee args labels fields => by
      have hargs := shownAll_eq_iff args
      have hfields := shownAll_eq_iff fields
      cases fields with
      | nil => simpa [shown, mixes, shownAll, mixesAny] using hargs
      | cons field rest =>
          cases args with
          | nil => simpa [shown, mixes, mixesAny] using hfields
          | cons arg others => simp [shown, mixes]
  | .sequence opensRound items => by simpa [shown, mixes] using shownAll_eq_iff items
  | .alternatives items => by simpa [shown, mixes] using shownAll_eq_iff items
  | .value _ | .singleton _ | .capture _ | .binding .. | .star _ | .mapping .. => by
      simp [shown, mixes]

/-- Patterns are shown as they are exactly if none of them mixes its fields. -/
theorem shownAll_eq_iff : ∀ patterns : List Pattern,
    shownAll patterns = patterns ↔ mixesAny patterns = false
  | [] => by simp [shownAll, mixesAny]
  | pattern :: rest => by
      simp [shownAll, mixesAny, shown_eq_iff pattern, shownAll_eq_iff rest]

end

/-! ## Texts in order -/

/-- Texts occur in a text one after the other. -/
def InOrder : List String → String → Prop
  | [], _ => True
  | part :: rest, text => ∃ before after, text = before ++ part ++ after ∧ InOrder rest after

/-- Parts in order stay so with more text around them. -/
theorem InOrder.inside {parts : List String} {text : String} (h : InOrder parts text)
    (before after : String) : InOrder parts (before ++ text ++ after) := by
  induction parts generalizing text before with
  | nil => trivial
  | cons part rest ih =>
      obtain ⟨first, last, rfl, hrest⟩ := h
      refine ⟨before ++ first, last ++ after, by simp [String.append_assoc], ?_⟩
      simpa using ih hrest ""

/-- Texts with labels before them, one after the other. -/
theorem inOrder_intercalate (separator : String) (entries : List (String × String)) :
    InOrder (entries.map Prod.snd)
      (separator.intercalate (entries.map fun entry => entry.1 ++ entry.2)) := by
  induction entries with
  | nil => trivial
  | cons entry rest ih =>
      cases rest with
      | nil => exact ⟨entry.1, "", by simp, trivial⟩
      | cons second rest =>
          refine ⟨entry.1, separator ++
            separator.intercalate ((second :: rest).map fun entry => entry.1 ++ entry.2), ?_, ?_⟩
          · simp [String.intercalate_cons_cons, String.append_assoc]
          · simpa using ih.inside separator ""

/-- Joined parts occur in order. -/
theorem inOrder_intercalate_self (separator : String) (parts : List String) :
    InOrder parts (separator.intercalate parts) := by
  have hentries := inOrder_intercalate separator (parts.map fun part => ("", part))
  simpa [Function.comp_def] using hentries

/-! ## Class patterns -/

/-- The layout of a class pattern: its name, and what is shown of its sub-patterns. -/
def classText (name : String) (args : List String) : List (String × String) → String
  | [] => if args.isEmpty then name else name ++ "(" ++ ", ".intercalate args ++ ")"
  | entries =>
    name ++ " \x7b " ++ ", ".intercalate (entries.map fun entry => entry.1 ++ ": " ++ entry.2) ++
      " \x7d"

/-- A new field is put behind those that are there. -/
theorem insertField_of_new {label : String} {fields : List (String × ClausePattern)}
    (pattern : ClausePattern) (h : label ∉ fields.map Prod.fst) :
    ClausePattern.insertField label pattern (fields.map fun field => .mk field.1 field.2) =
      (fields ++ [(label, pattern)]).map fun field => .mk field.1 field.2 := by
  induction fields with
  | nil => rfl
  | cons field rest ih =>
      obtain ⟨hne, hrest⟩ : label ≠ field.1 ∧ label ∉ rest.map Prod.fst := by simpa using h
      rw [List.map_cons, ClausePattern.insertField, if_neg (by simpa using Ne.symm hne), ih hrest]
      rfl

/-- Fields under different labels are all kept, in order. -/
theorem putFields_eq_map {fields entries : List (String × ClausePattern)}
    (h : ((fields ++ entries).map Prod.fst).Nodup) :
    putFields (fields.map fun field => .mk field.1 field.2) entries =
      (fields ++ entries).map fun entry => .mk entry.1 entry.2 := by
  induction entries generalizing fields with
  | nil => simp [putFields]
  | cons entry rest ih =>
      have hnew : entry.1 ∉ fields.map Prod.fst := by
        rw [List.map_append, List.nodup_append] at h
        exact fun hmem => h.2.2 _ hmem _ (by simp) rfl
      rw [List.append_cons] at h ⊢
      rw [← ih h, ← insertField_of_new entry.2 hnew]
      rfl

/-- Entries with distinct labels are all fields. -/
theorem fieldsOf_eq_map {entries : List (String × ClausePattern)}
    (h : (entries.map Prod.fst).Nodup) :
    ClausePattern.fieldsOf entries = entries.map fun entry => .mk entry.1 entry.2 :=
  @putFields_eq_map [] entries h

/-- The text of a class pattern is the layout of the texts of its sub-patterns. -/
theorem render_class {name : String} {labels : List String} (args fields : List ClausePattern)
    (hfixed : isFixedName name = false) (hlabels : labels.Nodup)
    (hlength : labels.length = fields.length) :
    (ClausePattern.constructor (some name) args
        (ClausePattern.fieldsOf (labels.zip fields))).render =
      classText (ClausePattern.orWildcard (some name)) (args.map ClausePattern.render)
        (labels.zip (fields.map ClausePattern.render)) := by
  have hnodup : ((labels.zip fields).map Prod.fst).Nodup := by
    rwa [List.map_fst_zip hlength.le]
  have hentries : labels.zip (fields.map ClausePattern.render) =
      (labels.zip fields).map fun entry => (entry.1, entry.2.render) := by
    rw [List.zip_map_right]
    rfl
  rw [fieldsOf_eq_map hnodup, hentries, ClausePattern.render.eq_def]
  simp only [lookup_fixedForms hfixed]
  cases labels.zip fields with
  | nil =>
      cases args with
      | nil => rfl
      | cons arg rest => simp [classText, renderAll_eq_map]
  | cons entry rest => simp [classText, renderFields_eq_map, fieldText, Function.comp_def]

/-- Beside keyword sub-patterns the positional ones leave no trace. -/
theorem classText_of_entries (name : String) (args others : List String)
    {entries : List (String × String)} (h : entries ≠ []) :
    classText name args entries = classText name others entries := by
  obtain ⟨entry, rest, rfl⟩ := List.exists_cons_of_ne_nil h
  rfl

/-- A class pattern shows its patterns by position if it has no labels. -/
theorem inOrder_classText_args (name : String) (args : List String) :
    InOrder args (classText name args []) := by
  cases args with
  | nil => trivial
  | cons arg rest =>
      simpa [classText, String.append_assoc] using
        (inOrder_intercalate_self ", " (arg :: rest)).inside (name ++ "(") ")"

/-- It shows its labelled patterns in any case. -/
theorem inOrder_classText_entries (name : String) (args : List String)
    (entries : List (String × String)) :
    InOrder (entries.map Prod.snd) (classText name args entries) := by
  cases entries with
  | nil => trivial
  | cons entry rest =>
      have hentries := (inOrder_intercalate ", "
        ((entry :: rest).map fun entry => (entry.1 ++ ": ", entry.2))).inside (name ++
          " \x7b ") " \x7d"
      simpa [classText, Function.comp_def, String.append_assoc] using hentries

/-! ## Texts of patterns -/

variable (ctx : Context)

/-- The text of a pattern. -/
def patternText (pattern : Pattern) : Lowering String :=
  ClausePattern.render <$> lowerPattern ctx pattern

/-- A text is what lowering gives for a pattern from every state alike, and it holds the texts of
all sub-patterns, at every depth and in order. A value is written as its expression is, and a name
as itself. -/
inductive Carries (base : LoweringState) : Pattern → String → Prop
  | value {e : Expr} {text : String} :
      text ≠ "" → Gives base (lower ctx e) text → Carries base (.value e) text
  | singleton (value : Constant) : Carries base (.singleton value) (singletonPattern value).render
  | wildcard : Carries base (.capture none) "_"
  | capture {name : String} : name ≠ "" → Carries base (.capture (some name)) name
  | star (name : Option String) : Carries base (.star name) (".." ++ name.getD "")
  | compound {pattern : Pattern} {subpatterns : List Pattern} {parts : List String}
      {text : String} :
      subpatterns? pattern = some subpatterns → Gives base (patternText ctx pattern) text →
      List.Forall₂ (Carries base) subpatterns parts → InOrder parts text → Carries base pattern text

/-- The patterns at hand: values that have a text, names, and compounds of these, the classes of
which are not written in a fixed form and have as many distinct labels as keyword sub-patterns. -/
inductive Covered (base : LoweringState) : Pattern → Prop
  | value {e : Expr} : Guard.isBlank ctx base.aliases e = false → Covered base (.value e)
  | singleton (value : Constant) : Covered base (.singleton value)
  | wildcard : Covered base (.capture none)
  | capture {name : String} : name ≠ "" → Covered base (.capture (some name))
  | star (name : Option String) : Covered base (.star name)
  | class {callee : Expr} {args fields : List Pattern} {labels : List String} :
      (∀ name, Gives base (lower ctx callee) name → isFixedName name = false) →
      labels.Nodup → labels.length = fields.length → (∀ arg ∈ args, Covered base arg) →
      (∀ field ∈ fields, Covered base field) → Covered base (.class callee args labels fields)
  | sequence (opensRound : Bool) {items : List Pattern} :
      (∀ item ∈ items, Covered base item) → Covered base (.sequence opensRound items)
  | alternatives {items : List Pattern} :
      (∀ item ∈ items, Covered base item) → Covered base (.alternatives items)

variable {ctx} {base : LoweringState}

theorem orWildcard_of_ne {text : String} (h : text ≠ "") :
    ClausePattern.orWildcard (some text) = text := by
  simp [ClausePattern.orWildcard, h]

/-- A pattern that carries its parts has a text. -/
theorem Carries.gives {pattern : Pattern} {text : String} (h : Carries ctx base pattern text) :
    Gives base (patternText ctx pattern) text := by
  unfold patternText
  cases h with
  | value hne htext =>
      have hpattern : Gives base (lowerPattern ctx (.value _)) (.literal (some text)) :=
        htext.bind (gives_pure _)
      have htext := hpattern.map ClausePattern.render
      rwa [ClausePattern.render, orWildcard_of_ne hne] at htext
  | singleton value => exact (gives_pure (singletonPattern value)).map ClausePattern.render
  | wildcard => exact (gives_pure ClausePattern.wildcard).map ClausePattern.render
  | capture hne =>
      have hlowered : Gives base (pure (ClausePattern.variable (some text))) _ := gives_pure _
      have hpattern := hlowered.map ClausePattern.render
      rwa [ClausePattern.render, orWildcard_of_ne hne] at hpattern
  | star name =>
      have hlowered : Gives base (pure (ClausePattern.variable (some (".." ++ name.getD "")))) _ :=
        gives_pure _
      have hpattern := hlowered.map ClausePattern.render
      rwa [ClausePattern.render, orWildcard_of_ne (by simp)] at hpattern
  | compound _ htext => exact htext

/-! ## Lowering patterns -/

/-- Patterns that carry their parts have texts, one by one. -/
theorem exists_gives_lowerPatterns {patterns : List Pattern} {parts : List String}
    (h : List.Forall₂ (Carries ctx base) patterns parts) :
    ∃ lowered, Gives base (lowerPatterns ctx patterns) lowered ∧
      lowered.map ClausePattern.render = parts := by
  induction h with
  | nil => exact ⟨[], gives_pure [], rfl⟩
  | @cons pattern part patterns parts hpattern _ ih =>
      obtain ⟨after, hrun, -⟩ := hpattern.gives base (.refl base)
      obtain ⟨first, hfirst, rfl⟩ := yields_map.mp hrun
      obtain ⟨others, hothers, rfl⟩ := ih
      exact ⟨first :: others, ((steady_lowerPattern ctx pattern).gives hfirst).bind
        (hothers.bind (gives_pure _)), rfl⟩

theorem length_shownAll (patterns : List Pattern) :
    (shownAll patterns).length = patterns.length := by
  induction patterns with
  | nil => rfl
  | cons pattern rest ih => rw [shownAll, List.length_cons, ih, List.length_cons]

/-- A class pattern that does not mix carries its sub-patterns. -/
theorem carries_class {callee : Expr} {name : String} {labels : List String}
    {args fields : List Pattern} {argTexts fieldTexts : List String}
    (hname : Gives base (lower ctx callee) name) (hfixed : isFixedName name = false)
    (hlabels : labels.Nodup) (hlength : labels.length = fields.length)
    (hone : args = [] ∨ fields = []) (hargs : List.Forall₂ (Carries ctx base) args argTexts)
    (hfields : List.Forall₂ (Carries ctx base) fields fieldTexts) :
    Carries ctx base (.class callee args labels fields)
      (classText (ClausePattern.orWildcard (some name)) argTexts (labels.zip fieldTexts)) := by
  have hparts : List.Forall₂ (Carries ctx base) (args ++ fields) (argTexts ++ fieldTexts) :=
    List.rel_append hargs hfields
  refine .compound rfl ?_ hparts ?_
  · obtain ⟨loweredArgs, hloweredArgs, rfl⟩ := exists_gives_lowerPatterns hargs
    obtain ⟨loweredFields, hloweredFields, rfl⟩ := exists_gives_lowerPatterns hfields
    have hpattern : Gives base (lowerPattern ctx (.class callee args labels fields)) _ :=
      hname.bind (hloweredArgs.bind (hloweredFields.bind (gives_pure _)))
    have hlowered : labels.length = loweredFields.length := by
      simpa using hlength.trans hfields.length_eq
    rw [← render_class loweredArgs loweredFields hfixed hlabels hlowered]
    exact hpattern.map ClausePattern.render
  · obtain rfl | rfl := hone
    · obtain rfl := List.forall₂_nil_left_iff.mp hargs
      have hentries := inOrder_classText_entries (ClausePattern.orWildcard (some name)) []
        (labels.zip fieldTexts)
      rwa [List.map_snd_zip (hlength.trans hfields.length_eq).ge] at hentries
    · obtain rfl := List.forall₂_nil_left_iff.mp hfields
      simpa using inOrder_classText_args _ argTexts

theorem InOrder.orWildcard {parts : List String} {text : String} (h : InOrder parts text) :
    InOrder parts (ClausePattern.orWildcard (some text)) := by
  by_cases hempty : text = ""
  · subst hempty
    exact h.inside "_" ""
  · rwa [orWildcard_of_ne hempty]

/-- Alternatives carry the parts of each of them. -/
theorem carries_alternatives {items : List Pattern} {parts : List String}
    (h : List.Forall₂ (Carries ctx base) items parts) :
    Carries ctx base (.alternatives items)
      (ClausePattern.orWildcard (some (" | ".intercalate parts))) := by
  obtain ⟨lowered, hlowered, rfl⟩ := exists_gives_lowerPatterns h
  have hpattern : Gives base (lowerPattern ctx (.alternatives items)) _ :=
    hlowered.bind (gives_pure _)
  refine .compound rfl ?_ h (inOrder_intercalate_self _ _).orWildcard
  have htext := hpattern.map ClausePattern.render
  rwa [ClausePattern.render] at htext

/-- The brackets of a sequence: round ones where it is written with them and the source is known. -/
def brackets (ctx : Context) (opensRound : Bool) : String × String :=
  if ctx.knowsSource && opensRound then ("(", ")") else ("[", "]")

/-- A sequence is written in the brackets of its source, if the source is known. -/
theorem render_sequence (ctx : Context) (opensRound : Bool) (items : List ClausePattern) :
    (if ctx.knowsSource && opensRound then ClausePattern.tuple items
      else ClausePattern.list items).render =
      (brackets ctx opensRound).1 ++ ", ".intercalate (items.map ClausePattern.render) ++
        (brackets ctx opensRound).2 := by
  unfold brackets
  split <;> rw [ClausePattern.render, renderAll_eq_map]

/-- A sequence carries the parts of its items. -/
theorem carries_sequence (opensRound : Bool) {items : List Pattern} {parts : List String}
    (h : List.Forall₂ (Carries ctx base) items parts) :
    Carries ctx base (.sequence opensRound items)
      ((brackets ctx opensRound).1 ++ ", ".intercalate parts ++ (brackets ctx opensRound).2) := by
  obtain ⟨lowered, hlowered, rfl⟩ := exists_gives_lowerPatterns h
  have hpattern : Gives base (lowerPattern ctx (.sequence opensRound items)) _ :=
    hlowered.bind (gives_pure _)
  refine .compound rfl ?_ h ((inOrder_intercalate_self _ _).inside _ _)
  rw [← render_sequence]
  exact hpattern.map ClausePattern.render

theorem steady_lowerPatterns (ctx : Context) (patterns : List Pattern) :
    Steady (lowerPatterns ctx patterns) :=
  (composed_lowerPatterns ctx patterns).steady

mutual

/-- A covered pattern carries its parts, by induction on the pattern. -/
theorem carries_lowerPattern : ∀ {pattern : Pattern} {state after : LoweringState}
    {lowered : ClausePattern}, Covered ctx base pattern → Alike base state →
      Yields (lowerPattern ctx pattern) state lowered after →
      Carries ctx base (shown pattern) lowered.render
  | .value e, _, _, _, hcovered, halike, h => by
      obtain ⟨text, _, htext, h⟩ := yields_bind.mp h
      obtain ⟨rfl, -⟩ := yields_pure.mp h
      cases hcovered with
      | value hblank =>
          have hne : text ≠ "" := by
            rw [ne_eq, Guard.decided ctx e htext, ← halike.aliases, hblank]
            exact Bool.false_ne_true
          rw [ClausePattern.render, orWildcard_of_ne hne]
          exact .value hne ((steady_lower ctx e).gives_next halike htext).1
  | .singleton value, _, _, _, _, _, h => by
      obtain ⟨rfl, -⟩ := yields_pure.mp h
      exact .singleton value
  | .capture none, _, _, _, _, _, h => by
      obtain ⟨rfl, -⟩ := yields_pure.mp h
      exact .wildcard
  | .capture (some name), _, _, _, hcovered, _, h => by
      obtain ⟨rfl, -⟩ := yields_pure.mp h
      cases hcovered with
      | capture hne =>
          rw [ClausePattern.render, orWildcard_of_ne hne]
          exact .capture hne
  | .star name, _, _, _, _, _, h => by
      obtain ⟨rfl, -⟩ := yields_pure.mp h
      rw [ClausePattern.render, orWildcard_of_ne (by simp)]
      exact .star name
  | .class callee args labels fields, _, _, _, hcovered, halike, h => by
      obtain ⟨name, _, hname, h⟩ := yields_bind.mp h
      obtain ⟨loweredArgs, _, hargs, h⟩ := yields_bind.mp h
      obtain ⟨loweredFields, _, hfields, h⟩ := yields_bind.mp h
      obtain ⟨rfl, -⟩ := yields_pure.mp h
      cases hcovered with
      | «class» hfixed hlabels hlength hargsCovered hfieldsCovered =>
          obtain ⟨hgives, halike⟩ := (steady_lower ctx callee).gives_next halike hname
          have hargTexts := carries_lowerPatterns hargsCovered halike hargs
          obtain ⟨-, halike⟩ := (steady_lowerPatterns ctx args).gives_next halike hargs
          have hfieldTexts := carries_lowerPatterns hfieldsCovered halike hfields
          have hshown : labels.length = (shownAll fields).length := by
            rw [hlength, length_shownAll]
          have hlowered : labels.length = loweredFields.length := by
            simpa using hshown.trans hfieldTexts.length_eq
          rw [render_class loweredArgs loweredFields (hfixed name hgives) hlabels hlowered, shown]
          cases fields with
          | nil =>
              obtain rfl := List.map_eq_nil_iff.mp (List.forall₂_nil_left_iff.mp hfieldTexts)
              exact carries_class hgives (hfixed name hgives) hlabels hshown (.inr rfl)
                hargTexts .nil
          | cons field rest =>
              have hentries : labels.zip (loweredFields.map ClausePattern.render) ≠ [] := by
                intro hnil
                have hlen := congrArg List.length hnil
                simp [hlowered.symm, hlength] at hlen
              rw [classText_of_entries _ _ [] hentries]
              exact carries_class hgives (hfixed name hgives) hlabels hshown (.inl rfl) .nil
                hfieldTexts
  | .sequence opensRound items, _, _, _, hcovered, halike, h => by
      obtain ⟨lowered, _, hitems, h⟩ := yields_bind.mp h
      obtain ⟨rfl, -⟩ := yields_pure.mp h
      cases hcovered with
      | sequence _ hitemsCovered =>
          rw [render_sequence]
          exact carries_sequence opensRound (carries_lowerPatterns hitemsCovered halike hitems)
  | .alternatives items, _, _, _, hcovered, halike, h => by
      obtain ⟨lowered, _, hitems, h⟩ := yields_bind.mp h
      obtain ⟨rfl, -⟩ := yields_pure.mp h
      cases hcovered with
      | alternatives hitemsCovered =>
          rw [ClausePattern.render]
          exact carries_alternatives (carries_lowerPatterns hitemsCovered halike hitems)
  | .binding .., _, _, _, hcovered, _, _ | .mapping .., _, _, _, hcovered, _, _ => by cases hcovered

theorem carries_lowerPatterns : ∀ {patterns : List Pattern} {state after : LoweringState}
    {lowered : List ClausePattern}, (∀ pattern ∈ patterns, Covered ctx base pattern) →
      Alike base state → Yields (lowerPatterns ctx patterns) state lowered after →
      List.Forall₂ (Carries ctx base) (shownAll patterns) (lowered.map ClausePattern.render)
  | [], _, _, _, _, _, h => by
      obtain ⟨rfl, -⟩ := yields_pure.mp h
      exact .nil
  | pattern :: rest, _, _, _, hcovered, halike, h => by
      obtain ⟨first, between, hfirst, h⟩ := yields_bind.mp h
      obtain ⟨others, _, hothers, h⟩ := yields_bind.mp h
      obtain ⟨rfl, -⟩ := yields_pure.mp h
      obtain ⟨-, hbetween⟩ := (steady_lowerPattern ctx pattern).gives_next halike hfirst
      exact .cons (carries_lowerPattern (hcovered pattern List.mem_cons_self) halike hfirst)
        (carries_lowerPatterns (fun other hmem => hcovered other (List.mem_cons_of_mem _ hmem))
          hbetween hothers)

end

/-- The text of a pattern holds, at every depth and in order, the texts of all sub-patterns of the
pattern that is shown, and it is the text of that pattern, whatever else the source has. That is the
source pattern itself, and nothing is lost, exactly if no class pattern in it has sub-patterns both
by position and by keyword. -/
theorem patternText_carries_shown {pattern : Pattern} {before after : LoweringState} {text : String}
    (hcovered : Covered ctx before pattern)
    (hrun : Yields (patternText ctx pattern) before text after) :
    Carries ctx before (shown pattern) text ∧
      Gives before (patternText ctx (shown pattern)) text ∧
      (shown pattern = pattern ↔ mixes pattern = false) := by
  obtain ⟨lowered, hlowered, rfl⟩ := yields_map.mp hrun
  have hcarries := carries_lowerPattern hcovered (.refl before) hlowered
  exact ⟨hcarries, hcarries.gives, shown_eq_iff pattern⟩

/-- Without aliases and constants a name is its own text. -/
theorem eq_of_gives_name {id name : String} (h : Gives {} (lower {} (.name id)) name) :
    name = id := by
  obtain ⟨after, hrun, -⟩ := h {} (.refl {})
  have hself : Yields (lower {} (.name id)) {} id {} := rfl
  exact Except.ok.inj (congrArg Prod.fst (hrun.symm.trans hself))

/-- A class pattern with a keyword sub-pattern inside one with positional ones. -/
def nested : Pattern :=
  .class (.name "Pair")
    [.class (.name "Point") [] ["x"] [.value (.attribute (.name "axis") "top")],
     .sequence false [.capture (some "y"), .star none]] [] []

theorem covered_nested : Covered {} {} nested := by
  have hpoint : Covered {} {} (.class (.name "Point") [] ["x"]
      [.value (.attribute (.name "axis") "top")]) := by
    refine .class (fun name hname => ?_) (by simp) rfl (by simp) ?_
    · rw [eq_of_gives_name hname]
      decide
    · simpa using Covered.value rfl
  refine .class (fun name hname => ?_) .nil rfl ?_ (by simp)
  · rw [eq_of_gives_name hname]
    decide
  · simpa using ⟨hpoint, .sequence false (by simpa using ⟨.capture (by simp), .star none⟩)⟩

/-- The text is `Pair(Point { x: axis.top }, [y, ..])`. -/
theorem patternText_carries_shown_nested :
    Covered {} {} nested ∧ mixes nested = false ∧
      (∃ after, Yields (patternText {} nested) {}
        "Pair(Point \x7b x: axis.top \x7d, [y, ..])" after) ∧
      Carries {} {} nested "Pair(Point \x7b x: axis.top \x7d, [y, ..])" := by
  obtain ⟨after, hrun⟩ : ∃ after,
      Yields (patternText {} nested) {} "Pair(Point \x7b x: axis.top \x7d, [y, ..])" after :=
        ⟨_, rfl⟩
  obtain ⟨hcarries, -, hshown⟩ := patternText_carries_shown covered_nested hrun
  rw [hshown.mpr rfl] at hcarries
  exact ⟨covered_nested, rfl, ⟨after, hrun⟩, hcarries⟩

/-- A point with one coordinate by position and one by keyword. -/
def mixed : Pattern :=
  .class (.name "Point") [.capture (some "a")] ["y"] [.capture (some "b")]

/-- The first coordinate is not written: `Point { y: b }` matches whatever it is. -/
theorem patternText_drops_positional :
    Covered {} {} mixed ∧ mixes mixed = true ∧
      (∃ after, Yields (patternText {} mixed) {} "Point \x7b y: b \x7d" after) ∧
      ¬ InOrder ["a", "b"] "Point \x7b y: b \x7d" := by
  refine ⟨?_, rfl, ⟨_, rfl⟩, ?_⟩
  · refine .class (fun name hname => ?_) (by simp) rfl (by simpa using Covered.capture (by simp))
      (by simpa using Covered.capture (by simp))
    rw [eq_of_gives_name hname]
    decide
  · rintro ⟨before, after, htext, -⟩
    have hmem : 'a' ∈ (before ++ "a" ++ after).toList := by simp
    rw [← htext] at hmem
    simp at hmem

end AikenForge.Subpattern
