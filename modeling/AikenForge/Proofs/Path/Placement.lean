/-
# Where generated files go

A source below `lib` of the project has its generated file at the same place below `validators`, and
any other source has it below `validators` beside itself. What decides is a text: whether the path
from `lib` to the source starts with two dots. So the rule fails for sources below a directory whose
own name starts with two dots, and for `lib` itself, which no path leads to and no dots lead from.
It holds everywhere else.
-/

import AikenForge.Proofs.Path.Components

namespace AikenForge.Path

open AikenForge.Text

/-! ## The path from one place to another -/

/-- Below a place nothing leads up. -/
theorem withoutCommon_append (start rest : List (List Char)) :
    withoutCommon (start ++ rest) start = (rest, []) := by
  induction start with
  | nil => cases rest <;> rfl
  | cons part others ih => simp [withoutCommon, ih]

/-- Where nothing leads up, a place lies below. -/
theorem prefix_of_withoutCommon {target start : List (List Char)}
    (h : (withoutCommon target start).2 = []) : start <+: target := by
  fun_induction withoutCommon target start with
  | case1 a as b bs heq ih =>
      rw [eq_of_beq heq]
      exact (List.prefix_cons_inj b).mpr (ih h)
  | case2 a as b bs hne => cases h
  | case3 as bs hcases =>
      subst h
      exact List.nil_prefix

/-- The path to what lies below a place is what is left of its components. -/
theorem relative_of_parts {path start : String} {rest : List (List Char)}
    (h : parts path = parts start ++ rest) :
    relative path start = if rest.isEmpty then "." else ofComponents rest := by
  rw [relative, h, withoutCommon_append]
  rfl

/-- The path to any other place starts with two dots. -/
theorem above_isPrefixOf_relative {path start : String} (h : ¬ parts start <+: parts path) :
    above.isPrefixOf (relative path start).toList = true := by
  have hup : (withoutCommon (parts path) (parts start)).2 ≠ [] :=
    fun heq => h (prefix_of_withoutCommon heq)
  obtain ⟨part, others, hcons⟩ := List.exists_cons_of_ne_nil hup
  rw [relative]
  dsimp only
  rw [hcons, List.map_cons, List.cons_append, List.isEmpty_cons, if_neg Bool.false_ne_true,
    toList_ofComponents]
  cases others.map (fun _ => above) ++ (withoutCommon (parts path) (parts start)).1 with
  | nil => rfl
  | cons next more =>
      rw [List.intercalate_cons_cons]
      rfl

/-! ## Two places for a generated file -/

/-- The generated file of a source that lies at `inside` below `lib`. -/
def belowValidators (top inside : String) : String :=
  join (join top "validators") (withoutExtension inside ++ targetExtension)

/-- The generated file of a source that lies anywhere else. -/
def besideSource (source : String) : String :=
  join (join (directoryName source) "validators")
    (withoutExtension (baseName source) ++ targetExtension)

/-- A source lies at `inside` below `lib`. -/
structure LiesBelowLib (top source inside : String) : Prop where
  ne_empty : inside ≠ ""
  isRelative : isAbsolute inside = false
  source_eq : source = join (join top "lib") inside

/-- A place without an extension has no other start. -/
theorem isAbsolute_withoutExtension {path : String} (h : isAbsolute path = false) (more : String)
    (hmore : isAbsolute more = false) : isAbsolute (withoutExtension path ++ more) = false := by
  have htake (n : Nat) : isAbsolute (.ofList (path.toList.take n) ++ more) = false := by
    rw [isAbsolute, beq_eq_false_iff_ne] at h hmore ⊢
    rw [String.toList_append, String.toList_ofList, List.head?_append]
    intro heq
    rcases Option.or_eq_some_iff.mp heq with hhead | ⟨-, hhead⟩
    · rw [List.head?_take] at hhead
      split at hhead
      · cases hhead
      · exact h hhead
    · exact hmore hhead
  unfold withoutExtension
  dsimp only
  split
  · simpa using htake path.toList.length
  · exact htake _

section Rooted

variable {source top lead other : String} {places steps rest : List (List Char)}

/-- The place of `lib`. -/
theorem IsRooted.lib (htop : IsRooted top lead steps) :
    IsRooted (Path.join top "lib") lead (steps ++ ["lib".toList]) := by
  have hname : ofComponents ["lib".toList] = "lib" := by decide
  have hjoin : IsRooted (Path.join top (ofComponents ["lib".toList])) lead
      (steps ++ ["lib".toList]) := by
    refine htop.join (List.cons_ne_nil _ _) fun step hstep => ?_
    rw [List.eq_of_mem_singleton hstep]
    exact isStep_lib
  rwa [hname] at hjoin

/-- A path of steps is not empty. -/
theorem ofComponents_ne_empty (hne : rest ≠ []) (h : ∀ step ∈ rest, IsStep step) :
    ofComponents rest ≠ "" := by
  intro hempty
  have hcomponents := components_ofComponents hne fun step hstep => (h step hstep).noSlash
  rw [hempty] at hcomponents
  exact (h [] (hcomponents ▸ List.mem_singleton_self _)).ne_nil rfl

/-- Empty components before others can be told from these. -/
theorem replicate_append_inj {m n : Nat} {xs ys : List (List Char)}
    (hx : ∀ x, xs.head? = some x → x ≠ []) (hy : ∀ y, ys.head? = some y → y ≠ [])
    (h : List.replicate m [] ++ xs = List.replicate n [] ++ ys) : m = n ∧ xs = ys := by
  induction m generalizing n with
  | zero =>
      cases n with
      | zero => exact ⟨rfl, h⟩
      | succ n =>
          exact absurd rfl (hx [] (by simpa [List.replicate_succ] using congrArg List.head? h))
  | succ m ih =>
      cases n with
      | zero =>
          exact absurd rfl (hy []
            (by simpa [List.replicate_succ] using (congrArg List.head? h).symm))
      | succ n =>
          obtain ⟨rfl, hsame⟩ := ih (n := n) (by simpa [List.replicate_succ] using h)
          exact ⟨rfl, hsame⟩

/-- A source lies below `lib` if its slashes are those of the project and its steps lead on from
`lib`. -/
theorem liesBelowLib_iff (hsource : IsRooted source other places) (htop : IsRooted top lead steps)
    {inside : String} :
    LiesBelowLib top source inside ↔
      other = lead ∧ ∃ rest, rest ≠ [] ∧ places = steps ++ "lib".toList :: rest ∧
        inside = ofComponents rest := by
  have hlib := htop.lib
  constructor
  · rintro ⟨hne, hrelative, htext⟩
    have hplaces : places = (steps ++ ["lib".toList]) ++ parts inside := by
      rw [← hsource.parts, htext, parts_join _ hrelative, hlib.parts]
    have hcomponents := hsource.components (by simp [hplaces])
    rw [htext, hlib.join_relative (by simp) hrelative, components_append,
      hlib.components (by simp), List.append_assoc] at hcomponents
    have hhead (more : List (List Char)) :
        ∀ x, ((steps ++ ["lib".toList]) ++ more).head? = some x → x ≠ [] := by
      intro x hx
      rw [List.head?_append_of_ne_nil _ (by simp)] at hx
      exact (hlib.isStep x (List.mem_of_head? hx)).ne_nil
    obtain ⟨hlength, hsteps⟩ := replicate_append_inj (hhead _) (hplaces ▸ hhead _) hcomponents
    refine ⟨?_, components inside, splitOnChar_ne_nil _ _ _, ?_,
      (ofComponents_components inside).symm⟩
    · rcases hsource.slashes with rfl | rfl <;> rcases htop.slashes with rfl | rfl <;>
        first | rfl | cases hlength
    · rw [← hsteps, List.append_assoc]
      rfl
  · rintro ⟨rfl, rest, hne, rfl, rfl⟩
    have hrest : ∀ step ∈ rest, IsStep step :=
      fun step hstep => hsource.isStep step (by simp [hstep])
    refine ⟨ofComponents_ne_empty hne hrest, isAbsolute_ofComponents hrest, ?_⟩
    rw [hsource.text, (hlib.join hne hrest).text, List.append_assoc]
    rfl

/-! ## The rule and what decides -/

/-- A base name is relative, having no slash. -/
theorem isAbsolute_baseName (path : String) : isAbsolute (baseName path) = false := by
  obtain ⟨-, -, -, hslash, -⟩ := exists_append_baseName path
  refine beq_false_of_ne fun heq => hslash (List.mem_of_head? heq)

theorem parts_validators : parts "validators" = ["validators".toList] := by
  decide

/-- The parts of a target below the directory of validators. -/
theorem parts_belowValidators {inside : String} (h : isAbsolute inside = false) :
    parts (belowValidators top inside) =
      parts top ++ "validators".toList :: parts (withoutExtension inside ++ targetExtension) := by
  rw [belowValidators, parts_join _ (isAbsolute_withoutExtension h _ (by decide)),
    parts_join _ (by decide), parts_validators, List.append_assoc, List.singleton_append]

/-- The parts of a target beside its source. -/
theorem parts_besideSource :
    parts (besideSource source) = parts (directoryName source) ++ "validators".toList ::
      parts (withoutExtension (baseName source) ++ targetExtension) := by
  rw [besideSource,
    parts_join _ (isAbsolute_withoutExtension (isAbsolute_baseName source) _ (by decide)),
    parts_join _ (by decide), parts_validators, List.append_assoc, List.singleton_append]

/-- For a source at `lib` or below, the two places differ. -/
theorem belowValidators_ne_besideSource (hsource : IsRooted source other places)
    (htop : IsRooted top lead steps) (hplaces : places = steps ++ "lib".toList :: rest) :
    belowValidators top (if rest.isEmpty then "." else ofComponents rest) ≠
      besideSource source := by
  intro heq
  have hparts := congrArg parts heq
  rw [parts_besideSource] at hparts
  rcases rest.eq_nil_or_concat' with rfl | ⟨front, last, rfl⟩
  · subst hplaces
    rw [hsource.parts_directoryName, hsource.baseName] at hparts
    rw [List.isEmpty_nil, if_pos rfl, parts_belowValidators rfl, htop.parts] at hparts
    exact absurd (List.append_cancel_left hparts) (by decide)
  · have hrest : ∀ step ∈ front ++ [last], IsStep step :=
      fun step hstep => hsource.isStep step (hplaces ▸ by simp_all)
    rw [← List.cons_append, ← List.append_assoc] at hplaces
    subst hplaces
    rw [hsource.parts_directoryName, if_neg (by simp),
      parts_belowValidators (isAbsolute_ofComponents hrest), htop.parts,
        List.append_assoc] at hparts
    exact absurd (List.cons.inj (List.append_cancel_left hparts)).1 (by decide)

end Rooted

/-- Without a path of its own the target is chosen by how the path to the source starts. -/
theorem output_eq {directory source : String} {custom : Option String} (h : custom.getD "" = "") :
    output directory source custom =
      if above.isPrefixOf
          (relative (absolute directory source) (join (normalize directory) "lib")).toList then
        besideSource (absolute directory source)
      else belowValidators (normalize directory)
        (relative (absolute directory source) (join (normalize directory) "lib")) := by
  have hinferred : output directory source custom = output.inferred directory source := by
    cases custom with
    | none => rw [output]
    | some path =>
        rw [Option.getD_some] at h
        rw [output, h, if_pos (by decide)]
  rw [hinferred]
  simp only [output.inferred, besideSource, belowValidators]

/-- Below an absolute path there are absolute paths only. -/
theorem isAbsolute_join {directory : String} (h : isAbsolute directory = true) (path : String) :
    isAbsolute (join directory path) = true := by
  rw [isAbsolute, beq_iff_eq] at h
  obtain ⟨cs, hcs⟩ := List.head?_eq_some_iff.mp h
  unfold join
  split
  · rename_i hpath
    have hne : directory.isEmpty = false := by
      simp [String.isEmpty_eq_false_iff, ← String.toList_inj, hcs]
    simpa [hne] using hpath
  split <;> simp [isAbsolute, hcs]

/-- The path from `lib` to a source at `lib` or below. -/
theorem relative_lib {source top other lead : String} {places steps rest : List (List Char)}
    (hsource : IsRooted source other places) (htop : IsRooted top lead steps)
    (hplaces : places = steps ++ "lib".toList :: rest) :
    relative source (join top "lib") = if rest.isEmpty then "." else ofComponents rest := by
  apply relative_of_parts
  rw [hsource.parts, htop.lib.parts, hplaces, List.append_assoc, List.singleton_append]

/-- The rule for generated files: below `validators` for a source below `lib`, beside the source for
any other. For a source below `lib` it holds exactly if the path from `lib` does not start with two
dots. For any other it holds exactly if each path that leads there from `lib` starts with two dots;
only `lib` itself and places under a root with another number of slashes have one that does not. -/
theorem output_follows_rule_iff {directory : String} (h : isAbsolute directory = true)
    (source : String) {custom : Option String} (hcustom : custom.getD "" = "") :
    (∀ inside, LiesBelowLib (normalize directory) (absolute directory source) inside →
      (output directory source custom = belowValidators (normalize directory) inside ↔
        above.isPrefixOf inside.toList = false)) ∧
    ((∀ inside, ¬ LiesBelowLib (normalize directory) (absolute directory source) inside) →
      (output directory source custom = besideSource (absolute directory source) ↔
        ∀ rest, parts (absolute directory source) =
          parts (join (normalize directory) "lib") ++ rest →
          above.isPrefixOf (ofComponents rest).toList = true)) := by
  obtain ⟨steps, htop⟩ := exists_isRooted_normalize h
  obtain ⟨places, hsource⟩ := exists_isRooted_normalize (isAbsolute_join h source)
  rw [← absolute] at hsource
  rw [output_eq hcustom]
  constructor
  · intro inside hinside
    obtain ⟨-, rest, hne, hplaces, rfl⟩ := (liesBelowLib_iff hsource htop).mp hinside
    have hdiffer := belowValidators_ne_besideSource hsource htop hplaces
    rw [relative_lib hsource htop hplaces]
    rw [List.isEmpty_eq_false_iff.mpr hne, if_neg Bool.false_ne_true] at hdiffer ⊢
    by_cases hdots : above.isPrefixOf (ofComponents rest).toList = true
    · rw [if_pos hdots, hdots]
      exact iff_of_false hdiffer.symm (by decide)
    · rw [if_neg hdots]
      exact iff_of_true rfl (Bool.eq_false_iff.mpr hdots)
  · intro houtside
    by_cases hprefix : parts (join (normalize directory) "lib") <+:
      parts (absolute directory source)
    · obtain ⟨rest, hrest⟩ := hprefix
      have hplaces : places = steps ++ "lib".toList :: rest := by
        rw [← hsource.parts, ← hrest, htop.lib.parts, List.append_assoc, List.singleton_append]
      have hdiffer := belowValidators_ne_besideSource hsource htop hplaces
      rw [relative_lib hsource htop hplaces]
      by_cases hempty : rest = []
      · -- No path leads to `lib` itself, and the one written for that has a single dot.
        subst hempty
        rw [List.isEmpty_nil, if_pos rfl] at hdiffer ⊢
        rw [if_neg (by decide)]
        exact iff_of_false hdiffer fun hdots => absurd (hdots [] hrest.symm) (by decide)
      · rw [List.isEmpty_eq_false_iff.mpr hempty, if_neg Bool.false_ne_true] at hdiffer ⊢
        have hunique (others : List (List Char)) (hothers : parts (absolute directory source) =
            parts (join (normalize directory) "lib") ++ others) : rest = others :=
          List.append_cancel_left (hrest.trans hothers)
        by_cases hdots : above.isPrefixOf (ofComponents rest).toList = true
        · rw [if_pos hdots]
          exact iff_of_true rfl fun others hothers => hunique others hothers ▸ hdots
        · rw [if_neg hdots]
          exact iff_of_false hdiffer fun hall => hdots (hall rest hrest.symm)
    · rw [if_pos (above_isPrefixOf_relative hprefix)]
      exact iff_of_true rfl fun rest hrest => absurd ⟨rest, hrest.symm⟩ hprefix

/-- A source whose path leads out of `lib`'s directory and back into it. -/
theorem output_follows_rule_detour :
    isAbsolute "/p/" = true ∧ (none : Option String).getD "" = "" ∧
      LiesBelowLib (normalize "/p/") (absolute "/p/" "src/../lib//a b/mint.v2.py")
        "a b/mint.v2.py" ∧
      above.isPrefixOf "a b/mint.v2.py".toList = false ∧
      output "/p/" "src/../lib//a b/mint.v2.py" none = "/p/validators/a b/mint.v2.ak" := by
  have hbelow : LiesBelowLib (normalize "/p/") (absolute "/p/" "src/../lib//a b/mint.v2.py")
      "a b/mint.v2.py" := ⟨by decide, by decide, by decide +kernel⟩
  have hcustom : (none : Option String).getD "" = "" := rfl
  have hrule := ((output_follows_rule_iff (by decide) _ hcustom).1 _ hbelow).mpr (by decide)
  exact ⟨by decide, hcustom, hbelow, by decide, hrule.trans (by decide +kernel)⟩

/-- A source below a directory whose name starts with two dots is taken for one outside of `lib`,
and `lib` itself for one below it, where it has no name. -/
theorem output_misreads_dots :
    (LiesBelowLib (normalize "/p") (absolute "/p" "/p/lib/..foo/x.py") "..foo/x.py" ∧
      output "/p" "/p/lib/..foo/x.py" none = "/p/lib/..foo/validators/x.ak" ∧
      belowValidators (normalize "/p") "..foo/x.py" = "/p/validators/..foo/x.ak") ∧
    output "/p" "/p/lib" none = "/p/validators/..ak" ∧
      besideSource (absolute "/p" "/p/lib") = "/p/validators/lib.ak" := by
  refine ⟨⟨⟨?_, ?_, ?_⟩, ?_, ?_⟩, ?_, ?_⟩ <;> decide +kernel

end AikenForge.Path
