/-
# Paths by their components

A path is the text of its components, and the components of a joined path are those of both parts. A
normalized path from the root is slashes with steps after them, none of which is empty, a reference
to a directory itself, or a detour.
-/

import AikenForge.Path
import Mathlib.Data.List.DropRight

namespace AikenForge.Path

open AikenForge.Text

/-! ## Splitting and joining -/

section Split

variable {separator : Char} {current cs : List Char}

/-- Splitting leaves one part at least, though it may be empty. -/
theorem splitOnChar_ne_nil (separator : Char) (current cs : List Char) :
    splitOnChar separator current cs ≠ [] := by
  fun_induction splitOnChar separator current cs with
  | case1 => exact List.cons_ne_nil _ _
  | case2 => exact List.cons_ne_nil _ _
  | case3 current c rest hc ih => exact ih

/-- Without a separator there is one part. -/
theorem splitOnChar_of_notMem (h : separator ∉ cs) :
    splitOnChar separator current cs = [current.reverse ++ cs] := by
  fun_induction splitOnChar separator current cs with
  | case1 => simp
  | case2 current c rest hc => simp [eq_of_beq hc] at h
  | case3 current c rest hc ih =>
      rw [ih fun hmem => h (List.mem_cons_of_mem _ hmem)]
      simp

/-- Splitting a text with a separator in it splits what stands on both sides. -/
theorem splitOnChar_append (rest : List Char) :
    splitOnChar separator current (cs ++ separator :: rest) =
      splitOnChar separator current cs ++ splitOnChar separator [] rest := by
  fun_induction splitOnChar separator current cs with
  | case1 => simp [splitOnChar]
  | case2 current c cs hc ih => simp [splitOnChar, hc, ih]
  | case3 current c cs hc ih => simp [splitOnChar, hc, ih]

/-- No part has the separator in it. -/
theorem notMem_of_mem_splitOnChar (h : separator ∉ current) {part : List Char}
    (hpart : part ∈ splitOnChar separator current cs) : separator ∉ part := by
  fun_induction splitOnChar separator current cs with
  | case1 => simpa [List.eq_of_mem_singleton hpart] using h
  | case2 current c rest hc ih =>
      rcases List.mem_cons.mp hpart with rfl | hpart
      · simpa using h
      · exact ih List.not_mem_nil hpart
  | case3 current c rest hc ih =>
      refine ih (fun hmem => ?_) hpart
      rcases List.mem_cons.mp hmem with rfl | hmem
      · exact hc (beq_self_eq_true _)
      · exact h hmem

/-- The parts joined again are what was split. -/
theorem intercalate_splitOnChar :
    [separator].intercalate (splitOnChar separator current cs) = current.reverse ++ cs := by
  fun_induction splitOnChar separator current cs with
  | case1 => simp
  | case2 current c rest hc ih =>
      obtain ⟨first, others, hsplit⟩ :=
        List.exists_cons_of_ne_nil (splitOnChar_ne_nil separator [] rest)
      rw [hsplit] at ih ⊢
      rw [List.intercalate_cons_cons, ih, eq_of_beq hc]
      simp
  | case3 current c rest hc ih => simpa using ih

/-- Parts without the separator are told apart after they are joined. -/
theorem splitOnChar_intercalate {parts : List (List Char)} (hne : parts ≠ [])
    (h : ∀ part ∈ parts, separator ∉ part) :
    splitOnChar separator [] ([separator].intercalate parts) = parts := by
  induction parts with
  | nil => exact absurd rfl hne
  | cons part rest ih =>
      have hpart : splitOnChar separator [] part = [part] :=
        splitOnChar_of_notMem (h part (by simp))
      cases rest with
      | nil => simpa using hpart
      | cons next others =>
          rw [List.intercalate_cons_cons, List.append_assoc, List.singleton_append,
            splitOnChar_append, hpart, ih (List.cons_ne_nil _ _) fun p hp => h p (by simp [hp])]
          rfl

end Split

@[simp]
theorem toList_ofComponents (parts : List (List Char)) :
    (ofComponents parts).toList = ['/'].intercalate parts := by
  simp [ofComponents, Function.comp_def]

/-- Components without a slash are those of the path that they make. -/
theorem components_ofComponents {parts : List (List Char)} (hne : parts ≠ [])
    (h : ∀ part ∈ parts, '/' ∉ part) : components (ofComponents parts) = parts := by
  rw [components, toList_ofComponents]
  exact splitOnChar_intercalate hne h

/-- A path is made of its components. -/
theorem ofComponents_components (path : String) : ofComponents (components path) = path := by
  refine String.toList_inj.mp ?_
  rw [toList_ofComponents, components, intercalate_splitOnChar]
  rfl

/-- No component has a slash in it. -/
theorem notMem_of_mem_components {path : String} {part : List Char} (h : part ∈ components path) :
    '/' ∉ part :=
  notMem_of_mem_splitOnChar List.not_mem_nil h

/-- The components of a path below another follow the other's. -/
theorem components_append (first rest : String) :
    components (first ++ "/" ++ rest) = components first ++ components rest := by
  simp only [components, String.toList_append, List.append_assoc]
  exact splitOnChar_append _

/-- Components one after the other make paths one below the other. -/
theorem ofComponents_append {first rest : List (List Char)} (hfirst : first ≠ [])
    (hrest : rest ≠ []) :
    ofComponents (first ++ rest) = ofComponents first ++ "/" ++ ofComponents rest := by
  rw [ofComponents, List.map_append]
  exact String.intercalate_append_of_ne_nil (by simpa using hfirst) (by simpa using hrest)

/-- A path ends as its last component does. -/
theorem getLast?_ofComponents {front : List (List Char)} {last : List Char} (h : last ≠ []) :
    (ofComponents (front ++ [last])).toList.getLast? = last.getLast? := by
  cases front with
  | nil => simp
  | cons part rest =>
      rw [ofComponents_append (List.cons_ne_nil _ _) (List.cons_ne_nil _ _)]
      rw [String.toList_append, List.getLast?_append,
        List.getLast?_eq_some_getLast (by simpa using h)]
      simp [List.getLast?_eq_some_getLast h]

/-! ## Components that lead somewhere -/

/-- The parts of a path below another follow the other's. -/
theorem parts_append (first rest : String) :
    parts (first ++ "/" ++ rest) = parts first ++ parts rest := by
  simp only [parts, components_append, List.filter_append]

@[simp]
theorem parts_empty : parts "" = [] :=
  rfl

/-- A slash at the end adds no part. -/
theorem parts_append_slash (path : String) : parts (path ++ "/") = parts path := by
  simpa using parts_append path ""

/-- A path that ends with a slash is another one with a slash after it. -/
theorem eq_append_slash_of_getLast? {path : String} (h : path.toList.getLast? = some '/') :
    ∃ front, path = front ++ "/" := by
  obtain ⟨front, hfront⟩ := List.getLast?_eq_some_iff.mp h
  exact ⟨.ofList front, String.toList_inj.mp (by simp [hfront])⟩

/-- The components of a path below another. -/
theorem parts_join {path : String} (base : String) (h : isAbsolute path = false) :
    parts (join base path) = parts base ++ parts path := by
  unfold join
  rw [h, Bool.false_or]
  split
  · rename_i hempty
    rw [String.isEmpty_iff.mp hempty, parts_empty, List.nil_append]
  split
  · rename_i hslash
    obtain ⟨front, rfl⟩ := eq_append_slash_of_getLast? (eq_of_beq hslash)
    rw [parts_append, parts_append_slash]
  · rw [parts_append]

/-! ## Normalized paths -/

/-- A component of a normalized path from the root. -/
structure IsStep (part : List Char) : Prop where
  ne_nil : part ≠ []
  noSlash : '/' ∉ part
  ne_here : part ≠ here
  ne_above : part ≠ above

theorem isStep_lib : IsStep "lib".toList :=
  ⟨by decide, by decide, by decide, by decide⟩

/-- A path is so many slashes with steps after them. -/
structure IsRooted (path lead : String) (steps : List (List Char)) : Prop where
  slashes : lead = "/" ∨ lead = "//"
  isStep : ∀ step ∈ steps, IsStep step
  text : path = lead ++ ofComponents steps

/-- An absolute path starts with one slash or with two. -/
theorem root_of_isAbsolute {path : String} (h : isAbsolute path = true) :
    root path = "/" ∨ root path = "//" := by
  unfold root
  split
  · exact .inl rfl
  · exact .inr rfl
  · exact .inl rfl
  · rename_i hslash
    rw [isAbsolute, beq_iff_eq, List.head?_eq_some_iff] at h
    obtain ⟨rest, hrest⟩ := h
    exact absurd hrest (hslash rest)

/-- What is kept of the components of a path from the root are steps. -/
theorem isStep_of_mem_push {kept : List (List Char)} {part : List Char} (hpart : '/' ∉ part)
    (h : ∀ step ∈ kept, IsStep step) : ∀ step ∈ push true kept part, IsStep step := by
  unfold push
  split
  · exact h
  rename_i hsomething
  simp only [Bool.or_eq_true, List.isEmpty_iff, beq_iff_eq, not_or] at hsomething
  split
  · cases kept with
    | nil => simp
    | cons last rest =>
        have hlast : (last == above) = false := beq_false_of_ne (h last (by simp)).ne_above
        simpa [hlast] using fun step hstep => h step (List.mem_cons_of_mem _ hstep)
  · rename_i habove
    intro step hstep
    rcases List.mem_cons.mp hstep with rfl | hstep
    · exact ⟨hsomething.1, hpart, hsomething.2, by simpa using habove⟩
    · exact h step hstep

/-- Going through components keeps steps only, above which nothing goes. -/
theorem isStep_of_mem_foldl_push {components kept : List (List Char)}
    (hcomponents : ∀ part ∈ components, '/' ∉ part) (h : ∀ step ∈ kept, IsStep step) :
    ∀ step ∈ components.foldl (push true) kept, IsStep step := by
  induction components generalizing kept with
  | nil => exact h
  | cons part rest ih =>
      exact ih (fun p hp => hcomponents p (List.mem_cons_of_mem _ hp))
        (isStep_of_mem_push (hcomponents part (by simp)) h)

/-- Normalizing a path from the root leaves slashes and steps. -/
theorem exists_isRooted_normalize {path : String} (h : isAbsolute path = true) :
    ∃ steps, IsRooted (normalize path) (root path) steps := by
  refine ⟨((components path).foldl (push true) []).reverse, root_of_isAbsolute h, ?_, ?_⟩
  · intro step hstep
    exact isStep_of_mem_foldl_push (fun _ => notMem_of_mem_components) (by simp) step
      (List.mem_reverse.mp hstep)
  · have hnonempty : (root path ++ ofComponents
        ((components path).foldl (push true) []).reverse).isEmpty = false := by
      rcases root_of_isAbsolute h with hroot | hroot <;>
        simp [hroot, String.isEmpty_eq_false_iff, ← String.toList_inj]
    simp only [normalize, h, hnonempty, Bool.false_eq_true, if_false]

namespace IsRooted

variable {path lead : String} {steps : List (List Char)}

/-- The parts of a rooted path are its steps. -/
theorem parts (h : IsRooted path lead steps) : parts path = steps := by
  have hlead (rest : String) : Path.parts (lead ++ rest) = Path.parts rest := by
    rcases h.slashes with rfl | rfl
    · exact parts_append "" rest
    · exact (parts_append "/" rest).trans rfl
  rw [h.text, hlead, Path.parts]
  by_cases hne : steps = []
  · subst hne
    rfl
  rw [components_ofComponents hne fun step hstep => (h.isStep step hstep).noSlash,
    List.filter_eq_self]
  intro step hstep
  simpa using (h.isStep step hstep).ne_nil

/-- The components of a rooted path are its steps after an empty one for each slash of the root. -/
theorem components (h : IsRooted path lead steps) (hne : steps ≠ []) :
    components path = List.replicate lead.length [] ++ steps := by
  have hsteps : Path.components (ofComponents steps) = steps :=
    components_ofComponents hne fun step hstep => (h.isStep step hstep).noSlash
  rw [h.text]
  rcases h.slashes with rfl | rfl
  · have hsplit := components_append "" (ofComponents steps)
    rw [hsteps] at hsplit
    exact hsplit
  · have hsplit := components_append "/" (ofComponents steps)
    rw [hsteps] at hsplit
    exact hsplit

end IsRooted

/-- A path of steps is relative, since it starts with a name. -/
theorem isAbsolute_ofComponents {steps : List (List Char)} (h : ∀ step ∈ steps, IsStep step) :
    isAbsolute (ofComponents steps) = false := by
  cases steps with
  | nil => rfl
  | cons step rest =>
      obtain ⟨c, cs, rfl⟩ := List.exists_cons_of_ne_nil (h step (by simp)).ne_nil
      have hc : c ≠ '/' := fun heq => (h (c :: cs) (by simp)).noSlash (by simp [heq])
      cases rest <;> simp [isAbsolute, hc]

namespace IsRooted

variable {path lead : String} {steps : List (List Char)}

/-- A rooted path has its root at least. -/
theorem isEmpty_eq_false (h : IsRooted path lead steps) : path.isEmpty = false := by
  rw [h.text]
  rcases h.slashes with rfl | rfl <;> simp [String.isEmpty_eq_false_iff, ← String.toList_inj]

/-- A normalized path ends with a slash only where there are no steps. -/
theorem getLast?_ne_slash (h : IsRooted path lead steps) (hne : steps ≠ []) :
    path.toList.getLast? ≠ some '/' := by
  obtain ⟨front, last, rfl⟩ := (steps.eq_nil_or_concat').resolve_left hne
  have hlast := h.isStep last (by simp)
  rw [h.text, String.toList_append, List.getLast?_append, getLast?_ofComponents hlast.ne_nil,
    List.getLast?_eq_some_getLast hlast.ne_nil, Option.some_or, ne_eq, Option.some_inj]
  exact fun heq => hlast.noSlash (heq ▸ List.getLast_mem hlast.ne_nil)

/-- A relative path is joined below a rooted one. -/
theorem join_relative (h : IsRooted path lead steps) (hne : steps ≠ []) {more : String}
    (hmore : Path.isAbsolute more = false) : Path.join path more = path ++ "/" ++ more := by
  have hslash : (path.toList.getLast? == some '/') = false :=
    beq_false_of_ne (h.getLast?_ne_slash hne)
  rw [Path.join, hmore, h.isEmpty_eq_false, hslash]
  rfl

/-- Going on from a normalized path by steps gives a normalized path. -/
theorem join (h : IsRooted path lead steps) {more : List (List Char)} (hne : more ≠ [])
    (hmore : ∀ step ∈ more, IsStep step) :
    IsRooted (Path.join path (ofComponents more)) lead (steps ++ more) := by
  refine ⟨h.slashes,
    fun step hstep => (List.mem_append.mp hstep).elim (h.isStep step) (hmore step), ?_⟩
  have hrelative := isAbsolute_ofComponents hmore
  by_cases hsteps : steps = []
  · subst hsteps
    have htext : path = lead := h.text.trans String.append_empty
    have hslash : (path.toList.getLast? == some '/') = true := by
      rw [htext]
      rcases h.slashes with rfl | rfl <;> decide
    rw [Path.join, hrelative, h.isEmpty_eq_false, Bool.or_false, if_neg Bool.false_ne_true,
      if_pos hslash, htext, List.nil_append]
  · rw [h.join_relative hsteps hrelative, ofComponents_append hsteps hne, h.text]
    simp only [String.append_assoc]

end IsRooted

/-! ## The last component -/

/-- A path is its last component after what ends with a slash, if there is anything before it. -/
theorem exists_append_baseName (path : String) :
    ∃ head : List Char, (∀ c, head.getLast? = some c → c = '/') ∧
      path.toList = head ++ (baseName path).toList ∧ '/' ∉ (baseName path).toList ∧
      (path.toList.reverse.dropWhile (· != '/')) = head.reverse := by
  refine ⟨(path.toList.reverse.dropWhile (· != '/')).reverse, fun c hc => ?_, ?_, ?_, by simp⟩
  · rw [List.getLast?_reverse] at hc
    have hhead := List.head?_dropWhile_not (· != '/') path.toList.reverse
    rw [hc] at hhead
    simpa using hhead
  · rw [baseName, String.toList_ofList, ← List.reverse_append, List.takeWhile_append_dropWhile,
      List.reverse_reverse]
  · rw [baseName, String.toList_ofList, List.mem_reverse]
    exact fun hmem => by simpa using List.mem_takeWhile_imp hmem

/-- The base name is what comes after the last slash. -/
theorem baseName_append {head last : List Char} (hhead : ∀ c, head.getLast? = some c → c = '/')
    (hlast : '/' ∉ last) : baseName (.ofList (head ++ last)) = .ofList last := by
  have hreverse : last.reverse.takeWhile (· != '/') = last.reverse := by
    rw [List.takeWhile_eq_self_iff]
    intro c hc
    simpa using fun heq : c = '/' => hlast (heq ▸ List.mem_reverse.mp hc)
  have hstop : head.reverse.takeWhile (· != '/') = [] := by
    rw [List.takeWhile_eq_nil_iff]
    intro hpos
    have hget : head.getLast? = some (head.reverse.get ⟨0, hpos⟩) := by
      rw [← List.head?_reverse, List.head?_eq_getElem?, List.getElem?_eq_getElem hpos]
      rfl
    show ¬ (head.reverse.get ⟨0, hpos⟩ != '/') = true
    rw [hhead _ hget]
    decide
  rw [baseName, String.toList_ofList, List.reverse_append, List.takeWhile_append]
  simp [hreverse, hstop]

/-- Slashes at the end of a path lead nowhere. -/
theorem parts_dropWhile (cs : List Char) :
    parts (.ofList (cs.dropWhile (· == '/')).reverse) = parts (.ofList cs.reverse) := by
  induction cs with
  | nil => rfl
  | cons c rest ih =>
      rw [List.dropWhile_cons]
      split
      · rename_i hc
        rw [ih, List.reverse_cons, String.ofList_append, eq_of_beq hc]
        exact (parts_append_slash _).symm
      · rfl

/-- The directory of a path is what stands before its last component. -/
theorem parts_directoryName (path : String) :
    parts path = parts (directoryName path) ++ parts (baseName path) := by
  obtain ⟨head, hhead, hpath, -, hdrop⟩ := exists_append_baseName path
  have hslashes (cs : List Char) (h : cs.all (· == '/') = true) :
      parts (.ofList cs.reverse) = [] := by
    rw [← parts_dropWhile, List.dropWhile_eq_nil_iff.mpr (by simpa using h)]
    rfl
  have hdirectory : parts (directoryName path) = parts (.ofList head) := by
    rw [directoryName, hdrop]
    split
    · rename_i hall
      rw [hslashes head (by simpa using hall), ← hslashes head.reverse hall, List.reverse_reverse]
    · rw [parts_dropWhile, List.reverse_reverse]
  have htext : path = .ofList head ++ baseName path :=
    String.toList_inj.mp (by rw [String.toList_append, String.toList_ofList, ← hpath])
  rw [hdirectory]
  cases hlast : head.getLast? with
  | none =>
      rw [List.getLast?_eq_none_iff] at hlast
      have hbase : baseName path = path := by
        rw [hlast] at htext
        exact (htext.trans String.empty_append).symm
      rw [hlast, hbase]
      exact (List.nil_append _).symm
  | some c =>
      obtain ⟨front, hfront⟩ := List.getLast?_eq_some_iff.mp hlast
      rw [hhead c hlast] at hfront
      rw [hfront, String.ofList_append] at htext ⊢
      conv_lhs => rw [htext]
      rw [show String.ofList ['/'] = "/" from rfl, parts_append, parts_append_slash]

namespace IsRooted

variable {path lead : String} {front : List (List Char)} {last : List Char}

/-- The base name of a rooted path is its last step. -/
theorem baseName (h : IsRooted path lead (front ++ [last])) :
    Path.baseName path = .ofList last := by
  have hlast := h.isStep last (by simp)
  obtain ⟨head, hhead, htext⟩ : ∃ head : List Char, (∀ c, head.getLast? = some c → c = '/') ∧
      path = .ofList (head ++ last) := by
    rcases front.eq_nil_or_concat' with rfl | ⟨rest, next, rfl⟩
    · refine ⟨lead.toList, ?_, ?_⟩
      · rcases h.slashes with rfl | rfl <;> simp
      · rw [h.text, String.ofList_append, String.ofList_toList]
        rfl
    · refine ⟨(lead ++ ofComponents (rest ++ [next]) ++ "/").toList, ?_, ?_⟩
      · simp
      · rw [h.text, ofComponents_append (by simp) (by simp), String.ofList_append,
          String.ofList_toList, ← String.append_assoc, ← String.append_assoc]
        rfl
  rw [htext]
  exact baseName_append hhead hlast.noSlash

/-- The directory of a rooted path has all steps but the last. -/
theorem parts_directoryName (h : IsRooted path lead (front ++ [last])) :
    Path.parts (directoryName path) = front := by
  have hsplit := Path.parts_directoryName path
  have hlast := h.isStep last (by simp)
  have hbase : Path.parts (Path.baseName path) = [last] := by
    have hcomponents : Path.components (.ofList last) = [last] := by
      rw [Path.components, String.toList_ofList, splitOnChar_of_notMem hlast.noSlash]
      rfl
    rw [h.baseName, Path.parts, hcomponents]
    simp [hlast.ne_nil]
  rw [h.parts, hbase] at hsplit
  exact (List.append_cancel_right hsplit).symm

end IsRooted

end AikenForge.Path
