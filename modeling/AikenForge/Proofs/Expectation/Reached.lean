/-
# The ways in which statements are reached

A statement is lowered as a whole, with the directives of its line, or it is reached as part of
another one: as a further branch of a chain of branches, or as a further clause of a dispatch. This
module lists the statements of a block at every depth with the way in which each is reached.
-/

import AikenForge.Lowering.Statement

namespace AikenForge.Expectation

open AikenForge.Source AikenForge.Lowering

variable (ctx : Context)

/-- How lowering reaches a statement: as a whole, as a further branch of a chain, or as a further
clause of a dispatch. -/
inductive Way
  | whole
  | further
  | clause
  deriving DecidableEq

/-- How the alternative of a branch is reached. -/
def Way.alternative (way : Way) (line : Nat) (orelse : List Stmt) : Way :=
  if way = .clause ∨ (whenSubject? ctx line).isSome then
    if isSingleBranch orelse then .clause else .whole
  else if continuesChain ctx orelse then .further else .whole

/-- How the statements after a statement are reached. -/
def Way.after (statement : Stmt) (rest : List Stmt) : Way :=
  if isGuard ctx statement && continuesChain ctx rest then .further else .whole

mutual

/-- The statements of a block and those inside them, with the way in which each is reached; `way` is
that of the first. -/
def reached (way : Way) : List Stmt → List (Stmt × Way)
  | [] => []
  | statement :: rest =>
    (statement, way) :: (reachedInside way statement ++
      reached (Way.after ctx statement rest) rest)

/-- The statements inside a statement. -/
def reachedInside (way : Way) : Stmt → List (Stmt × Way)
  | .simple .. => []
  | .branch line _ body orelse =>
    reached .whole body ++ reached (way.alternative ctx line orelse) orelse
  | .select _ _ cases => reachedCases cases
  | .forLoop _ _ _ _ body orelse => reachedEach body ++ reachedEach orelse
  | .whileLoop _ _ body orelse => reachedEach body ++ reachedEach orelse
  | .context _ _ _ body => reachedEach body
  | .attempt _ _ body handlers orelse finals =>
    reachedEach body ++ (reachedEach orelse ++ (reachedHandlers handlers ++ reachedEach finals))
  | .function _ _ body => reachedEach body
  | .classDef _ _ body => reachedEach body

/-- The statements of a list whose members are a block each. -/
def reachedEach : List Stmt → List (Stmt × Way)
  | [] => []
  | statement :: rest =>
    (statement, .whole) :: (reachedInside .whole statement ++ reachedEach rest)

/-- The statements of the cases of a `match`. -/
def reachedCases : List Case → List (Stmt × Way)
  | [] => []
  | .mk _ _ body :: rest => reached .whole body ++ reachedCases rest

/-- The statements of exception handlers. -/
def reachedHandlers : List Handler → List (Stmt × Way)
  | [] => []
  | .mk _ _ body :: rest => reached .whole body ++ reachedHandlers rest

end

mutual

/-- The statements of a list and all statements inside them. -/
def nestedAll : List Stmt → List Stmt
  | [] => []
  | statement :: rest => statement :: (nested statement ++ nestedAll rest)

/-- The statements inside a statement. -/
def nested : Stmt → List Stmt
  | .simple .. => []
  | .branch _ _ body orelse | .forLoop _ _ _ _ body orelse | .whileLoop _ _ body orelse =>
    nestedAll body ++ nestedAll orelse
  | .select _ _ cases => nestedCases cases
  | .context _ _ _ body | .function _ _ body | .classDef _ _ body => nestedAll body
  | .attempt _ _ body handlers orelse finals =>
    nestedAll body ++ (nestedAll orelse ++ (nestedHandlers handlers ++ nestedAll finals))

/-- The statements of the cases of a `match`. -/
def nestedCases : List Case → List Stmt
  | [] => []
  | .mk _ _ body :: rest => nestedAll body ++ nestedCases rest

/-- The statements of exception handlers. -/
def nestedHandlers : List Handler → List Stmt
  | [] => []
  | .mk _ _ body :: rest => nestedAll body ++ nestedHandlers rest

end

/-- The statements of a list are among all statements in it. -/
theorem mem_nestedAll {statement : Stmt} {statements : List Stmt} (h : statement ∈ statements) :
    statement ∈ nestedAll statements := by
  induction statements with
  | nil => cases h
  | cons first rest ih =>
      rw [nestedAll]
      rcases List.mem_cons.mp h with rfl | h
      · exact List.mem_cons_self
      · exact List.mem_cons_of_mem _ (List.mem_append_right _ (ih h))

/-- What is inside a statement of a list is among all statements in it. -/
theorem nested_subset {statement : Stmt} {statements : List Stmt} (h : statement ∈ statements) :
    nested statement ⊆ nestedAll statements := by
  induction statements with
  | nil => cases h
  | cons first rest ih =>
      intro inner hinner
      rw [nestedAll]
      rcases List.mem_cons.mp h with rfl | h
      · exact List.mem_cons_of_mem _ (List.mem_append_left _ hinner)
      · exact List.mem_cons_of_mem _ (List.mem_append_right _ (ih h hinner))

mutual

/-- Every statement of a list, at any depth, is reached, and in one way. -/
theorem map_fst_reached (way : Way) : ∀ statements : List Stmt,
    (reached ctx way statements).map Prod.fst = nestedAll statements
  | [] => rfl
  | statement :: rest => by
      rw [reached, nestedAll, List.map_cons, List.map_append, map_fst_reachedInside way statement,
        map_fst_reached _ rest]

/-- Every statement inside another is reached once, in order. -/
theorem map_fst_reachedInside (way : Way) : ∀ statement : Stmt,
    (reachedInside ctx way statement).map Prod.fst = nested statement
  | .simple .. => rfl
  | .branch _ _ body orelse => by
      rw [reachedInside, nested, List.map_append, map_fst_reached _ body, map_fst_reached _ orelse]
  | .select _ _ cases => by
      rw [reachedInside, nested, map_fst_reachedCases cases]
  | .forLoop _ _ _ _ body orelse | .whileLoop _ _ body orelse => by
      rw [reachedInside, nested, List.map_append, map_fst_reachedEach body,
        map_fst_reachedEach orelse]
  | .context _ _ _ body | .function _ _ body | .classDef _ _ body => by
      rw [reachedInside, nested, map_fst_reachedEach body]
  | .attempt _ _ body handlers orelse finals => by
      rw [reachedInside, nested, List.map_append, List.map_append, List.map_append,
        map_fst_reachedEach body, map_fst_reachedEach orelse, map_fst_reachedHandlers handlers,
        map_fst_reachedEach finals]

theorem map_fst_reachedEach : ∀ statements : List Stmt,
    (reachedEach ctx statements).map Prod.fst = nestedAll statements
  | [] => rfl
  | statement :: rest => by
      rw [reachedEach, nestedAll, List.map_cons, List.map_append, map_fst_reachedInside _ statement,
        map_fst_reachedEach rest]

theorem map_fst_reachedCases : ∀ cases : List Case,
    (reachedCases ctx cases).map Prod.fst = nestedCases cases
  | [] => rfl
  | .mk _ _ body :: rest => by
      rw [reachedCases, nestedCases, List.map_append, map_fst_reached _ body,
        map_fst_reachedCases rest]

theorem map_fst_reachedHandlers : ∀ handlers : List Handler,
    (reachedHandlers ctx handlers).map Prod.fst = nestedHandlers handlers
  | [] => rfl
  | .mk _ _ body :: rest => by
      rw [reachedHandlers, nestedHandlers, List.map_append, map_fst_reached _ body,
        map_fst_reachedHandlers rest]

end

/-- The statements that are lowered as a whole. -/
def whole (found : List (Stmt × Way)) : List Stmt :=
  (found.filter fun entry => entry.2 = .whole).map Prod.fst

/-- The statements that are reached as a whole, in order. -/
@[simp]
theorem whole_append (first second : List (Stmt × Way)) :
    whole (first ++ second) = whole first ++ whole second := by
  simp [whole]

@[simp]
theorem whole_cons_whole (statement : Stmt) (found : List (Stmt × Way)) :
    whole ((statement, .whole) :: found) = statement :: whole found := rfl

theorem whole_cons_of_ne (statement : Stmt) {way : Way} (h : way ≠ .whole)
    (found : List (Stmt × Way)) : whole ((statement, way) :: found) = whole found := by
  simp [whole, h]

end AikenForge.Expectation
