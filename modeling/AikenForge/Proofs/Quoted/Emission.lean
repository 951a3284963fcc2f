/-
# Strings in emitted modules

Each string that is written in the body of a function, a handler or a test, and each string of a
literal alias, is in the module that is emitted, quoted. It stands there in one piece with two
exceptions. Indentation puts blanks behind a break that stands inside the quotes, and a literal that
is alone in its alias is split at a bar outside of brackets.

A string is a list of code points, and half of a surrogate pair among them, for which no text has a
character, stands in the quotes as its escape.
-/

import AikenForge.Proofs.Outcome.Pipeline

namespace AikenForge

open AikenForge.Source AikenForge.Text AikenForge.Lowering AikenForge.Collect

/-- The strings that are written in the function of a module that has nothing else. -/
def soleStrings (p : Pipeline) (source : String) : List CodePoints :=
  match readModule p.options.names source with
  | .ok [.function line header body] =>
    let setting := settingOf p.options source [.function line header body]
    if header.isAsync then []
    else writtenFunction setting.context (bodyState p.registry) ⟨line, header, body⟩
  | _ => []

theorem exists_of_mem_soleStrings {p : Pipeline} {source : String} {s : CodePoints}
    (h : s ∈ soleStrings p source) :
    ∃ statements f ctx, readModule p.options.names source = .ok statements ∧
      HasBody (settingOf p.options source statements) statements f ctx ∧
      s ∈ writtenFunction ctx (bodyState p.registry) f := by
  unfold soleStrings at h
  split at h
  · rename_i line header body hread
    dsimp only at h
    split at h
    · cases h
    · rename_i hsync
      exact ⟨_, ⟨line, header, body⟩, _, hread,
        .function (List.mem_singleton_self _) (by simpa using hsync), h⟩
  · cases h

namespace Pipeline

/-- If source has a text, the text has every string that is written in a body, quoted and moved to
the right with its block. Without blanks to move it by, or without a break inside the quotes, the
quoted string is there as it is. The text also has every string of a literal alias, quoted, but for
one that is alone in its alias and has an open bar. -/
theorem transpile_carries_strings (p : Pipeline) {source text : String} {name : Option String}
    {file : String} (h : (p.transpile source name file).1 = .ok text) :
    ∃ statements, readModule p.options.names source = .ok statements ∧
      (∀ f ctx, HasBody (settingOf p.options source statements) statements f ctx →
        ∀ s ∈ writtenFunction ctx (bodyState p.registry) f,
          Carries p.options.indent.toNat s text ∧
            (p.options.indent ≤ 0 ∨ (∀ n ∈ s, n ∉ quotedBreaks) →
              (quotePoints .unicode s).toList <:+: text.toList)) ∧
      ∀ name args, NamesLiteral statements name args →
        ∀ s marked, .constant (.text s marked) ∈ args →
          (args.length = 1 → ¬ TypeDeclaration.HasOpenBar (quotePoints .ascii s).toList) →
            (quotePoints .ascii s).toList <:+: text.toList := by
  cases hread : readModule p.options.names source with
  | error cause =>
      cases cause with
      | nul =>
          rw [p.transpile_of_nul hread] at h
          cases h
      | malformed line =>
          rw [p.transpile_of_malformed hread] at h
          cases h
  | ok statements =>
      -- Here every failure is allowed, since the source is known to have a text.
      have hharmless : HarmlessModule (fun _ => True) (settingOf p.options source statements)
          statements :=
        ⟨fun _ _ _ _ _ _ => trivial, fun _ _ _ _ _ _ => trivial,
          fun _ _ _ _ _ _ => ⟨fun _ => trivial, fun _ _ _ _ _ _ => trivial⟩,
          fun _ _ _ _ _ _ _ _ _ _ => trivial⟩
      have hemission := p.meets_transpile hread hharmless name file
      rw [h] at hemission
      refine ⟨statements, rfl, fun f ctx hbody s hs => ?_, hemission.literals⟩
      have hcarries : Carries p.options.indent.toNat s text := hemission.bodies f ctx hbody s hs
      exact ⟨hcarries, fun hwhole =>
        hcarries.quotePoints_infix (hwhole.imp_left Int.toNat_of_nonpos)⟩

/-- The string stands within two blocks, `pub fn f(a) {` and `if a {`, each of which indents it. -/
theorem transpile_carries_strings_nested :
    (({} : Pipeline).transpile "def f(a):\n    if a:\n        return \"|é|\"\n" none "<source>").1 =
        .ok "pub fn f(a) \x7b\n  if a \x7b\n    \"|é|\"\n  \x7d\n\x7d\n" ∧
      (quotePoints .unicode (codePoints "|é|")).toList <:+:
        "pub fn f(a) \x7b\n  if a \x7b\n    \"|é|\"\n  \x7d\n\x7d\n".toList := by
  have htext : (({} : Pipeline).transpile "def f(a):\n    if a:\n        return \"|é|\"\n" none
      "<source>").1 = .ok "pub fn f(a) \x7b\n  if a \x7b\n    \"|é|\"\n  \x7d\n\x7d\n" := by
    decide +kernel
  have hwritten : codePoints "|é|" ∈
      soleStrings {} "def f(a):\n    if a:\n        return \"|é|\"\n" := by
    decide +kernel
  obtain ⟨statements, f, ctx, hread, hbody, hs⟩ := exists_of_mem_soleStrings hwritten
  obtain ⟨others, hothers, hbodies, -⟩ := transpile_carries_strings {} htext
  rw [hread] at hothers
  cases hothers
  have hwhole : (codePoints "|é|").all (fun n => !quotedBreaks.contains n) = true := by decide
  refine ⟨htext, (hbodies f ctx hbody _ hs).2 (.inr fun n hn => ?_)⟩
  simpa using List.all_eq_true.mp hwhole n hn

/-- The value of a spread in a constructor call is written with the fields. -/
example : soleStrings {} "def f():\n    return Foo(**g(\"s\"))\n" = [codePoints "s"] := by
  decide +kernel

/-- Blanks go behind a line separator inside the quotes, and the only literal of an alias is split
at its bar. -/
theorem transpile_breaks_strings :
    ((({} : Pipeline).transpile "def f():\n    return \"a\u2028b\"\n" none "<source>").1 =
        .ok "pub fn f() \x7b\n  \"a\u2028  b\"\n\x7d\n" ∧
      (∃ statements f ctx,
        readModule ({} : Pipeline).options.names "def f():\n    return \"a\u2028b\"\n" =
          .ok statements ∧
        HasBody (settingOf ({} : Pipeline).options "def f():\n    return \"a\u2028b\"\n" statements)
          statements f ctx ∧
        codePoints "a\u2028b" ∈ writtenFunction ctx (bodyState ({} : Pipeline).registry) f) ∧
      ¬ (quotePoints .unicode (codePoints "a\u2028b")).toList <:+:
        "pub fn f() \x7b\n  \"a\u2028  b\"\n\x7d\n".toList) ∧
    (({} : Pipeline).transpile "Kind = Literal[\"a|b\"]\n" none "<source>").1 =
        .ok "pub type Kind \x7b\n  \"a\n  b\"\n\x7d\n" ∧
      ¬ (quotePoints .ascii (codePoints "a|b")).toList <:+:
        "pub type Kind \x7b\n  \"a\n  b\"\n\x7d\n".toList := by
  have hwritten : codePoints "a\u2028b" ∈
      soleStrings {} "def f():\n    return \"a\u2028b\"\n" := by
    decide +kernel
  refine ⟨⟨?_, exists_of_mem_soleStrings hwritten, ?_⟩, ?_, ?_⟩
  all_goals decide +kernel

end Pipeline

end AikenForge
