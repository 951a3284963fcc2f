/-
# Texts of a shape

A text has a shape if it closes what it opens and, where the shape is sound, its outline spells
tokens that bind as tightly as the shape does. Texts are put together as shapes are. What stands in
brackets needs to be closed only; it may be missing or may not read at all.
-/

import AikenForge.Proofs.Inlined.Joint
import AikenForge.Proofs.Inlined.Outline
import AikenForge.Proofs.Inlined.Shape

namespace AikenForge.Readback

open AikenForge.Source AikenForge.Number AikenForge.Text AikenForge.Outline

/-! ## Texts and the tokens of their outlines -/

/-- A text closes what it opens, and its outline spells tokens. -/
structure Shows (text : String) (ts : List Token) : Prop where
  closed : Closed text
  spells : Spells (outline text) ts

variable {text shown : String} {ts : List Token}

/-- A text shows the tokens that its outline spells. -/
theorem shows_of_outlines (h : Outlines text shown) (hspells : Spells shown ts) : Shows text ts :=
  ⟨h.closed, h.outline_eq ▸ hspells⟩

/-- A text without brackets and quotes is closed. -/
theorem closed_bare (h : text.toList.all isBare = true) : Closed text :=
  (outlines_bare h).closed

theorem spells_blank : Spells "_" [.word "_"] :=
  spells_word (by decide)

theorem spells_roundBlank : Spells "(_)" (bracketed .round [.word "_"]) := by
  have htext : "(" ++ "_" ++ ")" = "(_)" := rfl
  exact htext ▸ spells_round spells_blank

theorem spells_squareBlank : Spells "[_]" (bracketed .square [.word "_"]) := by
  have htext : "[" ++ "_" ++ "]" = "[_]" := rfl
  exact htext ▸ spells_square spells_blank

/-- A minus in front is one more token. -/
theorem Shows.minus (h : Shows text ts) :
    Shows ("-" ++ text) (.symbol Sign.minus.symbol :: ts) :=
  shows_of_outlines ((outlines_bare (by decide)).append h.closed) (spells_negative h.spells)

/-- A negation in front is one more token, as no equals sign can follow it. -/
theorem Shows.not (h : Shows text ts) (hstarts : Starts .loose ts) :
    Shows ("!" ++ text) (.symbol Sign.not.symbol :: ts) :=
  shows_of_outlines ((outlines_bare (by decide)).append h.closed) (spells_not h.spells hstarts)

/-- An operator between two texts is one token between theirs. -/
theorem Shows.between {left right divider : String} {symbol : Symbol} {ls rs : List Token}
    (hl : Shows left ls) (hr : Shows right rs) (hdivides : Divides divider symbol)
    (hbare : divider.toList.all isBare = true) :
    Shows (left ++ divider ++ right) (ls ++ .symbol symbol :: rs) :=
  shows_of_outlines ((Outlines.append hl.closed (outlines_bare hbare)).append hr.closed)
    (spells_between hdivides hl.spells hr.spells)

/-- A mark between blanks. -/
theorem Shows.around {left right mark : String} {symbol : Symbol} {ls rs : List Token}
    (hl : Shows left ls) (hr : Shows right rs) (hdivides : Divides (" " ++ mark ++ " ") symbol)
    (hbare : (" " ++ mark ++ " ").toList.all isBare = true) :
    Shows (left ++ " " ++ mark ++ " " ++ right) (ls ++ .symbol symbol :: rs) := by
  have hshows := hl.between hr hdivides hbare
  simpa only [String.append_assoc] using hshows

/-- The texts of the connectives have no brackets and no quotes. -/
theorem isBare_connective (op : BoolOp) : (Lowering.connective op).1.toList.all isBare = true := by
  cases op <;> decide

/-- Operands joined by a connective show its tokens between theirs. -/
theorem shows_row {α : Type} {op : BoolOp} {operands : List α} {own : α → String}
    {tokens : α → List Token} (hne : operands ≠ [])
    (h : ∀ o ∈ operands, Shows (own o) (tokens o)) :
    Shows ((Lowering.connective op).1.intercalate (operands.map own))
      (rowTokens op (operands.map tokens)) := by
  induction operands with
  | nil => exact absurd rfl hne
  | cons first rest ih =>
      have hfirst := h first List.mem_cons_self
      cases rest with
      | nil => simpa [rowTokens, String.intercalate_singleton] using hfirst
      | cons second rest =>
          have hrest := ih (by simp) fun o ho => h o (List.mem_cons_of_mem first ho)
          simp only [List.map_cons, rowTokens, String.intercalate_cons_cons]
          exact hfirst.between hrest (divides_connective op) (isBare_connective op)

/-! ## Suffixes -/

/-- What is written after a text for a suffix. -/
structure Follows (suffix : Suffix) (tail : String) : Prop where
  closed : Closed tail
  spells {text : String} {ts : List Token} :
    Spells text ts → Spells (text ++ outline tail) (ts ++ suffix.tokens)

/-- A suffix shows its tokens after those of the text. -/
theorem Shows.suffixed {tail : String} {suffix : Suffix} (h : Shows text ts)
    (htail : Follows suffix tail) : Shows (text ++ tail) (ts ++ suffix.tokens) :=
  shows_of_outlines (Outlines.append h.closed htail.closed) (htail.spells h.spells)

/-- A label after a dot is a suffix. -/
theorem follows_field {label : String} (h : IsWord label) :
    Follows (.field label) ("." ++ label) := by
  have houtlines : Outlines ("." ++ label) ("." ++ label) :=
    (outlines_bare (by decide)).append (outlines_word h)
  refine ⟨houtlines.closed, fun hspells => ?_⟩
  rw [houtlines.outline_eq, ← String.append_assoc]
  exact spells_field hspells h

/-- Something closed in square brackets is a suffix. -/
theorem follows_position {inside : String} (h : Closed inside) :
    Follows .position ("[" ++ inside ++ "]") := by
  refine ⟨(outlines_square h).closed, fun {text ts} hspells => ?_⟩
  have hindex := spells_index hspells spells_blank
  rw [String.append_assoc, String.append_assoc] at hindex
  rw [(outlines_square h).outline_eq]
  exact hindex

/-- Something closed in round brackets is a suffix. -/
theorem follows_arguments {inside : String} (h : Closed inside) :
    Follows .arguments ("(" ++ inside ++ ")") := by
  refine ⟨(outlines_round h).closed, fun {text ts} hspells => ?_⟩
  have happly := spells_apply hspells spells_blank
  rw [String.append_assoc, String.append_assoc] at happly
  rw [(outlines_round h).outline_eq]
  exact happly

/-- The fields of a constructor stand where arguments stand. -/
theorem follows_fields {inside : String} (h : Closed inside) :
    Follows .arguments (" " ++ ("\x7b" ++ inside ++ "\x7d")) := by
  have houtlines : Outlines (" " ++ ("\x7b" ++ inside ++ "\x7d")) (" " ++ "(_)") :=
    (outlines_bare (by decide)).append (outlines_brace h)
  refine ⟨houtlines.closed, fun {text ts} hspells rest _ => ?_⟩
  have htext : (text ++ (" " ++ "(_)")).toList ++ rest =
      text.toList ++ ' ' :: '(' :: ("_".toList ++ ')' :: rest) := by
    simp [String.toList_append]
  rw [houtlines.outline_eq, htext]
  exact (hspells _ (ends_cons rfl)).append (.blank (scans_round spells_blank rest))

/-- A call of a function of lists. -/
theorem shows_listCall {name inside : String} (hname : IsWord name) (h : Closed inside) :
    Shows ("list" ++ ("." ++ name) ++ ("(" ++ inside ++ ")"))
      ([.word "list"] ++ (Suffix.field name).tokens ++ Suffix.arguments.tokens) := by
  have hlist : Shows "list" [.word "list"] :=
    shows_of_outlines (outlines_word (by decide)) (spells_word (by decide))
  exact (hlist.suffixed (follows_field hname)).suffixed (follows_arguments h)

/-- The tokens of a membership test are a call whose arguments are not shown. -/
theorem shows_membership {α : Type} (operand : α → List Token) {container item : String}
    (hcontainer : Closed container) (hitem : Closed item) :
    Shows ("list.has(" ++ container ++ ", " ++ item ++ ")")
      ((Part.membership false).tokens operand) := by
  have htext : "list.has(" ++ container ++ ", " ++ item ++ ")" =
      "list" ++ ("." ++ "has") ++ ("(" ++ (container ++ ", " ++ item) ++ ")") := by
    rw [← String.toList_inj]
    simp [String.toList_append]
  rw [htext]
  exact shows_listCall (by decide) ((hcontainer.append (closed_bare (by decide))).append hitem)

/-! ## Texts that have a shape -/

/-- A text closes what it opens, and if the shape is sound, its outline spells tokens that bind as
tightly as the shape does. -/
structure Shaped (shape : Shape) (text : String) : Prop where
  closed : Closed text
  exists_binds : shape.Sound → ∃ ts, Shows text ts ∧ Binds shape.strength ts

/-- A broken shape asks for a closed text only. -/
theorem shaped_broken (h : Closed text) : Shaped .broken text :=
  ⟨h, False.elim⟩

/-- Tokens that bind as an atom make the shape of one. -/
theorem Shows.atom (h : Shows text ts) (hbinds : Binds .atom ts) : Shaped .atom text :=
  ⟨h.closed, fun _ => ⟨ts, h, hbinds⟩⟩

/-- The shape of a text with a suffix. -/
theorem Shaped.suffixed {shape : Shape} {tail : String} {suffix : Suffix} (h : Shaped shape text)
    (htail : Follows suffix tail) : Shaped (.suffixed shape) (text ++ tail) := by
  refine ⟨h.closed.append htail.closed, fun hsound => ?_⟩
  obtain ⟨ts, hshows, hbinds⟩ := h.exists_binds hsound.1
  rw [Shape.strength, eq_atom_of_rank_le hsound.2]
  exact ⟨_, hshows.suffixed htail, hbinds.suffixed suffix hsound.2⟩

/-- An atom with a suffix is an atom. -/
theorem Shaped.atom_suffixed {tail : String} {suffix : Suffix} (h : Shaped .atom text)
    (htail : Follows suffix tail) : Shaped .atom (text ++ tail) := by
  have hsuffixed := h.suffixed htail
  exact ⟨hsuffixed.closed, fun _ => hsuffixed.exists_binds ⟨trivial, Nat.le_refl _⟩⟩

theorem Shaped.minus {shape : Shape} (h : Shaped shape text) :
    Shaped (.signed .minus shape) ("-" ++ text) := by
  refine ⟨(closed_bare (by decide)).append h.closed, fun hsound => ?_⟩
  obtain ⟨ts, hshows, hbinds⟩ := h.exists_binds hsound.1
  rw [Shape.strength, weaker_of_le hsound.2]
  exact ⟨_, hshows.minus, hbinds.signed .minus hsound.2⟩

theorem Shaped.not {shape : Shape} (h : Shaped shape text) :
    Shaped (.signed .not shape) ("!" ++ text) := by
  refine ⟨(closed_bare (by decide)).append h.closed, fun hsound => ?_⟩
  obtain ⟨ts, hshows, hbinds⟩ := h.exists_binds hsound.1
  rw [Shape.strength, weaker_of_le hsound.2]
  exact ⟨_, hshows.not hbinds.starts, hbinds.signed .not hsound.2⟩

/-- The shape of two texts around an operator. -/
theorem Shaped.operation {left right : Shape} {lt rt divider : String} (op : Operation)
    (hl : Shaped left lt) (hr : Shaped right rt) (hdivides : Divides divider op.symbol)
    (hbare : divider.toList.all isBare = true) :
    Shaped (.operation op left right) (lt ++ divider ++ rt) := by
  refine ⟨(hl.closed.append (closed_bare hbare)).append hr.closed, fun hsound => ?_⟩
  obtain ⟨⟨hleftSound, hleft⟩, hrightSound, hright⟩ := hsound
  obtain ⟨ls, hshowsl, hbindsl⟩ := hl.exists_binds hleftSound
  obtain ⟨rs, hshowsr, hbindsr⟩ := hr.exists_binds hrightSound
  rw [Shape.strength, weaker_operation (op.rank_le_leftPlace.trans hleft)
    (op.rank_le_rightPlace.trans hright)]
  exact ⟨_, hshowsl.between hshowsr hdivides hbare, hbindsl.operation hbindsr hleft hright⟩

/-! ## Conditionals and functions -/

/-- A conditional or a function takes in all that follows it. -/
theorem binds_keyword {name : String} (h : name = "if" ∨ name = "fn") (ts : List Token) :
    Binds .loose (.word name :: ts) :=
  ⟨⟨_, _, rfl, rfl⟩, weighs_keyword h ts, fun hne => absurd rfl hne⟩

/-- Braces with blanks inside them. -/
theorem outlines_block {inside : String} (h : Closed inside) :
    Outlines ("\x7b " ++ inside ++ " \x7d") "(_)" := by
  have hblank : Closed " " := closed_bare (by decide)
  have htext : "\x7b " ++ inside ++ " \x7d" = "\x7b" ++ (" " ++ inside ++ " ") ++ "\x7d" := by
    rw [← String.toList_inj]
    simp [String.toList_append]
  rw [htext]
  exact outlines_brace ((hblank.append h).append hblank)

/-- A conditional by its test; its branches stand in braces and do not count. -/
theorem shaped_conditional {test : Shape} {body orelse : String} (h : Shaped test text)
    (hbody : Closed body) (horelse : Closed orelse) :
    Shaped (.conditional test)
      ("if " ++ text ++ " \x7b " ++ body ++ " \x7d else \x7b " ++ orelse ++ " \x7d") := by
  have htail : Outlines (" " ++ (("\x7b " ++ body ++ " \x7d") ++ (" else " ++
      ("\x7b " ++ orelse ++ " \x7d")))) (" " ++ ("(_)" ++ (" else " ++ "(_)"))) :=
    (outlines_bare (by decide)).append ((outlines_block hbody).append
      ((outlines_bare (by decide)).append (outlines_block horelse)))
  have hall := (Outlines.append (outlines_bare (by decide : "if ".toList.all isBare = true))
    h.closed).append htail
  have htext : "if " ++ text ++ " \x7b " ++ body ++ " \x7d else \x7b " ++ orelse ++ " \x7d" =
      "if " ++ text ++ (" " ++ (("\x7b " ++ body ++ " \x7d") ++ (" else " ++
        ("\x7b " ++ orelse ++ " \x7d")))) := by
    rw [← String.toList_inj]
    simp [String.toList_append]
  rw [htext]
  refine ⟨hall.closed, fun hsound => ?_⟩
  obtain ⟨ts, hshows, -⟩ := h.exists_binds hsound
  refine ⟨.word "if" :: (ts ++ (bracketed .round [.word "_"] ++
    .word "else" :: bracketed .round [.word "_"])), shows_of_outlines hall ?_,
    binds_keyword (.inl rfl) _⟩
  intro rest _
  have hword (cs : List Char) :
      readToken ('e' :: 'l' :: 's' :: 'e' :: ' ' :: cs) = some (.word "else", ' ' :: cs) := rfl
  have horelse := Scans.token (hword _) (.blank (scans_round spells_blank rest))
  have hbody := (scans_round spells_blank _).append (.blank horelse)
  have htest := (hshows.spells _ (ends_cons rfl)).append (.blank hbody)
  simp only [String.toList_append, List.append_assoc]
  exact .token rfl (.blank htest)

/-- A function by its keyword; its body stands in braces and does not count. -/
theorem shaped_function {parameters body : String} (hparameters : Closed parameters)
    (hbody : Closed body) :
    Shaped .function ("fn(" ++ parameters ++ ") \x7b " ++ body ++ " \x7d") := by
  have hall : Outlines ("fn" ++ (("(" ++ parameters ++ ")") ++ (" " ++
      ("\x7b " ++ body ++ " \x7d")))) ("fn" ++ ("(_)" ++ (" " ++ "(_)"))) :=
    (outlines_bare (by decide)).append ((outlines_round hparameters).append
      ((outlines_bare (by decide)).append (outlines_block hbody)))
  have htext : "fn(" ++ parameters ++ ") \x7b " ++ body ++ " \x7d" =
      "fn" ++ (("(" ++ parameters ++ ")") ++ (" " ++ ("\x7b " ++ body ++ " \x7d"))) := by
    rw [← String.toList_inj]
    simp [String.toList_append]
  rw [htext]
  refine ⟨hall.closed, fun _ => ⟨.word "fn" :: (bracketed .round [.word "_"] ++
    bracketed .round [.word "_"]), shows_of_outlines hall ?_, binds_keyword (.inr rfl) _⟩⟩
  intro rest _
  simp only [String.toList_append, List.append_assoc]
  exact .token rfl ((scans_round spells_blank _).append (.blank (scans_round spells_blank rest)))

/-! ## Atoms -/

/-- Tokens that the grammar derives as an atom bind as one. -/
theorem binds_derived {t : Tree} (h : Derives (.expression .atom) ts [t])
    (hplace : t.place = .atom) :
    Binds .atom ts := by
  obtain ⟨own, hweighs, -, hplaces⟩ := h.exists_weighs
  rw [eq_atom_of_rank_le ((hplaces .atom).mp h)] at hweighs
  exact Stands.binds ⟨hplace ▸ h, hplace ▸ hweighs⟩ hplace

/-- A word that may stand for a value. -/
def IsName (text : String) : Prop :=
  IsWord text ∧ text ∉ ["if", "else", "fn"]

instance (text : String) : Decidable (IsName text) :=
  inferInstanceAs (Decidable (_ ∧ _))

theorem shaped_name (h : IsName text) : Shaped .atom text := by
  refine (shows_of_outlines (outlines_word h.1) (spells_word h.1)).atom ?_
  by_cases hkeyword : text ∈ keywords
  · have hliteral : ∃ value, (Token.word text).literal? = some value := by
      have hother := h.2
      simp only [keywords, List.mem_cons, List.not_mem_nil, or_false, not_or] at hkeyword hother
      rcases hkeyword with rfl | rfl | rfl | rfl | rfl | rfl
      · exact absurd rfl hother.1
      · exact absurd rfl hother.2.1
      · exact absurd rfl hother.2.2
      all_goals exact ⟨_, rfl⟩
    obtain ⟨value, hvalue⟩ := hliteral
    exact binds_derived (.literal hvalue) rfl
  · exact binds_derived (.name hkeyword) rfl

theorem shaped_number (n : Nat) : Shaped .atom (.ofList (Nat.toDigits 10 n)) := by
  refine (shows_of_outlines (outlines_bare ?_) (spells_number n)).atom
    (binds_derived (.literal rfl) rfl)
  refine List.all_eq_true.mpr fun c hc => ?_
  rw [String.toList_ofList] at hc
  exact isBare_of_isWordChar
    (isWordChar_of_isDigit (Nat.isDigit_of_mem_toDigits (by omega) (by omega) hc))

/-- A quoted string is one token, however it is written. -/
theorem shaped_quotePoints (alphabet : Alphabet) (points : CodePoints) :
    Shaped .atom (quotePoints alphabet points) :=
  (shows_of_outlines (outlines_quotePoints alphabet points)
      (spells_quotePoints fun _ hn => absurd hn List.not_mem_nil)).atom
    (binds_derived (.literal rfl) rfl)

/-- Bytes in hexadecimal are one token. -/
theorem shaped_bytes (content : List UInt8) :
    Shaped .atom ("#\"" ++ hexText content ++ "\"") :=
  (shows_of_outlines (outlines_bytes content) (spells_bytes [])).atom
    (binds_derived (.literal rfl) rfl)

/-- Something closed in round brackets is an atom. -/
theorem shaped_round {inside : String} (h : Closed inside) : Shaped .atom ("(" ++ inside ++ ")") :=
  (shows_of_outlines (outlines_round h) spells_roundBlank).atom
    (binds_derived (.group (derives_blank _)) rfl)

theorem shaped_square {inside : String} (h : Closed inside) : Shaped .atom ("[" ++ inside ++ "]") :=
  (shows_of_outlines (outlines_square h) spells_squareBlank).atom
    (binds_derived (.list (.someArguments (.one (derives_blank _)))) rfl)

theorem shaped_brace {inside : String} (h : Closed inside) :
    Shaped .atom ("\x7b" ++ inside ++ "\x7d") :=
  (shows_of_outlines (outlines_brace h) spells_roundBlank).atom
    (binds_derived (.group (derives_blank _)) rfl)

/-- A call of a function on lists is an atom. -/
theorem shaped_listCall {name inside : String} (hname : IsWord name) (h : Closed inside) :
    Shaped .atom ("list" ++ ("." ++ name) ++ ("(" ++ inside ++ ")")) := by
  have hlist : Stands [.word "list"] (.name "list") := ⟨.name (by decide), weighs_word (by decide)⟩
  have hcall := (hlist.suffixed (.field name) (by decide)).suffixed .arguments (by simp)
  exact (shows_listCall hname h).atom (hcall.binds rfl)

/-- A test of membership is such a call. -/
theorem shaped_membership {container item : String} (hcontainer : Closed container)
    (hitem : Closed item) : Shaped .atom ("list.has(" ++ container ++ ", " ++ item ++ ")") :=
  (shows_membership (fun _ : Unit => []) hcontainer hitem).atom
    ((Part.stands_membership _ (fun _ => .name "_") false).binds rfl)

/-! ## Operands in their places -/

/-- Brackets where the place asks for them, in the shape as in the text. -/
theorem Shaped.inPlace {shape : Shape} (h : Shaped shape text) (own place : Precedence)
    (strict : Bool) :
    Shaped (shape.inPlace own place strict) (bracketOperand own place strict text) := by
  unfold Shape.inPlace bracketOperand
  split
  · exact shaped_round h.closed
  · exact h

end AikenForge.Readback
