/-
# Values of JSON read back

The text of a value is read as the value that was written, but for its numbers with a fraction or an
exponent, which are read as what their own texts say. This holds of every value that can be read at
all: its integers keep to the limit on digits, its texts are texts, and no object has a key twice.
-/

import AikenForge.Proofs.Json.Number

namespace AikenForge

open AikenForge.Number AikenForge.Text

/-- The number that the text of a number is read as. -/
def JsonReal.reread (r : JsonReal) : JsonReal :=
  match JsonReader.number ⟨0, r.render.toList⟩ with
  | .ok (.real s, _) => s
  | _ => r

namespace JsonValue

mutual

/-- The value that the text of a value is read as. -/
def reread : JsonValue → JsonValue
  | .real r => .real r.reread
  | .list items => .list (rereadItems items)
  | .object members => .object (rereadMembers members)
  | v => v

/-- The items that the texts of items are read as. -/
def rereadItems : List JsonValue → List JsonValue
  | [] => []
  | item :: rest => item.reread :: rereadItems rest

/-- The members that the texts of members are read as. -/
def rereadMembers : List JsonMember → List JsonMember
  | [] => []
  | .mk key value :: rest => .mk key value.reread :: rereadMembers rest

end

mutual

/-- Whether a value can be read: its integers keep to the limit on digits, its texts are texts, and
no object has a key twice. -/
def Proper : JsonValue → Prop
  | .int n => (Nat.toDigits 10 n.natAbs).length ≤ digitLimit
  | .text points => points.Proper
  | .list items => ProperItems items
  | .object members => ProperMembers members ∧ (members.map JsonMember.key).Nodup
  | _ => True

/-- Whether items can be read. -/
def ProperItems : List JsonValue → Prop
  | [] => True
  | item :: rest => item.Proper ∧ ProperItems rest

/-- Whether members can be read. -/
def ProperMembers : List JsonMember → Prop
  | [] => True
  | .mk key value :: rest => (key.Proper ∧ value.Proper) ∧ ProperMembers rest

end

/-- Items are proper one by one. -/
theorem properItems_iff {items : List JsonValue} :
    ProperItems items ↔ ∀ item ∈ items, item.Proper := by
  induction items with
  | nil => simp [ProperItems]
  | cons item rest ih => simp [ProperItems, ih]

/-- Members are proper one by one, with their keys. -/
theorem properMembers_iff {members : List JsonMember} :
    ProperMembers members ↔ ∀ m ∈ members, CodePoints.Proper m.key ∧ m.value.Proper := by
  induction members with
  | nil => simp [ProperMembers]
  | cons m rest ih =>
      cases m
      simp [ProperMembers, ih, JsonMember.key, JsonMember.value]

theorem rereadItems_eq_map (items : List JsonValue) : rereadItems items = items.map reread := by
  induction items with
  | nil => rfl
  | cons item rest ih => rw [rereadItems, ih, List.map_cons]

/-! ## Written items and members -/

/-- The text of items at a level, one after the other. -/
def itemsText (depth : Nat) (items : List JsonValue) : List Char :=
  (("," ++ breakAt depth).intercalate (renderItems depth items)).toList

/-- The text of members at a level, one after the other. -/
def membersText (depth : Nat) (members : List JsonMember) : List Char :=
  (("," ++ breakAt depth).intercalate (renderMembers depth members)).toList

/-- A break is followed by two blanks for each level. -/
theorem toList_breakAt (depth : Nat) :
    (breakAt depth).toList = '\n' :: List.replicate (2 * depth) ' ' := by
  rw [breakAt, String.toList_append]
  exact congrArg ('\n' :: ·) String.toList_ofList

theorem itemsText_singleton (depth : Nat) (item : JsonValue) :
    itemsText depth [item] = (renderAt depth item).toList := by
  simp [itemsText, renderItems]

/-- Items are separated by a comma and a break. -/
theorem itemsText_cons_cons (depth : Nat) (item other : JsonValue) (rest : List JsonValue) :
    itemsText depth (item :: other :: rest) =
      (renderAt depth item).toList ++
        ',' :: ((breakAt depth).toList ++ itemsText depth (other :: rest)) := by
  simp [itemsText, renderItems, String.intercalate_cons_cons, String.toList_append]

theorem membersText_singleton (depth : Nat) (key : CodePoints) (value : JsonValue) :
    membersText depth [.mk key value] =
      (quotePoints .ascii key).toList ++ ':' :: ' ' :: (renderAt depth value).toList := by
  simp [membersText, renderMembers]

/-- So are members, each with its key and a colon. -/
theorem membersText_cons_cons (depth : Nat) (key : CodePoints) (value : JsonValue)
    (other : JsonMember)
    (rest : List JsonMember) :
    membersText depth (.mk key value :: other :: rest) =
      (quotePoints .ascii key).toList ++ ':' :: ' ' :: ((renderAt depth value).toList ++
        ',' :: ((breakAt depth).toList ++ membersText depth (other :: rest))) := by
  cases other
  simp [membersText, renderMembers, String.intercalate_cons_cons, String.toList_append]

/-- A list that is not empty, with its items on lines of their own. -/
theorem toList_renderAt_list (depth : Nat) (item : JsonValue) (rest : List JsonValue) :
    (renderAt depth (.list (item :: rest))).toList =
      '[' :: ((breakAt (depth + 1)).toList ++ (itemsText (depth + 1) (item :: rest) ++
        ((breakAt depth).toList ++ [']']))) := by
  simp [renderAt, itemsText, String.toList_append]

/-- An object that is not empty, with its members on lines of their own. -/
theorem toList_renderAt_object (depth : Nat) (m : JsonMember) (rest : List JsonMember) :
    (renderAt depth (.object (m :: rest))).toList =
      '\x7b' :: ((breakAt (depth + 1)).toList ++ (membersText (depth + 1) (m :: rest) ++
        ((breakAt depth).toList ++ ['\x7d']))) := by
  simp [renderAt, membersText, String.toList_append]

end JsonValue

namespace JsonReader

open JsonValue

/-! ## Blanks -/

/-- A character that starts a value. -/
structure Opens (c : Char) : Prop where
  space : isSpace c = false
  bracket : c ≠ ']'
  mark : c ≠ '\uFEFF'

theorem opens_of_isDigit {c : Char} (h : c.isDigit = true) : Opens c := by
  have hbounds := Char.isDigit_iff_toNat.mp h
  constructor
  · rw [Bool.eq_false_iff]
    intro hspace
    simp only [isSpace, Bool.or_eq_true, beq_iff_eq] at hspace
    rcases hspace with ((rfl | rfl) | rfl) | rfl <;> cases h
  · rintro rfl
    cases h
  · rintro rfl
    cases h

/-- There is nothing to skip before another character. -/
theorem skipSpace_of_not_isSpace (p : Nat) {c : Char} (h : isSpace c = false) (rest : List Char) :
    Cursor.skipSpace ⟨p, c :: rest⟩ = ⟨p, c :: rest⟩ := by
  simp [Cursor.skipSpace, Cursor.skip, h]

/-- A break is skipped as a whole. -/
theorem skipSpace_breakAt (p depth : Nat) {c : Char} (h : isSpace c = false) (rest : List Char) :
    ∃ q, Cursor.skipSpace ⟨p, (breakAt depth).toList ++ c :: rest⟩ = ⟨q, c :: rest⟩ := by
  have hall : ∀ x ∈ (breakAt depth).toList, isSpace x = true := by
    intro x hx
    rw [toList_breakAt] at hx
    rcases List.mem_cons.mp hx with rfl | hx
    · rfl
    · rw [List.eq_of_mem_replicate hx]
      rfl
  have htake : ((breakAt depth).toList ++ c :: rest).takeWhile isSpace =
      (breakAt depth).toList := by
    rw [List.takeWhile_append_of_pos hall]
    simp [h]
  refine ⟨p + (breakAt depth).toList.length, ?_⟩
  simp only [Cursor.skipSpace, htake]
  exact skip_append p

/-- A rest after a value goes on with a comma or a line break, or not at all. -/
def Closes (rest : List Char) : Prop :=
  ∀ c ∈ rest.head?, c = ',' ∨ c = '\n'

theorem closes_comma (rest : List Char) : Closes (',' :: rest) := by
  intro c hc
  cases hc
  exact .inl rfl

/-- A break ends what is before it. -/
theorem closes_breakAt (depth : Nat) (rest : List Char) :
    Closes ((breakAt depth).toList ++ rest) := by
  intro c hc
  rw [toList_breakAt] at hc
  cases hc
  exact .inr rfl

/-- What ends a value ends a number. -/
theorem Closes.endsNumber {rest : List Char} (h : Closes rest) : EndsNumber rest := by
  intro c hc
  rcases h c hc with rfl | rfl <;> decide

/-! ## Values without parts -/

/-- A text that does not open a text, an object or a list is read as a word or as a number. -/
theorem value_eq_word (fuel p : Nat) {c : Char} (hquote : c ≠ '"') (hbrace : c ≠ '\x7b')
    (hbracket : c ≠ '[') (cs : List Char) :
    value (fuel + 1) ⟨p, c :: cs⟩ =
      match word? ⟨p, c :: cs⟩ with
      | some result => .ok result
      | none => number ⟨p, c :: cs⟩ := by
  rw [value]
  dsimp only
  split
  · rename_i heq
    exact absurd (List.cons.inj heq).1 hquote
  · rename_i heq
    exact absurd (List.cons.inj heq).1 hbrace
  · rename_i heq
    exact absurd (List.cons.inj heq).1 hbracket
  · rfl

/-- A text that starts like a number is read as one. -/
theorem value_eq_number (fuel p : Nat) (isNegative : Bool) {d : Char} (hd : d.isDigit = true)
    (cs : List Char) :
    value (fuel + 1) ⟨p, signText isNegative ++ d :: cs⟩ =
      number ⟨p, signText isNegative ++ d :: cs⟩ := by
  have hne (x : Char) (hx : x.isDigit = false) : x ≠ d := by
    rintro rfl
    rw [hd] at hx
    cases hx
  have hword : word? ⟨p, signText isNegative ++ d :: cs⟩ = none := by
    cases isNegative
    · simp [word?, wordValues, signText, hne 'n' rfl, hne 't' rfl, hne 'f' rfl, hne 'N' rfl,
        hne 'I' rfl, hne '-' rfl]
    · simp [word?, wordValues, signText, hne 'I' rfl]
  cases isNegative
  · have hvalue := value_eq_word fuel p (hne '"' rfl).symm (hne '\x7b' rfl).symm
      (hne '[' rfl).symm cs
    rw [show word? ⟨p, d :: cs⟩ = none from hword] at hvalue
    exact hvalue
  · have hvalue := value_eq_word fuel p (by decide : '-' ≠ '"') (by decide) (by decide) (d :: cs)
    rw [show word? ⟨p, '-' :: d :: cs⟩ = none from hword] at hvalue
    exact hvalue

/-- A whole number is read back up to where it ends. -/
theorem takes_value_int {n : Int} (h : (JsonValue.int n).Proper) (fuel : Nat) {rest : List Char}
    (hrest : Closes rest) : Takes (value (fuel + 1)) (toString n).toList rest (.int n) := by
  intro p
  obtain ⟨q, hq⟩ := takes_int h hrest.endsNumber p
  have hwhole := isWhole_toDigits n.natAbs
  obtain ⟨d, ds, hds⟩ := List.exists_cons_of_ne_nil hwhole.ne_nil
  have hd : d.isDigit = true := hwhole.digits d (hds ▸ List.mem_cons_self)
  refine ⟨q, ?_⟩
  rw [toList_toString_int, hds, List.append_assoc, List.cons_append] at hq ⊢
  rw [value_eq_number fuel p _ hd, hq]

/-- A number is written as one of the words that stand beyond numbers, or as its sign and the text
of a number that is no integer. -/
theorem cases_of_render (r : JsonReal) :
    (∃ entry ∈ wordValues, entry.2 = .real r ∧ entry.1 = r.render) ∨
      ∃ isNegative cs, IsRealText cs ∧ r.render.toList = signText isNegative ++ cs := by
  cases r with
  | nan => exact .inl ⟨("NaN", .real .nan), by simp [wordValues], rfl, rfl⟩
  | number isNegative magnitude =>
      cases magnitude with
      | infinite =>
          cases isNegative
          · exact .inl ⟨("Infinity", _), by simp [wordValues], rfl, rfl⟩
          · exact .inl ⟨("-Infinity", _), by simp [wordValues], rfl, rfl⟩
      | finite significand exponent =>
          refine .inr ⟨isNegative, _, isRealText_render (shortest significand exponent), ?_⟩
          rw [JsonReal.render, String.toList_append]
          · cases isNegative <;> rfl
          · intro heq
            cases heq

/-- A word is read back as its value. -/
theorem takes_value_word (entry : String × JsonValue) (h : entry ∈ wordValues) (fuel : Nat)
    (rest : List Char) : Takes (value (fuel + 1)) entry.1.toList rest entry.2 := by
  intro p
  refine ⟨p + entry.1.length, ?_⟩
  simp only [wordValues, List.mem_cons, List.not_mem_nil, or_false] at h
  rcases h with rfl | rfl | rfl | rfl | rfl | rfl <;> rfl

/-- A real number is read back as the one nearest to its digits. -/
theorem takes_value_real (r : JsonReal) (fuel : Nat) {rest : List Char} (hrest : Closes rest) :
    Takes (value (fuel + 1)) r.render.toList rest (.real r.reread) := by
  rcases cases_of_render r with ⟨entry, hentry, hvalue, htext⟩ | ⟨isNegative, cs, hcs, htext⟩
  · have hreread : r.reread = r := by
      simp only [wordValues, List.mem_cons, List.not_mem_nil, or_false] at hentry
      rcases hentry with rfl | rfl | rfl | rfl | rfl | rfl <;> cases hvalue <;> rfl
    rw [hreread, ← hvalue, ← htext]
    exact takes_value_word entry hentry fuel rest
  · obtain ⟨s, hs⟩ := hcs.takes isNegative
    have hreread : r.reread = s := by
      obtain ⟨q, hq⟩ := hs [] (by intro c hc; cases hc) 0
      rw [List.append_nil, ← htext] at hq
      rw [JsonReal.reread, hq]
    obtain ⟨whole, fraction, power, hparts, hwhole, -, -⟩ := hcs.parts
    obtain ⟨d, ds, hds⟩ := List.exists_cons_of_ne_nil hwhole.ne_nil
    have hd : d.isDigit = true := hwhole.digits d (hds ▸ List.mem_cons_self)
    intro p
    obtain ⟨q, hq⟩ := hs rest hrest.endsNumber p
    refine ⟨q, ?_⟩
    rw [htext, hreread, ← hq, hparts, hds, List.append_assoc, List.cons_append, List.cons_append]
    exact value_eq_number fuel p isNegative hd _

/-- A text is read back as its code points. -/
theorem takes_value_text {points : CodePoints} (h : points.Proper) (fuel : Nat) (rest : List Char) :
    Takes (value (fuel + 1)) (quotePoints .ascii points).toList rest (.text points) := by
  intro p
  obtain ⟨q, hq⟩ := takes_text h rest p
  refine ⟨q, ?_⟩
  rw [quotePoints_toList, List.cons_append] at hq ⊢
  rw [value]
  dsimp only
  rw [hq]
  rfl

/-! ## Values with parts -/

/-- A number opens with its sign or a digit. -/
theorem opens_of_signText (isNegative : Bool) {cs : List Char}
    (h : ∃ d ds, cs = d :: ds ∧ d.isDigit = true) :
    ∃ c rest, signText isNegative ++ cs = c :: rest ∧ Opens c := by
  obtain ⟨d, ds, rfl, hd⟩ := h
  cases isNegative
  · exact ⟨d, ds, rfl, opens_of_isDigit hd⟩
  · exact ⟨'-', d :: ds, rfl, by decide, by decide, by decide⟩

/-- The text of a value starts with a character that starts a value. -/
theorem opens_renderAt (depth : Nat) (v : JsonValue) :
    ∃ c cs, (renderAt depth v).toList = c :: cs ∧ Opens c := by
  have hwhole {cs : List Char} (h : IsWhole cs) (more : List Char) :
      ∃ d ds, cs ++ more = d :: ds ∧ d.isDigit = true := by
    obtain ⟨d, ds, rfl⟩ := List.exists_cons_of_ne_nil h.ne_nil
    exact ⟨d, ds ++ more, rfl, h.digits d List.mem_cons_self⟩
  match v with
  | .null => exact ⟨'n', ['u', 'l', 'l'], by rw [renderAt]; rfl, by decide, by decide, by decide⟩
  | .bool true =>
      exact ⟨'t', ['r', 'u', 'e'], by rw [renderAt]; rfl, by decide, by decide, by decide⟩
  | .bool false =>
      exact ⟨'f', ['a', 'l', 's', 'e'], by rw [renderAt]; rfl, by decide, by decide, by decide⟩
  | .int n =>
      rw [renderAt, toList_toString_int]
      have hdigits := hwhole (isWhole_toDigits n.natAbs) []
      rw [List.append_nil] at hdigits
      exact opens_of_signText _ hdigits
  | .real r =>
      rw [renderAt]
      rcases cases_of_render r with ⟨entry, hentry, -, htext⟩ | ⟨isNegative, cs, hcs, htext⟩
      · rw [← htext]
        simp only [wordValues, List.mem_cons, List.not_mem_nil, or_false] at hentry
        rcases hentry with rfl | rfl | rfl | rfl | rfl | rfl <;>
          exact ⟨_, _, rfl, by decide, by decide, by decide⟩
      · rw [htext]
        obtain ⟨whole, fraction, power, rfl, hw, -, -⟩ := hcs.parts
        exact opens_of_signText isNegative (hwhole hw _)
  | .text points =>
      rw [renderAt, quotePoints_toList]
      exact ⟨_, _, rfl, by decide, by decide, by decide⟩
  | .list [] => exact ⟨'[', [']'], by rw [renderAt]; rfl, by decide, by decide, by decide⟩
  | .list (item :: rest) =>
      rw [toList_renderAt_list]
      exact ⟨_, _, rfl, by decide, by decide, by decide⟩
  | .object [] => exact ⟨'\x7b', ['\x7d'], by rw [renderAt]; rfl, by decide, by decide, by decide⟩
  | .object (m :: rest) =>
      rw [toList_renderAt_object]
      exact ⟨_, _, rfl, by decide, by decide, by decide⟩

/-- Items open with what opens their first one. -/
theorem opens_itemsText (depth : Nat) (item : JsonValue) (rest : List JsonValue) :
    ∃ c cs, itemsText depth (item :: rest) = c :: cs ∧ Opens c := by
  obtain ⟨c, cs, hcs, hopens⟩ := opens_renderAt depth item
  cases rest with
  | nil => exact ⟨c, cs, by rw [itemsText_singleton, hcs], hopens⟩
  | cons other rest => exact ⟨c, _, by rw [itemsText_cons_cons, hcs, List.cons_append], hopens⟩

/-- Members open with the quote of their first key. -/
theorem head_membersText (depth : Nat) (m : JsonMember) (rest : List JsonMember) :
    ∃ cs, membersText depth (m :: rest) = '"' :: cs := by
  cases m with
  | mk key value =>
      cases rest with
      | nil => exact ⟨_, by rw [membersText_singleton, quotePoints_toList, List.cons_append]⟩
      | cons other rest =>
          exact ⟨_, by rw [membersText_cons_cons, quotePoints_toList, List.cons_append]⟩

/-- A key that is not there yet goes to the end. -/
theorem insert_of_notMem {key : CodePoints} {members : List JsonMember}
    (h : key ∉ members.map JsonMember.key) (value : JsonValue) :
    JsonMember.insert key value members = members ++ [.mk key value] := by
  induction members with
  | nil => rfl
  | cons m rest ih =>
      cases m with
      | mk k v =>
          rw [List.map_cons, List.mem_cons, not_or] at h
          have hkey : (k == key) = false := beq_false_of_ne (Ne.symm h.1)
          simp only [JsonMember.insert, hkey, Bool.false_eq_true, if_false, ih h.2,
            List.cons_append]

section Steps

variable {depth fuel : Nat} {rest : List Char}

/-- Items that are read back make a list. -/
theorem Takes.list {item : JsonValue} {items found : List JsonValue}
    (h : Takes (JsonReader.items fuel)
      (itemsText (depth + 1) (item :: items) ++ ((breakAt depth).toList ++ [']'])) rest found) :
    Takes (value (fuel + 1)) (renderAt depth (.list (item :: items))).toList rest
      (.list found) := by
  intro p
  obtain ⟨c, cs, hcs, hopens⟩ := opens_itemsText (depth + 1) item items
  obtain ⟨q, hq⟩ := skipSpace_breakAt (p + 1) (depth + 1) hopens.space
    (cs ++ ((breakAt depth).toList ++ [']']) ++ rest)
  obtain ⟨last, hlast⟩ := h q
  refine ⟨last, ?_⟩
  rw [hcs] at hlast
  rw [toList_renderAt_list, hcs, value]
  simp only [List.cons_append, List.append_assoc, Cursor.skip, List.drop_succ_cons,
    List.drop_zero] at hq hlast ⊢
  rw [hq]
  have hhead : (some c == some ']') = false := by simpa using hopens.bracket
  simp only [List.head?_cons, hhead, Bool.false_eq_true, if_false, hlast, bind, Except.bind, pure,
    Except.pure]

/-- Members that are read back make an object. -/
theorem Takes.object {m : JsonMember} {members found : List JsonMember}
    (h : Takes (JsonReader.members fuel [])
      (membersText (depth + 1) (m :: members) ++ ((breakAt depth).toList ++ ['\x7d'])) rest found) :
    Takes (value (fuel + 1)) (renderAt depth (.object (m :: members))).toList rest
      (.object found) := by
  intro p
  obtain ⟨cs, hcs⟩ := head_membersText (depth + 1) m members
  obtain ⟨q, hq⟩ := skipSpace_breakAt (p + 1) (depth + 1) (by decide : isSpace '"' = false)
    (cs ++ ((breakAt depth).toList ++ ['\x7d']) ++ rest)
  obtain ⟨last, hlast⟩ := h q
  refine ⟨last, ?_⟩
  rw [hcs] at hlast
  rw [toList_renderAt_object, hcs, value]
  simp only [List.cons_append, List.append_assoc, Cursor.skip, List.drop_succ_cons,
    List.drop_zero] at hq hlast ⊢
  rw [hq]
  have hhead : (some '"' == some '\x7d') = false := by decide
  simp only [List.head?_cons, hhead, Bool.false_eq_true, if_false, hlast, bind, Except.bind, pure,
    Except.pure]

/-- The last item, with the break and the bracket after it. -/
theorem Takes.item {item w : JsonValue}
    (h : Takes (value fuel) (renderAt (depth + 1) item).toList
      ((breakAt depth).toList ++ ']' :: rest) w) :
    Takes (JsonReader.items (fuel + 1))
      (itemsText (depth + 1) [item] ++ ((breakAt depth).toList ++ [']'])) rest [w] := by
  intro p
  obtain ⟨q, hq⟩ := h p
  obtain ⟨last, hlast⟩ := skipSpace_breakAt q depth (by decide : isSpace ']' = false) rest
  refine ⟨last + 1, ?_⟩
  rw [itemsText_singleton, items]
  simp only [List.append_assoc, List.cons_append, List.nil_append, hq, hlast, bind, Except.bind]
  rfl

/-- An item, with the comma and the items after it. -/
theorem Takes.items {item other w : JsonValue} {items found : List JsonValue} {cs : List Char}
    (h : Takes (value fuel) (renderAt (depth + 1) item).toList
      (',' :: ((breakAt (depth + 1)).toList ++
        (itemsText (depth + 1) (other :: items) ++ cs) ++ rest))
      w)
    (hmore : Takes (JsonReader.items fuel) (itemsText (depth + 1) (other :: items) ++ cs)
      rest found) :
    Takes (JsonReader.items (fuel + 1)) (itemsText (depth + 1) (item :: other :: items) ++ cs) rest
      (w :: found) := by
  intro p
  obtain ⟨q, hq⟩ := h p
  obtain ⟨c, ds, hds, hopens⟩ := opens_itemsText (depth + 1) other items
  obtain ⟨next, hnext⟩ := skipSpace_breakAt (q + 1) (depth + 1) hopens.space (ds ++ cs ++ rest)
  obtain ⟨last, hlast⟩ := hmore next
  refine ⟨last, ?_⟩
  have hcomma := skipSpace_of_not_isSpace q (by decide : isSpace ',' = false)
    ((breakAt (depth + 1)).toList ++ (itemsText (depth + 1) (other :: items) ++ cs) ++ rest)
  rw [itemsText_cons_cons, JsonReader.items]
  simp only [List.append_assoc, List.cons_append, hds] at hq hcomma hnext hlast ⊢
  simp only [hq, hcomma, bind, Except.bind, Cursor.skip, List.drop_succ_cons, List.drop_zero, hnext,
    hlast]
  rfl

/-- A member is read up to what follows its value: the brace that closes the object, or a comma
before the next member. -/
theorem member_value {key : CodePoints} (hkey : key.Proper) {v w : JsonValue} {after : List Char}
    (h : Takes (value fuel) (renderAt (depth + 1) v).toList after w) (found : List JsonMember)
    (p : Nat) :
    ∃ q,
      (∀ last tail, Cursor.skipSpace ⟨q, after⟩ = ⟨last, '\x7d' :: tail⟩ →
        JsonReader.members (fuel + 1) found
            ⟨p, (quotePoints .ascii key).toList ++ ':' :: ' ' ::
              ((renderAt (depth + 1) v).toList ++ after)⟩ =
          .ok (JsonMember.insert key w found, ⟨last + 1, tail⟩)) ∧
      ∀ next tail, Cursor.skipSpace ⟨q, after⟩ = ⟨next, ',' :: tail⟩ →
        JsonReader.members (fuel + 1) found
            ⟨p, (quotePoints .ascii key).toList ++ ':' :: ' ' ::
              ((renderAt (depth + 1) v).toList ++ after)⟩ =
          JsonReader.members fuel (JsonMember.insert key w found)
            (Cursor.skipSpace ⟨next + 1, tail⟩) := by
  obtain ⟨c, cs, hcs, hopens⟩ := opens_renderAt (depth + 1) v
  obtain ⟨colon, hcolon⟩ :=
    takes_text hkey (':' :: ' ' :: ((renderAt (depth + 1) v).toList ++ after)) p
  obtain ⟨q, hq⟩ := h (colon + 1 + 1)
  have hquote : ((quotePoints .ascii key).toList ++
      ':' :: ' ' :: ((renderAt (depth + 1) v).toList ++ after)).head? = some '"' := by
    rw [quotePoints_toList]
    rfl
  have hskip := skipSpace_of_not_isSpace colon (by decide : isSpace ':' = false)
    (' ' :: ((renderAt (depth + 1) v).toList ++ after))
  have hblank : Cursor.skipSpace ⟨colon + 1, ' ' :: ((renderAt (depth + 1) v).toList ++ after)⟩ =
      ⟨colon + 1 + 1, (renderAt (depth + 1) v).toList ++ after⟩ := by
    have htake : (' ' :: (c :: cs ++ after)).takeWhile isSpace = [' '] := by
      simp [hopens.space, show isSpace ' ' = true from rfl]
    rw [hcs]
    simp only [Cursor.skipSpace, htake]
    rfl
  refine ⟨q, fun last tail hlast => ?_, fun next tail hnext => ?_⟩
  · rw [JsonReader.members]
    simp only [hquote, bne_self_eq_false, Bool.false_eq_true, if_false, hcolon, bind, Except.bind,
      hskip, List.head?_cons, Cursor.skip, List.drop_succ_cons, List.drop_zero, hblank, hq, hlast]
    rfl
  · rw [JsonReader.members]
    simp only [hquote, bne_self_eq_false, Bool.false_eq_true, if_false, hcolon, bind, Except.bind,
      hskip, List.head?_cons, Cursor.skip, List.drop_succ_cons, List.drop_zero, hblank, hq, hnext]

/-- The last member, with the break and the brace after it. -/
theorem Takes.member {key : CodePoints} (hkey : key.Proper) {v w : JsonValue}
    {found : List JsonMember}
    (hnew : key ∉ found.map JsonMember.key)
    (h : Takes (value fuel) (renderAt (depth + 1) v).toList
      ((breakAt depth).toList ++ '\x7d' :: rest) w) :
    Takes (JsonReader.members (fuel + 1) found)
      (membersText (depth + 1) [.mk key v] ++ ((breakAt depth).toList ++ ['\x7d'])) rest
      (found ++ [.mk key w]) := by
  intro p
  obtain ⟨q, hclose, -⟩ := member_value hkey h found p
  obtain ⟨last, hlast⟩ := skipSpace_breakAt q depth (by decide : isSpace '\x7d' = false) rest
  refine ⟨last + 1, ?_⟩
  have hmember := hclose last rest hlast
  rw [membersText_singleton]
  simp only [List.append_assoc, List.cons_append, List.nil_append] at hmember ⊢
  rw [hmember, insert_of_notMem hnew]

/-- A member, with the comma and the members after it. -/
theorem Takes.members {key : CodePoints} (hkey : key.Proper) {v w : JsonValue} {other : JsonMember}
    {members found more : List JsonMember} {cs : List Char} (hnew : key ∉ found.map JsonMember.key)
    (h : Takes (value fuel) (renderAt (depth + 1) v).toList
      (',' :: ((breakAt (depth + 1)).toList ++
        (membersText (depth + 1) (other :: members) ++ cs) ++ rest)) w)
    (hmore : Takes (JsonReader.members fuel (found ++ [.mk key w]))
      (membersText (depth + 1) (other :: members) ++ cs) rest more) :
    Takes (JsonReader.members (fuel + 1) found)
      (membersText (depth + 1) (.mk key v :: other :: members) ++ cs) rest more := by
  intro p
  obtain ⟨q, -, hcomma⟩ := member_value hkey h found p
  obtain ⟨ds, hds⟩ := head_membersText (depth + 1) other members
  obtain ⟨next, hnext⟩ := skipSpace_breakAt (q + 1) (depth + 1) (by decide : isSpace '"' = false)
    (ds ++ cs ++ rest)
  obtain ⟨last, hlast⟩ := hmore next
  refine ⟨last, ?_⟩
  have hmember := hcomma q _ (skipSpace_of_not_isSpace q (by decide : isSpace ',' = false)
    ((breakAt (depth + 1)).toList ++ (membersText (depth + 1) (other :: members) ++ cs) ++ rest))
  rw [membersText_cons_cons]
  simp only [List.append_assoc, List.cons_append, hds] at hmember hnext hlast ⊢
  rw [hmember, hnext, insert_of_notMem hnew, hlast]

end Steps

mutual

/-- The text of a value is read as the value with its numbers as they are read. -/
theorem takes_value : ∀ (fuel : Nat) (v : JsonValue), v.Proper → ∀ (depth : Nat) (rest : List Char),
    (renderAt depth v).toList.length ≤ fuel → Closes rest →
    Takes (value fuel) (renderAt depth v).toList rest v.reread
  | 0, v, _, depth, _, hfuel, _ => by
      obtain ⟨c, cs, hcs, -⟩ := opens_renderAt depth v
      simp [hcs] at hfuel
  | fuel + 1, v, h, depth, rest, hfuel, hrest => by
      cases v with
      | null => exact takes_value_word ("null", .null) (by simp [wordValues]) fuel rest
      | bool b =>
          cases b with
          | true => exact takes_value_word ("true", .bool true) (by simp [wordValues]) fuel rest
          | false => exact takes_value_word ("false", .bool false) (by simp [wordValues]) fuel rest
      | int n => exact takes_value_int h fuel hrest
      | real r => exact takes_value_real r fuel hrest
      | text points => exact takes_value_text h fuel rest
      | list items =>
          cases items with
          | nil =>
              intro p
              refine ⟨p + 1 + 1, ?_⟩
              rw [renderAt]
              rfl
          | cons item items =>
              have hlength : (itemsText (depth + 1) (item :: items)).length + 1 ≤ fuel := by
                rw [toList_renderAt_list] at hfuel
                simp only [List.length_cons, List.length_append] at hfuel
                omega
              exact (takes_items fuel item items h depth rest hlength).list
      | object members =>
          cases members with
          | nil =>
              intro p
              refine ⟨p + 1 + 1, ?_⟩
              rw [renderAt]
              rfl
          | cons m members =>
              have hlength : (membersText (depth + 1) (m :: members)).length + 1 ≤ fuel := by
                rw [toList_renderAt_object] at hfuel
                simp only [List.length_cons, List.length_append] at hfuel
                omega
              exact (takes_members fuel m members h.1 depth rest [] hlength h.2).object

/-- The text of items is read up to the bracket that closes them. -/
theorem takes_items : ∀ (fuel : Nat) (item : JsonValue) (items : List JsonValue),
    ProperItems (item :: items) → ∀ (depth : Nat) (rest : List Char),
    (itemsText (depth + 1) (item :: items)).length + 1 ≤ fuel →
    Takes (JsonReader.items fuel)
      (itemsText (depth + 1) (item :: items) ++ ((breakAt depth).toList ++ [']'])) rest
      (rereadItems (item :: items))
  | 0, _, _, _, _, _, hfuel => by simp at hfuel
  | fuel + 1, item, items, h, depth, rest, hfuel => by
      cases items with
      | nil =>
          rw [itemsText_singleton] at hfuel
          exact (takes_value fuel item h.1 (depth + 1) _ (by omega) (closes_breakAt depth _)).item
      | cons other items =>
          rw [itemsText_cons_cons] at hfuel
          simp only [List.length_append, List.length_cons] at hfuel
          exact (takes_value fuel item h.1 (depth + 1) _ (by omega) (closes_comma _)).items
            (takes_items fuel other items h.2 depth rest (by omega))

/-- The text of members is read up to the brace that closes them, after those found before. -/
theorem takes_members : ∀ (fuel : Nat) (m : JsonMember) (ms : List JsonMember),
    ProperMembers (m :: ms) → ∀ (depth : Nat) (rest : List Char) (found : List JsonMember),
    (membersText (depth + 1) (m :: ms)).length + 1 ≤ fuel →
    (found.map JsonMember.key ++ (m :: ms).map JsonMember.key).Nodup →
    Takes (JsonReader.members fuel found)
      (membersText (depth + 1) (m :: ms) ++ ((breakAt depth).toList ++ ['\x7d'])) rest
      (found ++ rereadMembers (m :: ms))
  | 0, _, _, _, _, _, _, hfuel, _ => by simp at hfuel
  | fuel + 1, .mk key v, ms, h, depth, rest, found, hfuel, hnodup => by
      have hnew : key ∉ found.map JsonMember.key := fun hkey =>
        (List.nodup_append.mp hnodup).2.2 key hkey key List.mem_cons_self rfl
      cases ms with
      | nil =>
          rw [membersText_singleton] at hfuel
          simp only [List.length_append, List.length_cons] at hfuel
          exact (takes_value fuel v h.1.2 (depth + 1) _ (by omega)
            (closes_breakAt depth _)).member h.1.1 hnew
      | cons other ms =>
          rw [membersText_cons_cons] at hfuel
          simp only [List.length_append, List.length_cons] at hfuel
          have hmore := takes_members fuel other ms h.2 depth rest (found ++ [.mk key v.reread])
            (by omega) (by simpa [JsonMember.key] using hnodup)
          rw [List.append_assoc] at hmore
          exact (takes_value fuel v h.1.2 (depth + 1) _ (by omega)
            (closes_comma _)).members h.1.1 hnew hmore

end

/-- The text of a value is read as the value with its numbers as they are read. -/
theorem read_render {v : JsonValue} (h : v.Proper) : read v.render.toList = .ok v.reread := by
  obtain ⟨c, cs, hcs, hopens⟩ := opens_renderAt 0 v
  have hlength : (renderAt 0 v).toList.length ≤ 2 * (renderAt 0 v).toList.length + 2 := by omega
  obtain ⟨q, hq⟩ := takes_value _ v h 0 [] hlength (by intro c hc; cases hc) 0
  have hmark : ((c :: cs).head? == some '\uFEFF') = false := by simpa using hopens.mark
  rw [JsonValue.render, read]
  rw [List.append_nil] at hq
  rw [hcs] at hq ⊢
  rw [hmark, skipSpace_of_not_isSpace 0 hopens.space, hq]
  rfl

end JsonReader

end AikenForge
