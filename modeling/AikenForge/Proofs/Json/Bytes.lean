/-
# Written values as bytes

The text of a value has none but ASCII characters and no carriage return. So each of its characters
is one byte, no line break in it is another one when it is read, and a file that the text was
written to holds the text.
-/

import AikenForge.Proofs.Json.Readback
import AikenForge.Text.Utf8

namespace AikenForge

open AikenForge.Number AikenForge.Text

/-- Whether a file gives a character back: one byte writes it, and it is no part of a longer line
break. -/
def isPlain (c : Char) : Bool :=
  c.toNat < 128 && c != '\r'

/-- A plain character is ASCII, and no carriage return. -/
theorem isPlain_iff {c : Char} : isPlain c = true ↔ c.toNat < 128 ∧ c ≠ '\r' := by
  simp [isPlain]

/-! ## Parts of a written value -/

theorem all_isPlain_digits {cs : List Char} (h : ∀ c ∈ cs, c.isDigit = true) :
    cs.all isPlain = true := by
  refine List.all_eq_true.mpr fun c hc => isPlain_iff.mpr ?_
  have hdigit := h c hc
  have hbounds : 48 ≤ c.toNat ∧ c.toNat ≤ 57 := Char.isDigit_iff_toNat.mp hdigit
  refine ⟨by omega, ?_⟩
  rintro rfl
  cases hdigit

theorem all_isPlain_hexDigits (width n : Nat) : (hexDigits width n).all isPlain = true := by
  induction width generalizing n with
  | zero => rfl
  | succ width ih =>
      have hdigit : ∀ d < 16, isPlain (hexDigit d) = true := by decide
      simp [hexDigits, ih, hdigit _ (Nat.mod_lt n (by omega))]

/-- An escape is plain. -/
theorem all_isPlain_unitEscape (n : Nat) : (unitEscape n).all isPlain = true := by
  rw [unitEscape, List.all_cons, List.all_cons, all_isPlain_hexDigits]
  rfl

theorem all_isPlain_codeEscape (n : Nat) : (codeEscape n).all isPlain = true := by
  unfold codeEscape
  split
  · exact all_isPlain_unitEscape n
  · rw [List.all_append, all_isPlain_unitEscape, all_isPlain_unitEscape]
    rfl

/-- The letters of escapes are plain. -/
theorem isPlain_of_escapeLetter? {c : Char} {n : Nat} (h : JsonReader.escapeLetter? c = some n) :
    isPlain c = true := by
  obtain ⟨before, after, hsplit, -⟩ := List.lookup_eq_some_iff.mp h
  have hall : [('"', 34), ('\\', 92), ('/', 47), ('b', 8), ('f', 12), ('n', 10), ('r', 13),
      ('t', 9)].all (fun entry => isPlain entry.1) = true := by decide
  exact List.all_eq_true.mp hall (c, n) (hsplit ▸ List.mem_append_right _ List.mem_cons_self)

/-- The smaller alphabet has no character beyond ASCII. -/
theorem escapeChar_of_le {c : Char} (h : 127 ≤ c.toNat) :
    escapeChar .ascii c = codeEscape c.toNat := by
  have hne (x : Char) (hx : x.toNat < 127) : (c == x) = false := by
    refine beq_false_of_ne ?_
    rintro rfl
    omega
  have hcontrol : ¬ c.toNat < 32 := by omega
  simp [escapeChar, hne, hcontrol, h]

/-- Every character is written plainly, by an escape if need be. -/
theorem all_isPlain_escapeChar (c : Char) : (escapeChar .ascii c).all isPlain = true := by
  by_cases hbeyond : 127 ≤ c.toNat
  · rw [escapeChar_of_le hbeyond]
    exact all_isPlain_codeEscape c.toNat
  rcases JsonReader.escapeChar_cases .ascii c with
    ⟨letter, -, hletter, hchars⟩ | ⟨-, hchars⟩ | ⟨⟨-, -, hcontrol⟩, hchars⟩
  · rw [hchars, List.all_cons, List.all_cons, isPlain_of_escapeLetter? hletter]
    rfl
  · rw [hchars]
    exact all_isPlain_codeEscape c.toNat
  · have hreturn : c ≠ '\r' := by
      rintro rfl
      exact hcontrol (by decide)
    rw [hchars, List.all_cons, isPlain_iff.mpr ⟨by omega, hreturn⟩]
    rfl

/-- A quoted text is plain, whatever it holds. -/
theorem all_isPlain_quotePoints (points : CodePoints) :
    (quotePoints .ascii points).toList.all isPlain = true := by
  have hpoint (n : Nat) : (writtenPoint .ascii n).all isPlain = true := by
    unfold writtenPoint
    split
    · exact all_isPlain_unitEscape n
    · exact all_isPlain_escapeChar _
  have hpoints : (points.flatMap (writtenPoint .ascii)).all isPlain = true := by
    rw [List.all_flatMap]
    exact List.all_eq_true.mpr fun n _ => hpoint n
  rw [JsonReader.quotePoints_toList, List.all_cons, List.all_append, hpoints]
  rfl

theorem all_isPlain_signText (isNegative : Bool) :
    (JsonReader.signText isNegative).all isPlain = true := by
  cases isNegative <;> rfl

theorem all_isPlain_int (n : Int) : (toString n).toList.all isPlain = true := by
  rw [JsonReader.toList_toString_int, List.all_append, all_isPlain_signText, Bool.true_and]
  exact all_isPlain_digits (JsonReader.isWhole_toDigits n.natAbs).digits

theorem all_isPlain_power {cs : List Char} (h : JsonReader.IsPower cs) : cs.all isPlain = true := by
  obtain ⟨sign, digits, rfl, hsign, -, hdigits⟩ := h.spelled
  rw [List.all_cons, List.all_cons, all_isPlain_digits hdigits]
  rcases hsign with rfl | rfl <;> rfl

/-- A real number is plain. -/
theorem all_isPlain_real (r : JsonReal) : r.render.toList.all isPlain = true := by
  rcases JsonReader.cases_of_render r with ⟨entry, hentry, -, htext⟩ | ⟨isNegative, cs, hcs, htext⟩
  · have hall : JsonReader.wordValues.all (fun entry => entry.1.toList.all isPlain) = true := by
      decide
    rw [← htext]
    exact List.all_eq_true.mp hall entry hentry
  · obtain ⟨whole, fraction, power, rfl, hwhole, hfraction, hpower⟩ := hcs.parts
    have hpoint : (JsonReader.fractionText fraction).all isPlain = true := by
      unfold JsonReader.fractionText
      split
      · rfl
      · rw [List.all_cons, all_isPlain_digits hfraction]
        rfl
    have hend : power.all isPlain = true := by
      rcases hpower with hpower | ⟨rfl, -⟩
      · exact all_isPlain_power hpower
      · rfl
    rw [htext, List.all_append, List.all_append, List.all_append, all_isPlain_signText,
      all_isPlain_digits hwhole.digits, hpoint, hend]
    rfl

theorem all_isPlain_breakAt (depth : Nat) :
    (JsonValue.breakAt depth).toList.all isPlain = true := by
  have hblanks : (List.replicate (2 * depth) ' ').all isPlain = true := by
    refine List.all_eq_true.mpr fun c hc => ?_
    rw [List.eq_of_mem_replicate hc]
    rfl
  rw [JsonValue.toList_breakAt, List.all_cons, hblanks]
  rfl

/-! ## The text of a value -/

namespace JsonValue

mutual

/-- A written value is plain, by induction on the value. -/
theorem all_isPlain_renderAt : ∀ (v : JsonValue) (depth : Nat),
    (renderAt depth v).toList.all isPlain = true
  | .null, _ => by
      rw [renderAt]
      decide
  | .bool true, _ => by
      rw [renderAt]
      decide
  | .bool false, _ => by
      rw [renderAt]
      decide
  | .int n, _ => all_isPlain_int n
  | .real r, _ => all_isPlain_real r
  | .text points, _ => all_isPlain_quotePoints points
  | .list [], _ => by
      rw [renderAt]
      decide
  | .list (item :: items), depth => by
      rw [toList_renderAt_list, List.all_cons, List.all_append, List.all_append, List.all_append,
        all_isPlain_itemsText (item :: items), all_isPlain_breakAt, all_isPlain_breakAt]
      rfl
  | .object [], _ => by
      rw [renderAt]
      decide
  | .object (m :: members), depth => by
      rw [toList_renderAt_object, List.all_cons, List.all_append, List.all_append, List.all_append,
        all_isPlain_membersText (m :: members), all_isPlain_breakAt, all_isPlain_breakAt]
      rfl

theorem all_isPlain_itemsText : ∀ (items : List JsonValue) (depth : Nat),
    (itemsText depth items).all isPlain = true
  | [], _ => rfl
  | [item], depth => by
      rw [itemsText_singleton]
      exact all_isPlain_renderAt item depth
  | item :: other :: items, depth => by
      rw [itemsText_cons_cons, List.all_append, List.all_cons, List.all_append,
        all_isPlain_renderAt item, all_isPlain_breakAt, all_isPlain_itemsText (other :: items)]
      rfl

theorem all_isPlain_membersText : ∀ (members : List JsonMember) (depth : Nat),
    (membersText depth members).all isPlain = true
  | [], _ => rfl
  | [.mk key value], depth => by
      rw [membersText_singleton, List.all_append, List.all_cons, List.all_cons,
        all_isPlain_quotePoints, all_isPlain_renderAt value]
      rfl
  | .mk key value :: other :: members, depth => by
      rw [membersText_cons_cons, List.all_append, List.all_cons, List.all_cons, List.all_append,
        List.all_cons, List.all_append, all_isPlain_quotePoints, all_isPlain_renderAt value,
        all_isPlain_breakAt, all_isPlain_membersText (other :: members)]
      rfl

end

end JsonValue

/-! ## Bytes -/

/-- Plain characters are read one by one, whatever bytes follow them. -/
theorem decodeUtf8From_append {cs : List Char} (h : cs.all isPlain = true) (p : Nat)
    (bytes : List UInt8) :
    decodeUtf8From p none (cs.flatMap String.utf8EncodeChar ++ bytes) =
      (decodeUtf8From (p + cs.length) none bytes).map (cs ++ ·) := by
  induction cs generalizing p with
  | nil =>
      rw [List.flatMap_nil, List.nil_append, List.length_nil, Nat.add_zero]
      cases decodeUtf8From p none bytes <;> rfl
  | cons c cs ih =>
      rw [List.all_cons, Bool.and_eq_true, isPlain_iff] at h
      have hbound : c.toNat < 128 := h.1.1
      have hsize : c.utf8Size = 1 := Char.utf8Size_eq_one_iff.mpr (Nat.lt_succ_iff.mp hbound)
      have hbyte : c.val.toUInt8.toNat = c.toNat := by
        rw [UInt32.toNat_toUInt8]
        exact Nat.mod_eq_of_lt (Nat.lt_trans hbound (by decide))
      rw [List.flatMap_cons, String.utf8EncodeChar_eq_singleton hsize, List.append_assoc,
        List.singleton_append, decodeUtf8From, hbyte, if_pos hbound, ih h.2, Char.ofNat_toNat,
        List.length_cons, Nat.add_assoc, Nat.add_comm 1]
      cases decodeUtf8From (p + (cs.length + 1)) none bytes <;> rfl

/-- Plain text has no line ends to unify. -/
theorem unifyLineEnds_append {cs : List Char} (h : cs.all isPlain = true) (rest : List Char) :
    unifyLineEnds (cs ++ rest) = cs ++ unifyLineEnds rest := by
  induction cs with
  | nil => rfl
  | cons c cs ih =>
      rw [List.all_cons, Bool.and_eq_true, isPlain_iff] at h
      rw [List.cons_append, unifyLineEnds, ih h.2, List.cons_append]
      · rintro others rfl
        exact absurd rfl h.1.2
      · rintro rfl
        exact absurd rfl h.1.2

/-- The bytes of plain characters are read as the characters. -/
theorem decodeUtf8From_of_isPlain {cs : List Char} (h : cs.all isPlain = true) (p : Nat) :
    decodeUtf8From p none (cs.flatMap String.utf8EncodeChar) = .ok cs := by
  have happend := decodeUtf8From_append h p []
  rw [List.append_nil] at happend
  rw [happend]
  exact congrArg Except.ok (List.append_nil cs)

theorem unifyLineEnds_of_isPlain {cs : List Char} (h : cs.all isPlain = true) :
    unifyLineEnds cs = cs := by
  have happend := unifyLineEnds_append h []
  rw [List.append_nil] at happend
  rw [happend]
  exact List.append_nil cs

/-- A file that the text of a value was written to holds that text. -/
theorem readText_encodeUtf8_render (v : JsonValue) :
    readText (encodeUtf8 v.render) = .ok v.render := by
  have hplain := v.all_isPlain_renderAt 0
  have hdecode : decodeUtf8 (encodeUtf8 v.render) = .ok v.render := by
    rw [decodeUtf8, encodeUtf8, JsonValue.render, decodeUtf8From_of_isPlain hplain]
    exact congrArg Except.ok String.ofList_toList
  rw [readText, hdecode]
  change Except.ok (String.ofList (unifyLineEnds v.render.toList)) = _
  rw [JsonValue.render, unifyLineEnds_of_isPlain hplain, String.ofList_toList]

end AikenForge
