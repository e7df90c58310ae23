import Mathlib.Algebra.Group.Nat.Defs
import StructuralTyping.TypeSource.Token

/-!
# Quoted text

Every text survives quoting, also one of bytes that are no text.  Quoted text is read back
(`unquote?_quote`), and it stands in type source as one well-formed token, whatever follows
it (`TypeSource.takeToken_quote`).

Both rest on what one piece is written as.  A character stands for itself, or it is an
escape as a stray byte is: a backslash, a letter and hexadecimal digits
(`escapePiece_cases`).
-/

namespace StructuralTyping

/-! ## Bytes -/

namespace ByteText

theorem fromUTF8?_toList (s : String) :
    String.fromUTF8? ⟨(s.toList.flatMap String.utf8EncodeChar).toArray⟩ = some s := by
  have hbytes : (⟨(s.toList.flatMap String.utf8EncodeChar).toArray⟩ : ByteArray) =
      s.toByteArray := by
    rw [← String.utf8Encode_toList, List.utf8Encode]
    exact ByteArray.ext List.data_toByteArray.symm
  rw [hbytes, String.fromUTF8?, dif_pos s.isValidUTF8]
  rfl

/-- A text is made again from its bytes. -/
theorem ofBytes_bytes (s : ByteText) : ofBytes s.bytes = s := by
  unfold ofBytes
  split
  · next t ht =>
    cases s with
    | valid s => exact congrArg valid (Option.some.inj (ht.symm.trans (fromUTF8?_toList s)))
    | stray b => exact absurd (b.isStray.symm.trans ht) (by simp)
  · next hstray =>
    cases s with
    | valid s => exact absurd (hstray.symm.trans (fromUTF8?_toList s)) (by simp)
    | stray b => rfl

theorem append_drop_of_front? {bs : List UInt8} {c : Char} (h : front? bs = some c) :
    String.utf8EncodeChar c ++ bs.drop c.utf8Size = bs := by
  obtain ⟨rest, hrest⟩ := ByteArray.exists_of_utf8DecodeChar?_eq_some h
  have hbytes : bs = String.utf8EncodeChar c ++ rest.data.toList := by
    simpa using congrArg (fun b : ByteArray => b.data.toList) hrest
  rw [hbytes, List.drop_left' (String.length_utf8EncodeChar c)]

theorem flatMap_bytes_piecesWithin (fuel : Nat) (bs : List UInt8) (hfuel : bs.length ≤ fuel) :
    (piecesWithin fuel bs).flatMap Piece.bytes = bs := by
  fun_induction piecesWithin fuel bs with
  | case1 bs => exact (List.eq_nil_of_length_eq_zero (Nat.le_zero.1 hfuel)).symm
  | case2 => rfl
  | case3 fuel b bs c hfront ih =>
    have hlength : ((b :: bs).drop c.utf8Size).length ≤ fuel := by
      rw [List.length_drop]
      have hpos := c.utf8Size_pos
      omega
    rw [List.flatMap_cons, ih hlength]
    exact append_drop_of_front? hfront
  | case4 fuel b bs hfront ih =>
    rw [List.flatMap_cons, ih (Nat.le_of_succ_le_succ hfuel)]
    rfl

/-- The pieces of a text hold its bytes. -/
theorem flatMap_bytes_pieces (s : ByteText) : s.pieces.flatMap Piece.bytes = s.bytes := by
  cases s with
  | valid s => exact List.flatMap_map ..
  | stray b => exact flatMap_bytes_piecesWithin _ _ (Nat.le_refl _)

end ByteText

/-! ## Hexadecimal digits -/

theorem hexValue?_hexDigit : ∀ d < 16, hexValue? (hexDigit d) = some d := by decide

theorem exists_of_mem_hexDigits {width n : Nat} {c : Char} (h : c ∈ hexDigits width n) :
    ∃ d < 16, c = hexDigit d := by
  induction width generalizing n with
  | zero => cases h
  | succ width ih =>
    rw [hexDigits, List.mem_append, List.mem_singleton] at h
    rcases h with h | rfl
    · exact ih h
    · exact ⟨n % 16, Nat.mod_lt n (by decide), rfl⟩

theorem takeHex?_append (width : Nat) (value : Nat) (cs rest : List Char) {n : Nat}
    (h : takeHex? width value cs = some (n, [])) :
    takeHex? width value (cs ++ rest) = some (n, rest) := by
  fun_induction takeHex? width value cs with
  | case1 n cs => simp_all [takeHex?]
  | case2 width n c cs d hd ih =>
    simp only [List.cons_append, takeHex?, hd]
    exact ih h
  | case3 => cases h
  | case4 => cases h

theorem takeHex?_succ {width value : Nat} {cs : List Char} {n d : Nat} {c : Char}
    (hc : hexValue? c = some d)
    (h : takeHex? width value cs = some (n, [])) :
    takeHex? (width + 1) value (cs ++ [c]) = some (n * 16 + d, []) := by
  induction width generalizing value cs with
  | zero =>
    obtain ⟨rfl, rfl⟩ : value = n ∧ cs = [] := by simpa [takeHex?] using h
    simp [takeHex?, hc]
  | succ width ih =>
    cases cs with
    | nil => cases h
    | cons b cs =>
      rw [takeHex?] at h
      rw [List.cons_append, takeHex?]
      split at h
      · exact ih h
      · cases h

/-- The last digits of a number are read back. -/
theorem takeHex?_hexDigits (width n : Nat) (rest : List Char) :
    takeHex? width 0 (hexDigits width n ++ rest) = some (n % 16 ^ width, rest) := by
  refine takeHex?_append width 0 _ rest ?_
  induction width generalizing n with
  | zero => simp [hexDigits, takeHex?, Nat.mod_one]
  | succ width ih =>
    rw [hexDigits, takeHex?_succ (hexValue?_hexDigit _ (Nat.mod_lt n (by decide))) (ih (n / 16)),
      Nat.pow_succ, Nat.mul_comm (16 ^ width) 16, Nat.mod_mul]
    simp
    omega

/-! ## Escapes -/

theorem utf8EncodeChar_of_lt {c : Char} (h : c.toNat < 128) :
    String.utf8EncodeChar c = [UInt8.ofNat c.toNat] := by
  have hsize : c.utf8Size = 1 := by
    rw [Char.utf8Size_eq_one_iff, UInt32.le_iff_toNat_le]
    exact Nat.le_of_lt_succ h
  rw [String.utf8EncodeChar_eq_singleton hsize, ← UInt8.ofNat_uInt32ToNat]
  rfl

theorem scalarBytes?_toNat (c : Char) : scalarBytes? c.toNat = some (String.utf8EncodeChar c) := by
  have hvalid : c.toNat.isValidChar := c.valid
  rw [scalarBytes?, dif_pos hvalid]
  rfl

open ByteText (Piece)
open TypeSource (escapesOk takeString)

/-- A piece is written as a backslash, a letter and hexadecimal digits. -/
structure IsEscape (p : Piece) (letter : Char) (digits : List Char) : Prop where
  text : escapePiece p = '\\' :: letter :: digits
  letter_ne : letter ≠ '\n' ∧ letter.toNat ≠ 0
  hexadecimal : ∀ d ∈ digits, ∃ v < 16, d = hexDigit v
  read : ∀ rest, readEscape? (letter :: (digits ++ rest)) = some (p.bytes, rest)
  known : ∀ rest, escapesOk true (letter :: (digits ++ rest)) = escapesOk false (digits ++ rest)

theorem isEscape_hex {p : Piece} {letter : Char} {width n : Nat}
    (htext : escapePiece p = '\\' :: letter :: hexDigits width n) (hlt : n < 16 ^ width)
    (h : (letter = 'x' ∧ width = 2 ∧ p.bytes = [UInt8.ofNat n]) ∨
      (letter = 'u' ∧ width = 4 ∧ scalarBytes? n = some p.bytes) ∨
      (letter = 'U' ∧ width = 8 ∧ scalarBytes? n = some p.bytes)) :
    IsEscape p letter (hexDigits width n) := by
  have htake : ∀ rest, takeHex? width 0 (hexDigits width n ++ rest) = some (n, rest) := by
    intro rest
    rw [takeHex?_hexDigits, Nat.mod_eq_of_lt hlt]
  refine ⟨htext, ?_, fun d hd => exists_of_mem_hexDigits hd, fun rest => ?_, fun rest => ?_⟩
  · rcases h with ⟨rfl, -⟩ | ⟨rfl, -⟩ | ⟨rfl, -⟩ <;> exact ⟨by decide, by decide⟩
  · rcases h with ⟨rfl, rfl, hbytes⟩ | ⟨rfl, rfl, hbytes⟩ | ⟨rfl, rfl, hbytes⟩ <;>
      simp [readEscape?, htake, hbytes]
  · rcases h with ⟨rfl, rfl, -⟩ | ⟨rfl, rfl, -⟩ | ⟨rfl, rfl, -⟩ <;> simp [escapesOk, htake]

theorem isEscape_letter {c letter : Char} (htext : escapeChar c = ['\\', letter])
    (hletter : letterControl? letter = some c.toNat) (hlt : c.toNat < 128) :
    IsEscape (.char c) letter [] := by
  refine ⟨htext, ?_, by simp, fun rest => ?_, fun rest => ?_⟩
  · constructor
    · rintro rfl
      cases hletter
    · intro hzero
      obtain rfl : letter = '\x00' := Char.toNat_inj.1 hzero
      cases hletter
  · rw [List.nil_append, Piece.bytes, utf8EncodeChar_of_lt hlt]
    unfold readEscape?
    split <;> simp_all [letterControl?]
  · simp [escapesOk, hletter]

theorem letterControl?_of_controlLetter? {n : Nat} {letter : Char}
    (h : controlLetter? n = some letter) : letterControl? letter = some n ∧ n < 128 := by
  unfold controlLetter? at h
  split at h <;> cases h <;> exact ⟨rfl, by decide⟩

/-- A character stands for itself or is written as an escape. -/
theorem escapeChar_cases (c : Char) :
    (escapeChar c = [c] ∧ c ≠ '"' ∧ c ≠ '\\' ∧ isPrintable c = true) ∨
      ∃ letter digits, IsEscape (.char c) letter digits := by
  by_cases hmark : c = '"' ∨ c = '\\'
  · right
    refine ⟨c, [], isEscape_letter ?_ ?_ ?_⟩
    · rcases hmark with rfl | rfl <;> rfl
    · rcases hmark with rfl | rfl <;> rfl
    · rcases hmark with rfl | rfl <;> decide
  · obtain ⟨hquote, hslash⟩ := not_or.1 hmark
    cases hprint : isPrintable c with
    | true => exact .inl ⟨by simp [escapeChar, hquote, hslash, hprint], hquote, hslash, rfl⟩
    | false =>
      right
      cases hcontrol : controlLetter? c.toNat with
      | some letter =>
        obtain ⟨hletter, hlt⟩ := letterControl?_of_controlLetter? hcontrol
        exact ⟨letter, [],
          isEscape_letter (by simp [escapeChar, hquote, hslash, hprint, hcontrol]) hletter hlt⟩
      | none =>
        by_cases hbyte : c.toNat < 32 ∨ c.toNat = 127
        · have hbytes : (Piece.char c).bytes = [UInt8.ofNat c.toNat] :=
            utf8EncodeChar_of_lt (by omega)
          refine ⟨'x', _, isEscape_hex ?_ (by omega) (.inl ⟨rfl, rfl, hbytes⟩)⟩
          simp [escapePiece, escapeChar, hquote, hslash, hprint, hcontrol, hbyte]
        · have hscalar := scalarBytes?_toNat c
          by_cases hshort : c.toNat < 0x10000
          · refine ⟨'u', _, isEscape_hex ?_ (by omega) (.inr (.inl ⟨rfl, rfl, hscalar⟩))⟩
            simp [escapePiece, escapeChar, hquote, hslash, hprint, hcontrol, hbyte, hshort]
          · have hvalid : c.toNat < 0x110000 := by
              have hchar : c.toNat.isValidChar := c.valid
              rw [Nat.isValidChar] at hchar
              omega
            refine ⟨'U', _, isEscape_hex ?_ (by omega) (.inr (.inr ⟨rfl, rfl, hscalar⟩))⟩
            simp [escapePiece, escapeChar, hquote, hslash, hprint, hcontrol, hbyte, hshort]

/-- A stray byte is written as an escape. -/
theorem isEscape_byte (b : UInt8) : IsEscape (.byte b) 'x' (hexDigits 2 b.toNat) :=
  isEscape_hex rfl b.toNat_lt (.inl ⟨rfl, rfl, by simp [Piece.bytes]⟩)

/-- A piece is a character that stands for itself or is written as an escape. -/
theorem escapePiece_cases (p : Piece) :
    (∃ c, p = .char c ∧ escapePiece p = [c] ∧ c ≠ '"' ∧ c ≠ '\\' ∧ isPrintable c = true) ∨
      ∃ letter digits, IsEscape p letter digits := by
  cases p with
  | char c => exact (escapeChar_cases c).imp_left fun h => ⟨c, rfl, h⟩
  | byte b => exact .inr ⟨'x', _, isEscape_byte b⟩

/-! ## Reading back -/

theorem isPrintable_ne_break {c : Char} (h : isPrintable c = true) : c ≠ '\n' := by
  rintro rfl
  revert h
  decide +kernel

theorem readQuotedBody?_escapes (ps : List Piece) {fuel : Nat}
    (hfuel : (ps.flatMap escapePiece).length < fuel) :
    readQuotedBody? fuel (ps.flatMap escapePiece ++ ['"']) = some (ps.flatMap Piece.bytes) := by
  induction ps generalizing fuel with
  | nil =>
    obtain ⟨fuel, rfl⟩ : ∃ k, fuel = k + 1 := ⟨fuel - 1, by simp at hfuel; omega⟩
    rfl
  | cons p ps ih =>
    rw [List.flatMap_cons, List.length_append] at hfuel
    obtain ⟨fuel, rfl⟩ : ∃ k, fuel = k + 1 := ⟨fuel - 1, by omega⟩
    rcases escapePiece_cases p with ⟨c, rfl, htext, hquote, hslash, hprint⟩ | ⟨letter, digits, h⟩
    · have hbreak := isPrintable_ne_break hprint
      rw [htext, List.length_singleton] at hfuel
      have hmore : readQuotedBody? fuel _ = _ := ih (by omega)
      rw [List.flatMap_cons, htext, List.flatMap_cons]
      simp only [List.cons_append, List.nil_append]
      unfold readQuotedBody?
      split <;> simp_all [Piece.bytes]
    · rw [h.text, List.length_cons] at hfuel
      have hmore : readQuotedBody? fuel _ = _ := ih (by omega)
      rw [List.flatMap_cons, h.text, List.flatMap_cons, List.append_assoc]
      simp [readQuotedBody?, h.read, hmore]

/-- Quoted text is read back. -/
theorem unquote?_quote (s : ByteText) : unquote? (quote s) = some s := by
  have hfuel : (s.pieces.flatMap escapePiece).length <
      (s.pieces.flatMap escapePiece ++ ['"']).length + 1 := by
    rw [List.length_append]
    omega
  simp only [unquote?, quote, String.toList_ofList, readQuotedBody?_escapes s.pieces hfuel,
    Option.map_some, s.flatMap_bytes_pieces, s.ofBytes_bytes]

/-! ## Cutting quoted text off -/

theorem hexDigit_ne :
    ∀ v < 16, hexDigit v ≠ '"' ∧ hexDigit v ≠ '\\' ∧ hexDigit v ≠ '\n' ∧
      (hexDigit v).toNat ≠ 0 := by
  decide

namespace TypeSource

theorem takeString_plain {c : Char} (hquote : c ≠ '"') (hslash : c ≠ '\\') (hbreak : c ≠ '\n')
    (cs : List Char) :
    takeString false (c :: cs) =
      (c :: (takeString false cs).1, (takeString false cs).2.1, (takeString false cs).2.2) := by
  simp [takeString, hquote, hbreak, beq_eq_false_iff_ne.2 hslash]

theorem takeString_append {ds : List Char} (hds : ∀ d ∈ ds, ∃ v < 16, d = hexDigit v)
    (cs : List Char) :
    takeString false (ds ++ cs) =
      (ds ++ (takeString false cs).1, (takeString false cs).2.1, (takeString false cs).2.2) := by
  induction ds with
  | nil => rfl
  | cons d ds ih =>
    obtain ⟨v, hv, rfl⟩ := hds d List.mem_cons_self
    obtain ⟨hquote, hslash, hbreak, -⟩ := hexDigit_ne v hv
    rw [List.cons_append, takeString_plain hquote hslash hbreak,
      ih fun d hd => hds d (List.mem_cons_of_mem _ hd)]
    rfl

/-- The text up to the closing quote is cut off. -/
theorem takeString_escapes (ps : List Piece) (rest : List Char) :
    takeString false (ps.flatMap escapePiece ++ '"' :: rest) =
      (ps.flatMap escapePiece ++ ['"'], true, rest) := by
  induction ps with
  | nil => rfl
  | cons p ps ih =>
    rcases escapePiece_cases p with ⟨c, -, htext, hquote, hslash, hprint⟩ | ⟨letter, digits, h⟩
    · rw [List.flatMap_cons, htext, List.append_assoc, List.cons_append, List.nil_append,
        takeString_plain hquote hslash (isPrintable_ne_break hprint), ih]
      rfl
    · have hletter := h.letter_ne.1
      rw [List.flatMap_cons, h.text, List.append_assoc]
      simp [takeString, hletter, takeString_append h.hexadecimal, ih]

theorem escapesOk_append {ds : List Char} (hds : ∀ d ∈ ds, ∃ v < 16, d = hexDigit v)
    (cs : List Char) :
    escapesOk false (ds ++ cs) = escapesOk false cs := by
  induction ds with
  | nil => rfl
  | cons d ds ih =>
    obtain ⟨v, hv, rfl⟩ := hds d List.mem_cons_self
    obtain ⟨-, hslash, -⟩ := hexDigit_ne v hv
    rw [List.cons_append, escapesOk, beq_eq_false_iff_ne.2 hslash]
    exact ih fun d hd => hds d (List.mem_cons_of_mem _ hd)

theorem escapesOk_escapes (ps : List Piece) :
    escapesOk false (ps.flatMap escapePiece ++ ['"']) = true := by
  induction ps with
  | nil => rfl
  | cons p ps ih =>
    rcases escapePiece_cases p with ⟨c, -, htext, -, hslash, -⟩ | ⟨letter, digits, h⟩
    · simp [htext, escapesOk, beq_eq_false_iff_ne.2 hslash, ih]
    · rw [List.flatMap_cons, h.text, List.append_assoc]
      simp [escapesOk, h.known, escapesOk_append h.hexadecimal, ih]

theorem toNat_ne_zero_of_mem_escapes {ps : List Piece} {d : Char}
    (h : d ∈ ps.flatMap escapePiece) : d.toNat ≠ 0 := by
  obtain ⟨p, -, hd⟩ := List.mem_flatMap.1 h
  rcases escapePiece_cases p with ⟨c, -, htext, -, -, hprint⟩ | ⟨letter, digits, hescape⟩
  · obtain rfl : d = c := by simpa [htext] using hd
    intro hzero
    obtain rfl : d = '\x00' := Char.toNat_inj.1 hzero
    revert hprint
    decide +kernel
  · rw [hescape.text, List.mem_cons, List.mem_cons] at hd
    rcases hd with rfl | rfl | hd
    · decide
    · exact hescape.letter_ne.2
    · obtain ⟨v, hv, rfl⟩ := hescape.hexadecimal d hd
      exact (hexDigit_ne v hv).2.2.2

/-- Quoted text is one token, and it is well formed. -/
theorem takeToken_quote (s : ByteText) (rest : List Char) :
    ∃ cs, (quote s).toList = '"' :: cs ∧
      takeToken '"' (cs ++ rest) = (.quoted (quote s) none, rest) := by
  refine ⟨s.pieces.flatMap escapePiece ++ ['"'], by rw [quote, String.toList_ofList], ?_⟩
  have hnul : (s.pieces.flatMap escapePiece ++ ['"']).any (·.toNat == 0) = false := by
    simp only [List.any_eq_false, List.mem_append, List.mem_singleton, beq_iff_eq]
    rintro d (hd | rfl)
    · exact toNat_ne_zero_of_mem_escapes hd
    · decide
  rw [List.append_assoc, List.cons_append, List.nil_append, takeToken, if_neg (by decide),
    if_neg (by simp), if_pos (by decide)]
  simp only [takeString_escapes, escapesOk_escapes, stringToken, hnul]
  rfl

end TypeSource

end StructuralTyping
