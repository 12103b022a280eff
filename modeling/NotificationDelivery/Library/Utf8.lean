import Mathlib.Data.List.Basic

/-!
# Valid UTF-8 in byte strings

A byte string is valid if it encodes some characters. Validity splits in front of every byte
that can begin a character (`valid_append_cons`), so putting text around a byte string, or
replacing some of its ASCII bytes by text, changes nothing (`valid_between`, `valid_escape`).
-/

namespace Utf8

/-- The bytes of some characters. -/
def encode (chars : List Char) : List UInt8 := chars.flatMap String.utf8EncodeChar

/-- The byte string encodes some characters. -/
def Valid (bytes : List UInt8) : Prop := ∃ chars, bytes = encode chars

/-- The byte stands for an ASCII character. -/
def Ascii (byte : UInt8) : Prop := byte.toNat ≤ 0x7f

variable {bytes front back : List UInt8} {byte : UInt8}

theorem valid_nil : Valid [] := ⟨[], rfl⟩

theorem Valid.append (hfront : Valid front) (hback : Valid back) : Valid (front ++ back) := by
  obtain ⟨chars, rfl⟩ := hfront
  obtain ⟨chars', rfl⟩ := hback
  exact ⟨chars ++ chars', by simp [encode]⟩

/-- The bytes of a string. -/
theorem valid_text (text : String) : Valid text.toUTF8.data.toList := by
  obtain ⟨chars, hchars⟩ := text.isValidUTF8
  refine ⟨chars, ?_⟩
  show text.toByteArray.data.toList = _
  rw [hchars]
  simp [encode, List.utf8Encode, List.data_toByteArray]

/-- The runtime check decides validity. -/
theorem isSome_from_utf8 : (String.fromUTF8? ⟨bytes.toArray⟩).isSome ↔ Valid bytes := by
  have hvalid : ByteArray.IsValidUTF8 ⟨bytes.toArray⟩ ↔ Valid bytes := by
    constructor
    · intro h
      obtain ⟨chars, hchars⟩ := h
      refine ⟨chars, ?_⟩
      have hlist := congrArg (fun b => b.data.toList) hchars
      simpa [encode, List.utf8Encode, List.data_toByteArray] using hlist
    · intro h
      obtain ⟨chars, rfl⟩ := h
      refine ⟨chars, ?_⟩
      simp [encode, List.utf8Encode, ByteArray.ext_iff, List.data_toByteArray]
  rw [← hvalid]
  unfold String.fromUTF8?
  split <;> simp_all

/-- Only the first byte of a character can begin one. -/
theorem eq_nil_of_first_byte {c : Char} (h : String.utf8EncodeChar c = front ++ byte :: back)
    (hbyte : byte.IsUTF8FirstByte) : front = [] := by
  have hlt : front.length < (String.utf8EncodeChar c).length := by simp [h]
  have hget : (String.utf8EncodeChar c)[front.length] = byte := by simp [h]
  have hzero := (@UInt8.isUTF8FirstByte_getElem_utf8EncodeChar _ _ hlt).mp (hget ▸ hbyte)
  exact List.length_eq_zero_iff.mp hzero

/-- A valid byte string begins with the first byte of a character. -/
theorem Valid.first_byte (h : Valid (byte :: back)) : byte.IsUTF8FirstByte := by
  obtain ⟨chars, hchars⟩ := h
  cases chars with
  | nil => simp [encode] at hchars
  | cons c rest =>
      have hsplit : byte :: back = String.utf8EncodeChar c ++ encode rest := hchars
      cases hc : String.utf8EncodeChar c with
      | nil => exact absurd hc String.utf8EncodeChar_ne_nil
      | cons first others =>
          rw [hc] at hsplit
          obtain ⟨rfl, -⟩ := List.cons.inj hsplit
          have hlt : 0 < (String.utf8EncodeChar c).length := by simp [hc]
          have hget := (@UInt8.isUTF8FirstByte_getElem_utf8EncodeChar c 0 hlt).mpr rfl
          simpa [hc] using hget

/-- A valid byte string splits in front of every byte that can begin a character. -/
theorem valid_append_cons (hbyte : byte.IsUTF8FirstByte) :
    Valid (front ++ byte :: back) ↔ Valid front ∧ Valid (byte :: back) := by
  constructor
  · intro h
    obtain ⟨chars, hchars⟩ := h
    induction chars generalizing front with
    | nil => simp [encode] at hchars
    | cons c rest ih =>
        have hsplit : front ++ byte :: back = String.utf8EncodeChar c ++ encode rest := hchars
        rcases List.append_eq_append_iff.mp hsplit with ⟨middle, hc, hrest⟩ |
            ⟨middle, hfront, hrest⟩
        · cases middle with
          | nil =>
              -- the character ends where the byte stands
              refine ⟨⟨[c], by simpa [encode] using hc.symm⟩, ⟨rest, by simpa using hrest⟩⟩
          | cons first middle =>
              obtain ⟨rfl, -⟩ : byte = first ∧ _ := by simpa using hrest
              obtain rfl := eq_nil_of_first_byte hc hbyte
              exact ⟨valid_nil, ⟨c :: rest, hsplit⟩⟩
        · obtain ⟨⟨chars', hmiddle⟩, hback⟩ := ih hrest.symm
          exact ⟨⟨c :: chars', by simp [encode, hfront, hmiddle]⟩, hback⟩
  · intro h
    obtain ⟨hfront, hback⟩ := h
    exact hfront.append hback

/-- An ASCII byte is a character of its own. -/
theorem Ascii.encode_singleton (h : Ascii byte) :
    ∃ c, String.utf8EncodeChar c = [byte] := by
  refine ⟨Char.ofNat byte.toNat, ?_⟩
  have hvalid : Nat.isValidChar byte.toNat := Or.inl (Nat.lt_of_le_of_lt h (by decide))
  have hval : (Char.ofNat byte.toNat).val.toNat = byte.toNat := by
    rw [Char.ofNat, dif_pos hvalid]
    rfl
  have hle : ¬ 0x7f < byte.toNat := Nat.not_lt.mpr h
  simp [String.utf8EncodeChar, hval, hle]

theorem Ascii.first_byte (h : Ascii byte) : byte.IsUTF8FirstByte := by
  obtain ⟨c, hc⟩ := h.encode_singleton
  have hvalid : Valid [byte] := ⟨[c], by simp [encode, hc]⟩
  exact hvalid.first_byte

/-- A character whose first byte is ASCII has no other byte. -/
theorem Ascii.eq_nil {c : Char} (h : Ascii byte) (hc : String.utf8EncodeChar c = byte :: back) :
    back = [] := by
  unfold Ascii at h
  simp only [String.utf8EncodeChar] at hc
  -- the first byte of a longer character is above the ASCII range
  split at hc
  · exact (List.cons.inj hc).2.symm
  · have hhead : ∃ v : Nat, 0x7f < v % 256 ∧ UInt8.ofNat v = byte := by
      split at hc
      · exact ⟨_, by omega, (List.cons.inj hc).1⟩
      · split at hc
        · exact ⟨_, by omega, (List.cons.inj hc).1⟩
        · exact ⟨_, by omega, (List.cons.inj hc).1⟩
    obtain ⟨v, hlarge, rfl⟩ := hhead
    rw [UInt8.toNat_ofNat'] at h
    omega

/-- An ASCII byte in front changes nothing. -/
theorem valid_ascii_cons (h : Ascii byte) : Valid (byte :: back) ↔ Valid back := by
  constructor
  · intro h
    obtain ⟨chars, hchars⟩ := h
    cases chars with
    | nil => simp [encode] at hchars
    | cons c rest =>
        have hsplit : byte :: back = String.utf8EncodeChar c ++ encode rest := hchars
        cases hc : String.utf8EncodeChar c with
        | nil => exact absurd hc String.utf8EncodeChar_ne_nil
        | cons first others =>
            rw [hc] at hsplit
            obtain ⟨rfl, hback⟩ := List.cons.inj hsplit
            obtain rfl := h.eq_nil hc
            exact ⟨rest, by simpa using hback⟩
  · intro hback
    obtain ⟨c, hc⟩ := h.encode_singleton
    have hvalid : Valid [byte] := ⟨[c], by simp [encode, hc]⟩
    exact hvalid.append hback

/-- A non-empty ASCII text separates what stands before it from what stands after it. -/
theorem valid_between {text : List UInt8} (hne : text ≠ []) (htext : ∀ byte ∈ text, Ascii byte) :
    Valid (front ++ (text ++ back)) ↔ Valid front ∧ Valid back := by
  cases text with
  | nil => exact absurd rfl hne
  | cons first rest =>
      have hfirst : Ascii first := htext first (by simp)
      have hrest : Valid (rest ++ back) ↔ Valid back := by
        have hall : ∀ byte ∈ rest, Ascii byte := fun byte hbyte => htext byte (by simp [hbyte])
        clear htext hne
        induction rest with
        | nil => rfl
        | cons next rest ih =>
            rw [List.cons_append, valid_ascii_cons (hall next (by simp))]
            exact ih fun byte hbyte => hall byte (by simp [hbyte])
      rw [List.cons_append, valid_append_cons hfirst.first_byte, valid_ascii_cons hfirst, hrest]

/-- Replacing ASCII bytes by non-empty ASCII texts changes nothing. -/
theorem valid_escape {escape : UInt8 → List UInt8}
    (hescape : ∀ byte, escape byte = [byte] ∨
      Ascii byte ∧ escape byte ≠ [] ∧ ∀ other ∈ escape byte, Ascii other) :
    Valid (bytes.flatMap escape) ↔ Valid bytes := by
  have hgeneral : ∀ front, Valid (front ++ bytes.flatMap escape) ↔ Valid (front ++ bytes) := by
    induction bytes with
    | nil => simp
    | cons byte rest ih =>
        intro front
        rcases hescape byte with hkept | ⟨hascii, hne, htext⟩
        · simpa [hkept] using ih (front ++ [byte])
        · rw [List.flatMap_cons, valid_between hne htext, valid_append_cons hascii.first_byte,
            valid_ascii_cons hascii]
          simpa using fun _ => ih []
  simpa using hgeneral []

end Utf8
