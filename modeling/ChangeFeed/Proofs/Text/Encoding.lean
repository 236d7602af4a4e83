import ChangeFeed.Proofs.Json.Quoted
/-!
# Encoding — a text as bytes, and back

What is written as UTF-8 is read as itself, and nothing else is read. A control
character is one byte, below the space like its code, and no other character
has such a byte: so a text can be cut at control characters before or after it
is encoded.
-/


namespace ChangeFeed

variable {c : Char} {b : UInt8} {t : Text}

@[simp] theorem Text.bytes_append (s t : Text) : Text.bytes (s ++ t) = s.bytes ++ t.bytes := by
  simp [bytes]

/-- **What is written as UTF-8 is read as itself.** -/
theorem Bytes.text?_bytes (t : Text) : t.bytes.text? = some t := by
  have harray : ByteArray.mk t.bytes.toArray = t.utf8Encode := by
    rw [List.utf8Encode, ← List.data_toByteArray]
    rfl
  rw [Bytes.text?, harray, List.utf8Decode?_utf8Encode, Option.map_some]

/-- **Bytes are the UTF-8 of one text at most.** -/
theorem Bytes.text?_eq_some_iff {bytes : Bytes} : bytes.text? = some t ↔ t.bytes = bytes := by
  constructor
  · intro h
    obtain ⟨chars, hdecode, rfl⟩ := Option.map_eq_some_iff.1 h
    have hback := ByteArray.utf8Encode_get_utf8Decode? (h := Option.isSome_of_eq_some hdecode)
    simp only [hdecode, Option.get_some] at hback
    have hbytes : chars.toList.utf8Encode = ByteArray.mk (Text.bytes chars.toList).toArray := by
      rw [List.utf8Encode, ← List.data_toByteArray]
      rfl
    rw [hbytes] at hback
    simpa using congrArg (·.data.toList) hback
  · rintro rfl
    exact Bytes.text?_bytes t

/-- A character of ASCII is one byte. -/
theorem Text.size_eq_length (h : ∀ c ∈ t, c.toNat < 128) : t.size = t.length := by
  induction t with
  | nil => rfl
  | cons c t ih =>
    obtain ⟨hc, ht⟩ := List.forall_mem_cons.1 h
    have hone : c.utf8Size = 1 :=
      Char.utf8Size_eq_one_iff.2 (UInt32.le_iff_toNat_le.2 (Nat.le_of_lt_succ hc))
    have hsize : Text.size (c :: t) = c.utf8Size + Text.size t := rfl
    rw [hsize, hone, ih ht, List.length_cons, Nat.add_comm]

/-! ## Control characters -/

/-- A control character is the byte of its code. -/
theorem utf8EncodeChar_of_control (h : c.toNat < 0x20) :
    String.utf8EncodeChar c = [UInt8.ofNat c.toNat] := by
  have hsmall : c.val.toNat ≤ 0x7f := by
    have hval : c.val.toNat = c.toNat := rfl
    omega
  simp only [String.utf8EncodeChar]
  rw [if_pos hsmall]
  rfl

/-- The bytes of any other character are no control characters. -/
theorem le_of_mem_utf8EncodeChar (hc : 0x20 ≤ c.toNat) (hb : b ∈ String.utf8EncodeChar c) :
    0x20 ≤ b.toNat := by
  have hval : c.val.toNat = c.toNat := rfl
  -- the bytes of a longer encoding all have the highest bit
  have hhigh : ∀ n m, 0x80 ≤ m → n + m < 0x100 → b = UInt8.ofNat (n + m) → 0x20 ≤ b.toNat := by
    rintro n m hm hsum rfl
    rw [UInt8.toNat_ofNat']
    omega
  simp only [String.utf8EncodeChar] at hb
  split at hb
  · rw [List.mem_singleton.1 hb, UInt8.toNat_ofNat']
    omega
  split at hb
  · simp only [List.mem_cons, List.not_mem_nil, or_false] at hb
    rcases hb with h | h <;> exact hhigh _ _ (by omega) (by omega) h
  split at hb
  · simp only [List.mem_cons, List.not_mem_nil, or_false] at hb
    rcases hb with h | h | h <;> exact hhigh _ _ (by omega) (by omega) h
  · simp only [List.mem_cons, List.not_mem_nil, or_false] at hb
    rcases hb with h | h | h | h <;> exact hhigh _ _ (by omega) (by omega) h

/-- **The bytes of a plain text** are no control characters either. -/
theorem Text.IsPlain.le_of_mem_bytes (h : t.IsPlain) (hb : b ∈ t.bytes) : 0x20 ≤ b.toNat := by
  obtain ⟨c, hc, hbyte⟩ := List.mem_flatMap.1 hb
  exact le_of_mem_utf8EncodeChar (h c hc) hbyte

/-- A text has a control character exactly if its bytes have one. -/
theorem Text.exists_byte_of_control (hc : c ∈ t) (h : c.toNat < 0x20) :
    ∃ b ∈ t.bytes, b.toNat < 0x20 := by
  refine ⟨UInt8.ofNat c.toNat, List.mem_flatMap.2 ⟨c, hc, ?_⟩, ?_⟩
  · rw [utf8EncodeChar_of_control h]
    exact List.mem_singleton_self _
  · rw [UInt8.toNat_ofNat']
    omega

/-- The byte of a control character stands for that character only. -/
theorem eq_of_mem_utf8EncodeChar {d : Char} (h : c.toNat < 0x20)
    (hmem : UInt8.ofNat c.toNat ∈ String.utf8EncodeChar d) : d = c := by
  have hbyte : (UInt8.ofNat c.toNat).toNat = c.toNat := by
    rw [UInt8.toNat_ofNat']
    omega
  rcases Nat.lt_or_ge d.toNat 0x20 with hd | hd
  · rw [utf8EncodeChar_of_control hd, List.mem_singleton] at hmem
    have hnat := congrArg UInt8.toNat hmem
    rw [hbyte, UInt8.toNat_ofNat'] at hnat
    have heq : d.toNat = c.toNat := by omega
    exact Char.toNat_inj.1 heq
  · have hle := le_of_mem_utf8EncodeChar hd hmem
    omega

/-- **A control character at the end** is read after the rest, and spoils
nothing that is UTF-8 without it. -/
theorem Bytes.text?_append_control (h : c.toNat < 0x20) (bytes : Bytes) :
    (bytes ++ [UInt8.ofNat c.toNat]).text? = bytes.text?.map (· ++ [c]) := by
  have hc : Text.bytes [c] = [UInt8.ofNat c.toNat] := by
    rw [Text.bytes, List.flatMap_singleton, utf8EncodeChar_of_control h]
  cases htext : bytes.text? with
  | some t =>
    have hbytes := Bytes.text?_eq_some_iff.1 htext
    rw [Option.map_some, Bytes.text?_eq_some_iff, Text.bytes_append, hbytes, hc]
  | none =>
    rw [Option.map_none, Option.eq_none_iff_forall_ne_some]
    intro whole hwhole
    have hbytes := Bytes.text?_eq_some_iff.1 hwhole
    -- the last byte belongs to the last character, which is that control character
    rcases List.eq_nil_or_concat whole with rfl | ⟨front, last, rfl⟩
    · simp [Text.bytes] at hbytes
    · rw [List.concat_eq_append] at hbytes
      have hlast : Text.bytes [last] = String.utf8EncodeChar last := List.flatMap_singleton _ _
      have hmem : UInt8.ofNat c.toNat ∈ String.utf8EncodeChar last := by
        have hend := congrArg List.getLast? hbytes
        have hsome := mt List.getLast?_eq_none_iff.1 (String.utf8EncodeChar_ne_nil (c := last))
        obtain ⟨b, hb⟩ := Option.ne_none_iff_exists'.1 hsome
        rw [Text.bytes_append, hlast, List.getLast?_append, hb, List.getLast?_concat] at hend
        cases hend
        exact List.mem_of_getLast? hb
      obtain rfl := eq_of_mem_utf8EncodeChar h hmem
      rw [Text.bytes_append, hc] at hbytes
      have hfront : bytes.text? = some front :=
        Bytes.text?_eq_some_iff.2 (List.append_cancel_right hbytes)
      rw [htext] at hfront
      cases hfront

end ChangeFeed
