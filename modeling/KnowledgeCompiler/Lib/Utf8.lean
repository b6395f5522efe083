namespace KnowledgeCompiler.Lib.Utf8

def encode (text : List Char) : ByteArray := (String.ofList text).toByteArray

-- Strict decoding, as `Path.read_text(encoding="utf-8")` does it.
def decode (bytes : ByteArray) : Option (List Char) := (String.fromUTF8? bytes).map String.toList

theorem isValidUTF8_encode (text : List Char) : (encode text).IsValidUTF8 :=
  (String.ofList text).isValidUTF8

theorem encode_append (first second : List Char) :
    encode (first ++ second) = encode first ++ encode second := by
  rw [encode, String.ofList_append, String.toByteArray_append]
  rfl

@[simp] theorem decode_encode (text : List Char) : decode (encode text) = some text := by
  have hstring : String.fromUTF8 (encode text) (isValidUTF8_encode text) = String.ofList text := by
    rw [← String.toByteArray_inj]
    rfl
  rw [decode, String.fromUTF8?, dif_pos (isValidUTF8_encode text), Option.map_some, hstring,
    String.toList_ofList]

theorem decode_eq_none {bytes : ByteArray} (hbytes : ¬bytes.IsValidUTF8) : decode bytes = none := by
  rw [decode, String.fromUTF8?, dif_neg hbytes, Option.map_none]

theorem encode_of_decode {bytes : ByteArray} {text : List Char} (htext : decode bytes = some text) :
    encode text = bytes := by
  rw [decode, String.fromUTF8?] at htext
  split at htext
  · cases htext
    rw [encode, String.ofList_toList]
    rfl
  · cases htext

theorem encode_injective {first second : List Char} (h : encode first = encode second) :
    first = second := by
  have := congrArg decode h
  simpa using this

theorem encode_eq_empty {text : List Char} (hsize : (encode text).size = 0) : text = [] :=
  encode_injective (ByteArray.size_eq_zero_iff.mp hsize)

theorem encode_char {c : Char} (hc : c.toNat < 0x80) :
    (encode [c]).data.toList = [UInt8.ofNat c.toNat] := by
  have hbyte : String.utf8EncodeChar c = [UInt8.ofNat c.toNat] := by
    have hle : c.val.toNat ≤ 127 := Nat.le_of_lt_succ hc
    simp only [String.utf8EncodeChar, if_pos hle]
    rfl
  rw [encode, String.toByteArray_ofList, List.utf8Encode_singleton, hbyte]
  rfl

theorem encode_ascii {text : List Char} (htext : ∀ c ∈ text, c.toNat < 0x80) :
    (encode text).data.toList = text.map (fun c => UInt8.ofNat c.toNat) := by
  induction text with
  | nil => rfl
  | cons c rest ih =>
      have hrest := ih (fun d hd => htext d (List.mem_cons_of_mem c hd))
      have hsplit : encode (c :: rest) = encode [c] ++ encode rest := encode_append [c] rest
      rw [hsplit, ByteArray.data_append, Array.toList_append, hrest,
        encode_char (htext c List.mem_cons_self)]
      rfl

theorem extract_of_append (kept lost : List Char) :
    (encode (kept ++ lost)).extract 0 (encode kept).size = encode kept := by
  rw [encode_append]
  exact ByteArray.extract_append_eq_left rfl

-- What stands before a whole text is whole.
theorem isValidUTF8_of_append {bytes : ByteArray} {after : List Char}
    (hvalid : (bytes ++ encode after).IsValidUTF8) : bytes.IsValidUTF8 := by
  let whole : String := ⟨bytes ++ encode after, hvalid⟩
  have hsize : whole.utf8ByteSize = bytes.size + (encode after).size := ByteArray.size_append
  have hend : whole.toByteArray.extract bytes.size whole.utf8ByteSize = encode after := by
    rw [hsize]
    exact ByteArray.extract_append_eq_right rfl rfl
  have hposition : String.Pos.Raw.IsValid whole ⟨bytes.size⟩ := by
    rw [String.Pos.Raw.isValid_iff_isValidUTF8_extract_utf8ByteSize, hend]
    refine ⟨?_, isValidUTF8_encode after⟩
    rw [String.Pos.Raw.le_iff, String.byteIdx_rawEndPos, hsize]
    exact Nat.le_add_right _ _
  have hstart : whole.toByteArray.extract 0 bytes.size = bytes := ByteArray.extract_append_eq_left rfl
  exact hstart ▸ hposition.isValidUTF8_extract_zero

-- The byte at which the text is cut lies inside one of its characters.
def MidCharacter (text : List Char) (cut : Nat) : Prop :=
  ∀ kept lost, text = kept ++ lost → (encode kept).size ≠ cut

theorem midCharacter_between {before after : List Char} {c : Char} {cut : Nat}
    (hstart : (encode before).size < cut) (hend : cut < (encode (before ++ [c])).size) :
    MidCharacter (before ++ c :: after) cut := by
  intro kept lost hsplit hsize
  rcases List.append_eq_append_iff.mp hsplit with ⟨more, rfl, hmore⟩ | ⟨more, rfl, -⟩
  · cases more with
    | nil =>
        rw [List.append_nil] at hsize
        omega
    | cons d rest =>
        obtain rfl : c = d := (List.cons.inj hmore).1
        have hlong : before ++ c :: rest = before ++ [c] ++ rest := by simp
        rw [hlong, encode_append, ByteArray.size_append] at hsize
        omega
  · rw [encode_append, ByteArray.size_append] at hstart
    omega

-- Nothing before or after the cut makes the bytes a text again.
theorem decode_midCharacter {text : List Char} {cut : Nat} (hcut : cut ≤ (encode text).size)
    (hmid : MidCharacter text cut) (before after : List Char) :
    decode (encode before ++ (encode text).extract 0 cut ++ encode after) = none := by
  refine decode_eq_none (fun hvalid => ?_)
  obtain ⟨read, hread⟩ := isValidUTF8_of_append hvalid
  have hread : encode read = encode before ++ (encode text).extract 0 cut := hread.symm
  have hwhole : encode read ++ (encode text).extract cut (encode text).size =
      encode (before ++ text) := by
    rw [hread, encode_append, ByteArray.append_assoc,
      ← ByteArray.extract_eq_extract_append_extract cut (Nat.zero_le _) hcut,
      ByteArray.extract_zero_size]
  obtain ⟨lost, hlost⟩ := List.isPrefix_of_utf8Encode_append_eq_utf8Encode _ hwhole
  obtain ⟨kept, hkept⟩ := List.isPrefix_of_utf8Encode_append_eq_utf8Encode _ hread.symm
  rw [← hkept, List.append_assoc] at hlost
  refine hmid kept lost (List.append_cancel_left hlost).symm ?_
  rw [← hkept, encode_append] at hread
  have hsize := congrArg ByteArray.size hread
  simp only [ByteArray.size_append, ByteArray.size_extract] at hsize
  omega

theorem decode_of_isValidUTF8 {bytes : ByteArray} (hvalid : bytes.IsValidUTF8) :
    ∃ text, decode bytes = some text ∧ encode text = bytes := by
  obtain ⟨text, rfl⟩ := hvalid
  exact ⟨text, decode_encode text, rfl⟩

-- A line end is a character of its own wherever it stands.
theorem decode_line {bytes more : ByteArray} {text : List Char}
    (htext : decode (bytes ++ encode ['\n'] ++ more) = some text) :
    ∃ line rest, decode bytes = some line ∧ decode more = some rest ∧
      text = line ++ '\n' :: rest := by
  have hencoded := encode_of_decode htext
  have hnewline : (encode ['\n']).size = 1 := by decide
  have hchar : ∀ h : 0 < (encode ['\n']).size, (encode ['\n']).get 0 h = 10 := by decide
  have hposition : String.Pos.Raw.IsValid (String.ofList text) ⟨bytes.size⟩ := by
    rw [String.Pos.Raw.isValid_iff_isUTF8FirstByte]
    refine .inr ?_
    have hlt : bytes.size < (encode text).size := by
      rw [hencoded, ByteArray.size_append, ByteArray.size_append, hnewline]
      omega
    refine ⟨hlt, ?_⟩
    have hbyte : (encode text).get bytes.size hlt = 10 := by
      change (encode text)[bytes.size] = 10
      simp only [hencoded]
      rw [ByteArray.getElem_append_left (by rw [ByteArray.size_append, hnewline]; omega),
        ByteArray.getElem_append_right (Nat.le_refl _)]
      simp only [Nat.sub_self]
      exact hchar _
    change ((encode text).get bytes.size hlt).IsUTF8FirstByte
    rw [hbyte]
    decide
  have hvalid : bytes.IsValidUTF8 := by
    have hextract := hposition.isValidUTF8_extract_zero
    have hstart : (encode text).extract 0 bytes.size = bytes := by
      rw [hencoded, ByteArray.append_assoc]
      exact ByteArray.extract_append_eq_left rfl
    exact hstart ▸ hextract
  obtain ⟨line, hline, hbytes⟩ := decode_of_isValidUTF8 hvalid
  rw [← hbytes, ← encode_append] at hencoded
  obtain ⟨rest, hrest⟩ := List.isPrefix_of_utf8Encode_append_eq_utf8Encode _ hencoded.symm
  refine ⟨line, rest, hline, ?_, by rw [← hrest]; simp⟩
  rw [← hrest, encode_append, ByteArray.append_right_inj] at hencoded
  rw [← hencoded, decode_encode]

end KnowledgeCompiler.Lib.Utf8
